import Ariel.Json.Record
import Ariel.Text.Numeral

/-!
# Settings of the service

Where the HTTP service listens, which origins may use it, and how long a request may take.
-/

namespace Ariel

open Json Text

/-- The settings of the HTTP service. -/
structure ApiSettings where
  host : String := "0.0.0.0"
  port : UInt16 := 8085
  corsOrigins : List String := []
  requestTimeout : UInt64 := 30
  deriving DecidableEq, Repr

namespace ApiSettings

/-- The address that the service listens on. -/
def address (settings : ApiSettings) : String :=
  settings.host ++ ":" ++ decimal settings.port.toNat

/-- A port number. -/
def port? (value : Json) : Option UInt16 :=
  (natBelow? UInt16.size value).map UInt16.ofNat

/-- Settings as a record. -/
def toJson (settings : ApiSettings) : Json :=
  .object [("host", .string settings.host), ("port", .nat settings.port.toNat),
    ("cors_origins", .strings settings.corsOrigins),
    ("request_timeout_secs", .nat settings.requestTimeout.toNat)]

/-- Read settings from their record. -/
def ofJson? (value : Json) : Option ApiSettings := do
  match ← record? ["host", "port", "cors_origins", "request_timeout_secs"] value with
  | [host, port, origins, timeout] =>
      let standard : ApiSettings := {}
      some {
        host := ← orDefault standard.host text? host
        port := ← orDefault standard.port port? port
        corsOrigins := ← orDefault [] texts? origins
        requestTimeout := ← orDefault standard.requestTimeout
          (fun value => (natBelow? UInt64.size value).map UInt64.ofNat) timeout }
  | _ => none

end ApiSettings

end Ariel
