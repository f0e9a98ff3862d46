import Ariel.Json.Value
import Ariel.Text.Ascii
import Ariel.Text.Joined
import Ariel.Text.Utf8

/-!
# HTTP requests and responses

What the service is sent and what it answers, as far as its answers depend on it: paths and query
strings with their encodings, media types, and origins.
-/

namespace Ariel.Service

open Ariel.Text

/-- A request. A body comes with the type of its content, when the sender names one. -/
structure Request where
  method : String := "GET"
  target : String
  contentType : Option String := none
  origin : Option String := none
  body : String := ""
  deriving DecidableEq, Repr

/-- The content of a response. -/
inductive Content where
  | empty
  | json (value : Json)
  | html (text : String)
  deriving Repr

/-- A response: a status, a content, and the origin that may read it. -/
structure Response where
  status : Nat
  content : Content := .empty
  allowOrigin : Option String := none
  deriving Repr

/-- The path of a target, and its query string, which is empty when there is none. -/
def splitTarget (target : String) : List Char × List Char :=
  let cs := target.toList.takeWhile (· != '#')
  (cutAt? '?' cs).getD (cs, [])

/-- The parts of a path between slashes. A path begins with a slash. -/
def segments : List Char → List (List Char)
  | '/' :: cs => splitAt '/' cs
  | _ => []

/-- The text of a path segment, unless its decoded bytes are no text. -/
def decodedSegment? (segment : List Char) : Option String :=
  textOfBytes? (percentDecoded (bytesOf (String.ofList segment)))

/-- The text of a name or value in a query string, where a plus sign is a space. -/
def decodedComponent (component : List Char) : String :=
  lossyText (percentDecoded (bytesOf
    (String.ofList (component.map fun c => if c = '+' then ' ' else c))))

/-- The names and values of a query string. A part without an equals sign has an empty value. -/
def queryPairs (query : List Char) : List (String × String) :=
  (splitAt '&' query).filterMap fun part =>
    if part.isEmpty then none
    else
      let (name, value) := (cutAt? '=' part).getD (part, [])
      some (decodedComponent name, decodedComponent value)

/-- The value of a name that must not come twice: `none` when it does, `some none` when it does not
come at all. -/
def singleValue? (name : String) (pairs : List (String × String)) : Option (Option String) :=
  match pairs.filter (·.1 == name) with
  | [] => some none
  | [(_, value)] => some (some value)
  | _ => none

/-- A character that names in headers are made of. -/
def isTokenChar (c : Char) : Bool :=
  c.isAlphanum || "!#$%&'*+-.^_`|~".toList.contains c

/-- Check the value of a parameter in quotes, and the gap behind it up to the next parameter. -/
def afterQuotes? : List Char → Option (List Char)
  | [] => some []
  | ';' :: cs => some cs
  | ' ' :: cs => afterQuotes? cs
  | _ => none

/-- Check the parameters of a media type, at most so many. -/
def soundParameters : (most : Nat) → List Char → Bool
  | _, [] => true
  | 0, _ => false
  | most + 1, cs =>
      match cs.dropWhile (· == ' ') with
      | [] => true
      | cs =>
          match cs.takeWhile isTokenChar, cs.dropWhile isTokenChar with
          | [], _ => false
          | _, '=' :: '"' :: value =>
              let quoted := value.takeWhile fun c => c != '"'
              match value.dropWhile fun c => c != '"' with
              | [] => false
              | _ :: rest =>
                  !quoted.isEmpty && quoted.all (fun c => 0x20 ≤ c.toNat && c.toNat < 0x7F) &&
                    ((afterQuotes? rest).map (soundParameters most)).getD false
          | _, '=' :: value =>
              match value.dropWhile isTokenChar with
              | [] => true
              | ';' :: rest => !(value.takeWhile isTokenChar).isEmpty && soundParameters most rest
              | _ => false
          | _, _ => false

/-- Split the subtype of a media type at its last plus sign, which does not begin it. -/
def splitSuffix (subtype : List Char) : List Char × Option (List Char) :=
  match cutAt? '+' subtype.reverse with
  | none => (subtype, none)
  | some (_, []) => (subtype, none)
  | some (suffix, base) => (base.reverse, some suffix.reverse)

/-- Whether a content type is a JSON type: `application/json`, or an application type with that
suffix, in any letter case and with parameters. -/
def isJsonType (contentType : String) : Bool :=
  let cs := contentType.toList
  let kind := cs.takeWhile isTokenChar
  match cs.dropWhile isTokenChar with
  | '/' :: rest =>
      let subtype := rest.takeWhile isTokenChar
      let sound := match rest.dropWhile isTokenChar with
        | [] => !subtype.isEmpty
        | ';' :: parameters => !subtype.isEmpty && soundParameters parameters.length parameters
        | _ => false
      let (base, suffix) := splitSuffix (subtype.map Char.toLower)
      sound && kind.map Char.toLower == "application".toList
        && (base == "json".toList || suffix == some "json".toList)
  | _ => false

/-- Whether a text can be the value of a header. -/
def isHeaderText (s : String) : Bool :=
  s.toList.all fun c => c == '\t' || (0x20 ≤ c.toNat && c.toNat < 0x7F)

/-- The origin that may read a response: any when none are configured, else the one that asks, when
it is configured. -/
def allowedOrigin (configured : List String) (origin : Option String) : Option String :=
  if configured.isEmpty then some "*"
  else origin.filter fun o => isHeaderText o && configured.contains o

end Ariel.Service
