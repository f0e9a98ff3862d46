/-!
# Lines of input

Input arrives as bytes and is read line by line. A line that is not valid UTF-8 cannot be read.
-/

namespace Ariel.Session

/-- A line of input, without the line end characters at its end. -/
inductive Line where
  | text (content : String)
  | undecodable
  deriving DecidableEq, Repr

namespace Line

/-- Split bytes behind each line feed. Bytes after the last one make a line of their own. -/
def splitBytes : List UInt8 → List (List UInt8)
  | [] => []
  | b :: bytes =>
      if b = 10 then [b] :: splitBytes bytes
      else match splitBytes bytes with
        | [] => [[b]]
        | line :: lines => (b :: line) :: lines

/-- The text without the line feeds and carriage returns at its end. -/
def withoutLineEnd (s : String) : String :=
  String.ofList (s.toList.reverse.dropWhile fun c => c == '\n' || c == '\r').reverse

/-- The line that some bytes make. -/
def ofBytes (bytes : List UInt8) : Line :=
  match String.fromUTF8? ⟨bytes.toArray⟩ with
  | some s => .text (withoutLineEnd s)
  | none => .undecodable

/-- The lines of an input. -/
def ofInput (bytes : ByteArray) : List Line :=
  (splitBytes bytes.data.toList).map ofBytes

end Line

end Ariel.Session
