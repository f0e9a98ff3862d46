/-!
# ASCII letter case

Keywords and names are compared without regard to the case of the letters `A` to `Z`; all other
characters stand for themselves.
-/

namespace Ariel.Text

/-- The text with its ASCII letters in capitals. -/
def capitals (cs : List Char) : List Char :=
  cs.map Char.toUpper

/-- The text with its ASCII letters in capitals. -/
def upper (s : String) : String :=
  String.ofList (capitals s.toList)

/-- The text with its ASCII letters in small letters. -/
def lower (s : String) : String :=
  String.ofList (s.toList.map Char.toLower)

/-- Whether two texts differ at most in the case of ASCII letters. -/
def sameIgnoringCase (s t : String) : Bool :=
  capitals s.toList == capitals t.toList

/-- Take a keyword, given in capitals, from the front of a text in any ASCII letter case. -/
def keyword? (keyword : String) (cs : List Char) : Option (List Char) :=
  let n := keyword.toList.length
  if capitals (cs.take n) = keyword.toList then some (cs.drop n) else none

/-- Take a fixed text from the front of a text. -/
def literal? (text : String) (cs : List Char) : Option (List Char) :=
  let n := text.toList.length
  if cs.take n = text.toList then some (cs.drop n) else none

end Ariel.Text
