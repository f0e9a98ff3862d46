import Ariel.Text.LetterCase.Mapping
import Ariel.Text.LetterCase.Property

/-!
# Letter case

Full case conversion of text. One character may become several (`ß` becomes `SS`), and a capital
sigma becomes `ς` at the end of a word and `σ` elsewhere. Comparisons of names use these
conversions; keywords of a query ignore the case of ASCII letters only.
-/

namespace Ariel.Text

/-- The lower-case form of one character, apart from its surroundings. -/
def lowercaseChar (c : Char) : List Char :=
  if c.toNat < 0x80 then [c.toLower]
  else if c.toNat = 0x130 then ['i', Char.ofNat 0x307]
  else [((CaseSegment.find? lowercaseSegments c.toNat).map Char.ofNat).getD c]

/-- The upper-case form of one character. -/
def uppercaseChar (c : Char) : List Char :=
  if c.toNat < 0x80 then [c.toUpper]
  else match uppercaseExpansions.lookup c.toNat with
    | some several => several.map Char.ofNat
    | none => [((CaseSegment.find? uppercaseSegments c.toNat).map Char.ofNat).getD c]

/-- Whether the nearest character that is not case-ignorable is cased. -/
def meetsCased (cs : List Char) : Bool :=
  match cs.dropWhile isCaseIgnorable with
  | [] => false
  | c :: _ => isCased c

/-- Lower-case a text whose earlier characters, nearest first, are `before`. -/
def lowercaseAfter (before : List Char) : List Char → List Char
  | [] => []
  | c :: cs =>
      (if c = 'Σ' then
        [if meetsCased before && !meetsCased cs then 'ς' else 'σ']
      else lowercaseChar c) ++ lowercaseAfter (c :: before) cs

/-- The text in lower case. -/
def lowercase (s : String) : String :=
  String.ofList (lowercaseAfter [] s.toList)

/-- The text in upper case. -/
def uppercase (s : String) : String :=
  String.ofList (s.toList.flatMap uppercaseChar)

end Ariel.Text
