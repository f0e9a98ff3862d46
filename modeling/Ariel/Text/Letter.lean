import Ariel.Text.Ascii

/-!
# Letters in any case

Some keywords are recognised in every written form of their letters: besides the two ASCII forms,
the Kelvin sign is a K and the long s is an S.
-/

namespace Ariel.Text

/-- Whether a character is a letter, given as a capital, in any case. -/
def isLetter (letter c : Char) : Bool :=
  c.toUpper == letter || (letter == 'K' && c.toNat == 0x212A) || (letter == 'S' && c == 'ſ')

/-- Take a word, given in capitals, in any letter case. -/
def anyCase? : (letters : List Char) → List Char → Option (List Char)
  | [], cs => some cs
  | _ :: _, [] => none
  | letter :: letters, c :: cs => if isLetter letter c then anyCase? letters cs else none

/-- Take a text in single quotes and give what they hold. -/
def quotedText? : List Char → Option (List Char × List Char)
  | '\'' :: cs =>
      match cs.dropWhile (· != '\'') with
      | [] => none
      | _ :: rest => some (cs.takeWhile (· != '\''), rest)
  | _ => none

end Ariel.Text
