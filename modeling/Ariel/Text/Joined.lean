/-!
# Joined and split text

Lists of texts are shown with a separator between neighbours, and lines are split at a character.
-/

namespace Ariel.Text

/-- The texts in order, with the separator between each two neighbours. -/
def join (separator : String) : List String → String
  | [] => ""
  | [s] => s
  | s :: t :: rest => s ++ separator ++ join separator (t :: rest)

/-- Lines of text, each with its line end. -/
def page : List String → String
  | [] => ""
  | line :: lines => line ++ "\n" ++ page lines

/-- Split at every character equal to the mark. There is always one more piece than marks. -/
def splitAt (mark : Char) : List Char → List (List Char)
  | [] => [[]]
  | c :: cs =>
      if c = mark then [] :: splitAt mark cs
      else match splitAt mark cs with
        | [] => [[c]]
        | piece :: pieces => (c :: piece) :: pieces

/-- Split at the first mark, when there is one, into what stands before and after it. -/
def cutAt? (mark : Char) : List Char → Option (List Char × List Char)
  | [] => none
  | c :: cs =>
      if c = mark then some ([], cs)
      else (cutAt? mark cs).map fun (left, right) => (c :: left, right)

/-- Whether `part` occurs somewhere in the text. -/
def occursIn (part : List Char) : List Char → Bool
  | [] => part.isEmpty
  | c :: cs => part.isPrefixOf (c :: cs) || occursIn part cs

end Ariel.Text
