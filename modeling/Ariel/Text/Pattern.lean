import Ariel.Text.Ascii
import Ariel.Text.Blank
import Ariel.Text.WordCharacter

/-!
# Patterns and their occurrences

A pattern looks at one place of a text: at the character before it, when there is one, and at the
characters from it on. `occurrences` lists the places where a pattern holds, from left to right and
without overlap: after each occurrence the search goes on behind the characters that it covers.
-/

namespace Ariel.Text

/-- The number of bytes of a text in UTF-8. -/
def byteLength (cs : List Char) : Nat :=
  cs.foldr (fun c bytes => c.utf8Size + bytes) 0

/-- The number of bytes between the beginning of a text and the beginning of one of its tails. -/
def bytesUpTo (tail cs : List Char) : Nat :=
  byteLength cs - byteLength tail

/-- The characters between the beginning of a text and the beginning of one of its tails. -/
def upTo (tail cs : List Char) : List Char :=
  cs.take (cs.length - tail.length)

/-- What a pattern reports where it holds, with the text behind the characters it covers. -/
abbrev Pattern (α : Type) := (before : Option Char) → List Char → Option (α × List Char)

/-- An occurrence of a pattern: the byte offset of its first character, and what it reports. -/
structure Occurrence (α : Type) where
  offset : Nat
  value : α
  deriving DecidableEq, Repr

/-- The occurrences of a pattern from a byte offset on, the first `skipped` characters apart. -/
def occurrencesFrom {α : Type} (p : Pattern α) :
    (before : Option Char) → (offset skipped : Nat) → List Char → List (Occurrence α)
  | _, _, _, [] => []
  | _, offset, skipped + 1, c :: cs =>
      occurrencesFrom p (some c) (offset + c.utf8Size) skipped cs
  | before, offset, 0, c :: cs =>
      match p before (c :: cs) with
      | some (value, rest) =>
          ⟨offset, value⟩ ::
            occurrencesFrom p (some c) (offset + c.utf8Size) (cs.length - rest.length) cs
      | none => occurrencesFrom p (some c) (offset + c.utf8Size) 0 cs

/-- The occurrences of a pattern in a text. -/
def occurrences {α : Type} (p : Pattern α) (cs : List Char) : List (Occurrence α) :=
  occurrencesFrom p none 0 0 cs

/-- The first occurrence of a pattern. -/
def firstOccurrence? {α : Type} (p : Pattern α) (cs : List Char) : Option (Occurrence α) :=
  (occurrences p cs).head?

/-- Whether a pattern occurs in a text. -/
def occurs {α : Type} (p : Pattern α) (cs : List Char) : Bool :=
  !(occurrences p cs).isEmpty

/-- Whether a word can begin here: no word character stands before. -/
def beginsWord (before : Option Char) : Bool :=
  !before.any isWordCharacter

/-- Whether a word can end here: no word character follows. -/
def endsWord (cs : List Char) : Bool :=
  !cs.head?.any isWordCharacter

/-- Take a run of at least one blank. -/
def blanks? : List Char → Option (List Char)
  | [] => none
  | c :: cs => if isBlank c then some (dropBlanks cs) else none

/-- A keyword that begins a word, in any ASCII letter case. The word may go on behind it. -/
def wordStart (keyword : String) : Pattern Unit := fun before cs => do
  guard (beginsWord before)
  pure ((), ← keyword? keyword cs)

/-- A keyword as a whole word, in any ASCII letter case. -/
def wholeWord (keyword : String) : Pattern Unit := fun before cs => do
  let (_, rest) ← wordStart keyword before cs
  guard (endsWord rest)
  pure ((), rest)

/-- Two keywords with blanks between them, of which the second ends a word. -/
def phrase? (first second : String) (cs : List Char) : Option (List Char) := do
  let rest ← keyword? second (← blanks? (← keyword? first cs))
  guard (endsWord rest)
  pure rest

/-- The first of several patterns that holds. -/
def firstOf {α : Type} (patterns : List (Pattern α)) : Pattern α := fun before cs =>
  patterns.findSome? fun p => p before cs

end Ariel.Text
