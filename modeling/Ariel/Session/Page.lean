import Ariel.Settings.Builder
import Ariel.Text.Joined

/-!
# Pages of text

The screens of a session are pages of lines, with rules and banners between them.
-/

namespace Ariel.Session

open Ariel.Text

/-- A text so many times. -/
def repeated (count : Nat) (text : String) : String :=
  String.ofList (List.replicate count text.toList).flatten

/-- A rule of dashes. -/
def rule (width : Nat) : String := repeated width "-"

/-- A rule of equals signs. -/
def doubleRule (width : Nat) : String := repeated width "="

/-- What clears the terminal, where that is wanted. -/
def clearing (settings : BuilderSettings) : String :=
  if settings.clearScreen then "\x1b[2J\x1b[H" else ""

/-- The head of a screen: a title between two rules. -/
def banner (settings : BuilderSettings) (title : String) (width : Nat) : String :=
  clearing settings ++ page [doubleRule width, "  " ++ title, doubleRule width]

/-- Items with their numbers, counted from the one given. -/
def numbered {α : Type} (first : Nat) (display : Nat → α → String) : List α → List String
  | [] => []
  | item :: items => display first item :: numbered (first + 1) display items

end Ariel.Session
