import Ariel.Json.Value
import Ariel.Text.Ascii
import Ariel.Text.Joined
import Ariel.Text.LetterCase
import Ariel.Text.Pattern

/-!
# Templates

A template is a query with a name, a category and places to fill in. A placeholder is a name in
double braces. Filling in replaces the placeholders of one name after the other, so that a value
may bring further placeholders.
-/

namespace Ariel

/-- What templates are about. -/
inductive TemplateCategory where
  | authentication
  | network
  | threat
  | system
  | windows
  | investigation
  deriving DecidableEq, Repr

namespace TemplateCategory

/-- Every category, in display order. -/
def all : List TemplateCategory :=
  [.authentication, .network, .threat, .system, .windows, .investigation]

/-- The name of a category. -/
def name : TemplateCategory → String
  | .authentication => "Authentication & Access"
  | .network => "Network & Traffic"
  | .threat => "Threat Detection"
  | .system => "System Monitoring"
  | .windows => "Windows Events"
  | .investigation => "Investigation Queries"

end TemplateCategory

/-- A ready-made query, and what can be set in it. -/
structure Template where
  name : String
  category : TemplateCategory
  description : String
  query : String
  params : List String
  deriving DecidableEq, Repr

namespace Template

open Text

/-- A query of several lines. -/
def lines (texts : List String) : String := join "\n" texts

/-- A placeholder: two braces on each side of a run of word characters. It reports the name. -/
def placeholder : Pattern (List Char) := fun _ cs => do
  let rest ← literal? "\x7b\x7b" cs
  let name := rest.takeWhile isWordCharacter
  guard !name.isEmpty
  pure (name, ← literal? "\x7d\x7d" (rest.dropWhile isWordCharacter))

/-- The names without repetitions, each at its first place. -/
def distinct : (seen : List String) → List String → List String
  | _, [] => []
  | seen, name :: names =>
      if seen.contains name then distinct seen names
      else name :: distinct (name :: seen) names

/-- The placeholders of a query, in order of first appearance. -/
def placeholders (query : String) : List String :=
  distinct [] ((occurrences placeholder query.toList).map fun found => String.ofList found.value)

/-- Put a text in the place of every occurrence of a pattern, the first `skipped` characters
apart. -/
def replaceFrom (p : Pattern Unit) (replacement : List Char) :
    (before : Option Char) → (skipped : Nat) → List Char → List Char
  | _, _, [] => []
  | _, skipped + 1, c :: cs => replaceFrom p replacement (some c) skipped cs
  | before, 0, c :: cs =>
      match p before (c :: cs) with
      | some (_, rest) =>
          replacement ++ replaceFrom p replacement (some c) (cs.length - rest.length) cs
      | none => c :: replaceFrom p replacement (some c) 0 cs

/-- Put a text in the place of every occurrence of a pattern. -/
def replaceAll (p : Pattern Unit) (replacement cs : List Char) : List Char :=
  replaceFrom p replacement none 0 cs

/-- A text as it stands. -/
def exactly (text : String) : Pattern Unit := fun _ cs =>
  (literal? text cs).map fun rest => ((), rest)

/-- The placeholder for a key: the trimmed key in capitals, between double braces. -/
def token (key : String) : String :=
  "\x7b\x7b" ++ upper (trim key) ++ "\x7d\x7d"

/-- Fill in values, one key after the other. Placeholders without a value stay. -/
def fill (query : String) (values : List (String × String)) : String :=
  values.foldl (fun query (key, value) =>
    String.ofList (replaceAll (exactly (token key)) value.toList query.toList)) query

/-- The query of a template with values filled in. -/
def render (template : Template) (values : List (String × String)) : String :=
  fill template.query values

/-- A template as a record. -/
def toJson (template : Template) : Json :=
  .object [("name", .string template.name), ("category", .string template.category.name),
    ("description", .string template.description), ("query", .string template.query),
    ("params", .strings template.params)]

end Template

end Ariel
