import Ariel.Proofs.Template.Filling
import Ariel.Proofs.Template.TimeClause

/-!
# How library queries are written

The time clause of a library query stands behind its last mark, and its holes stand between texts
that no token reaches over. Both are checked query by query in `shape_of_mem_library`.
-/

namespace Ariel.Template

open Ariel.Text

variable {cs ds query first : List Char} {parts : List (List Char × List Char)}

/-- A query up to its last mark. -/
def body (query : List Char) : List Char := query.rdropWhile (!isMark ·)

/-- What stands behind the last mark of a query. -/
def ending (query : List Char) : List Char := query.rtakeWhile (!isMark ·)

/-- The two parts are the query. -/
theorem body_append_ending (query : List Char) : body query ++ ending query = query :=
  List.rdropWhile_append_rtakeWhile

/-- Time clauses stand behind the last mark of a query, which ends no hole. -/
structure Closing (query : List Char) : Prop where
  mark : (body query).getLast?.any (fun c => isMark c && c != '\x7d') = true
  timeless : occurs timeClause (body query) = false
  last : query.getLast?.any (!isBlank ·) = true

instance : Decidable (Closing query) :=
  decidable_of_iff ((body query).getLast?.any (fun c => isMark c && c != '\x7d') = true ∧
      occurs timeClause (body query) = false ∧ query.getLast?.any (!isBlank ·) = true)
    ⟨fun h => ⟨h.1, h.2.1, h.2.2⟩, fun h => ⟨h.mark, h.timeless, h.last⟩⟩

/-- The names of the holes of a query, each with the text behind it, and the text in front. -/
def dissect (query : List Char) : List Char × List (List Char × List Char) :=
  match splitAt '\x7b' query with
  | [] => ([], [])
  | first :: pieces =>
      (first, pieces.filterMap fun piece =>
        (cutAt? '\x7d' piece).map fun (name, rest) => (name, rest.drop 1))

/-- A query is written in holes and gaps, and its holes are its placeholders. -/
structure Dissection (query first : List Char) (parts : List (List Char × List Char)) : Prop where
  form : query = written first (parts.map fun part => ⟨hole part.1, part.2⟩)
  head : '\x7b' ∉ first
  gaps : ∀ part ∈ parts, Gap part.2
  names : ∀ part ∈ parts, '\x7b' ∉ part.1 ∧ '\x7d' ∉ part.1
  holes : (occurrences placeholder query).map Occurrence.value = parts.map Prod.fst

instance : Decidable (Dissection query first parts) :=
  decidable_of_iff (query = written first (parts.map fun part => ⟨hole part.1, part.2⟩) ∧
      '\x7b' ∉ first ∧ (∀ part ∈ parts, Gap part.2) ∧
      (∀ part ∈ parts, '\x7b' ∉ part.1 ∧ '\x7d' ∉ part.1) ∧
      (occurrences placeholder query).map Occurrence.value = parts.map Prod.fst)
    ⟨fun h => ⟨h.1, h.2.1, h.2.2.1, h.2.2.2.1, h.2.2.2.2⟩,
      fun h => ⟨h.form, h.head, h.gaps, h.names, h.holes⟩⟩

/-- How a library query is written. -/
structure Shape (query : List Char) : Prop where
  closing : Closing query
  dissection : Dissection query (dissect query).1 (dissect query).2

instance : Decidable (Shape query) :=
  decidable_of_iff (Closing query ∧ Dissection query (dissect query).1 (dissect query).2)
    ⟨fun h => ⟨h.1, h.2⟩, fun h => ⟨h.closing, h.dissection⟩⟩

section Characters

variable {s t : String} {rest : List String}

/-- The characters of a line with further lines behind it. -/
theorem chars_lines (hs : s.toList = cs) (hrest : (lines (t :: rest)).toList = ds) :
    (lines (s :: t :: rest)).toList = cs ++ '\n' :: ds := by
  rw [← hs, ← hrest]
  simp [lines, join, String.toList_append]

/-- The characters of the last line. -/
theorem chars_line (hs : s.toList = cs) : (lines [s]).toList = cs := hs

/-- The characters of two texts. -/
theorem chars_append (hs : s.toList = cs) (ht : t.toList = ds) : (s ++ t).toList = cs ++ ds := by
  rw [← hs, ← ht, String.toList_append]

/-- The shape of a query is read off its characters. -/
theorem shape_of_chars (hs : s.toList = cs) (h : Shape cs) : Shape s.toList := hs ▸ h

end Characters

/-- Every library query has that shape. -/
theorem shape_of_mem_library : ∀ t ∈ library, Shape t.query.toList := by
  simp only [library, authenticationTemplates, networkTemplates, threatTemplates, systemTemplates,
    windowsTemplates, investigationTemplates, List.cons_append, List.nil_append,
    List.forall_mem_cons, List.not_mem_nil, false_imp_iff, implies_true, and_true]
  repeat' apply And.intro
  -- The characters are put together line by line, as the text as a whole is too long to evaluate.
  all_goals
    exact shape_of_chars
      (by
        repeat' first
          | with_reducible apply chars_lines
          | with_reducible apply chars_line
          | with_reducible apply chars_append
          | with_reducible exact String.toList_ofList)
      (by decide +kernel)

/-- The template for the events of a user, whose name stands in a literal. -/
def activityByUsername : Template := investigationTemplates[1]

theorem mem_library_activity_by_username : activityByUsername ∈ library :=
  List.mem_append_right _ (List.getElem_mem _)

/-- The template for the connections of two hosts, whose holes stand in literals. -/
def connectionsBetweenAddresses : Template := investigationTemplates[2]

theorem mem_library_connections_between_addresses : connectionsBetweenAddresses ∈ library :=
  List.mem_append_right _ (List.getElem_mem _)

end Ariel.Template
