import Ariel.Proofs.Validation.Padding.Comparison
import Ariel.Proofs.Validation.Padding.Outline
import Ariel.Validation.Check.Spelling

/-!
# The spelling of a query with blanks around it

Words, names and quotes end before the blanks behind a text. Which call of a function is its first
one does not depend on blanks in front.
-/

namespace Ariel.Validation

open Ariel.Text Ariel.Catalog

variable {gap cs ds : List Char}

theorem ignores_typo : IgnoresBlanks typo := by
  refine ignores_at_word (fun {c} hc cs => ?_) fun {gap cs ds} h => ?_
  · have hword : (c :: cs).takeWhile isWordCharacter = [] := by
      rw [List.takeWhile_cons, is_word_character_of_blank hc]
      rfl
    rw [hword]
    rfl
  · obtain ⟨hword, hbehind⟩ := h.run is_word_character_of_blank
    dsimp only
    rw [hword]
    exact rel_bind (rel_of_eq rfl) fun hmeant => .some ⟨Prod.ext rfl hmeant, .inl hbehind⟩

theorem follows_common_typos : RemarksFollow commonTypos :=
  (follows_occurrences ignores_typo).map fun _ _ => rfl

theorem leaves_qualified_name (h : Trails gap cs ds) :
    Option.Rel (Leaves gap) (qualifiedName? cs) (qualifiedName? ds) := by
  refine rel_bind (leaves_name h) ?_
  intro found found' hfound
  obtain ⟨name, rest⟩ := found
  obtain ⟨name', rest'⟩ := found'
  obtain ⟨hname, hrest⟩ := hfound
  obtain rfl : name = name' := hname
  have hliteral : Option.Rel (Trails gap) (literal? "::" rest) (literal? "::" rest') :=
    trails_literal (by decide) hrest
  rcases rel_cases (rel_bind hliteral leaves_name) with
    ⟨hcs, hds⟩ | ⟨⟨second, behind⟩, ⟨second', behind'⟩, hcs, hds, hsecond, hbehind⟩
  · simp only [bind] at hcs hds
    simp only [hcs, hds]
    exact .some ⟨rfl, hrest⟩
  · obtain rfl : second = second' := hsecond
    simp only [bind] at hcs hds
    simp only [hcs, hds]
    exact .some ⟨rfl, hbehind⟩

theorem ignores_call : IgnoresBlanks call :=
  ignores_at_word (fun hc cs => by rw [qualifiedName?, name_at_blank hc]; rfl) fun h =>
    rel_bind (leaves_qualified_name h) fun hname =>
      rel_bind (rel_drop_blanks rfl rfl (trails_literal (by decide)) hname.2) fun hrest =>
        .some ⟨hname.1, .inl hrest⟩

/-- The first calls of unknown functions are the same when all calls are moved. -/
theorem unknown_calls_shifted (n : Nat) (seen : List String)
    (calls : List (Occurrence (List Char))) :
    unknownCalls seen (calls.map (Occurrence.shifted n)) =
      (unknownCalls seen calls).map (Occurrence.shifted n) := by
  induction calls generalizing seen with
  | nil => rfl
  | cons found calls ih =>
      simp only [List.map_cons, unknownCalls, ih]
      rw [apply_ite (List.map (Occurrence.shifted n))]
      rfl

theorem follows_unknown_functions : RemarksFollow unknownFunctions := by
  have hcalls : EachFollows Occurrence.shifted fun cs => unknownCalls [] (occurrences call cs) :=
    (follows_occurrences ignores_call).comp fun n calls => unknown_calls_shifted n [] calls
  exact hcalls.map fun _ _ => rfl

/-- What may stand before a value does not begin with a blank, takes one before it for nothing, and
leaves a gap behind the text. -/
structure ReadsOperator (operator : Option Char → List Char → Option (List Char)) : Prop where
  at_blank : ∀ {c}, isBlank c = true → ∀ before cs, operator before (c :: cs) = none
  behind_blank : ∀ {c}, isBlank c = true → ∀ cs, operator (some c) cs = operator none cs
  before_gap : ∀ {gap before cs ds}, Trails gap cs ds →
    Option.Rel (Trails gap) (operator before cs) (operator before ds)

theorem reads_literal {text : String} (htext : Word text.toList) :
    ReadsOperator fun _ cs => literal? text cs where
  at_blank hc _ _ := literal_eq_none htext (by simpa using hc)
  behind_blank _ _ := rfl
  before_gap h := trails_literal htext.2 h

theorem reads_matching_word {operator : String} (hoperator : Word operator.toList) :
    ReadsOperator (matchingWord? operator) where
  at_blank {c} hc before cs := by
    have hnone : matchingOperator? operator (c :: cs) = none :=
      matching_operator_eq_none hoperator (by simpa using hc)
    rw [matchingWord?, hnone]
    cases beginsWord before <;> rfl
  behind_blank hc cs := by rw [matchingWord?, matchingWord?, begins_word_of_blank hc]
  before_gap h := rel_guard rfl <| rel_bind (trails_matching_operator hoperator.2 h) fun hrest =>
    rel_guard hrest.ends_word_eq (.some hrest)

theorem reads_value_operator : ∀ operator ∈ valueOperators, ReadsOperator operator := by
  refine List.forall_mem_append.mpr ⟨List.forall_mem_map.mpr fun text htext => ?_, ?_⟩
  · have hwords : ∀ text ∈ ["!=", "<>", "<=", ">=", "=", "<", ">"], Word text.toList := by decide
    exact reads_literal (hwords text htext)
  · simp only [List.forall_mem_cons]
    exact ⟨reads_matching_word (by decide), reads_matching_word (by decide), List.forall_mem_nil _⟩

/-- A double quote, with how many bytes of a text stand before it. -/
def quoteIn? (cs quote : List Char) : Option (Nat × List Char) := do
  pure (bytesUpTo quote cs, ← literal? "\"" quote)

theorem covers_quote (h : Trails gap cs ds) {quote quote' : List Char}
    (hquote : Trails gap quote quote') :
    Option.Rel (Covers gap) (quoteIn? cs quote) (quoteIn? ds quote') :=
  rel_bind (trails_literal (by decide) hquote) fun hrest =>
    .some ⟨h.bytes_up_to_eq hquote, .inl hrest⟩

theorem ignores_double_quoted_value : IgnoresBlanks doubleQuotedValue where
  at_blank hc before cs := by
    refine List.findSome?_eq_none_iff.mpr fun operator hoperator => ?_
    rw [(reads_value_operator operator hoperator).at_blank hc]
    rfl
  behind_blank hc cs := by
    refine eq_of_rel (rel_find_some fun operator hoperator => rel_of_eq ?_)
    rw [(reads_value_operator operator hoperator).behind_blank hc]
  before_gap {gap before cs ds} h := rel_find_some fun operator hoperator =>
    rel_bind ((reads_value_operator operator hoperator).before_gap h) fun hrest =>
      rel_drop_blanks (f := quoteIn? cs) (g := quoteIn? ds) rfl rfl (covers_quote h) hrest

theorem follows_double_quoted_literals : RemarksFollow doubleQuotedLiterals :=
  (follows_occurrences ignores_double_quoted_value).map fun _ _ =>
    congrArg (Remark.placed _) (Nat.add_assoc ..)

end Ariel.Validation
