import Ariel.Proofs.Validation.Likeness.Basic
import Ariel.Validation.Check.Condition

/-!
# The conditions of queries that are alike

The checks of conditions report keywords and connectives of their own, never what is written in the
query. So they make equal remarks on texts that are alike.
-/

namespace Ariel.Text.Likeness

open Ariel.Validation

variable {l : Likeness} {cs ds : List Char}

theorem alike_last_amount (h : l.Alike cs ds) :
    Option.Rel l.Alike (lastAmount? cs) (lastAmount? ds) :=
  rel_bind (alike_keyword h (by decide)) fun h =>
    rel_bind (alike_blanks h) fun h => by
      cases h with
      | nil => exact .none
      | cons hlike hrest =>
          simp only [hlike.eq_of_blind blind_is_decimal_digit]
          split
          · exact .some hrest
          · exact .none

theorem alike_word_end {keyword : String} (h : l.Alike cs ds) (hkeyword : Filled keyword.toList) :
    Option.Rel l.Alike (wordEnd? keyword cs) (wordEnd? keyword ds) :=
  rel_bind (alike_keyword h hkeyword) fun h => rel_guard (ends_word_eq h) (.some h)

theorem alike_later_clause (h : l.Alike cs ds) :
    Option.Rel l.Alike (laterClause? cs) (laterClause? ds) :=
  rel_or (alike_phrase h (by decide) (by decide)) <|
    rel_or (alike_word_end h (by decide)) <|
      rel_or (alike_last_amount h) (alike_word_end h (by decide))

theorem alike_following_clause (h : l.Alike cs ds) :
    Option.Rel l.Alike (followingClause? cs) (followingClause? ds) :=
  rel_or (alike_phrase h (by decide) (by decide)) <|
    rel_or (alike_word_end h (by decide)) (alike_later_clause h)

/-- A reader of clauses that takes as much of texts that are alike. -/
def Takes (l : Likeness) (clause : List Char → Option (List Char)) : Prop :=
  ∀ {cs ds}, l.Alike cs ds → Option.Rel l.Alike (clause cs) (clause ds)

theorem alike_nothing_before {clause : List Char → Option (List Char)} (hclause : l.Takes clause)
    (h : l.Alike cs ds) :
    Option.Rel l.Alike (nothingBefore? clause cs) (nothingBefore? clause ds) := by
  have hdrop := alike_drop_blanks h
  unfold nothingBefore?
  revert hdrop
  generalize dropBlanks cs = rest
  generalize dropBlanks ds = rest'
  intro hdrop
  cases hdrop with
  | nil => exact .some .nil
  | cons hlike hrest => exact hclause (.cons hlike hrest)

theorem respects_empty_clause {keyword : String} {clause : List Char → Option (List Char)}
    (hkeyword : Filled keyword.toList) (hclause : l.Takes clause) :
    l.Respects Eq (emptyClause keyword clause) := fun hbefore h =>
  rel_bind (respects_word_start hkeyword hbefore h) fun h =>
    rel_bind (alike_nothing_before hclause h.2) fun h => .some ⟨rfl, h⟩

theorem alike_connective (h : l.Alike cs ds) :
    Option.Rel (l.Found Eq) (connective? cs) (connective? ds) :=
  rel_find_some fun connective hconnective =>
    rel_map (alike_keyword h (by revert connective; decide)) fun h => ⟨rfl, h⟩

theorem respects_doubled_connective : l.Respects Eq doubledConnective := fun hbefore h =>
  rel_guard (begins_word_eq hbefore) <|
    rel_bind (alike_connective h) fun hfirst =>
      rel_bind (alike_blanks hfirst.2) fun h =>
        rel_bind (alike_connective h) fun hsecond =>
          rel_guard (ends_word_eq hsecond.2) (.some ⟨Prod.ext hfirst.1 hsecond.1, hsecond.2⟩)

theorem respects_leading_connective : l.Respects Eq leadingConnective := fun hbefore h =>
  have hbeginning : l.Respects Eq (firstOf [wordStart "WHERE", wordStart "HAVING"]) :=
    respects_first_of_pair (respects_word_start (by decide)) (respects_word_start (by decide))
  rel_bind (hbeginning hbefore h) fun hrest =>
    rel_bind (alike_blanks hrest.2) fun hgap =>
      rel_bind (alike_connective hgap) fun hfound =>
        rel_guard (ends_word_eq hfound.2)
          (.some ⟨Prod.ext (bytes_up_to_eq hgap h) hfound.1, hfound.2⟩)

theorem respects_trailing_connective : l.Respects Eq trailingConnective := fun hbefore h =>
  rel_guard (begins_word_eq hbefore) <|
    rel_bind (alike_connective h) fun h =>
      rel_bind (alike_nothing_before alike_following_clause h.2) fun h' => .some ⟨h.1, h'⟩

theorem empty_conditions_eq (h : l.Alike cs ds) : emptyConditions cs = emptyConditions ds := by
  have hwhere : l.Respects Eq (emptyClause "WHERE" followingClause?) :=
    respects_empty_clause (by decide) alike_following_clause
  have hhaving : l.Respects Eq (emptyClause "HAVING" laterClause?) :=
    respects_empty_clause (by decide) alike_later_clause
  rw [emptyConditions, emptyConditions, occurrences_eq hwhere h, occurrences_eq hhaving h,
    occurrences_eq respects_doubled_connective h, occurrences_eq respects_leading_connective h,
    occurrences_eq respects_trailing_connective h]

end Ariel.Text.Likeness
