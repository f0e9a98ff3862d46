import Ariel.Proofs.Validation.Padding.Basic
import Ariel.Validation.Check.Condition

/-!
# The conditions of a query with blanks around it

A condition list can be empty up to the end of the query, so that the blanks behind it are covered
by what is found there. Nothing else is found in them.
-/

namespace Ariel.Validation

open Ariel.Text

variable {gap cs ds : List Char} {keyword : String}

theorem trails_last_amount (h : Trails gap cs ds) :
    Option.Rel (Trails gap) (lastAmount? cs) (lastAmount? ds) := by
  refine rel_bind (trails_keyword (by decide) h) (rel_blanks rfl rfl fun {rest rest'} hrest => ?_)
  obtain ⟨hblank, rfl⟩ := hrest
  cases rest with
  | nil =>
      cases gap with
      | nil => exact .none
      | cons c gap =>
          simp only [List.nil_append, is_decimal_digit_of_blank (hblank c List.mem_cons_self)]
          exact .none
  | cons c rest =>
      simp only [List.cons_append]
      split
      · exact .some ⟨hblank, rfl⟩
      · exact .none

theorem trails_word_end (hkeyword : Filled keyword.toList) (h : Trails gap cs ds) :
    Option.Rel (Trails gap) (wordEnd? keyword cs) (wordEnd? keyword ds) :=
  rel_bind (trails_keyword hkeyword h) fun hrest => rel_guard hrest.ends_word_eq (.some hrest)

theorem trails_later_clause (h : Trails gap cs ds) :
    Option.Rel (Trails gap) (laterClause? cs) (laterClause? ds) :=
  rel_or (trails_phrase (by decide) (by decide) h) <|
    rel_or (trails_word_end (by decide) h) <|
      rel_or (trails_last_amount h) (trails_word_end (by decide) h)

theorem trails_following_clause (h : Trails gap cs ds) :
    Option.Rel (Trails gap) (followingClause? cs) (followingClause? ds) :=
  rel_or (trails_phrase (by decide) (by decide) h) <|
    rel_or (trails_word_end (by decide) h) (trails_later_clause h)

/-- A reader of clauses that leaves a gap behind the text. -/
def LeavesGap (clause : List Char → Option (List Char)) : Prop :=
  ∀ {gap cs ds}, Trails gap cs ds → Option.Rel (Trails gap) (clause cs) (clause ds)

/-- Before a clause, or at the end of the text, there is nothing but blanks. -/
theorem rel_nothing_before {clause : List Char → Option (List Char)} (hclause : LeavesGap clause)
    (h : Trails gap cs ds) :
    Option.Rel (fun rest rest' => Trails gap rest rest' ∨ rest = [] ∧ rest' = [])
      (nothingBefore? clause cs) (nothingBefore? clause ds) := by
  unfold nothingBefore?
  rcases h.drop_blanks with ⟨hrest, hne⟩ | ⟨hcs, hds⟩
  · obtain ⟨c, rest, hcs⟩ := List.exists_cons_of_ne_nil hne
    have hds : dropBlanks ds = c :: (rest ++ gap) := by
      rw [hrest.split, hcs]
      rfl
    have hfound := hclause hrest
    rw [hcs, hds] at hfound ⊢
    exact rel_imp hfound .inl
  · rw [hcs, hds]
    exact .some (.inr ⟨rfl, rfl⟩)

theorem ignores_empty_clause {clause : List Char → Option (List Char)}
    (hkeyword : Word keyword.toList) (hclause : LeavesGap clause) :
    IgnoresBlanks (emptyClause keyword clause) :=
  ignores_behind (ignores_word_start hkeyword) (leaves_word_start hkeyword) fun _ hxy =>
    rel_bind (rel_nothing_before hclause hxy.2) fun hrest => .some ⟨rfl, hrest⟩

theorem leaves_connective (h : Trails gap cs ds) :
    Option.Rel (Leaves gap) (connective? cs) (connective? ds) :=
  rel_find_some fun connective hconnective =>
    rel_map (trails_keyword (by revert connective; decide) h) fun hrest => ⟨rfl, hrest⟩

theorem connective_eq_none (h : ∀ c ∈ cs.head?, isBlank c = true) : connective? cs = none := by
  refine List.findSome?_eq_none_iff.mpr fun connective hconnective => ?_
  have hword : ∀ connective ∈ ["AND", "OR"], Word connective.toList := by decide
  rw [keyword_eq_none (hword connective hconnective) h]
  rfl

theorem connective_at_blank {c : Char} (hc : isBlank c = true) (cs : List Char) :
    connective? (c :: cs) = none :=
  connective_eq_none (by simpa using hc)

theorem ignores_doubled_connective : IgnoresBlanks doubledConnective :=
  ignores_at_word (fun hc cs => by rw [connective_at_blank hc]; rfl) fun h =>
    rel_bind (leaves_connective h) fun hfirst =>
      rel_blanks rfl rfl (fun h => rel_bind (leaves_connective h) fun hsecond =>
        rel_guard hsecond.2.ends_word_eq
          (.some ⟨Prod.ext hfirst.1 hsecond.1, .inl hsecond.2⟩)) hfirst.2

theorem ignores_leading_connective : IgnoresBlanks leadingConnective := by
  have hwords : ∀ p ∈ [wordStart "WHERE", wordStart "HAVING"], ∃ keyword : String,
      Word keyword.toList ∧ p = wordStart keyword := by
    simp only [List.forall_mem_cons]
    exact ⟨⟨_, by decide, rfl⟩, ⟨_, by decide, rfl⟩, List.forall_mem_nil _⟩
  refine ignores_behind (ignores_first_of fun p hp => ?_)
    (fun h => rel_find_some fun p hp => ?_) fun h hxy => ?_
  · obtain ⟨keyword, hkeyword, rfl⟩ := hwords p hp
    exact ignores_word_start hkeyword
  · obtain ⟨keyword, hkeyword, rfl⟩ := hwords p hp
    exact leaves_word_start hkeyword h
  · refine rel_blanks rfl rfl (fun hgap => ?_) hxy.2
    exact rel_bind (leaves_connective hgap) fun hfound =>
      rel_guard hfound.2.ends_word_eq
        (.some ⟨Prod.ext (h.bytes_up_to_eq hgap) hfound.1, .inl hfound.2⟩)

theorem ignores_trailing_connective : IgnoresBlanks trailingConnective :=
  ignores_at_word (fun hc cs => by rw [connective_at_blank hc]; rfl) fun h =>
    rel_bind (leaves_connective h) fun hfound =>
      rel_bind (rel_nothing_before trails_following_clause hfound.2) fun hrest =>
        .some ⟨hfound.1, hrest⟩

theorem follows_empty_conditions : RemarksFollow emptyConditions := by
  have hwhere : IgnoresBlanks (emptyClause "WHERE" followingClause?) :=
    ignores_empty_clause (by decide) trails_following_clause
  have hhaving : IgnoresBlanks (emptyClause "HAVING" laterClause?) :=
    ignores_empty_clause (by decide) trails_later_clause
  refine follows_sort ((((((follows_occurrences hwhere).map fun _ _ => rfl).append
    ((follows_occurrences hhaving).map fun _ _ => rfl)).append
    ((follows_occurrences ignores_doubled_connective).map fun _ _ => rfl)).append
    ((follows_occurrences ignores_leading_connective).map fun n found => ?_)).append
    ((follows_occurrences ignores_trailing_connective).map fun _ _ => rfl)) fun cs => ?_
  · exact congrArg (Remark.placed _) (Nat.add_assoc ..)
  · simp only [List.forall_mem_append, List.forall_mem_map]
    exact ⟨⟨⟨⟨fun _ _ => rfl, fun _ _ => rfl⟩, fun _ _ => rfl⟩, fun _ _ => rfl⟩, fun _ _ => rfl⟩

end Ariel.Validation
