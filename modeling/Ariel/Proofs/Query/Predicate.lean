import Ariel.Proofs.Query.Assembly
import Mathlib.Data.List.SplitBy

/-!
# What joined predicates mean

OR separates the alternatives of a predicate, and AND, which binds tighter, the atoms of each of
them. A draft joins its predicates by AND as they stand, so that the last alternative of one and the
first alternative of the next become one (`alternatives_and`). `conjoined_of_predicates` says when
the text is still the conjunction of the predicates.
-/

namespace Ariel.Query

open Ariel.Text

section Reading

/-- The words of a text and the characters between them, one by one. -/
def pieces (text : List Char) : List (List Char) :=
  text.splitBy fun c d => isWordCharacter c && isWordCharacter d

/-- Whether a piece is a keyword, in any ASCII letter case. -/
def isKeyword (keyword : String) (piece : List Char) : Bool :=
  capitals piece == keyword.toList

/-- The text of an atom, without the blanks around it. -/
def atomOf (pieces : List (List Char)) : List Char :=
  trimmed pieces.flatten

/-- The alternatives that pieces make up, each with its atoms. -/
def alternativesOf (pieces : List (List Char)) : List (List (List Char)) :=
  (pieces.splitOnP (isKeyword "OR")).map fun group =>
    (group.splitOnP (isKeyword "AND")).map atomOf

/-- The alternatives of a predicate, each with its atoms. -/
def alternatives (predicate : String) : List (List (List Char)) :=
  alternativesOf (pieces predicate.toList)

/-- A predicate is true when all atoms of one of its alternatives are. -/
def Holds (truth : List Char → Prop) (predicate : String) : Prop :=
  ∃ group ∈ alternatives predicate, ∀ atom ∈ group, truth atom

/-- An atom holds no quotes, no parentheses and none of the words that make up larger predicates. -/
structure IsAtom (atom : List Char) : Prop where
  plain : ∀ c ∈ atom, c ∉ ['\'', '"', '(', ')']
  words : ∀ piece ∈ pieces atom, ∀ keyword ∈ ["AND", "OR", "NOT", "BETWEEN"],
    isKeyword keyword piece = false

instance {atom : List Char} : Decidable (IsAtom atom) :=
  decidable_of_iff (atom.all (fun c => decide (c ∉ ['\'', '"', '(', ')'])) = true ∧
      ∀ piece ∈ pieces atom, ∀ keyword ∈ ["AND", "OR", "NOT", "BETWEEN"],
        isKeyword keyword piece = false)
    ⟨fun h => ⟨fun c hc => of_decide_eq_true (List.all_eq_true.mp h.1 c hc), h.2⟩,
      fun h => ⟨List.all_eq_true.mpr fun c hc => decide_eq_true (h.plain c hc), h.words⟩⟩

/-- A predicate is made of atoms with AND and OR between them. -/
def Simple (predicate : String) : Prop :=
  ∀ group ∈ alternatives predicate, ∀ atom ∈ group, IsAtom atom

instance {predicate : String} : Decidable (Simple predicate) :=
  inferInstanceAs (Decidable (∀ group ∈ alternatives predicate, ∀ atom ∈ group, IsAtom atom))

/-- What is to hold of a text that is put together of predicates. It is a simple one, true where all
of the predicates are. It is true nowhere else when only one predicate is there or each has one
alternative, and else exactly when each of its alternatives covers one of each predicate. -/
structure Conjoined (predicates : List String) (text : String) : Prop where
  simple : Simple text
  of_all : ∀ truth, (∀ predicate ∈ predicates, Holds truth predicate) → Holds truth text
  iff_all : predicates.length = 1 ∨
    (∀ predicate ∈ predicates, ∃ group, alternatives predicate = [group]) →
    ∀ truth, Holds truth text ↔ ∀ predicate ∈ predicates, Holds truth predicate
  exact : (∀ truth, Holds truth text ↔ ∀ predicate ∈ predicates, Holds truth predicate) ↔
    ∀ group ∈ alternatives text, ∀ predicate ∈ predicates,
      ∃ alternative ∈ alternatives predicate, alternative ⊆ group

end Reading

section Pieces

variable {left right : List (List Char)} {groups later : List (List (List Char))}
  {group next : List (List Char)} {piece : List Char} {c : Char}

/-- What is split has a last part. -/
theorem exists_last_part {α : Type} (p : α → Bool) (xs : List α) :
    ∃ parts part, xs.splitOnP p = parts ++ [part] :=
  (List.eq_nil_or_concat' _).resolve_left (List.splitOnP_ne_nil p xs)

/-- Behind one another, the last part of one list and the first part of the next become one. -/
theorem split_on_append {α : Type} {p : α → Bool} {xs ys part part' : List α}
    {parts parts' : List (List α)} (hxs : xs.splitOnP p = parts ++ [part])
    (hys : ys.splitOnP p = part' :: parts') :
    (xs ++ ys).splitOnP p = parts ++ (part ++ part') :: parts' := by
  induction xs generalizing parts part with
  | nil =>
      obtain ⟨rfl, rfl⟩ : parts = [] ∧ part = [] := by
        cases parts with
        | nil => exact ⟨rfl, by simpa using hxs.symm⟩
        | cons first parts => simp at hxs
      exact hys
  | cons x xs ih =>
      obtain ⟨parts₀, part₀, hsplit⟩ := exists_last_part p xs
      rw [List.splitOnP_cons_eq_if_modifyHead, hsplit] at hxs
      rw [List.cons_append, List.splitOnP_cons_eq_if_modifyHead, ih hsplit]
      cases hx : p x with
      | true =>
          rw [hx, if_pos rfl, ← List.cons_append] at hxs
          obtain ⟨rfl, rfl⟩ := List.append_singleton_inj.mp hxs
          rfl
      | false =>
          rw [hx] at hxs
          cases parts₀ with
          | nil =>
              have hone : [] ++ [x :: part₀] = parts ++ [part] := hxs
              obtain ⟨rfl, rfl⟩ := List.append_singleton_inj.mp hone
              rfl
          | cons first parts₀ =>
              have hmore : (x :: first) :: parts₀ ++ [part₀] = parts ++ [part] := hxs
              obtain ⟨rfl, rfl⟩ := List.append_singleton_inj.mp hmore
              rfl

/-- A piece that is not the mark of a split belongs to the part behind it. -/
theorem split_on_cons {α : Type} {p : α → Bool} {x : α} {ys part : List α} {parts : List (List α)}
    (hx : p x = false) (hys : ys.splitOnP p = part :: parts) :
    (x :: ys).splitOnP p = (x :: part) :: parts := by
  rw [List.splitOnP_cons_eq_if_modifyHead, hx, hys]
  rfl

/-- AND between pieces joins the alternatives on its two sides. -/
theorem alternatives_of_and (hand : isKeyword "AND" piece = true)
    (hleft : alternativesOf left = groups ++ [group])
    (hright : alternativesOf right = next :: later) :
    alternativesOf (left ++ piece :: right) = groups ++ (group ++ next) :: later := by
  have hor : isKeyword "OR" piece = false := by
    rw [isKeyword, eq_of_beq hand]
    decide
  obtain ⟨parts, part, hparts⟩ := exists_last_part (isKeyword "OR") left
  obtain ⟨part', parts', hparts'⟩ :=
    List.exists_cons_of_ne_nil (List.splitOnP_ne_nil (isKeyword "OR") right)
  rw [alternativesOf, hparts, List.map_append] at hleft
  rw [alternativesOf, hparts'] at hright
  obtain ⟨rfl, rfl⟩ := List.append_singleton_inj.mp hleft
  obtain ⟨rfl, rfl⟩ := List.cons.inj hright
  rw [alternativesOf, split_on_append hparts (split_on_cons hor hparts'), List.map_append,
    List.map_cons, List.splitOnP_append_cons _ _ hand, List.map_append]

/-- A blank in front of pieces belongs to no atom. -/
theorem alternatives_of_blank_cons (hc : isBlank c = true) :
    alternativesOf ([c] :: right) = alternativesOf right := by
  have hkeyword : ∀ keyword ∈ ["AND", "OR"], isKeyword keyword [c] = false := by
    simp [isKeyword, capitals]
  obtain ⟨part, parts, hparts⟩ :=
    List.exists_cons_of_ne_nil (List.splitOnP_ne_nil (isKeyword "OR") right)
  obtain ⟨atom, atoms, hatoms⟩ :=
    List.exists_cons_of_ne_nil (List.splitOnP_ne_nil (isKeyword "AND") part)
  have hatom : atomOf ([c] :: atom) = atomOf atom := by
    have hblank : trimmed ([c] ++ atom.flatten ++ []) = trimmed atom.flatten :=
      trimmed_around_blanks (by simpa using hc) (by simp)
    simpa [atomOf] using hblank
  rw [alternativesOf, alternativesOf, split_on_cons (hkeyword _ (by simp)) hparts, hparts,
    List.map_cons, List.map_cons, split_on_cons (hkeyword _ (by simp)) hatoms, hatoms,
    List.map_cons, List.map_cons, hatom]

/-- A blank behind pieces belongs to no atom. -/
theorem alternatives_of_blank_behind (hc : isBlank c = true) :
    alternativesOf (left ++ [[c]]) = alternativesOf left := by
  have hkeyword : ∀ keyword ∈ ["AND", "OR"], isKeyword keyword [c] = false := by
    simp [isKeyword, capitals]
  have halone : ∀ keyword ∈ ["AND", "OR"],
      [[c]].splitOnP (isKeyword keyword) = [[[c]]] := fun keyword hmem =>
    List.splitOnP_eq_singleton fun piece hpiece => by
      rw [List.mem_singleton.mp hpiece, hkeyword keyword hmem]
  obtain ⟨parts, part, hparts⟩ := exists_last_part (isKeyword "OR") left
  obtain ⟨atoms, atom, hatoms⟩ := exists_last_part (isKeyword "AND") part
  have hatom : atomOf (atom ++ [[c]]) = atomOf atom := by
    have hblank : trimmed ([] ++ atom.flatten ++ [c]) = trimmed atom.flatten :=
      trimmed_around_blanks (by simp) (by simpa using hc)
    simpa [atomOf] using hblank
  rw [alternativesOf, alternativesOf, split_on_append hparts (halone _ (by simp)), hparts,
    List.map_append, List.map_append, List.map_cons, List.map_cons,
    split_on_append hatoms (halone _ (by simp)), hatoms, List.map_append, List.map_append,
    List.map_cons, List.map_cons, hatom]

end Pieces

section Joined

variable {predicate text : String} {predicates : List String} {truth : List Char → Prop}
  {groups later : List (List (List Char))} {group next : List (List Char)}

/-- A blank does not belong to a word, so that a text falls apart at both of its sides. -/
theorem pieces_blank {c : Char} (hc : isBlank c = true) (left right : List Char) :
    pieces (left ++ c :: right) = pieces left ++ [c] :: pieces right := by
  have hword := is_word_character_of_blank hc
  have hbehind : pieces (c :: right) = [c] :: pieces right :=
    List.splitBy_append (l := [c]) (by simp [hword])
  rw [pieces, List.splitBy_append_cons _ (by simp [hword])]
  exact congrArg _ hbehind

/-- The pieces of two texts with AND between them. -/
theorem pieces_and (left right : List Char) :
    pieces (left ++ (" AND ".toList ++ right)) =
      (pieces left ++ [[' ']]) ++ "AND".toList :: [' '] :: pieces right := by
  have hand : pieces "AND".toList = ["AND".toList] := by decide
  have hsplit : " AND ".toList ++ right = ' ' :: ("AND".toList ++ ' ' :: right) := rfl
  rw [hsplit, pieces_blank (by decide), pieces_blank (by decide), hand]
  simp

/-- Predicates with AND between them: the last alternative of the first and the first alternative of
the second become one. -/
theorem alternatives_and (hleft : alternatives predicate = groups ++ [group])
    (hright : alternatives text = next :: later) :
    alternatives (predicate ++ " AND " ++ text) = groups ++ (group ++ next) :: later := by
  rw [alternatives, String.toList_append, String.toList_append, List.append_assoc, pieces_and]
  refine alternatives_of_and (by decide) ?_ ?_
  · rw [alternatives_of_blank_behind (by decide)]
    exact hleft
  · rw [alternatives_of_blank_cons (by decide)]
    exact hright

/-- A predicate has a last alternative. -/
theorem exists_last_alternative (predicate : String) :
    ∃ groups group, alternatives predicate = groups ++ [group] := by
  obtain ⟨parts, part, hparts⟩ := exists_last_part (isKeyword "OR") (pieces predicate.toList)
  exact ⟨_, _, by rw [alternatives, alternativesOf, hparts, List.map_append, List.map_singleton]⟩

/-- A predicate has a first alternative. -/
theorem exists_first_alternative (predicate : String) :
    ∃ next later, alternatives predicate = next :: later := by
  obtain ⟨groups, group, hgroups⟩ := exists_last_alternative predicate
  refine List.exists_cons_of_ne_nil ?_
  rw [hgroups]
  simp

/-- What is joined by AND begins with the first predicate. -/
theorem join_and_cons {first : String} (hne : predicates ≠ []) :
    join " AND " (first :: predicates) = first ++ " AND " ++ join " AND " predicates := by
  obtain ⟨second, more, rfl⟩ := List.exists_cons_of_ne_nil hne
  rfl

/-- Simple predicates with AND between them are a simple one. -/
theorem Simple.and (h : Simple predicate) (htext : Simple text) :
    Simple (predicate ++ " AND " ++ text) := by
  obtain ⟨groups, group, hgroups⟩ := exists_last_alternative predicate
  obtain ⟨next, later, hlater⟩ := exists_first_alternative text
  rw [Simple, hgroups] at h
  rw [Simple, hlater] at htext
  rw [Simple, alternatives_and hgroups hlater]
  simp only [List.forall_mem_append, List.forall_mem_cons] at h htext ⊢
  exact ⟨h.1, ⟨h.2.1, htext.1⟩, htext.2⟩

/-- Two true predicates with AND between them are true. -/
theorem Holds.and (h : Holds truth predicate) (htext : Holds truth text) :
    Holds truth (predicate ++ " AND " ++ text) := by
  obtain ⟨groups, group, hgroups⟩ := exists_last_alternative predicate
  obtain ⟨next, later, hlater⟩ := exists_first_alternative text
  obtain ⟨first, hfirst, htrue⟩ := h
  obtain ⟨second, hsecond, htrue'⟩ := htext
  rw [hgroups] at hfirst
  rw [hlater] at hsecond
  rw [Holds, alternatives_and hgroups hlater]
  rcases List.mem_append.mp hfirst with hfirst | hfirst
  · exact ⟨first, by simp [hfirst], htrue⟩
  · obtain rfl := List.mem_singleton.mp hfirst
    rcases List.mem_cons.mp hsecond with rfl | hsecond
    · exact ⟨first ++ second, by simp, List.forall_mem_append.mpr ⟨htrue, htrue'⟩⟩
    · exact ⟨second, by simp [hsecond], htrue'⟩

/-- What AND keeps of two predicates, it keeps of all that are joined. -/
theorem join_and {P : String → Prop}
    (hand : ∀ predicate text, P predicate → P text → P (predicate ++ " AND " ++ text))
    (hne : predicates ≠ []) (h : ∀ predicate ∈ predicates, P predicate) :
    P (join " AND " predicates) := by
  induction predicates with
  | nil => exact absurd rfl hne
  | cons first predicates ih =>
      rw [List.forall_mem_cons] at h
      by_cases hmore : predicates = []
      · subst hmore
        exact h.1
      · rw [join_and_cons hmore]
        exact hand _ _ h.1 (ih hmore h.2)

/-- What is joined of true predicates is true. -/
theorem holds_join (hne : predicates ≠ [])
    (h : ∀ predicate ∈ predicates, Holds truth predicate) :
    Holds truth (join " AND " predicates) :=
  join_and (fun _ _ => Holds.and) hne h

/-- Predicates with one alternative each have all their atoms in the one that they make up
together. -/
theorem alternatives_join (hne : predicates ≠ [])
    (h : ∀ predicate ∈ predicates, ∃ group, alternatives predicate = [group]) :
    ∃ group, alternatives (join " AND " predicates) = [group] ∧ ∀ truth : List Char → Prop,
      (∀ atom ∈ group, truth atom) ↔ ∀ predicate ∈ predicates, Holds truth predicate := by
  induction predicates with
  | nil => exact absurd rfl hne
  | cons first predicates ih =>
      rw [List.forall_mem_cons] at h
      obtain ⟨⟨group, hgroup⟩, hothers⟩ := h
      have hfirst : ∀ truth, Holds truth first ↔ ∀ atom ∈ group, truth atom := by
        simp [Holds, hgroup]
      by_cases hmore : predicates = []
      · subst hmore
        exact ⟨group, hgroup, by simp [hfirst]⟩
      · obtain ⟨next, hnext, hholds⟩ := ih hmore hothers
        refine ⟨group ++ next, ?_, fun truth => ?_⟩
        · have hlast : alternatives first = [] ++ [group] := hgroup
          rw [join_and_cons hmore, alternatives_and hlast hnext]
          rfl
        · rw [List.forall_mem_append, List.forall_mem_cons, hfirst, hholds]

/-- The text means the conjunction of the predicates exactly when each of its alternatives covers
one of each predicate. -/
theorem holds_join_iff (hne : predicates ≠ []) :
    (∀ truth, Holds truth (join " AND " predicates) ↔
      ∀ predicate ∈ predicates, Holds truth predicate) ↔
    ∀ group ∈ alternatives (join " AND " predicates), ∀ predicate ∈ predicates,
      ∃ alternative ∈ alternatives predicate, alternative ⊆ group := by
  constructor
  · intro h group hgroup
    -- Let just the atoms of the alternative be true.
    exact (h (· ∈ group)).mp ⟨group, hgroup, fun _ hatom => hatom⟩
  · intro h truth
    refine ⟨?_, holds_join hne⟩
    rintro ⟨group, hgroup, htrue⟩ predicate hpredicate
    obtain ⟨alternative, hmem, hsub⟩ := h group hgroup predicate hpredicate
    exact ⟨alternative, hmem, fun atom hatom => htrue atom (hsub hatom)⟩

/-- Simple predicates that are joined by AND are conjoined. -/
theorem conjoined_join (hne : predicates ≠ []) (h : ∀ predicate ∈ predicates, Simple predicate) :
    Conjoined predicates (join " AND " predicates) where
  simple := join_and (fun _ _ => Simple.and) hne h
  of_all _ := holds_join hne
  iff_all := by
    rintro (hone | hsingle) truth
    · obtain ⟨predicate, rfl⟩ := List.length_eq_one_iff.mp hone
      simp [join]
    · obtain ⟨group, hgroup, hholds⟩ := alternatives_join hne hsingle
      rw [← hholds, Holds, hgroup]
      simp
  exact := holds_join_iff hne

end Joined

namespace Draft

variable {draft : Draft} {keyword : String} {predicates : List String}

/-- The lists of predicates of a draft, each with the keyword in front of it. -/
def predicateLists (draft : Draft) : List (String × List String) :=
  [("WHERE ", draft.conditions), ("HAVING ", draft.having)]

/-- A text is what stands behind a keyword in the one clause that begins with it. -/
structure StandsBehind (keyword : String) (clauses : List String) (text : String) : Prop where
  here : keyword ++ text ∈ clauses
  only : ∀ other, keyword ++ other ∈ clauses → other = text

/-- Apart from the lists of predicates, no clause begins with W or H. -/
theorem list_or_head_of_clause {clause : String} {table : Table}
    (h : clause ∈ draft.clausesFrom table) :
    clause ∈ listClause "WHERE " " AND " draft.conditions ∨
      clause ∈ listClause "HAVING " " AND " draft.having ∨
      ∃ c ∈ clause.toList.head?, c ∉ ['W', 'H'] := by
  simp only [clausesFrom, List.mem_append, List.mem_cons, List.not_mem_nil, or_false,
    Option.mem_toList] at h
  rcases h with ((((((rfl | rfl) | h) | h) | h) | h) | h) | h
  · exact .inr (.inr ⟨'S', by simp [String.toList_append], by decide⟩)
  · exact .inr (.inr ⟨'F', by simp [String.toList_append], by decide⟩)
  · exact .inl h
  · obtain ⟨-, rfl⟩ := mem_list_clause_iff.mp h
    exact .inr (.inr ⟨'G', by simp [String.toList_append], by decide⟩)
  · exact .inr (.inl h)
  · obtain ⟨sort, -, rfl⟩ := mem_order_clause h
    exact .inr (.inr ⟨'O', by simp [String.toList_append], by decide⟩)
  · obtain ⟨limit, -, rfl⟩ := Option.map_eq_some_iff.mp h
    exact .inr (.inr ⟨'L', by simp [String.toList_append], by decide⟩)
  · refine .inr (.inr ?_)
    generalize draft.window = window at h
    cases Window.shows_of_clause h with
    | last => exact ⟨'L', by simp [String.toList_append], by decide⟩
    | start => exact ⟨'S', by simp [String.toList_append], by decide⟩
    | startStop => exact ⟨'S', by simp [String.toList_append], by decide⟩

/-- The predicates of a list stand behind its keyword, joined by AND. -/
theorem stands_behind_list (hlist : (keyword, predicates) ∈ draft.predicateLists)
    (hne : predicates ≠ []) (table : Table) :
    StandsBehind keyword (draft.clausesFrom table) (join " AND " predicates) := by
  have hcases : keyword = "WHERE " ∧ predicates = draft.conditions ∨
      keyword = "HAVING " ∧ predicates = draft.having := by
    simpa [predicateLists] using hlist
  have hmem : keyword ++ join " AND " predicates ∈ draft.clausesFrom table := by
    rcases hcases with ⟨rfl, rfl⟩ | ⟨rfl, rfl⟩ <;> simp [clausesFrom, mem_list_clause_iff, hne]
  refine ⟨hmem, fun other hother => ?_⟩
  have hhead : ∃ c ∈ ['W', 'H'], (keyword ++ other).toList.head? = some c := by
    rcases hcases with ⟨rfl, -⟩ | ⟨rfl, -⟩ <;> simp [String.toList_append]
  have hpredicates : keyword ++ other ∈ listClause keyword " AND " predicates := by
    rcases list_or_head_of_clause hother with hwhere | hhaving | ⟨c, hc, hnone⟩
    · rcases hcases with ⟨rfl, rfl⟩ | ⟨rfl, rfl⟩
      · exact hwhere
      · obtain ⟨-, heq⟩ := mem_list_clause_iff.mp hwhere
        simpa [String.toList_append] using congrArg String.toList heq
    · rcases hcases with ⟨rfl, rfl⟩ | ⟨rfl, rfl⟩
      · obtain ⟨-, heq⟩ := mem_list_clause_iff.mp hhaving
        simpa [String.toList_append] using congrArg String.toList heq
      · exact hhaving
    · obtain ⟨d, hd, hsome⟩ := hhead
      obtain rfl : c = d := Option.some.inj (hc.symm.trans hsome)
      exact absurd hd hnone
  obtain ⟨-, heq⟩ := mem_list_clause_iff.mp hpredicates
  exact (String.append_right_inj keyword).mp heq

/-- The predicates of a complete draft, when they are simple, are conjoined in the text behind WHERE
and in the text behind HAVING. -/
theorem conjoined_of_predicates (hcomplete : draft.missing? = none)
    (hlist : (keyword, predicates) ∈ draft.predicateLists) (hne : predicates ≠ [])
    (hsimple : ∀ predicate ∈ predicates, Simple predicate) :
    ∃ clauses text, draft.clauses = .ok clauses ∧ StandsBehind keyword clauses text ∧
      Conjoined predicates text := by
  obtain ⟨table, hclauses⟩ : ∃ table, draft.clauses = .ok (draft.clausesFrom table) := by
    cases htable : draft.table with
    | none => simp [missing?, htable] at hcomplete
    | some table => exact ⟨table, by simp [clauses, hcomplete, htable]⟩
  exact ⟨_, _, hclauses, stands_behind_list hlist hne table, conjoined_join hne hsimple⟩

/-- A draft with two alternatives in its only condition, and one in each group condition. -/
def busyHosts : Draft where
  table := some .events
  columns := ["sourceip", "COUNT(*) AS hits"]
  conditions := ["qid = 5 or qid = 6 AND magnitude > 3"]
  groupBy := ["sourceip"]
  having := ["hits > 10", "hits < 100 and orders = 1"]

/-- The text behind HAVING means the conjunction of the group conditions. -/
theorem conjoined_busy_hosts :
    let predicates := ["hits > 10", "hits < 100 and orders = 1"]
    busyHosts.missing? = none ∧ ("HAVING ", predicates) ∈ busyHosts.predicateLists ∧
      predicates ≠ [] ∧ (∀ predicate ∈ predicates, Simple predicate) ∧
      ∃ clauses text, busyHosts.clauses = .ok clauses ∧ StandsBehind "HAVING " clauses text ∧
        Conjoined predicates text := by
  intro predicates
  have hcomplete : busyHosts.missing? = none := by decide
  have hlist : ("HAVING ", predicates) ∈ busyHosts.predicateLists := by decide
  have hne : predicates ≠ [] := List.cons_ne_nil _ _
  have hsimple : ∀ predicate ∈ predicates, Simple predicate := by decide +kernel
  exact ⟨hcomplete, hlist, hne, hsimple,
    conjoined_of_predicates hcomplete hlist hne hsimple⟩

/-- A draft whose first condition has two alternatives. -/
def alternativeFirst : Draft where
  table := some .events
  columns := ["*"]
  conditions := ["a = 1 OR b = 2", "c = 3"]

/-- An alternative of one condition is not bound by the next condition, so that the text is true
where that condition is not. -/
theorem not_conjunction_of_alternative_first :
    alternativeFirst.missing? = none ∧
    (∀ predicate ∈ alternativeFirst.conditions, Simple predicate) ∧
    alternativeFirst.clauses =
      .ok ["SELECT *", "FROM events", "WHERE a = 1 OR b = 2 AND c = 3"] ∧
    ∃ truth : List Char → Prop, Holds truth "a = 1 OR b = 2 AND c = 3" ∧
      ¬ ∀ predicate ∈ alternativeFirst.conditions, Holds truth predicate := by
  refine ⟨by decide, by decide +kernel, by decide +kernel, (· = "a = 1".toList), ?_, fun hall => ?_⟩
  · have htext : ["a = 1".toList] ∈ alternatives "a = 1 OR b = 2 AND c = 3" := by decide +kernel
    exact ⟨_, htext, by simp⟩
  · have hcondition : alternatives "c = 3" = [["c = 3".toList]] := by decide +kernel
    have hholds := hall "c = 3" (by decide)
    rw [Holds, hcondition] at hholds
    simp at hholds

end Draft

end Ariel.Query
