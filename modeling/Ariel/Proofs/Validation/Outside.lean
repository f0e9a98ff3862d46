import Ariel.Proofs.Validation.Slices

/-!
# What literals hold

Most checks see nothing of what single-quoted literals hold. They do look at the query itself: it is
asked whether it is blank, and the names, words and values that they show are cut out of it. But all
of this stands outside of literals, so that queries with the same mask get the same remarks. Two
queries have the same mask exactly when they differ in the contents of literals only, and in
contents that take as many bytes (`mask_from_eq_iff`).
-/

namespace Ariel.Validation

open Ariel.Text

/-- Two texts, that begin inside a literal or outside of one, differ only in what their literals
hold, and that takes as many bytes in both. The last literal need not be closed. -/
inductive AgreeOutside : (inside : Bool) → List Char → List Char → Prop where
  | nil : AgreeOutside false [] []
  | outside {c : Char} {cs ds : List Char} :
      c ≠ '\'' → AgreeOutside false cs ds → AgreeOutside false (c :: cs) (c :: ds)
  | opening {cs ds : List Char} :
      AgreeOutside true cs ds → AgreeOutside false ('\'' :: cs) ('\'' :: ds)
  | closing {content content' cs ds : List Char} :
      '\'' ∉ content → '\'' ∉ content' → byteLength content = byteLength content' →
      AgreeOutside false cs ds →
      AgreeOutside true (content ++ '\'' :: cs) (content' ++ '\'' :: ds)
  | unclosed {content content' : List Char} :
      '\'' ∉ content → '\'' ∉ content' → byteLength content = byteLength content' →
      AgreeOutside true content content'

section Mask

variable {inside : Bool} {cs ds : List Char}

/-- A text is what stands before its first quote, and that quote with what stands behind it, when
there is one. -/
theorem exists_content (cs : List Char) :
    ∃ content, '\'' ∉ content ∧ (cs = content ∨ ∃ rest, cs = content ++ '\'' :: rest) := by
  induction cs with
  | nil => exact ⟨[], List.not_mem_nil, .inl rfl⟩
  | cons c cs ih =>
      by_cases hquote : c = '\''
      · exact ⟨[], List.not_mem_nil, .inr ⟨cs, by rw [hquote]; rfl⟩⟩
      · obtain ⟨content, hcontent, hsplit⟩ := ih
        refine ⟨c :: content, ?_, ?_⟩
        · simp only [List.mem_cons, not_or]
          exact ⟨Ne.symm hquote, hcontent⟩
        · rcases hsplit with rfl | ⟨rest, rfl⟩
          · exact .inl rfl
          · exact .inr ⟨rest, rfl⟩

/-- A text has one first quote. -/
theorem content_inj {content content' rest rest' : List Char} (hcontent : '\'' ∉ content)
    (hcontent' : '\'' ∉ content') (h : content ++ '\'' :: rest = content' ++ '\'' :: rest') :
    content = content' ∧ rest = rest' := by
  have hplain : ∀ {content : List Char}, '\'' ∉ content → ∀ c ∈ content, (c != '\'') = true := by
    intro content hcontent c hc
    exact bne_iff_ne.mpr fun hquote => hcontent (hquote ▸ hc)
  have hstop : ∀ {rest : List Char}, ∀ c ∈ ('\'' :: rest).head?, (c != '\'') = false := by simp
  have hsame := congrArg (List.takeWhile (· != '\'')) h
  rw [take_while_append (hplain hcontent) hstop,
    take_while_append (hplain hcontent') hstop] at hsame
  subst hsame
  exact ⟨rfl, (List.cons.inj (List.append_cancel_left h)).2⟩

/-- Spaces in front of what is no space are told apart from it. -/
theorem spaces_append_inj {n m : Nat} (hcs : ∀ c ∈ cs.head?, isBlank c = false)
    (hds : ∀ c ∈ ds.head?, isBlank c = false)
    (h : List.replicate n ' ' ++ cs = List.replicate m ' ' ++ ds) : n = m ∧ cs = ds := by
  have hspaces : ∀ k : Nat, ∀ c ∈ List.replicate k ' ', isBlank c = true := by
    intro k c hc
    rw [List.eq_of_mem_replicate hc]
    rfl
  have hrun := congrArg (List.takeWhile isBlank) h
  have hrest := congrArg (List.dropWhile isBlank) h
  rw [take_while_append (hspaces n) hcs, take_while_append (hspaces m) hds] at hrun
  rw [drop_while_append (hspaces n) hcs, drop_while_append (hspaces m) hds] at hrest
  refine ⟨?_, hrest⟩
  simpa using congrArg List.length hrun

/-- The mask of a literal that is closed. -/
theorem mask_from_closing (h : '\'' ∉ cs) :
    maskFrom true (cs ++ '\'' :: ds) =
      List.replicate (byteLength cs) ' ' ++ '\'' :: maskFrom false ds := by
  rw [mask_from_content h, maskFrom, if_pos rfl]
  rfl

/-- The mask of a literal that is not closed. -/
theorem mask_from_unclosed (h : '\'' ∉ cs) :
    maskFrom true cs = List.replicate (byteLength cs) ' ' := by
  have hmask : maskFrom true (cs ++ []) = List.replicate (byteLength cs) ' ' ++ [] :=
    mask_from_content h
  simpa using hmask

/-- Texts with the same mask agree behind the beginning of a literal, when those behind its end
do. -/
theorem agree_inside_of_mask_eq (h : maskFrom true cs = maskFrom true ds)
    (hrest : ∀ {cs' ds' : List Char}, cs'.length < cs.length →
      maskFrom false cs' = maskFrom false ds' → AgreeOutside false cs' ds') :
    AgreeOutside true cs ds := by
  obtain ⟨content, hcontent, rfl | ⟨rest, rfl⟩⟩ := exists_content cs
  · obtain ⟨content', hcontent', rfl | ⟨rest', rfl⟩⟩ := exists_content ds
    · rw [mask_from_unclosed hcontent, mask_from_unclosed hcontent'] at h
      exact .unclosed hcontent hcontent' (by simpa using congrArg List.length h)
    · rw [mask_from_unclosed hcontent, mask_from_closing hcontent',
        ← List.append_nil (List.replicate _ _)] at h
      cases (spaces_append_inj (by simp) (by simp; rfl) h).2
  · obtain ⟨content', hcontent', rfl | ⟨rest', rfl⟩⟩ := exists_content ds
    · rw [mask_from_closing hcontent, mask_from_unclosed hcontent',
        ← List.append_nil (List.replicate (byteLength ds) _)] at h
      cases (spaces_append_inj (by simp; rfl) (by simp) h).2
    · rw [mask_from_closing hcontent, mask_from_closing hcontent'] at h
      obtain ⟨hbytes, hmask⟩ := spaces_append_inj (by simp; rfl) (by simp; rfl) h
      have hshort : rest.length < (content ++ '\'' :: rest).length := by
        rw [List.length_append, List.length_cons]
        omega
      exact .closing hcontent hcontent' hbytes (hrest hshort (List.cons.inj hmask).2)

/-- Texts with the same mask agree outside of literals. -/
theorem agree_outside_of_mask_eq (h : maskFrom inside cs = maskFrom inside ds) :
    AgreeOutside inside cs ds := by
  induction hlength : cs.length using Nat.strong_induction_on generalizing inside cs ds with
  | _ n ih =>
      cases inside with
      | true =>
          exact agree_inside_of_mask_eq h fun hshort hmask => ih _ (hlength ▸ hshort) hmask rfl
      | false =>
          have hhead : cs.head? = ds.head? := by
            rw [← head_mask cs, h, head_mask]
          cases cs with
          | nil =>
              rw [List.head?_nil, eq_comm, List.head?_eq_none_iff] at hhead
              rw [hhead]
              exact .nil
          | cons c cs =>
              obtain ⟨ds, rfl⟩ := List.head?_eq_some_iff.mp hhead.symm
              have hshort : cs.length < n := by
                rw [← hlength, List.length_cons]
                exact Nat.lt_succ_self _
              by_cases hquote : c = '\''
              · rw [maskFrom, maskFrom, if_pos hquote, if_pos hquote, List.cons.injEq] at h
                rw [hquote]
                exact .opening (ih _ hshort h.2 rfl)
              · rw [maskFrom, maskFrom, if_neg hquote, if_neg hquote, if_neg (by decide),
                  if_neg (by decide), List.cons.injEq] at h
                exact .outside hquote (ih _ hshort h.2 rfl)

/-- Texts that agree outside of literals have the same mask. -/
theorem AgreeOutside.mask_eq (h : AgreeOutside inside cs ds) :
    maskFrom inside cs = maskFrom inside ds := by
  induction h with
  | nil => rfl
  | outside hquote _ ih => rw [maskFrom, maskFrom, if_neg hquote, if_neg hquote, ih]
  | opening _ ih =>
      rw [maskFrom, maskFrom, if_pos rfl]
      exact congrArg _ ih
  | closing hcontent hcontent' hbytes _ ih =>
      rw [mask_from_closing hcontent, mask_from_closing hcontent', hbytes, ih]
  | unclosed hcontent hcontent' hbytes =>
      rw [mask_from_unclosed hcontent, mask_from_unclosed hcontent', hbytes]

/-- Two texts have the same mask exactly when they differ in the contents of literals only. -/
theorem mask_from_eq_iff : maskFrom inside cs = maskFrom inside ds ↔ AgreeOutside inside cs ds :=
  ⟨agree_outside_of_mask_eq, AgreeOutside.mask_eq⟩

/-- A query is blank when its mask is. -/
theorem all_blank_mask (cs : List Char) : (mask cs).all isBlank = cs.all isBlank := by
  induction cs with
  | nil => rfl
  | cons c cs ih =>
      by_cases hquote : c = '\''
      · rw [hquote]
        rfl
      · rw [mask_cons hquote, List.all_cons, List.all_cons, ih]

end Mask

/-- The checks that are to see nothing of what literals hold. -/
def Check.looksOutside : Check → Bool
  | .leadingSelect | .fromClause | .balancedParentheses | .comparisonOperators | .emptyConditions
  | .commonTypos | .unknownFunctions | .doubleQuotedLiterals | .timeClause | .clauseOrder
  | .limitValue | .aggregationUsage => true
  | .emptyQuery | .balancedQuotes | .wildcardWithEquals | .likeWithoutWildcard | .matchAllPatterns
  | .whitespaceAndTerminator => false

/-- The checks that have nothing to say of a blank query. -/
def Check.passesBlank : Check → Bool
  | .leadingSelect | .fromClause | .whitespaceAndTerminator | .timeClause => true
  | _ => false

/-- What a check remarks on a query, when the query itself is asked whether it is blank, and all
that is shown of it is cut out of it. -/
def remarksOnQuery? (check : Check) (query : List Char) : Option (List Remark) :=
  if check.passesBlank && query.all isBlank then some [] else remarksBySlices? check query

section Check

variable {check : Check} {query other : List Char}

/-- A check that passes over blank queries remarks nothing on them. -/
theorem remarks_of_blank (hcheck : check.passesBlank = true) (hblank : query.all isBlank = true) :
    remarksOf check query = [] := by
  have hmask : (mask query).all isBlank = true := by rw [all_blank_mask, hblank]
  cases check with
  | leadingSelect => exact if_pos hmask
  | fromClause => exact if_pos hmask
  | whitespaceAndTerminator => exact if_pos hblank
  | timeClause => exact if_pos hmask
  | _ => cases hcheck

/-- Looking at the query itself does not change the remarks. -/
theorem remarks_on_query_eq (check : Check) (query : List Char) :
    remarksOnQuery? check query = some (remarksOf check query) := by
  unfold remarksOnQuery?
  split
  next hblank =>
    rw [Bool.and_eq_true] at hblank
    rw [remarks_of_blank hblank.1 hblank.2]
  next => exact remarks_by_slices_eq check query

/-- The remarks of a check that looks outside of literals are made on the mask. -/
theorem remarks_of_mask_eq (hcheck : check.looksOutside = true) (h : mask query = mask other) :
    remarksOf check query = remarksOf check other := by
  cases check with
  | emptyQuery | balancedQuotes | wildcardWithEquals | likeWithoutWildcard | matchAllPatterns
  | whitespaceAndTerminator => cases hcheck
  | _ => simp only [remarksOf, h]

end Check

/-- The finding without the text around its position. -/
def Finding.withoutExcerpt (finding : Finding) : Finding :=
  { finding with excerpt := none }

/-- Without its excerpt, a finding shows its remark and nothing else of the query. -/
theorem without_excerpt_of_remark (query other : List Char) (check : Check) (remark : Remark) :
    (Finding.ofRemark query check remark).withoutExcerpt =
      (Finding.ofRemark other check remark).withoutExcerpt :=
  rfl

/-- Two queries have the same mask exactly when they differ in the contents of literals only. Each
check that looks outside of literals then makes the same remarks on both, and does so when it looks
at the queries themselves; the findings are equal but for the excerpts. -/
theorem validate_outside_literals (query other : String) :
    (mask query.toList = mask other.toList ↔ AgreeOutside false query.toList other.toList) ∧
    (mask query.toList = mask other.toList → ∀ check : Check, check.looksOutside = true →
      (∃ remarks, remarksOnQuery? check query.toList = some remarks ∧
        remarksOnQuery? check other.toList = some remarks) ∧
      (validateWith [check] query).findings.map Finding.withoutExcerpt =
        (validateWith [check] other).findings.map Finding.withoutExcerpt) := by
  refine ⟨mask_from_eq_iff, fun h check hcheck => ?_⟩
  have hremarks := remarks_of_mask_eq hcheck h
  refine ⟨⟨remarksOf check query.toList, remarks_on_query_eq check _, ?_⟩, ?_⟩
  · rw [hremarks]
    exact remarks_on_query_eq check _
  · simp only [validateWith, List.flatMap_cons, List.flatMap_nil, List.append_nil, List.map_map,
      hremarks]
    exact List.map_congr_left fun remark _ => without_excerpt_of_remark _ _ check remark

/-- A bad limit stands between two literals, of which one holds a limit in one of the queries, and
the other one is not closed. -/
theorem validate_outside_literals_around_limit :
    AgreeOutside false "WHERE a = 'é from' LIMIT ten 'x".toList
        "WHERE a = 'LIMIT 5' LIMIT ten '(".toList ∧
    remarksOnQuery? .limitValue "WHERE a = 'é from' LIMIT ten 'x".toList =
      some [⟨.error, "LIMIT value 'ten' is not a positive integer", some 20⟩] ∧
    (validateWith [.limitValue] "WHERE a = 'é from' LIMIT ten 'x").findings.map
        Finding.withoutExcerpt =
      (validateWith [.limitValue] "WHERE a = 'LIMIT 5' LIMIT ten '(").findings.map
        Finding.withoutExcerpt := by
  have hmask : mask "WHERE a = 'é from' LIMIT ten 'x".toList =
      mask "WHERE a = 'LIMIT 5' LIMIT ten '(".toList := by decide
  have hboth := validate_outside_literals "WHERE a = 'é from' LIMIT ten 'x"
    "WHERE a = 'LIMIT 5' LIMIT ten '("
  exact ⟨hboth.1.mp hmask, by decide +kernel, (hboth.2 hmask .limitValue rfl).2⟩

end Ariel.Validation
