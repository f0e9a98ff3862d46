import Ariel.Proofs.Validation.Fragment
import Ariel.Proofs.Validation.Outside

/-!
# Other contents of literals

What a fragment holds between the quotes of its literals may be put in the place of something else:
as long as neither brings quotes, the text stays a fragment, however long its literals become
(`Restuffed.fragment`).
-/

namespace Ariel.Validation

open Ariel.Text

variable {cs cs' ds : List Char}

/-- A text that can stand between quotes. -/
structure Quotable (content : List Char) : Prop where
  singleQuotes : '\'' ∉ content
  doubleQuotes : '"' ∉ content

/-- Two texts with the same characters outside of literals, and as many literals, whose contents may
differ. -/
inductive Restuffed : List Char → List Char → Prop where
  | nil : Restuffed [] []
  | outside {c : Char} {cs ds : List Char} :
      c ≠ '\'' → Restuffed cs ds → Restuffed (c :: cs) (c :: ds)
  | literal {content content' cs ds : List Char} :
      Quotable content → Quotable content' → Restuffed cs ds →
      Restuffed ('\'' :: (content ++ '\'' :: cs)) ('\'' :: (content' ++ '\'' :: ds))

namespace Restuffed

theorem symm (h : Restuffed cs ds) : Restuffed ds cs := by
  induction h with
  | nil => exact .nil
  | outside hquote _ ih => exact .outside hquote ih
  | literal hcontent hcontent' _ ih => exact .literal hcontent' hcontent ih

/-- Without quotes, nothing can be different. -/
theorem eq_of_no_quote (h : Restuffed cs ds) (hquote : '\'' ∉ cs) : ds = cs := by
  induction h with
  | nil => rfl
  | outside _ _ ih => rw [ih fun hmem => hquote (List.mem_cons_of_mem _ hmem)]
  | literal => exact absurd List.mem_cons_self hquote

/-- Both texts have as many quotes of either kind. -/
theorem count_eq (h : Restuffed cs ds) {mark : Char} (hmark : mark ∈ ['\'', '"']) :
    cs.count mark = ds.count mark := by
  induction h with
  | nil => rfl
  | outside _ _ ih => rw [List.count_cons, List.count_cons, ih]
  | @literal content content' _ _ hcontent hcontent' _ ih =>
      have hnone : ∀ {content : List Char}, Quotable content → content.count mark = 0 := by
        intro content hcontent
        simp only [List.mem_cons, List.not_mem_nil, or_false] at hmark
        rcases hmark with rfl | rfl
        · exact List.count_eq_zero.mpr hcontent.singleQuotes
        · exact List.count_eq_zero.mpr hcontent.doubleQuotes
      rw [List.count_cons, List.count_cons, List.count_append, List.count_append, List.count_cons,
        List.count_cons, hnone hcontent, hnone hcontent', ih]

/-- A text that begins with a literal has a counterpart that does. -/
theorem exists_literal {content : List Char} (h : Restuffed ('\'' :: (content ++ '\'' :: cs)) ds)
    (hcontent : '\'' ∉ content) : ∃ content' rest, ds = '\'' :: (content' ++ '\'' :: rest) ∧
      Quotable content' ∧ Restuffed cs rest := by
  generalize htext : content ++ '\'' :: cs = text at h
  cases h with
  | outside hquote _ => exact absurd rfl hquote
  | literal hstuffing hcontent' hrest =>
      obtain ⟨-, rfl⟩ := content_inj hcontent hstuffing.singleQuotes htext
      exact ⟨_, _, rfl, hcontent', hrest⟩

/-- Both texts begin with the same character. -/
theorem head_eq (h : Restuffed cs ds) : ds.head? = cs.head? := by
  cases h <;> rfl

/-- Both texts end with the same character. -/
theorem last_eq (h : Restuffed cs ds) : ds.getLast? = cs.getLast? := by
  induction h with
  | nil => rfl
  | outside _ _ ih => rw [List.getLast?_cons, List.getLast?_cons, ih]
  | literal _ _ _ ih =>
      rw [← List.cons_append, ← List.cons_append, List.getLast?_append, List.getLast?_append,
        List.getLast?_cons, List.getLast?_cons, ih, Option.some_or, List.getLast?_cons,
        Option.some_or]

/-- A text in two parts, of which the first closes its literals, is different part by part. -/
theorem split (h : Restuffed (cs ++ cs') ds) (heven : Even (cs.count '\'')) :
    ∃ left right, ds = left ++ right ∧ Restuffed cs left ∧ Restuffed cs' right := by
  generalize hsplit : cs ++ cs' = text at h
  induction h generalizing cs with
  | nil =>
      obtain ⟨rfl, rfl⟩ := List.append_eq_nil_iff.mp hsplit
      exact ⟨[], [], rfl, .nil, .nil⟩
  | @outside c rest ds hquote h ih =>
      cases cs with
      | nil =>
          obtain rfl : cs' = c :: rest := hsplit
          exact ⟨[], c :: ds, rfl, .nil, .outside hquote h⟩
      | cons d cs =>
          obtain ⟨rfl, hrest⟩ := List.cons.inj hsplit
          rw [List.count_cons_of_ne hquote] at heven
          obtain ⟨left, right, rfl, hleft, hright⟩ := ih heven hrest
          exact ⟨d :: left, right, rfl, .outside hquote hleft, hright⟩
  | @literal content content' rest ds hcontent hcontent' h ih =>
      cases cs with
      | nil =>
          obtain rfl : cs' = '\'' :: (content ++ '\'' :: rest) := hsplit
          exact ⟨[], _, rfl, .nil, .literal hcontent hcontent' h⟩
      | cons d cs =>
          obtain ⟨rfl, hbehind⟩ := List.cons.inj hsplit
          -- The first part holds the whole literal, as it closes what it opens.
          have hnone := List.count_eq_zero.mpr hcontent.singleQuotes
          rw [List.count_cons_self] at heven
          rcases List.append_eq_append_iff.mp hbehind with ⟨more, rfl, -⟩ | ⟨more, rfl, hmore⟩
          · rw [List.count_append] at hnone
            rw [show cs.count '\'' = 0 by omega] at heven
            exact absurd heven (by decide)
          · cases more with
            | nil =>
                rw [List.append_nil, hnone] at heven
                exact absurd heven (by decide)
            | cons e more =>
                obtain ⟨rfl, hrest⟩ := List.cons.inj hmore
                rw [List.count_append, List.count_cons_self, hnone] at heven
                have hmore : Even (more.count '\'') := by
                  rw [Nat.even_iff] at heven ⊢
                  omega
                obtain ⟨left, right, rfl, hleft, hright⟩ := ih hmore hrest.symm
                exact ⟨'\'' :: (content' ++ '\'' :: left), right, by simp,
                  .literal hcontent hcontent' hleft, hright⟩

/-- Both texts begin with the same characters up to a quote. -/
theorem split_of_no_quote (h : Restuffed (cs ++ cs') ds) (hquote : '\'' ∉ cs) :
    ∃ right, ds = cs ++ right ∧ Restuffed cs' right := by
  obtain ⟨left, right, rfl, hleft, hright⟩ := h.split (even_count_of_not_mem hquote)
  exact ⟨right, by rw [hleft.eq_of_no_quote hquote], hright⟩

/-- Both texts open a clause, or neither does. -/
theorem opens_clause (h : Restuffed cs ds) (hcs : OpensClause cs) : OpensClause ds := by
  cases hcs with
  | @keyword word rest hword hends =>
      have hquote := quote_not_mem_opening (mem_openings_of_keyword hword)
      obtain ⟨right, rfl, hright⟩ := h.split_of_no_quote hquote
      refine .keyword hword ?_
      rwa [endsWord, hright.head_eq]
  | @last word gap rest digit hword hne hgap hdigit =>
      have hrun : Restuffed ((word ++ (gap ++ [digit])) ++ rest) ds := by simpa using h
      obtain ⟨right, rfl, -⟩ := hrun.split_of_no_quote (quote_not_mem_last hword hgap hdigit)
      have hopens : OpensClause (word ++ (gap ++ digit :: right)) := .last hword hne hgap hdigit
      simpa using hopens

/-- Literals with other contents open no clause. -/
theorem quiet_outside (h : Restuffed cs ds) (hcs : QuietOutside cs) : QuietOutside ds := by
  rintro before after rfl heven hbegins hopens
  obtain ⟨left, right, rfl, hleft, hright⟩ := h.symm.split heven
  refine hcs left right rfl ?_ ?_ (hright.opens_clause hopens)
  · rwa [← hleft.count_eq (by simp)]
  · rwa [hleft.last_eq]

/-- Literals with other contents leave parentheses in pairs. -/
theorem balanced (h : Restuffed cs ds) (hcs : Balanced cs) : Balanced ds := by
  induction hcs generalizing ds with
  | nil =>
      cases h
      exact .nil
  | other hquote hopen hclose _ ih =>
      cases h with
      | outside _ h => exact .other hquote hopen hclose (ih h)
      | literal => exact absurd rfl hquote
  | literal hcontent _ ih =>
      obtain ⟨content', rest, rfl, hcontent', hrest⟩ := h.exists_literal hcontent
      exact .literal hcontent'.singleQuotes (ih hrest)
  | @group inner cs hinner _ ihinner ih =>
      cases h with
      | outside _ h =>
          obtain ⟨inner', rest, rfl, hinner', hrest⟩ := h.split hinner.even_quotes
          cases hrest with
          | outside _ hrest => exact .group (ihinner hinner') (ih hrest)

/-- Literals with other contents bring no other operators. -/
theorem comparisons (h : Restuffed cs ds)
    (hcs : ∀ before c after, cs = before ++ '=' :: c :: after → Even (before.count '\'') →
      c ∉ afterEquals) :
    ∀ before c after, ds = before ++ '=' :: c :: after → Even (before.count '\'') →
      c ∉ afterEquals := by
  rintro before c after rfl heven
  obtain ⟨left, right, rfl, hleft, hright⟩ := h.symm.split heven
  obtain ⟨rest, rfl, hrest⟩ : ∃ rest, right = '=' :: rest ∧ Restuffed (c :: after) rest := by
    cases hright with
    | outside _ hrest => exact ⟨_, rfl, hrest⟩
  obtain ⟨after', rfl⟩ := List.head?_eq_some_iff.mp hrest.head_eq
  exact hcs left c after' rfl (by rwa [← hleft.count_eq (by simp)])

/-- A fragment stays one when its literals get other contents. -/
theorem fragment (h : Restuffed cs ds) (hcs : Fragment cs) : Fragment ds where
  singleQuotes := by
    rw [← h.count_eq (by simp)]
    exact hcs.singleQuotes
  doubleQuotes := by
    rw [← h.count_eq (by simp)]
    exact hcs.doubleQuotes
  balanced := h.balanced hcs.balanced
  comparisons := h.comparisons hcs.comparisons
  quiet := h.quiet_outside hcs.quiet

end Restuffed

end Ariel.Validation
