import Ariel.Proofs.Text.Word
import Ariel.Proofs.Validation.Mask
import Ariel.Proofs.Validation.Pattern

/-!
# Where clauses open

A clause opens with one of eight keywords as a whole word, or with LAST and a number. `Quiet` texts
open no clause, whatever follows them; they can be put one after the other (`Quiet.append`). A text
that opens no clause outside of its literals is quiet as soon as what follows it is separated from
it (`quiet_mask`).
-/

namespace Ariel.Validation

open Ariel.Text

variable {cs ds front tail after word rest : List Char} {c : Char}

/-- The keywords that open a clause by themselves. -/
def clauseWords : List String :=
  ["SELECT", "FROM", "WHERE", "GROUP", "HAVING", "ORDER", "LIMIT", "START"]

/-- A text begins with a keyword that opens a clause, or with LAST and a number behind blanks. -/
inductive OpensClause : List Char → Prop where
  | keyword {word rest : List Char} :
      String.ofList (capitals word) ∈ clauseWords → endsWord rest = true →
      OpensClause (word ++ rest)
  | last {word gap rest : List Char} {digit : Char} :
      capitals word = "LAST".toList → gap ≠ [] → (∀ c ∈ gap, isBlank c = true) →
      isDecimalDigit digit = true → OpensClause (word ++ (gap ++ digit :: rest))

/-- What may stand behind a text without going on with its last word or with its last number. -/
structure Separated (after : List Char) : Prop where
  word : endsWord after = true
  number : ∀ c ∈ (dropBlanks after).head?, isDecimalDigit c = false

/-- No clause opens in a text that is followed by another. -/
def Quiet (text after : List Char) : Prop :=
  ∀ front tail, text = front ++ tail → tail ≠ [] → beginsWord front.getLast? = true →
    ¬ OpensClause (tail ++ after)

/-- The words with which clauses open. -/
def openings : List (List Char) :=
  (clauseWords ++ ["LAST"]).map String.toList

/-- Openings are made of capital letters. -/
theorem is_alpha_of_mem_opening {opening : List Char} (h : opening ∈ openings) :
    opening ≠ [] ∧ ∀ c ∈ opening, c.isAlpha = true := by
  have hall : ∀ opening ∈ openings, opening ≠ [] ∧ opening.all Char.isAlpha = true := by decide
  exact ⟨(hall opening h).1, List.all_eq_true.mp (hall opening h).2⟩

/-- A keyword that opens a clause by itself is an opening. -/
theorem mem_openings_of_keyword (h : String.ofList (capitals word) ∈ clauseWords) :
    capitals word ∈ openings :=
  List.mem_map.mpr ⟨_, List.mem_append_left _ h, String.toList_ofList⟩

/-- A text that opens a clause begins with an opening, in some letter case. -/
theorem OpensClause.exists_opening (h : OpensClause cs) :
    ∃ word rest, cs = word ++ rest ∧ capitals word ∈ openings := by
  cases h with
  | @keyword word rest hword _ => exact ⟨word, rest, rfl, mem_openings_of_keyword hword⟩
  | @last word gap rest digit hword _ _ _ =>
      exact ⟨word, _, rfl, List.mem_map.mpr ⟨"LAST", by simp, hword.symm⟩⟩

/-- A word that opens a clause is made of letters. -/
theorem is_alpha_of_opening (h : capitals word ∈ openings) :
    word ≠ [] ∧ ∀ c ∈ word, c.isAlpha = true := by
  obtain ⟨hne, hletters⟩ := is_alpha_of_mem_opening h
  refine ⟨fun hnil => hne (by rw [hnil]; rfl), fun c hc => ?_⟩
  have := hletters c.toUpper (List.mem_map_of_mem hc)
  rwa [is_alpha_to_upper] at this

/-- The first character of a text that opens a clause is a letter. -/
theorem OpensClause.exists_head (h : OpensClause cs) :
    ∃ c rest, cs = c :: rest ∧ c.isAlpha = true := by
  obtain ⟨word, rest, rfl, hword⟩ := h.exists_opening
  obtain ⟨hne, hletters⟩ := is_alpha_of_opening hword
  obtain ⟨c, more, rfl⟩ := List.exists_cons_of_ne_nil hne
  exact ⟨c, more ++ rest, rfl, hletters c (by simp)⟩

/-- The beginning of a clause. -/
def opening : Pattern Unit :=
  firstOf (clauseWords.map wholeWord ++ [lastAmount])

/-- The pattern holds where a clause opens and a word can begin. -/
theorem exists_opening_iff {before : Option Char} :
    (∃ u rest, opening before cs = some (u, rest)) ↔ beginsWord before = true ∧ OpensClause cs := by
  constructor
  · rintro ⟨u, rest, h⟩
    obtain ⟨p, hmem, hp⟩ := exists_of_first_of_eq_some h
    rcases List.mem_append.mp hmem with hmem | hmem
    · obtain ⟨keyword, hkeyword, rfl⟩ := List.mem_map.mp hmem
      obtain ⟨hbegins, hends, word, rfl, hword⟩ := whole_word_eq_some_iff.mp hp
      refine ⟨hbegins, .keyword ?_ hends⟩
      rwa [hword, String.ofList_toList]
    · obtain rfl := List.mem_singleton.mp hmem
      obtain ⟨hbegins, word, gap, digit, rfl, hword, hne, hgap, hdigit⟩ :=
        last_amount_eq_some_iff.mp hp
      exact ⟨hbegins, .last hword hne hgap hdigit⟩
  · rintro ⟨hbegins, h⟩
    have hsome : ∃ p ∈ clauseWords.map wholeWord ++ [lastAmount], ∃ u rest,
        p before cs = some (u, rest) := by
      cases h with
      | @keyword word rest hword hends =>
          refine ⟨_, List.mem_append_left _ (List.mem_map_of_mem hword), (), rest, ?_⟩
          exact whole_word_eq_some_iff.mpr ⟨hbegins, hends, word, rfl, String.toList_ofList.symm⟩
      | @last word gap rest digit hword hne hgap hdigit =>
          refine ⟨lastAmount, by simp, (), rest, ?_⟩
          exact last_amount_eq_some_iff.mpr
            ⟨hbegins, word, gap, digit, rfl, hword, hne, hgap, hdigit⟩
    obtain ⟨p, hmem, u, rest, hp⟩ := hsome
    have hfirst : (opening before cs).isSome = true :=
      List.findSome?_isSome_iff.mpr ⟨p, hmem, by rw [hp]; rfl⟩
    obtain ⟨⟨u, rest⟩, hfound⟩ := Option.isSome_iff_exists.mp hfirst
    exact ⟨u, rest, hfound⟩

section Quiet

/-- An empty text is quiet. -/
theorem quiet_nil : Quiet [] after := by
  intro front tail hsplit hne
  exact absurd (List.append_eq_nil_iff.mp hsplit.symm).2 hne

/-- Quiet texts one after the other are quiet. -/
theorem Quiet.append (h : Quiet cs (ds ++ after)) (hds : Quiet ds after) :
    Quiet (cs ++ ds) after := by
  intro front tail hsplit hne hbegins
  rcases List.append_eq_append_iff.mp hsplit with ⟨more, rfl, hrest⟩ | ⟨more, hfront, rfl⟩
  · exact hds more tail hrest hne (begins_word_append hbegins)
  · cases more with
    | nil => exact hds [] ds rfl hne rfl
    | cons c more =>
        rw [List.append_assoc]
        exact h front (c :: more) hfront (by simp) hbegins

/-- A text without letters is quiet. -/
theorem quiet_of_no_letter (h : ∀ c ∈ cs, c.isAlpha = false) : Quiet cs after := by
  intro front tail hsplit hne _ hopens
  obtain ⟨c, rest, hhead, hletter⟩ := hopens.exists_head
  obtain ⟨d, more, rfl⟩ := List.exists_cons_of_ne_nil hne
  obtain ⟨rfl, -⟩ := List.cons.inj hhead
  rw [h d (by simp [hsplit])] at hletter
  cases hletter

/-- Whether an opening may stand at the beginning of a text and of what follows it. -/
def mayOpen (cs : List Char) : Bool :=
  openings.any fun opening => opening.isPrefixOf (capitals cs) || (capitals cs).isPrefixOf opening

/-- Whether no opening can begin in a text, whatever follows it. -/
def quietFrom : (before : Option Char) → List Char → Bool
  | _, [] => true
  | before, c :: cs => !(beginsWord before && mayOpen (c :: cs)) && quietFrom (some c) cs

/-- A text and what follows it open a clause only where an opening may stand. -/
theorem may_open_of_opens_clause (h : OpensClause (cs ++ after)) : mayOpen cs = true := by
  obtain ⟨word, rest, hsplit, hword⟩ := h.exists_opening
  have hfirst : capitals word <+: capitals cs ++ capitals after := by
    rw [← capitals_append, hsplit, capitals_append]
    exact List.prefix_append _ _
  refine List.any_eq_true.mpr ⟨capitals word, hword, ?_⟩
  rw [Bool.or_eq_true, List.isPrefixOf_iff_prefix, List.isPrefixOf_iff_prefix]
  exact List.prefix_or_prefix_of_prefix hfirst (List.prefix_append _ _)

/-- Texts that are found to be quiet are quiet. -/
theorem quiet_of_quiet_from {before : Option Char} (h : quietFrom before cs = true)
    (hsplit : cs = front ++ tail) (hne : tail ≠ [])
    (hbegins : beginsWord (front.getLast?.or before) = true) : ¬ OpensClause (tail ++ after) := by
  induction cs generalizing before front with
  | nil => exact absurd (List.append_eq_nil_iff.mp hsplit.symm).2 hne
  | cons c cs ih =>
      simp only [quietFrom, Bool.and_eq_true, Bool.not_eq_true', Bool.and_eq_false_iff] at h
      cases front with
      | nil =>
          obtain rfl : c :: cs = tail := hsplit
          intro hopens
          have hmay := may_open_of_opens_clause hopens
          have hbefore : beginsWord before = true := hbegins
          rcases h.1 with hnot | hnot
          · rw [hbefore] at hnot
            cases hnot
          · rw [hmay] at hnot
            cases hnot
      | cons d front =>
          obtain ⟨rfl, hrest⟩ := List.cons.inj hsplit
          rw [last_cons_or] at hbegins
          exact ih h.2 hrest hbegins

/-- Texts that are found to be quiet are quiet, whatever follows them. -/
theorem quiet_of_constant (h : quietFrom none cs = true) : Quiet cs after := by
  intro front tail hsplit hne hbegins
  rw [← Option.or_none (o := front.getLast?)] at hbegins
  exact quiet_of_quiet_from h hsplit hne hbegins

end Quiet

section Separated

/-- A word that goes on behind a text goes on with a word character. -/
theorem prefix_of_separated (h : endsWord after = true) (hsplit : cs ++ after = word ++ rest)
    (hletters : ∀ c ∈ word, c.isAlpha = true) :
    ∃ more, cs = word ++ more ∧ rest = more ++ after := by
  rcases List.append_eq_append_iff.mp hsplit with ⟨more, hword, hafter⟩ | ⟨more, hcs, hrest⟩
  · cases more with
    | nil => exact ⟨[], by simpa using hword.symm, by simpa using hafter.symm⟩
    | cons c more =>
        have hletter : isWordCharacter c = true :=
          is_word_character_of_alpha (hletters c (by simp [hword]))
        rw [hafter] at h
        simp [endsWord, hletter] at h
  · exact ⟨more, hcs, hrest⟩

/-- What ends a word and has no digit behind its first blanks is separated. -/
theorem separated_of_head {c : Char} (hends : endsWord after = true)
    (hdrop : dropBlanks after = c :: rest) (hc : isDecimalDigit c = false) : Separated after := by
  refine ⟨hends, fun d hd => ?_⟩
  rw [hdrop] at hd
  obtain rfl : c = d := Option.some.inj hd
  exact hc

/-- No digit stands behind the blanks with which a separated text begins. -/
theorem Separated.ne_digit (h : Separated after) {gap : List Char} {digit : Char}
    (hgap : ∀ c ∈ gap, isBlank c = true) (hdigit : isDecimalDigit digit = true) :
    after ≠ gap ++ digit :: rest := by
  rintro rfl
  have hsolid : ∀ c ∈ (digit :: rest).head?, isBlank c = false := by
    simpa using is_blank_of_decimal_digit hdigit
  have hhead : digit ∈ (dropBlanks (gap ++ digit :: rest)).head? := by
    rw [drop_blanks_append hgap, drop_blanks_of_head hsolid]
    rfl
  rw [h.number digit hhead] at hdigit
  cases hdigit

/-- A text does not need what is separated from it to open a clause. -/
theorem OpensClause.of_append (hafter : Separated after) (h : OpensClause (cs ++ after)) :
    OpensClause cs := by
  generalize hsplit : cs ++ after = text at h
  cases h with
  | @keyword word rest hword hends =>
      have hopening := mem_openings_of_keyword hword
      obtain ⟨more, rfl, rfl⟩ :=
        prefix_of_separated hafter.word hsplit (is_alpha_of_opening hopening).2
      refine .keyword hword ?_
      cases more with
      | nil => rfl
      | cons c more => exact hends
  | @last word gap rest digit hword hne hgap hdigit =>
      have hopening : capitals word ∈ openings := List.mem_map.mpr ⟨"LAST", by simp, hword.symm⟩
      obtain ⟨more, rfl, hrest⟩ :=
        prefix_of_separated hafter.word hsplit (is_alpha_of_opening hopening).2
      -- The text ends behind the digit, for the digit does not belong to what is separated.
      rcases List.append_eq_append_iff.mp hrest with ⟨gap', rfl, htail⟩ | ⟨gap', hmore, htail⟩
      · cases gap' with
        | nil =>
            have hnone : ∀ c ∈ ([] : List Char), isBlank c = true := by simp
            exact absurd htail.symm (hafter.ne_digit hnone hdigit)
        | cons d gap' =>
            obtain ⟨rfl, -⟩ := List.cons.inj htail
            exact .last hword hne hgap hdigit
      · refine absurd htail (hafter.ne_digit (fun c hc => hgap c ?_) hdigit)
        rw [hmore]
        exact List.mem_append_right _ hc

/-- No quote stands in a word that opens a clause. -/
theorem quote_not_mem_opening (h : capitals word ∈ openings) : '\'' ∉ word :=
  fun hquote => absurd ((is_alpha_of_opening h).2 _ hquote) (by decide)

/-- No quote stands in LAST, the blanks behind it and the digit behind these. -/
theorem quote_not_mem_last {gap : List Char} {digit : Char} (hword : capitals word = "LAST".toList)
    (hgap : ∀ c ∈ gap, isBlank c = true) (hdigit : isDecimalDigit digit = true) :
    '\'' ∉ word ++ (gap ++ [digit]) := by
  have hopening : capitals word ∈ openings := List.mem_map.mpr ⟨"LAST", by simp, hword.symm⟩
  simp only [List.mem_append, List.mem_singleton, not_or]
  refine ⟨quote_not_mem_opening hopening, fun hmem => ?_, ?_⟩
  · exact absurd (hgap _ hmem) (by decide)
  · rintro rfl
    exact absurd hdigit (by decide)

/-- Quotes stand between a mask and its text where they differ: a text that begins outside of
literals opens a clause exactly when its mask does. -/
theorem opens_clause_mask_iff : OpensClause (maskFrom false cs) ↔ OpensClause cs := by
  constructor
  · intro h
    generalize hmask : maskFrom false cs = text at h
    cases h with
    | @keyword word rest hword hends =>
        have hquote := quote_not_mem_opening (mem_openings_of_keyword hword)
        obtain ⟨cs', rfl, rfl⟩ := mask_false_eq_append hmask hquote
        refine .keyword hword ?_
        rwa [endsWord, head_mask] at hends
    | @last word gap rest digit hword hne hgap hdigit =>
        have hrun : maskFrom false cs = (word ++ (gap ++ [digit])) ++ rest := by simpa using hmask
        obtain ⟨cs', rfl, -⟩ := mask_false_eq_append hrun (quote_not_mem_last hword hgap hdigit)
        have hopens : OpensClause (word ++ (gap ++ digit :: cs')) := .last hword hne hgap hdigit
        simpa using hopens
  · intro h
    cases h with
    | @keyword word rest hword hends =>
        have hquote := quote_not_mem_opening (mem_openings_of_keyword hword)
        show OpensClause (mask (word ++ rest))
        rw [mask_append_of_no_quote hquote]
        refine .keyword hword ?_
        rwa [endsWord, mask, head_mask]
    | @last word gap rest digit hword hne hgap hdigit =>
        have hquote := quote_not_mem_last hword hgap hdigit
        have hsplit : word ++ (gap ++ digit :: rest) = (word ++ (gap ++ [digit])) ++ rest := by simp
        have hmask :
            mask (word ++ (gap ++ digit :: rest)) = word ++ (gap ++ digit :: mask rest) := by
          rw [hsplit, mask_append_of_no_quote hquote]
          simp
        show OpensClause (mask (word ++ (gap ++ digit :: rest)))
        rw [hmask]
        exact .last hword hne hgap hdigit

/-- A text opens no clause outside of its literals. -/
def QuietOutside (text : List Char) : Prop :=
  ∀ before after, text = before ++ after → Even (before.count '\'') →
    beginsWord before.getLast? = true → ¬ OpensClause after

/-- The mask of a text that opens no clause outside of its literals is quiet before what is
separated from it. -/
theorem quiet_mask (h : QuietOutside cs) (hafter : Separated after) : Quiet (mask cs) after := by
  intro front tail hsplit hne hbegins hopens
  have htail := OpensClause.of_append hafter hopens
  -- The keyword begins with a letter, which stands at the same place outside of literals.
  obtain ⟨c, rest, rfl, hletter⟩ := htail.exists_head
  have hquote : c ≠ '\'' := by
    rintro rfl
    exact absurd hletter (by decide)
  obtain ⟨front', cs', rfl, rfl, heven, rfl⟩ :=
    exists_outside_of_mask hsplit (is_blank_of_alpha hletter) hquote
  rw [mask, last_mask (ends_inside_of_even heven)] at hbegins
  rw [← mask_cons hquote] at htail
  exact h front' (c :: cs') rfl heven hbegins (opens_clause_mask_iff.mp htail)

/-- A text opens no clause outside of its literals exactly when none opens in its mask. -/
theorem quiet_outside_iff : QuietOutside cs ↔ occurrences opening (mask cs) = [] := by
  rw [occurrences_eq_nil_iff]
  constructor
  · rintro h front tail u hsplit ⟨hne, rest, hmatch⟩
    have hquiet : Quiet (mask cs) [] := quiet_mask h ⟨rfl, by simp [dropBlanks]⟩
    obtain ⟨hbegins, hopens⟩ := exists_opening_iff.mp ⟨u, rest, hmatch⟩
    refine hquiet front tail hsplit hne hbegins ?_
    rwa [List.append_nil]
  · rintro h before after rfl heven hbegins hopens
    have hinside := ends_inside_of_even heven
    rw [← last_mask hinside] at hbegins
    have hmask : OpensClause (mask after) := opens_clause_mask_iff.mpr hopens
    obtain ⟨u, rest, hmatch⟩ := exists_opening_iff.mpr ⟨hbegins, hmask⟩
    obtain ⟨c, more, hcons, -⟩ := hmask.exists_head
    exact h (mask before) (mask after) u (mask_append heven) ⟨by simp [hcons], rest, hmatch⟩

end Separated

end Ariel.Validation
