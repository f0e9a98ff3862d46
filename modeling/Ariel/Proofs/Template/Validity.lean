import Ariel.Proofs.Query.Lines
import Ariel.Proofs.Template.FillingOrder
import Ariel.Proofs.Template.Sheltered

/-!
# Filled templates are valid

A library query is a list of clauses, one below the other, and its holes stand in literals, the one
for the number of an offense apart. So whatever is filled in, the clauses stay what they are, and no
check finds an error in the query (`render_no_error`).
-/

namespace Ariel.Template

open Ariel.Text Ariel.Validation Ariel.Query

variable {cs : List Char} {t : Template} {values : List (String × String)}

section Lines

/-- Texts one below the other. -/
def stacked : List (List Char) → List Char
  | [] => []
  | [cs] => cs
  | cs :: next :: rest => cs ++ '\n' :: stacked (next :: rest)

/-- The characters of lines. -/
theorem to_list_join_lines (texts : List String) :
    (join "\n" texts).toList = stacked (texts.map String.toList) := by
  induction texts with
  | nil => rfl
  | cons first texts ih =>
      cases texts with
      | nil => rfl
      | cons second texts =>
          rw [join, String.toList_append, String.toList_append, ih, List.append_assoc]
          rfl

/-- Texts one below the other are filled in one by one. -/
theorem filled_stacked (hkeys : ∀ pair ∈ values, ∀ c ∈ pair.1.toList, isWordCharacter c = true)
    (texts : List (List Char)) :
    filled values (stacked texts) = stacked (texts.map (filled values)) := by
  induction texts with
  | nil => exact filled_of_nil values
  | cons first texts ih =>
      cases texts with
      | nil => rfl
      | cons second texts =>
          rw [stacked, filled_append_wall hkeys (by decide), ih]
          rfl

end Lines

section Offenses

/-- The condition that asks for the events of an offense. -/
def offenseCondition (id : List Char) : List Char :=
  "INOFFENSE".toList ++ '(' :: (id ++ [')'])

/-- The name of the hole for the number of an offense. -/
def offenseName : String := "OFFENSE_ID"

/-- Digits touch neither literals nor parentheses nor operators. -/
theorem digit_not_touching {c : Char} (h : c.isDigit = true) : c ∉ touching := by
  have hnone : touching.all (!·.isDigit) = true := by decide
  intro hmem
  have hc := List.all_eq_true.mp hnone c hmem
  rw [h] at hc
  cases hc

/-- A plain text between parentheses is closed. -/
theorem closed_group (h : ∀ c ∈ cs, c ∉ touching) : Closed ('(' :: (cs ++ [')'])) := by
  have hcs := closed_of_plain h
  have hequals : '=' ∉ '(' :: (cs ++ [')']) := by
    have hnot : '=' ∉ cs := fun hmem => h _ hmem (by decide)
    simp [hnot]
  refine ⟨?_, ?_, .group hcs.balanced .nil, fun before c after hsplit _ => ?_⟩
  · simpa using hcs.singleQuotes
  · simpa using hcs.doubleQuotes
  · rw [hsplit] at hequals
    exact absurd (by simp) hequals

/-- With a number, the condition is a fragment. -/
theorem fragment_offense {id : List Char} (hid : ∀ c ∈ id, c.isDigit = true) :
    Fragment (offenseCondition id) := by
  have hname : ("INOFFENSE".toList.all fun c => !touching.contains c) = true := by decide +kernel
  have hplain : ∀ c ∈ "INOFFENSE".toList, c ∉ touching := by
    simpa only [List.all_eq_true, Bool.not_eq_true', List.contains_eq_mem, decide_eq_false_iff_not]
      using hname
  have hgroup : Closed ('(' :: (id ++ [')'])) :=
    closed_group fun c hc => digit_not_touching (hid c hc)
  have hquiet : Quiet (offenseCondition id) [] := by
    refine (quiet_of_constant (by decide +kernel)).append (quiet_of_no_letter fun c hc => ?_)
    simp only [List.mem_cons, List.mem_append, List.not_mem_nil, or_false] at hc
    rcases hc with rfl | hc | rfl
    · decide
    · exact is_alpha_of_digit (hid c hc)
    · decide
  refine ⟨(closed_of_plain hplain).append hgroup (.inr (by simp [afterEquals])), ?_⟩
  intro before after hsplit _ hbegins hopens
  have hne : after ≠ [] := by
    obtain ⟨c, rest, rfl, -⟩ := hopens.exists_head
    exact List.cons_ne_nil _ _
  exact hquiet before after hsplit hne hbegins (by rwa [List.append_nil])

/-- The condition is a fragment while its hole is open, too. -/
theorem fragment_offense_hole : Fragment (offenseCondition (hole offenseName.toList)) := by
  decide +kernel

/-- The condition holds the number of the offense, or its hole. -/
theorem fragment_filled_offense
    (hkeys : ∀ pair ∈ values, ∀ c ∈ pair.1.toList, isWordCharacter c = true)
    (hoffense : ∀ pair ∈ values, placeholderName pair.1 = offenseName →
      ∀ c ∈ pair.2.toList, c.isDigit = true) :
    Fragment (filled values (offenseCondition (hole offenseName.toList))) := by
  have hfilled : filled values (offenseCondition (hole offenseName.toList)) =
      offenseCondition (filled values (hole offenseName.toList)) := by
    have hname : '\x7b' ∉ "INOFFENSE".toList := by decide +kernel
    have hopen : Wall '(' := by decide
    have hclose : Wall ')' := by decide
    generalize hole offenseName.toList = id
    calc filled values (offenseCondition id)
        = "INOFFENSE".toList ++ filled values ([] ++ '(' :: (id ++ [')'])) :=
          filled_append_of_no_opening hname
      _ = "INOFFENSE".toList ++ (filled values [] ++ '(' :: filled values (id ++ [')'])) := by
          rw [filled_append_wall hkeys hopen]
      _ = offenseCondition (filled values id) := by
          rw [filled_append_wall hkeys hclose, filled_of_nil]
          rfl
  have hinert : Inert [offenseName] values := by
    intro pair hpair hname other _
    have hbrace : '\x7b' ∈ (token other.1).toList := List.mem_of_mem_head? (head_token other.1)
    have hnone : occurrences (exactly (token other.1)) pair.2.toList = [] := by
      refine occurrences_exactly_eq_nil fun front back hsplit => ?_
      have hdigit := hoffense pair hpair (List.mem_singleton.mp hname) '\x7b'
        (by rw [hsplit]; simp [hbrace])
      exact absurd hdigit (by decide)
    rw [occurs, hnone]
    rfl
  rw [hfilled, filled_hole (by decide) (by decide) hinert]
  cases hvalue : valueOf? values offenseName with
  | none => exact fragment_offense_hole
  | some value =>
      obtain ⟨pair, hfound, rfl⟩ := Option.map_eq_some_iff.mp hvalue
      refine fragment_offense (hoffense pair (List.mem_of_find?_eq_some hfound) ?_)
      simpa using List.find?_some hfound

/-- No brace stands in a number. -/
theorem brace_not_mem_decimal {n : Nat} : '\x7b' ∉ (decimal n).toList :=
  fun hmem => absurd (is_digit_of_decimal hmem) (by decide)

end Offenses

/-- A clause of a library query: one with a text of its own, or one of the short ones. -/
inductive Clause where
  | free (rank : Nat) (keyword : String) (body : List Char)
  | source (table : Table)
  | limit (limited : RowLimit)
  | last (amount : UInt32) (unit : TimeUnit)
  deriving DecidableEq

/-- The keywords of the clauses with texts of their own, each with the place of the clause. -/
def freeKeywords : List (Nat × String) :=
  [(0, "SELECT "), (2, "WHERE "), (3, "GROUP BY "), (4, "HAVING "), (5, "ORDER BY ")]

namespace Clause

/-- The place of a clause in the order. -/
def rank : Clause → Nat
  | .free rank _ _ => rank
  | .source _ => 1
  | .limit _ => 6
  | .last _ _ => 7

/-- How a clause is written. -/
def chars : Clause → List Char
  | .free _ keyword body => keyword.toList ++ body
  | .source table => ("FROM " ++ table.name).toList
  | .limit limited => ("LIMIT " ++ decimal limited.rows.toNat).toList
  | .last amount unit => ("LAST " ++ decimal amount.toNat ++ " " ++ unit.keyword).toList

/-- A clause whose text is a fragment, or whose amount is not zero. -/
def Sound : Clause → Prop
  | .free rank keyword body => (rank, keyword) ∈ freeKeywords ∧ Fragment body
  | .source _ => True
  | .limit _ => True
  | .last amount _ => amount ≠ 0

instance : DecidablePred Sound
  | .free _ _ _ =>
      letI : DecidablePred Fragment := fun _ => decidable_of_iff _ fragment_iff_undisturbed.symm
      inferInstanceAs (Decidable (_ ∧ _))
  | .source _ => .isTrue trivial
  | .limit _ => .isTrue trivial
  | .last amount _ => inferInstanceAs (Decidable (amount ≠ 0))

/-- A clause whose holes stand in literals, or that asks for the events of an offense. -/
def Fillable : Clause → Prop
  | .free _ _ body => Sheltered body ∨ body = offenseCondition (hole offenseName.toList)
  | .source _ => True
  | .limit _ => True
  | .last _ _ => True

instance : DecidablePred Fillable
  | .free _ _ _ => inferInstanceAs (Decidable (_ ∨ _))
  | .source _ => .isTrue trivial
  | .limit _ => .isTrue trivial
  | .last _ _ => .isTrue trivial

/-- A clause with values filled in. -/
def fill (values : List (String × String)) : Clause → Clause
  | .free rank keyword body => .free rank keyword (filled values body)
  | .source table => .source table
  | .limit limited => .limit limited
  | .last amount unit => .last amount unit

variable {clause : Clause}

/-- A clause stays in its place. -/
@[simp]
theorem rank_fill (values : List (String × String)) (clause : Clause) :
    (clause.fill values).rank = clause.rank := by
  cases clause <;> rfl

/-- A sound clause is a written one. -/
theorem written (h : clause.Sound) : Written clause.rank clause.chars := by
  cases clause with
  | free rank keyword body =>
      obtain ⟨hmem, hbody⟩ := h
      have hquiet : Unobtrusive (mask body) := fun after hafter => quiet_mask hbody.quiet hafter
      simp only [freeKeywords, List.mem_cons, Prod.mk.injEq, List.not_mem_nil, or_false] at hmem
      rcases hmem with ⟨rfl, rfl⟩ | ⟨rfl, rfl⟩ | ⟨rfl, rfl⟩ | ⟨rfl, rfl⟩ | ⟨rfl, rfl⟩
      · exact written_of_body (by decide) hbody.toClosed (.select hquiet)
      · exact written_of_body (by decide) hbody.toClosed (.conditions hquiet)
      · exact written_of_body (by decide) hbody.toClosed (.groups hquiet)
      · exact written_of_body (by decide) hbody.toClosed (.groupConditions hquiet)
      · exact written_of_body (by decide) hbody.toClosed (.order hquiet)
  | source table => exact written_source table
  | limit limited => exact written_limit limited
  | last amount unit => exact written_last unit h

/-- A clause that is filled in is sound again, when the number of an offense is one. -/
theorem sound_fill (h : clause.Sound) (hfillable : clause.Fillable)
    (hkeys : ∀ pair ∈ values, ∀ c ∈ pair.1.toList, isWordCharacter c = true)
    (hvalues : ∀ pair ∈ values, Quotable pair.2.toList)
    (hoffense : ∀ pair ∈ values, placeholderName pair.1 = offenseName →
      ∀ c ∈ pair.2.toList, c.isDigit = true) : (clause.fill values).Sound := by
  cases clause with
  | free rank keyword body =>
      refine ⟨h.1, ?_⟩
      rcases hfillable with hsheltered | rfl
      · exact (hsheltered.restuffed hkeys hvalues).fragment h.2
      · exact fragment_filled_offense hkeys hoffense
  | source table => exact h
  | limit limited => exact h
  | last amount unit => exact h

/-- Filling in leaves the keyword of a clause as it is. -/
theorem chars_fill (values : List (String × String)) (h : clause.Sound) :
    (clause.fill values).chars = filled values clause.chars := by
  cases clause with
  | free rank keyword body =>
      have hplain : ∀ pair ∈ freeKeywords, '\x7b' ∉ pair.2.toList := by decide
      exact (filled_append_of_no_opening (hplain _ h.1)).symm
  | source table =>
      show (source table).chars = filled values (source table).chars
      refine (filled_of_no_opening ?_).symm
      cases table <;> decide
  | limit limited =>
      show (limit limited).chars = filled values (limit limited).chars
      refine (filled_of_no_opening fun hmem => ?_).symm
      rw [chars, String.toList_append, List.mem_append] at hmem
      exact hmem.elim (by decide) brace_not_mem_decimal
  | last amount unit =>
      show (last amount unit).chars = filled values (last amount unit).chars
      refine (filled_of_no_opening fun hmem => ?_).symm
      rw [chars, String.toList_append, String.toList_append, String.toList_append, List.mem_append,
        List.mem_append, List.mem_append] at hmem
      rcases hmem with ((hmem | hmem) | hmem) | hmem
      · exact absurd hmem (by decide)
      · exact brace_not_mem_decimal hmem
      · exact absurd hmem (by decide)
      · revert hmem
        cases unit <;> decide

end Clause

section Reading

/-- Read the number at the beginning of a text. -/
def leadingNumber (cs : List Char) : UInt32 :=
  UInt32.ofNat (digitsValue (cs.takeWhile Char.isDigit))

/-- The unit at the end of a text. -/
def trailingUnit? (cs : List Char) : Option TimeUnit :=
  TimeUnit.all.find? fun unit => unit.keyword.toList.isSuffixOf cs

/-- The clause that a line begins, when it begins one. -/
def clauseOfLine? (line : List Char) : Option Clause :=
  let free := freeKeywords.findSome? fun (rank, keyword) =>
    (literal? keyword line).map (Clause.free rank keyword)
  let source := (literal? "FROM " line).bind fun rest =>
    (Table.all.find? fun table => table.name.toList == rest).map Clause.source
  let limit := (literal? "LIMIT " line).bind fun rest =>
    (RowLimit.ofWord? (leadingNumber rest)).map Clause.limit
  let last := (literal? "LAST " line).bind fun rest =>
    (trailingUnit? rest).map (Clause.last (leadingNumber rest))
  ((free.or source).or limit).or last

/-- The clauses read so far, last one first, with another line: it begins a clause, or goes on with
the last one. -/
def addLine (clauses : List Clause) (line : List Char) : List Clause :=
  match clauseOfLine? line, clauses with
  | some clause, _ => clause :: clauses
  | none, .free rank keyword body :: earlier =>
      .free rank keyword (body ++ '\n' :: line) :: earlier
  | none, _ => clauses

/-- The clauses of a query over several lines. -/
def clausesOf (query : List Char) : List Clause :=
  ((splitAt '\n' query).foldl addLine []).reverse

end Reading

/-- A query is the list of its clauses, which are in order, sound, and such that values can be
filled in. -/
structure LaidOut (query : List Char) (clauses : List Clause) : Prop where
  written : query = stacked (clauses.map Clause.chars)
  sound : ∀ clause ∈ clauses, clause.Sound
  fillable : ∀ clause ∈ clauses, clause.Fillable
  sorted : clauses.Pairwise fun earlier later => earlier.rank < later.rank
  select : clauses.head?.any (·.rank == 0) = true
  source : ∃ clause ∈ clauses, clause.rank = 1
  groups : (∃ clause ∈ clauses, clause.rank = 4) → ∃ clause ∈ clauses, clause.rank = 3

instance {clauses : List Clause} : Decidable (LaidOut cs clauses) :=
  decidable_of_iff (cs = stacked (clauses.map Clause.chars) ∧
      (∀ clause ∈ clauses, clause.Sound) ∧ (∀ clause ∈ clauses, clause.Fillable) ∧
      (clauses.Pairwise fun earlier later => earlier.rank < later.rank) ∧
      clauses.head?.any (·.rank == 0) = true ∧ (∃ clause ∈ clauses, clause.rank = 1) ∧
      ((∃ clause ∈ clauses, clause.rank = 4) → ∃ clause ∈ clauses, clause.rank = 3))
    ⟨fun h => ⟨h.1, h.2.1, h.2.2.1, h.2.2.2.1, h.2.2.2.2.1, h.2.2.2.2.2.1, h.2.2.2.2.2.2⟩,
      fun h => ⟨h.written, h.sound, h.fillable, h.sorted, h.select, h.source, h.groups⟩⟩

section Library

variable {clauses : List Clause}

/-- The clauses of a query are read off its characters. -/
theorem laid_out_of_chars {s : String} (hs : s.toList = cs) (h : LaidOut cs (clausesOf cs)) :
    LaidOut s.toList (clausesOf s.toList) := hs ▸ h

/-- Every library query is a list of clauses. -/
theorem laid_out_of_mem_library :
    ∀ t ∈ library, LaidOut t.query.toList (clausesOf t.query.toList) := by
  simp only [library, authenticationTemplates, networkTemplates, threatTemplates, systemTemplates,
    windowsTemplates, investigationTemplates, List.cons_append, List.nil_append,
    List.forall_mem_cons, List.not_mem_nil, false_imp_iff, implies_true, and_true]
  repeat' apply And.intro
  all_goals
    exact laid_out_of_chars
      (by
        repeat' first
          | with_reducible apply chars_lines
          | with_reducible apply chars_line
          | with_reducible apply chars_append
          | with_reducible exact String.toList_ofList)
      (by decide +kernel)

/-- Clauses that are filled in are arranged. -/
theorem LaidOut.arranged_fill (h : LaidOut cs clauses)
    (hkeys : ∀ pair ∈ values, ∀ c ∈ pair.1.toList, isWordCharacter c = true)
    (hvalues : ∀ pair ∈ values, Quotable pair.2.toList)
    (hoffense : ∀ pair ∈ values, placeholderName pair.1 = offenseName →
      ∀ c ∈ pair.2.toList, c.isDigit = true) :
    Arranged (clauses.map fun clause =>
      (clause.rank, String.ofList (clause.fill values).chars)) where
  written := by
    intro placed hplaced
    obtain ⟨clause, hclause, rfl⟩ := List.mem_map.mp hplaced
    have hsound := Clause.sound_fill (h.sound clause hclause) (h.fillable clause hclause) hkeys
      hvalues hoffense
    rw [String.toList_ofList, ← Clause.rank_fill values clause]
    exact Clause.written hsound
  sorted := List.pairwise_map.mpr h.sorted
  select := by
    cases clauses with
    | nil => cases h.select
    | cons first clauses =>
        have hfirst : first.rank = 0 := by simpa using h.select
        exact ⟨_, _, by rw [List.map_cons, hfirst]⟩
  source := by
    obtain ⟨clause, hclause, hrank⟩ := h.source
    exact ⟨_, List.mem_map.mpr ⟨clause, hclause, by rw [hrank]⟩⟩
  groups := by
    intro having hhaving
    obtain ⟨clause, hclause, hpair⟩ := List.mem_map.mp hhaving
    obtain ⟨groups, hgroups, hrank⟩ := h.groups ⟨clause, hclause, (Prod.mk.inj hpair).1⟩
    exact ⟨_, List.mem_map.mpr ⟨groups, hgroups, by rw [hrank]⟩⟩

/-- A library template is valid once it is filled in, whatever the values are: no finding is an
error when the names are written in word characters, no value holds a quote, and the number of an
offense is one. -/
theorem render_no_error (ht : t ∈ library)
    (hkeys : ∀ pair ∈ values, ∀ c ∈ pair.1.toList, isWordCharacter c = true)
    (hvalues : ∀ pair ∈ values, '\'' ∉ pair.2.toList ∧ '"' ∉ pair.2.toList)
    (hoffense : ∀ pair ∈ values, placeholderName pair.1 = "OFFENSE_ID" →
      ∀ c ∈ pair.2.toList, c.isDigit = true) :
    ∀ finding ∈ (validate (t.render values)).findings, finding.severity ≠ .error := by
  have h := laid_out_of_mem_library t ht
  generalize clausesOf t.query.toList = clauses at h
  have hquotable : ∀ pair ∈ values, Quotable pair.2.toList :=
    fun pair hpair => ⟨(hvalues pair hpair).1, (hvalues pair hpair).2⟩
  have harranged := h.arranged_fill hkeys hquotable hoffense
  have hrender : t.render values =
      join "\n" ((clauses.map fun clause =>
        (clause.rank, String.ofList (clause.fill values).chars)).map Prod.snd) := by
    rw [← String.toList_inj, render, to_list_fill, h.written, filled_stacked hkeys,
      to_list_join_lines, List.map_map, List.map_map, List.map_map]
    refine congrArg stacked (List.map_congr_left fun clause hclause => ?_)
    show filled values clause.chars = (String.ofList (clause.fill values).chars).toList
    rw [String.toList_ofList, Clause.chars_fill values (h.sound clause hclause)]
  rw [hrender]
  exact harranged.no_error_lines

/-- A name may hold parentheses, an operator that does not exist, keywords and tokens. -/
theorem render_no_error_unruly_name :
    activityByUsername ∈ library ∧
    ∀ finding ∈ (validate (activityByUsername.render
        [("username", "x) => FROM \x7b\x7bOFFENSE_ID\x7d\x7d ((LIMIT 0"),
          ("offense_id", "42")])).findings, finding.severity ≠ .error := by
  refine ⟨mem_library_activity_by_username,
    render_no_error mem_library_activity_by_username ?_ (by decide +kernel) ?_⟩
  · simp only [List.forall_mem_cons, List.not_mem_nil, false_imp_iff, implies_true, and_true]
    exact ⟨List.all_eq_true.mp (by decide +kernel), List.all_eq_true.mp (by decide +kernel)⟩
  · simp only [List.forall_mem_cons, List.not_mem_nil, false_imp_iff, implies_true, and_true]
    exact ⟨fun hname => absurd hname (by decide +kernel),
      fun _ => List.all_eq_true.mp (by decide +kernel)⟩

end Library

end Ariel.Template
