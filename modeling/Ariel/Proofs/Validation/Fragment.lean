import Ariel.Proofs.Validation.Balance
import Ariel.Proofs.Validation.Opening

/-!
# Fragments of queries

A fragment is a text that can stand inside of a query without disturbing it: its quotes, parentheses
and comparison operators are closed, and it opens no clause outside of its literals. Closed texts
can be put one after the other (`Closed.append`), and the checks of quotes, parentheses and
comparison operators have nothing to say of them. `undisturbed` recognises fragments in one pass.
-/

namespace Ariel.Validation

open Ariel.Text

variable {cs ds : List Char}

/-- The characters that must not follow an equals sign. -/
def afterEquals : List Char := ['=', '>', '<', '!']

/-- An equals sign in a text is immediately followed by one of the characters that must not follow
it. -/
def Malformed (text : List Char) : Prop :=
  ∃ front c tail, text = front ++ '=' :: c :: tail ∧ c ∈ afterEquals

/-- A text that keeps its quotes, parentheses and comparison operators to itself. -/
structure Closed (text : List Char) : Prop where
  singleQuotes : Even (text.count '\'')
  doubleQuotes : Even (text.count '"')
  balanced : Balanced text
  comparisons : ∀ before c after, text = before ++ '=' :: c :: after →
    Even (before.count '\'') → c ∉ afterEquals

/-- A closed text that opens no clause outside of its literals. -/
structure Fragment (text : List Char) : Prop extends Closed text where
  quiet : QuietOutside text

/-- Closed texts one after the other are closed when no operator comes about between them. -/
theorem Closed.append (h : Closed cs) (hds : Closed ds)
    (hjoin : cs.getLast? ≠ some '=' ∨ ∀ c ∈ ds.head?, c ∉ afterEquals) : Closed (cs ++ ds) := by
  refine ⟨?_, ?_, h.balanced.append hds.balanced, ?_⟩
  · rw [List.count_append]
    exact h.singleQuotes.add hds.singleQuotes
  · rw [List.count_append]
    exact h.doubleQuotes.add hds.doubleQuotes
  · intro before c after hsplit heven
    rcases List.append_eq_append_iff.mp hsplit with ⟨more, rfl, hsecond⟩ | ⟨more, hfirst, hrest⟩
    · rw [List.count_append, Nat.even_add] at heven
      exact hds.comparisons more c after hsecond (heven.mp h.singleQuotes)
    · cases more with
      | nil => exact hds.comparisons [] c after hrest.symm ⟨0, rfl⟩
      | cons d more =>
          obtain ⟨rfl, hbehind⟩ := List.cons.inj hrest
          cases more with
          | nil =>
              -- The equals sign ends the first text, and the next character begins the second.
              have hlast : cs.getLast? = some '=' := by rw [hfirst, List.getLast?_concat]
              have hhead : c ∈ ds.head? := by
                rw [show ds = c :: after from hbehind.symm]
                rfl
              exact hjoin.elim (fun hne => absurd hlast hne) fun hsafe => hsafe c hhead
          | cons e more =>
              obtain ⟨rfl, -⟩ := List.cons.inj hbehind
              exact h.comparisons before c more hfirst heven

/-- The characters of literals, parentheses and equality. -/
def touching : List Char := ['\'', '"', '(', ')', '=']

/-- A text without quotes, parentheses and equals signs is closed. -/
theorem closed_of_plain (h : ∀ c ∈ cs, c ∉ touching) : Closed cs := by
  have hnot : ∀ c ∈ touching, c ∉ cs := fun c hc hmem => h c hmem hc
  refine ⟨even_count_of_not_mem (hnot '\'' (by decide)),
    even_count_of_not_mem (hnot '"' (by decide)), ?_, ?_⟩
  · refine balanced_of_plain fun c hc => ?_
    have hc := h c hc
    simp only [touching, List.mem_cons, List.not_mem_nil, or_false, not_or] at hc
    exact ⟨hc.1, hc.2.2.1, hc.2.2.2.1⟩
  · intro before c after hsplit _
    exact absurd (by rw [hsplit]; simp) (hnot '=' (by decide))

/-- A literal without quotes and equals signs between its quotes is closed. -/
theorem closed_literal (h : ∀ c ∈ cs, c ∉ ['\'', '"', '=']) : Closed ('\'' :: (cs ++ ['\''])) := by
  have hnot : ∀ c ∈ ['\'', '"', '='], c ∉ cs := fun c hc hmem => h c hmem hc
  have hquote : '\'' ∉ cs := hnot _ (by simp)
  refine ⟨?_, ?_, .literal hquote .nil, ?_⟩
  · rw [List.count_cons_self, List.count_append, List.count_eq_zero_of_not_mem hquote]
    exact ⟨1, rfl⟩
  · rw [List.count_cons_of_ne (by decide), List.count_append,
      List.count_eq_zero_of_not_mem (hnot '"' (by simp))]
    exact ⟨0, rfl⟩
  · intro before c after hsplit _
    have hmem : '=' ∈ '\'' :: (cs ++ ['\'']) := by rw [hsplit]; simp
    simp only [List.mem_cons, List.mem_append, List.not_mem_nil, or_false] at hmem
    rcases hmem with hmem | hmem | hmem
    · exact absurd hmem (by decide)
    · exact absurd hmem (hnot '=' (by simp))
    · exact absurd hmem (by decide)

/-- There are as many offsets of a character as occurrences. -/
theorem length_offsets_from (mark : Char) (offset : Nat) (cs : List Char) :
    (offsetsFrom mark offset cs).length = cs.count mark := by
  induction cs generalizing offset with
  | nil => rfl
  | cons c cs ih =>
      simp only [offsetsFrom]
      by_cases hmark : c = mark
      · rw [if_pos hmark, hmark, List.count_cons_self, List.length_cons, ih]
      · rw [if_neg hmark, List.count_cons_of_ne hmark, ih]

/-- The check of one kind of quote has nothing to say when the quotes come in pairs. -/
theorem unmatched_quote_eq_nil_iff {mark : Char} {kind : String} :
    unmatchedQuote mark kind cs = [] ↔ Even (cs.count mark) := by
  rw [← length_offsets_from mark 0 cs, Nat.even_iff]
  simp only [unmatchedQuote]
  split
  next hlast =>
    rw [List.getLast?_eq_none_iff.mp hlast]
    simp
  next last _ =>
    split
    next heven => simp [heven]
    next hodd => simp [hodd]

/-- The check of quotes has nothing to say when both kinds come in pairs. -/
theorem balanced_quotes_eq_nil_iff :
    balancedQuotes cs = [] ↔ Even (cs.count '\'') ∧ Even (cs.count '"') := by
  rw [balancedQuotes, List.append_eq_nil_iff, unmatched_quote_eq_nil_iff,
    unmatched_quote_eq_nil_iff]

/-- A malformed part makes a text malformed. -/
theorem Malformed.append {text : List Char} (h : Malformed text) (front tail : List Char) :
    Malformed (front ++ (text ++ tail)) := by
  obtain ⟨start, c, stop, rfl, hc⟩ := h
  exact ⟨front ++ start, c, stop ++ tail, by simp, hc⟩

/-- Operators that do not exist are malformed. -/
theorem malformed_of_mem {operator : String × String} (h : operator ∈ malformedOperators) :
    Malformed operator.1.toList := by
  simp only [malformedOperators, List.mem_cons, List.not_mem_nil, or_false] at h
  rcases h with rfl | rfl | rfl | rfl | rfl | rfl
  · exact ⟨[], '=', ['='], rfl, by decide⟩
  · exact ⟨['!'], '=', [], rfl, by decide⟩
  · exact ⟨[], '=', [], rfl, by decide⟩
  · exact ⟨[], '>', [], rfl, by decide⟩
  · exact ⟨[], '<', [], rfl, by decide⟩
  · exact ⟨[], '!', [], rfl, by decide⟩

/-- In every operator that does not exist, some equals sign is followed by what must not follow
it. -/
theorem exists_equals_of_malformed {front : Option Char} {tail : List Char}
    {correction : String} {rest : List Char}
    (h : malformedOperator front tail = some (correction, rest)) : Malformed tail := by
  obtain ⟨⟨operator, meant⟩, hmem, hfound⟩ := List.exists_of_findSome?_eq_some h
  obtain ⟨after, hliteral, -⟩ := Option.map_eq_some_iff.mp hfound
  rw [literal_eq_some_iff.mp hliteral]
  exact (malformed_of_mem hmem).append [] after

/-- Where an equals sign is followed by what must not follow it, an operator begins that does not
exist. -/
theorem malformed_of_equals {before : Option Char} {c : Char} (hc : c ∈ afterEquals)
    (after : List Char) : ∃ found, malformedOperator before ('=' :: c :: after) = some found := by
  have hone : ∃ pair ∈ malformedOperators, pair.1.toList = ['=', c] := by
    have hall : ∀ c ∈ afterEquals, ∃ pair ∈ malformedOperators, pair.1.toList = ['=', c] := by
      simp [afterEquals, malformedOperators]
    exact hall c hc
  obtain ⟨⟨operator, correction⟩, hmem, hoperator⟩ := hone
  have hliteral : literal? operator ('=' :: c :: after) = some after :=
    literal_eq_some_iff.mpr (by rw [hoperator]; rfl)
  refine Option.isSome_iff_exists.mp (List.findSome?_isSome_iff.mpr ⟨_, hmem, ?_⟩)
  show ((literal? operator ('=' :: c :: after)).map fun rest => (correction, rest)).isSome = true
  rw [hliteral]
  rfl

/-- The check of comparison operators has nothing to say when outside of literals no equals sign is
followed by what must not follow it. -/
theorem comparison_operators_eq_nil_iff : comparisonOperators (mask cs) = [] ↔
    ∀ before c after, cs = before ++ '=' :: c :: after → Even (before.count '\'') →
      c ∉ afterEquals := by
  rw [comparisonOperators, List.map_eq_nil_iff, occurrences_eq_nil_iff]
  have hsolid : ∀ c ∈ afterEquals, isBlank c = false ∧ c ≠ '\'' := by simp [afterEquals, isBlank]
  constructor
  · rintro h before c after rfl heven hc
    obtain ⟨⟨correction, rest⟩, hmatch⟩ := malformed_of_equals hc (mask after)
    refine h (mask before) ('=' :: c :: mask after) correction ?_ ⟨by simp, rest, hmatch⟩
    rw [mask_append heven, mask_cons (by decide), mask_cons (hsolid c hc).2]
  · rintro h front tail correction hsplit ⟨-, rest, hmatch⟩
    obtain ⟨start, c, after, rfl, hc⟩ := exists_equals_of_malformed hmatch
    have hequals : mask cs = (front ++ start) ++ '=' :: (c :: after) := by simpa using hsplit
    obtain ⟨front', rest', rfl, -, heven, hmask⟩ :=
      exists_outside_of_mask hequals (by decide) (by decide)
    obtain ⟨tail', rfl, -, -⟩ := mask_from_eq_cons hmask (hsolid c hc).1
    exact h front' c tail' rfl heven hc

/-- Fragments are the texts of which the checks of quotes, parentheses and comparison operators have
nothing to say and in whose mask no clause opens. -/
theorem fragment_iff : Fragment cs ↔
    balancedQuotes cs = [] ∧ balancedParentheses (mask cs) = [] ∧
      comparisonOperators (mask cs) = [] ∧ occurrences opening (mask cs) = [] := by
  rw [balanced_quotes_eq_nil_iff, comparison_operators_eq_nil_iff, ← quiet_outside_iff]
  constructor
  · intro h
    exact ⟨⟨h.singleQuotes, h.doubleQuotes⟩, (balanced_iff.mp h.balanced).2, h.comparisons, h.quiet⟩
  · rintro ⟨⟨hsingle, hdouble⟩, hparentheses, hcomparisons, hquiet⟩
    exact ⟨⟨hsingle, hdouble, balanced_iff.mpr ⟨hsingle, hparentheses⟩, hcomparisons⟩, hquiet⟩

instance : DecidablePred Fragment :=
  fun _ => decidable_of_iff _ fragment_iff.symm

section Recognition

/-- What must not stand outside of literals begins a text: an equals sign with what must not follow
it, or a clause. -/
def disturbs (before : Option Char) : List Char → Bool
  | [] => false
  | c :: after =>
      (c == '=' && after.head?.any afterEquals.contains) ||
        (beginsWord before && (opening before (c :: after)).isSome)

/-- Whether nothing of that kind stands outside of literals from a place on. -/
def undisturbed : (before : Option Char) → (inside : Bool) → List Char → Bool
  | _, _, [] => true
  | before, inside, c :: cs =>
      (inside || !disturbs before (c :: cs)) &&
        undisturbed (some c) (if c = '\'' then !inside else inside) cs

theorem undisturbed_iff {before : Option Char} {inside : Bool} :
    undisturbed before inside cs = true ↔ ∀ front tail, cs = front ++ tail →
      endsInside inside front = false → disturbs (front.getLast?.or before) tail = false := by
  induction cs generalizing before inside with
  | nil =>
      refine ⟨fun _ front tail hsplit _ => ?_, fun _ => rfl⟩
      rw [(List.append_eq_nil_iff.mp hsplit.symm).2]
      rfl
  | cons c cs ih =>
      rw [undisturbed, Bool.and_eq_true, Bool.or_eq_true, Bool.not_eq_true', ih]
      constructor
      · rintro ⟨hhere, hlater⟩ front tail hsplit hinside
        cases front with
        | nil =>
            obtain rfl : c :: cs = tail := hsplit
            exact hhere.resolve_left fun htrue => by simp [endsInside, htrue] at hinside
        | cons d front =>
            obtain ⟨rfl, hrest⟩ := List.cons.inj hsplit
            rw [last_cons_or]
            exact hlater front tail hrest hinside
      · intro h
        refine ⟨?_, fun front tail hsplit hinside => ?_⟩
        · cases inside with
          | true => exact .inl rfl
          | false => exact .inr (h [] (c :: cs) rfl rfl)
        · rw [← last_cons_or]
          exact h (c :: front) tail (by rw [hsplit, List.cons_append]) hinside

/-- Fragments are recognised in one pass, as far as operators and clauses go. -/
theorem fragment_iff_undisturbed : Fragment cs ↔
    Even (cs.count '\'') ∧ Even (cs.count '"') ∧ balancedParentheses (mask cs) = [] ∧
      undisturbed none false cs = true := by
  rw [undisturbed_iff]
  constructor
  · intro h
    refine ⟨h.singleQuotes, h.doubleQuotes, (balanced_iff.mp h.balanced).2,
      fun front tail hsplit hinside => ?_⟩
    have heven := even_of_ends_inside hinside
    cases tail with
    | nil => rfl
    | cons c after =>
        rw [disturbs, Option.or_none, Bool.or_eq_false_iff]
        refine ⟨?_, ?_⟩
        · by_contra hdisturbs
          rw [Bool.not_eq_false, Bool.and_eq_true, beq_iff_eq, Option.any_eq_true] at hdisturbs
          obtain ⟨rfl, d, hd, hafter⟩ := hdisturbs
          obtain ⟨rest, rfl⟩ : ∃ rest, after = d :: rest := List.head?_eq_some_iff.mp hd
          exact h.comparisons front d rest hsplit heven (List.contains_iff_mem.mp hafter)
        · by_contra hopens
          rw [Bool.not_eq_false, Bool.and_eq_true, Option.isSome_iff_exists] at hopens
          obtain ⟨hbegins, ⟨u, rest⟩, hopening⟩ := hopens
          exact h.quiet front _ hsplit heven hbegins
            (exists_opening_iff.mp ⟨u, rest, hopening⟩).2
  · rintro ⟨hsingle, hdouble, hparentheses, h⟩
    refine ⟨⟨hsingle, hdouble, balanced_iff.mpr ⟨hsingle, hparentheses⟩, ?_⟩, ?_⟩
    · intro before c after hsplit heven hc
      have hnone := h before ('=' :: c :: after) hsplit (ends_inside_of_even heven)
      simp [disturbs, hc] at hnone
    · intro before after hsplit heven hbegins hopens
      obtain ⟨c, rest, rfl, -⟩ := hopens.exists_head
      obtain ⟨u, tail, hopening⟩ := exists_opening_iff.mpr ⟨hbegins, hopens⟩
      have hnone := h before (c :: rest) hsplit (ends_inside_of_even heven)
      rw [Option.or_none] at hnone
      simp [disturbs, hbegins, hopening] at hnone

end Recognition

end Ariel.Validation
