import Ariel.Proofs.Query.Window.RoundTrip
import Ariel.Proofs.Text.Character
import Ariel.Proofs.Validation.Balance

/-!
# Windows inject nothing

A window may hold any text for its bounds, and they are written between quotes as they stand. But
only a sound window is written at all, and what is written of its bounds are datetimes, which hold
neither quotes nor letters (`harmless_of_datetime`). So a clause ends no literal and begins no word
with its bounds: behind a text that closes its literals, the mask shows the clause with its bounds
blanked, which is `clause_injects_nothing`.
-/

namespace Ariel.Query.Window

open Ariel.Text Ariel.Calendar Ariel.Validation

/-- A text that does no harm between single quotes: it is not blank, and it holds neither quotes nor
letters. Letters of all scripts are word characters, and of these it holds ASCII digits only. -/
structure Harmless (s : String) : Prop where
  not_blank : allBlank s = false
  no_single_quote : '\'' ∉ s.toList
  no_double_quote : '"' ∉ s.toList
  no_letter : ∀ c ∈ s.toList, isWordCharacter c = true → c.isDigit = true

/-- As many spaces as a text takes bytes. -/
def blanked (s : String) : String :=
  String.ofList (List.replicate s.utf8ByteSize ' ')

/-- A harmless text holds no ASCII letter. -/
theorem Harmless.no_ascii_letter {s : String} (h : Harmless s) :
    ∀ c ∈ s.toList, c.isAlpha = false := by
  intro c hc
  refine Bool.eq_false_iff.mpr fun halpha => ?_
  rw [is_alpha_of_digit (h.no_letter c hc (is_word_character_of_alpha halpha))] at halpha
  cases halpha

/-- How the clause of a window is written with harmless bounds, and what of it is left when these
are blanked. -/
inductive WritesHarmlessly : Window → (clause rest : String) → Prop where
  | last {amount : UInt32} (unit : TimeUnit) : 1 ≤ amount.toNat →
      WritesHarmlessly (.relative amount unit)
        ("LAST " ++ decimal amount.toNat ++ " " ++ unit.keyword)
        ("LAST " ++ decimal amount.toNat ++ " " ++ unit.keyword)
  | start {start : String} {stop : Option String} :
      Harmless (trim start) → bound? stop = none →
      WritesHarmlessly (.absolute start stop)
        ("START '" ++ trim start ++ "'")
        ("START '" ++ blanked (trim start) ++ "'")
  | startStop {start bound : String} {stop : Option String} :
      Harmless (trim start) → Harmless bound → bound? stop = some bound →
      WritesHarmlessly (.absolute start stop)
        ("START '" ++ trim start ++ "' STOP '" ++ bound ++ "'")
        ("START '" ++ blanked (trim start) ++ "' STOP '" ++ blanked bound ++ "'")

variable {s clause rest : String} {cs : List Char} {window : Window}

/-- Of the word characters, a datetime is written in digits only. -/
theorem is_digit_of_datetime_char {c : Char} (h : isDatetimeChar c = true)
    (hword : isWordCharacter c = true) : c.isDigit = true := by
  have hblank : isBlank c = false := is_blank_of_word_character hword
  simp only [isDatetimeChar, hblank, Bool.false_or, Bool.or_eq_true, beq_iff_eq] at h
  rcases h with ((hdigit | rfl) | rfl) | rfl
  · exact hdigit
  · exact absurd hword (by decide)
  · exact absurd hword (by decide)
  · exact absurd hword (by decide)

/-- A datetime, its outer blanks apart, does no harm between quotes. -/
theorem harmless_of_datetime (h : IsDatetime s.toList) : Harmless (trim s) where
  not_blank := by
    refine Bool.eq_false_iff.mpr fun hblank => h.ne_nil ?_
    rwa [all_blank_iff, to_list_trim, trimmed_trimmed] at hblank
  no_single_quote := by
    rw [to_list_trim]
    exact h.quote_not_mem
  no_double_quote hquote := by
    rw [to_list_trim] at hquote
    exact absurd (datetime_chars h _ hquote) (by decide)
  no_letter c hc := by
    rw [to_list_trim] at hc
    exact is_digit_of_datetime_char (datetime_chars h c hc)

/-- The clause of a window is written with harmless bounds. -/
theorem writes_harmlessly_of_clause (h : window.clause? = some clause) :
    ∃ rest, window.WritesHarmlessly clause rest := by
  cases shows_of_clause h with
  | @last amount unit hamount =>
      have hpos : 1 ≤ amount.toNat :=
        Nat.pos_of_ne_zero fun hzero => hamount (UInt32.toNat_inj.mp hzero)
      exact ⟨_, .last unit hpos⟩
  | start hstart hstop => exact ⟨_, .start (harmless_of_datetime hstart) hstop⟩
  | startStop hstart hbound hstop =>
      exact ⟨_, .startStop (harmless_of_datetime hstart) (harmless_of_datetime hbound) hstop⟩

/-- The sound windows have a clause, those apart that bound nothing. -/
theorem clause_is_some_iff (window : Window) :
    window.clause?.isSome = true ↔ window ≠ .unbounded ∧ window.check = .ok () := by
  rw [check_eq_ok_iff]
  constructor
  · intro h
    obtain ⟨clause, hclause⟩ := Option.isSome_iff_exists.mp h
    refine ⟨?_, sound_of_clause hclause⟩
    rintro rfl
    cases hclause
  · rintro ⟨hne, hsound⟩
    obtain ⟨clause, hclause, -⟩ := clause_denotes hsound hne
    rw [hclause]
    rfl

/-- A harmless text between quotes is masked as if it were blanked. -/
theorem mask_harmless (h : Harmless s) (cs : List Char) :
    mask ('\'' :: (s.toList ++ '\'' :: cs)) =
      '\'' :: ((blanked s).toList ++ '\'' :: mask cs) := by
  rw [mask_literal h.no_single_quote, blanked, String.toList_ofList, byte_length_to_list]

/-- No quote stands in a relative clause. -/
theorem no_quote_in_relative (amount : Nat) (unit : TimeUnit) :
    '\'' ∉ ("LAST " ++ decimal amount ++ " " ++ unit.keyword).toList := by
  intro hquote
  simp only [String.toList_append, List.mem_append] at hquote
  rcases hquote with ((hquote | hquote) | hquote) | hquote
  · exact absurd hquote (by decide)
  · exact absurd (is_digit_of_decimal hquote) (by decide)
  · exact absurd hquote (by decide)
  · revert hquote
    cases unit <;> decide

/-- The mask of a clause shows its bounds blanked. -/
theorem WritesHarmlessly.mask_eq (h : window.WritesHarmlessly clause rest) :
    mask clause.toList = rest.toList := by
  cases h with
  | last unit => exact mask_of_no_quote (no_quote_in_relative _ unit)
  | @start start stop hstart =>
      have hclause : ("START '" ++ trim start ++ "'").toList =
          "START ".toList ++ '\'' :: ((trim start).toList ++ ['\'']) := by
        simp [String.toList_append]
      have hrest : ("START '" ++ blanked (trim start) ++ "'").toList =
          "START ".toList ++ '\'' :: ((blanked (trim start)).toList ++ ['\'']) := by
        simp [String.toList_append]
      rw [hclause, hrest, mask_append_of_no_quote (by decide), mask_harmless hstart]
      rfl
  | @startStop start bound stop hstart hbound =>
      have hclause : ("START '" ++ trim start ++ "' STOP '" ++ bound ++ "'").toList =
          "START ".toList ++ '\'' :: ((trim start).toList ++ '\'' ::
            (" STOP ".toList ++ '\'' :: (bound.toList ++ ['\'']))) := by
        simp [String.toList_append]
      have hrest : ("START '" ++ blanked (trim start) ++ "' STOP '" ++ blanked bound ++ "'").toList =
          "START ".toList ++ '\'' :: ((blanked (trim start)).toList ++ '\'' ::
            (" STOP ".toList ++ '\'' :: ((blanked bound).toList ++ ['\'']))) := by
        simp [String.toList_append]
      rw [hclause, hrest, mask_append_of_no_quote (by decide), mask_harmless hstart,
        mask_append_of_no_quote (by decide), mask_harmless hbound]
      rfl

/-- Whatever texts a window holds: it has a clause exactly when it is sound and bounds something.
The clause then looks back at least one unit, or shows one or two harmless texts between quotes; and
behind every text that closes its literals, the mask shows the clause with these texts blanked. -/
theorem clause_injects_nothing (window : Window) :
    (window.clause?.isSome = true ↔ window ≠ .unbounded ∧ window.check = .ok ()) ∧
    ∀ clause, window.clause? = some clause →
      ∃ rest, window.WritesHarmlessly clause rest ∧
        ∀ text : String, Even (text.toList.count '\'') →
          mask (text ++ clause).toList = mask text.toList ++ rest.toList := by
  refine ⟨clause_is_some_iff window, fun clause hclause => ?_⟩
  obtain ⟨rest, hwrites⟩ := writes_harmlessly_of_clause hclause
  refine ⟨rest, hwrites, fun text htext => ?_⟩
  rw [String.toList_append, mask_append htext, hwrites.mask_eq]

/-- A window whose start has a sign, a long year and wide blanks around it and within. -/
theorem clause_injects_nothing_wide :
    (absolute "\u3000+12024-1-2\u30003:4 " (some "2024-01-02 03:04:60")).clause? =
      some "START '+12024-1-2\u30003:4' STOP '2024-01-02 03:04:60'" ∧
    Even ("WHERE a = 'é' ".toList.count '\'') ∧
    ∃ rest, (absolute "\u3000+12024-1-2\u30003:4 " (some "2024-01-02 03:04:60")).WritesHarmlessly
        "START '+12024-1-2\u30003:4' STOP '2024-01-02 03:04:60'" rest ∧
      mask ("WHERE a = 'é' " ++
          "START '+12024-1-2\u30003:4' STOP '2024-01-02 03:04:60'").toList =
        mask "WHERE a = 'é' ".toList ++ rest.toList := by
  have hclause : (absolute "\u3000+12024-1-2\u30003:4 " (some "2024-01-02 03:04:60")).clause? =
      some "START '+12024-1-2\u30003:4' STOP '2024-01-02 03:04:60'" := by decide
  have heven : Even ("WHERE a = 'é' ".toList.count '\'') := by decide
  obtain ⟨rest, hwrites, hmask⟩ := (clause_injects_nothing _).2 _ hclause
  exact ⟨hclause, heven, rest, hwrites, hmask _ heven⟩

end Ariel.Query.Window
