import Ariel.Proofs.Query.Assembly
import Ariel.Proofs.Query.Draft
import Ariel.Proofs.Query.Window.RoundTrip
import Ariel.Proofs.Template.TimeClause

/-!
# Another time range for an assembled query

Swapping the time clause of an assembled query is assembling with the other window
(`with_window_assemble`). Two facts carry it. What stands in front of the time clause is without
the words that a time clause begins with, when the entries are; and the clause of a window is one
time clause from its first character to its last.
-/

namespace Ariel.Query

open Ariel.Text Ariel.Template

variable {front cs ds : List Char} {separator : String} {items : List String}

/-- A text is without the words that begin a time clause. -/
def Timeless (cs : List Char) : Prop :=
  ∀ keyword ∈ rangeKeywords, occurs (anyCaseWord keyword) cs = false

instance : Decidable (Timeless cs) :=
  inferInstanceAs (Decidable (∀ keyword ∈ rangeKeywords, _))

/-- A text between two others, from which it is parted. -/
structure Parting (separator : List Char) : Prop where
  timeless : Timeless separator
  head : separator.head?.any (!isWordCharacter ·) = true
  last : separator.getLast?.any (!isWordCharacter ·) = true

/-- A text without the words of a time clause that ends in no blank. -/
structure Plain (cs : List Char) : Prop where
  timeless : Timeless cs
  last : cs.getLast?.any (!isBlank ·) = true

section Texts

/-- Parted texts are timeless together. -/
theorem Timeless.append (hparted : Parted cs ds) (hcs : Timeless cs) (hds : Timeless ds) :
    Timeless (cs ++ ds) := by
  intro keyword hkeyword
  have hword := letter_word_of_keyword keyword hkeyword
  exact no_word_iff.mp (no_word_append hword hparted (no_word_iff.mpr (hcs keyword hkeyword))
    (no_word_iff.mpr (hds keyword hkeyword)))

/-- A text that ends in no word character is parted from what follows. -/
theorem parted_of_last (h : cs.getLast?.any (!isWordCharacter ·) = true) : Parted cs ds := by
  refine .inl fun c hc => ?_
  rw [Option.mem_def.mp hc] at h
  simpa using h

/-- A text that begins with no word character is parted from what stands before. -/
theorem parted_of_head (h : ds.head?.any (!isWordCharacter ·) = true) : Parted cs ds := by
  refine .inr fun c hc => ?_
  rw [Option.mem_def.mp hc] at h
  simpa using h

/-- Texts with a parting text between them are timeless together. -/
theorem Parting.timeless_between (hcs : Timeless cs) (hseparator : Parting separator.toList)
    (hds : Timeless ds) : Timeless (cs ++ (separator.toList ++ ds)) := by
  have htail := Timeless.append (parted_of_last hseparator.last) hseparator.timeless hds
  refine Timeless.append (parted_of_head ?_) hcs htail
  cases hchars : separator.toList with
  | nil =>
      have hhead := hseparator.head
      rw [hchars] at hhead
      cases hhead
  | cons c more => simpa [hchars] using hseparator.head

/-- A keyword in front of a plain text. -/
theorem Plain.behind {keyword : String} (hparting : keyword.toList.getLast?.any
      (!isWordCharacter ·) = true) (hkeyword : Timeless keyword.toList) (h : Plain cs) :
    Plain (keyword.toList ++ cs) :=
  ⟨.append (parted_of_last hparting) hkeyword h.timeless, any_last_append h.last⟩

/-- Plain texts joined by a parting text. -/
theorem Plain.join (hseparator : Parting separator.toList) (hne : items ≠ [])
    (h : ∀ item ∈ items, Plain item.toList) : Plain (join separator items).toList := by
  induction items with
  | nil => exact absurd rfl hne
  | cons item items ih =>
      rw [List.forall_mem_cons] at h
      cases items with
      | nil => exact h.1
      | cons next items =>
          have hrest := ih (by simp) h.2
          rw [Text.join, String.toList_append, String.toList_append, List.append_assoc]
          exact ⟨hseparator.timeless_between h.1.timeless hrest.timeless,
            any_last_append (any_last_append hrest.last)⟩

/-- A number is plain. -/
theorem plain_decimal (n : Nat) : Plain (decimal n).toList where
  timeless keyword hkeyword := no_word_iff.mp
    (no_word_of_digits (letter_word_of_keyword keyword hkeyword) fun _ => is_digit_of_decimal)
  last := by
    have hlast := List.getLast_mem (decimal_ne_nil n)
    rw [List.getLast?_eq_some_getLast (decimal_ne_nil n)]
    simp [is_blank_of_digit (is_digit_of_decimal hlast)]

/-- A neat text that is timeless is plain. -/
theorem plain_of_neat {s : String} (hneat : NeatText s) (h : Timeless s.toList) :
    Plain s.toList :=
  ⟨h, (neat_iff_ends.mp hneat).2⟩

/-- An item at the end of a list is joined behind a separator. -/
theorem join_concat (item : String) (hne : items ≠ []) :
    join separator (items ++ [item]) = join separator items ++ separator ++ item := by
  induction items with
  | nil => exact absurd rfl hne
  | cons first items ih =>
      cases items with
      | nil => rfl
      | cons second items =>
          have hrest := ih (by simp)
          rw [List.cons_append] at hrest
          rw [List.cons_append, List.cons_append, join, join, hrest]
          simp only [String.append_assoc]

end Texts

theorem parting_space : Parting " ".toList := ⟨by decide, by decide, by decide⟩

theorem parting_line_break : Parting "\n".toList := ⟨by decide, by decide, by decide⟩

theorem parting_comma : Parting ", ".toList := ⟨by decide, by decide, by decide⟩

theorem parting_and : Parting " AND ".toList := ⟨by decide, by decide, by decide⟩

section Clauses

namespace Draft

variable {draft : Draft} {table : Table} {clause keyword : String} {w w' : Window}

/-- The clauses of a draft are those without a time range, and the clause of its window. -/
theorem clauses_from_set_window (draft : Draft) (table : Table) (w : Window) :
    (draft.setWindow w).clausesFrom table =
      (draft.setWindow .unbounded).clausesFrom table ++ w.clause?.toList := by
  have hnone : (Window.unbounded.clause?).toList = [] := rfl
  simp only [clausesFrom, setWindow, hnone, List.append_nil]

/-- A clause of joined plain items is plain. -/
theorem plain_list_clause (hkeyword : Timeless keyword.toList)
    (hparting : keyword.toList.getLast?.any (!isWordCharacter ·) = true)
    (hseparator : Parting separator.toList) (h : ∀ item ∈ items, Plain item.toList)
    (hclause : clause ∈ listClause keyword separator items) : Plain clause.toList := by
  obtain ⟨hne, rfl⟩ := mem_list_clause_iff.mp hclause
  rw [String.toList_append]
  exact Plain.behind hparting hkeyword (Plain.join hseparator hne h)

/-- The clause of a sort order on plain columns is plain. -/
theorem plain_order_clause {order : Option OrderBy}
    (h : ∀ sort ∈ order, ∀ column ∈ sort.columns, Plain column.toList)
    (hclause : clause ∈ orderClause order) : Plain clause.toList := by
  obtain ⟨sort, hsort, rfl⟩ := mem_order_clause hclause
  have hne : sort.columns ≠ [] := by
    intro hnil
    rw [Option.mem_def.mp hsort, orderClause, hnil] at hclause
    cases hclause
  have hcolumns := Plain.join parting_comma hne (h sort hsort)
  have hdirection : Plain sort.direction.keyword.toList := by
    cases sort.direction with
    | ascending => exact ⟨by decide, by decide⟩
    | descending => exact ⟨by decide, by decide⟩
  have hbody : Plain (join ", " sort.columns ++ " " ++ sort.direction.keyword).toList := by
    rw [String.toList_append, String.toList_append, List.append_assoc]
    exact ⟨parting_space.timeless_between hcolumns.timeless hdirection.timeless,
      any_last_append (any_last_append hdirection.last)⟩
  rw [String.append_assoc, String.append_assoc, String.toList_append, ← String.append_assoc]
  exact hbody.behind (by decide) (by decide)

/-- Without a time range, the clauses of a draft with plain entries are plain. -/
theorem plain_of_mem_clauses (hcolumns : draft.columns ≠ [])
    (hentries : ∀ entry ∈ draft.entries, Plain entry.toList)
    (h : clause ∈ (draft.setWindow .unbounded).clausesFrom table) : Plain clause.toList := by
  simp only [entries, List.mem_append] at hentries
  simp only [clausesFrom, setWindow, List.mem_append, List.mem_cons, List.not_mem_nil, or_false,
    Option.mem_toList] at h
  rcases h with ((((((rfl | rfl) | h) | h) | h) | h) | h) | h
  · rw [String.toList_append]
    exact .behind (by decide) (by decide) (.join parting_comma hcolumns
      fun entry hentry => hentries entry (by simp [hentry]))
  · cases table with
    | events => exact ⟨by decide, by decide⟩
    | flows => exact ⟨by decide, by decide⟩
  · exact plain_list_clause (by decide) (by decide) parting_and
      (fun entry hentry => hentries entry (by simp [hentry])) h
  · exact plain_list_clause (by decide) (by decide) parting_comma
      (fun entry hentry => hentries entry (by simp [hentry])) h
  · exact plain_list_clause (by decide) (by decide) parting_and
      (fun entry hentry => hentries entry (by simp [hentry])) h
  · refine plain_order_clause (fun sort hsort column hcolumn => hentries column ?_) h
    rw [Option.mem_def.mp hsort]
    exact .inr hcolumn
  · obtain ⟨limit, -, rfl⟩ := Option.map_eq_some_iff.mp h
    rw [String.toList_append]
    exact .behind (by decide) (by decide) (plain_decimal _)
  · cases h

end Draft

end Clauses

section Swap

variable {before : Option Char} {front query clause clause' : String}
  {w w' : Window}

/-- A keyword with a datetime, as the clause of a window has them. -/
theorem keyword_literal_datetime (keyword : String)
    (hkeyword : Spells keyword.toList keyword.toList) (h : Window.IsDatetime cs) :
    KeywordLiteral keyword (keyword.toList ++ ([' '] ++ '\'' :: (trimmed cs ++ ['\'']))) :=
  .quoted hkeyword between_space h.quote_not_mem

/-- The clause of a window is one time clause, from its first character to its last. -/
theorem time_clause_of_shows (hbefore : beginsWord before = true) (h : w.Shows clause) :
    timeClause before clause.toList = some ((), []) := by
  have hread : (relativeClause? clause.toList).or (absoluteClause? clause.toList) = some [] := by
    cases h with
    | @last amount unit hamount =>
        have hunit : unit.keyword ∈ rangeUnits ∧
            Spells unit.keyword.toList unit.keyword.toList := by
          cases unit <;> decide
        have hword : Spells "LAST".toList "LAST".toList := by decide
        have hrange := RelativeRange.last hword between_space (decimal_ne_nil amount.toNat)
          (fun c hc => is_decimal_digit_of_digit (is_digit_of_decimal hc)) between_space hunit.1
          hunit.2
        have hrelative := relative_clause_eq_some_iff.mpr ⟨_, (List.append_nil _).symm, hrange, rfl⟩
        have htext : ("LAST " ++ decimal amount.toNat ++ " " ++ unit.keyword).toList =
            "LAST".toList ++ ([' '] ++ ((decimal amount.toNat).toList ++ ([' '] ++
              unit.keyword.toList))) := by
          simp [String.toList_append]
        rw [htext, hrelative, Option.some_or]
    | @start start stop hstart hstop =>
        have hliteral := keyword_literal_datetime "START" (by decide) hstart
        have htext : ("START '" ++ trim start ++ "'").toList =
            "START".toList ++ ([' '] ++ '\'' :: (trimmed start.toList ++ ['\''])) := by
          simp [String.toList_append]
        rw [htext, absolute_clause_of_start hliteral]
        exact Option.or_eq_right_of_none relative_clause_of_start
    | @startStop start bound stop hstart hbound hstop =>
        have hfirst := keyword_literal_datetime "START" (by decide) hstart
        have hsecond := keyword_literal_datetime "STOP" (by decide) hbound
        have htext : ("START '" ++ trim start ++ "' STOP '" ++ trim bound ++ "'").toList =
            "START".toList ++ ([' '] ++ '\'' :: (trimmed start.toList ++ ['\''])) ++ ([' '] ++
              ("STOP".toList ++ ([' '] ++ '\'' :: (trimmed bound.toList ++ ['\''])))) := by
          simp [String.toList_append]
        rw [htext, absolute_clause_of_start_stop hfirst between_space hsecond]
        exact Option.or_eq_right_of_none relative_clause_of_start
  simp only [timeClause, hbefore, hread, guard, bind, pure]
  rfl

/-- In a timeless text with a parted text behind it, no time clause begins. -/
theorem no_time_clause (hcs : Timeless cs) (hparted : Parted cs ds) :
    ∀ start rest, cs = start ++ rest → rest ≠ [] →
      timeClause (start.getLast?.or none) (rest ++ ds) = none := by
  rintro start rest rfl hne
  rw [Option.or_none]
  cases hmatch : timeClause start.getLast? (rest ++ ds) with
  | none => rfl
  | some found =>
      obtain ⟨hbegins, keyword, hkeyword, word, more, hwhole, hword, hends⟩ :=
        time_clause_begins hmatch
      have hread : anyCaseWord? keyword.toList (rest ++ ds) = some (more ++ found.2) :=
        any_case_word_eq_some_iff.mpr ⟨word, hwhole, hword, hends⟩
      obtain ⟨left, hleft⟩ := any_case_word_append (letter_word_of_keyword keyword hkeyword)
        (hparted.of_append hne) hne hread
      have hnone := no_word_iff.mpr (hcs keyword hkeyword) start rest rfl hbegins hne
      rw [hnone] at hleft
      cases hleft

/-- Behind a timeless text that ends in a blank, the clause of a window is swapped for another. -/
theorem with_window_of_clause (hfront : Timeless front.toList)
    (hblank : front.toList.getLast?.any isBlank = true) (h : w.clause? = some clause)
    (h' : w'.clause? = some clause') : withWindow (front ++ clause) w' = front ++ clause' := by
  have hparted : Parted front.toList clause.toList := by
    refine .inl fun c hc => is_word_character_of_blank ?_
    rwa [Option.mem_def.mp hc] at hblank
  have hbegins : beginsWord front.toList.getLast? = true := by
    cases hlast : front.toList.getLast? with
    | none => rfl
    | some c =>
        rw [hlast] at hblank
        simp [beginsWord, is_word_character_of_blank hblank]
  have hhere := time_clause_of_shows hbegins (Window.shows_of_clause h)
  have hne : clause.toList ≠ [] := by
    obtain ⟨taken, hne, heq⟩ := time_clause_covers _ _ _ _ hhere
    rwa [heq, List.append_nil]
  have hoccurs : occurs timeClause (front ++ clause).toList = true := by
    rw [occurs, Bool.not_eq_true', List.isEmpty_eq_false_iff]
    intro hnil
    exact occurrences_eq_nil_iff.mp hnil _ _ () String.toList_append ⟨hne, [], hhere⟩
  have hreplaced : replaceAll timeClause clause'.toList (front ++ clause).toList =
      front.toList ++ clause'.toList := by
    have hkept := replace_from_behind clause'.toList (no_time_clause hfront hparted)
    have hput := replace_from_at clause'.toList hne
      (show timeClause front.toList.getLast? (clause.toList ++ []) = some ((), []) by
        rwa [List.append_nil])
    rw [List.append_nil] at hput
    rw [String.toList_append, replaceAll, hkept, Option.or_none, hput]
    simp [replaceFrom]
  rw [withWindow, h']
  show (if occurs timeClause (front ++ clause).toList then _ else _) = _
  rw [if_pos hoccurs, hreplaced, ← String.toList_append, String.ofList_toList]

/-- Behind a plain text, the clause of a window goes on a line of its own. -/
theorem with_window_of_plain (hquery : Plain query.toList) (h' : w'.clause? = some clause') :
    withWindow query w' = query ++ "\n" ++ clause' := by
  have hnone : occurs timeClause query.toList = false := by
    rw [occurs, Bool.not_eq_false', List.isEmpty_iff, occurrences_eq_nil_iff]
    rintro start tail u hsplit ⟨hne, rest, hmatch⟩
    have hparted : Parted query.toList [] := .inr (by simp)
    have hno := no_time_clause hquery.timeless hparted start tail hsplit hne
    rw [List.append_nil, Option.or_none, hmatch] at hno
    cases hno
  have hkept : dropLastBlanks query.toList = query.toList := drop_last_blanks_of_last hquery.last
  rw [withWindow, h']
  show (if occurs timeClause query.toList then _ else _) = _
  rw [hnone, hkept, String.ofList_toList]
  rfl

/-- Among plain clauses that are joined, the last one is swapped when it is that of a window. -/
theorem with_window_join (hseparator : Parting separator.toList)
    (hblank : separator.toList.getLast?.any isBlank = true) (hne : items ≠ [])
    (hitems : ∀ item ∈ items, Plain item.toList) (h : w.clause? = some clause)
    (h' : w'.clause? = some clause') :
    withWindow (join separator (items ++ [clause])) w' = join separator (items ++ [clause']) := by
  have hjoined := Plain.join hseparator hne hitems
  have hfront : Timeless (join separator items ++ separator).toList := by
    rw [String.toList_append]
    exact .append (parted_of_head hseparator.head) hjoined.timeless hseparator.timeless
  have hlast : (join separator items ++ separator).toList.getLast?.any isBlank = true := by
    rw [String.toList_append, List.getLast?_append]
    cases hend : separator.toList.getLast? with
    | none =>
        rw [hend] at hblank
        cases hblank
    | some c => rwa [hend] at hblank
  rw [join_concat _ hne, join_concat _ hne]
  exact with_window_of_clause hfront hlast h h'

namespace Draft

variable {draft : Draft} {table : Table}

/-- A complete draft is assembled with any window. -/
theorem assemble_set_window (htable : draft.table = some table) (hmissing : draft.missing? = none)
    (w : Window) :
    (draft.setWindow w).assemble = .ok (join " " ((draft.setWindow w).clausesFrom table)) ∧
      (draft.setWindow w).assembleLines =
        .ok (join "\n" ((draft.setWindow w).clausesFrom table)) := by
  have hcomplete : (draft.setWindow w).missing? = none := hmissing
  obtain ⟨table', htable', hquery, hlines⟩ := assemble_of_complete hcomplete
  obtain rfl : table' = table := Option.some.inj (htable'.symm.trans htable)
  exact ⟨hquery, hlines⟩

/-- Swapping is assembling again. Where the entries of a complete draft are neat and no word in
them begins a time clause, the query assembled with one window becomes, when it gets another, the
query assembled with that one: on one line, on several, and on several without a time range
before. -/
theorem with_window_assemble (htable : draft.table.isSome = true) (hcolumns : draft.columns ≠ [])
    (hneat : ∀ entry ∈ draft.entries, NeatText entry)
    (htimeless : ∀ entry ∈ draft.entries, Timeless entry.toList)
    (hw : w.check = .ok ()) (hbounded : w ≠ .unbounded)
    (hw' : w'.check = .ok ()) (hbounded' : w' ≠ .unbounded) :
    ∃ query query' lines lines' bare,
      (draft.setWindow w).assemble = .ok query ∧ (draft.setWindow w').assemble = .ok query' ∧
      (draft.setWindow w).assembleLines = .ok lines ∧
      (draft.setWindow w').assembleLines = .ok lines' ∧
      (draft.setWindow .unbounded).assembleLines = .ok bare ∧
      withWindow query w' = query' ∧ withWindow lines w' = lines' ∧
      withWindow bare w' = lines' := by
  obtain ⟨table, htable⟩ := Option.isSome_iff_exists.mp htable
  have hmissing : draft.missing? = none := by
    obtain ⟨column, columns, hfirst⟩ := List.exists_cons_of_ne_nil hcolumns
    have hmem : column ∈ draft.columns := by simp [hfirst]
    have hfilled := (hneat column (by simp [entries, hmem])).filled
    exact missing_eq_none_iff.mpr ⟨by rw [htable]; rfl, column, hmem, hfilled⟩
  have hentries : ∀ entry ∈ draft.entries, Plain entry.toList := fun entry hentry =>
    plain_of_neat (hneat entry hentry) (htimeless entry hentry)
  have hplain : ∀ clause ∈ (draft.setWindow .unbounded).clausesFrom table, Plain clause.toList :=
    fun clause hclause => plain_of_mem_clauses hcolumns hentries hclause
  have hne : (draft.setWindow .unbounded).clausesFrom table ≠ [] := List.cons_ne_nil _ _
  obtain ⟨clause, hclause, -⟩ := Window.clause_denotes (Window.check_eq_ok_iff.mp hw) hbounded
  obtain ⟨clause', hclause', -⟩ := Window.clause_denotes (Window.check_eq_ok_iff.mp hw') hbounded'
  obtain ⟨hquery, hlines⟩ := assemble_set_window htable hmissing w
  obtain ⟨hquery', hlines'⟩ := assemble_set_window htable hmissing w'
  obtain ⟨-, hbare⟩ := assemble_set_window htable hmissing .unbounded
  rw [clauses_from_set_window, hclause, Option.toList_some] at hquery hlines
  rw [clauses_from_set_window, hclause', Option.toList_some] at hquery' hlines'
  refine ⟨_, _, _, _, _, hquery, hquery', hlines, hlines', hbare, ?_, ?_, ?_⟩
  · exact with_window_join parting_space (by decide) hne hplain hclause hclause'
  · exact with_window_join parting_line_break (by decide) hne hplain hclause hclause'
  · rw [join_concat _ hne]
    exact with_window_of_plain (Plain.join parting_line_break hne hplain) hclause'

/-- A draft with every list, where words begin and end with those of a time clause. -/
def lastSeen : Draft where
  table := some .flows
  columns := ["lastseen", "MAX(starttime)"]
  conditions := ["username = 'at last_24 hours'", "restart = 1"]
  groupBy := ["lastseen"]
  having := ["COUNT(*) > 10"]
  orderBy := some ⟨["lastseen", "BLAST"], .ascending⟩
  limit := RowLimit.ofWord? 10

/-- The first day of a year, by its bounds. -/
def newYear : Window := .absolute "2024-01-01 00:00" (some "2024-01-02 00:00:00")

/-- The last day instead of the first one of the year. -/
theorem with_window_assemble_last_seen :
    ∃ query query' lines lines' bare,
      (lastSeen.setWindow newYear).assemble = .ok query ∧
      (lastSeen.setWindow (.relative 1 .days)).assemble = .ok query' ∧
      (lastSeen.setWindow newYear).assembleLines = .ok lines ∧
      (lastSeen.setWindow (.relative 1 .days)).assembleLines = .ok lines' ∧
      (lastSeen.setWindow .unbounded).assembleLines = .ok bare ∧
      withWindow query (.relative 1 .days) = query' ∧
      withWindow lines (.relative 1 .days) = lines' ∧
      withWindow bare (.relative 1 .days) = lines' := by
  have hneat : ∀ entry ∈ lastSeen.entries, trim entry = entry ∧ allBlank entry = false := by
    decide +kernel
  have htimeless : ∀ entry ∈ lastSeen.entries, Timeless entry.toList := by decide +kernel
  have hcheck : newYear.check = .ok () := by decide +kernel
  exact with_window_assemble (by decide) (by decide)
    (fun entry hentry => ⟨(hneat entry hentry).1, (hneat entry hentry).2⟩) htimeless
    hcheck (by decide) rfl (by decide)

end Draft

end Swap

end Ariel.Query
