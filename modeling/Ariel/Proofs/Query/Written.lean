import Ariel.Proofs.Query.Layout
import Ariel.Proofs.Query.Window.RoundTrip

/-!
# Written clauses

A written clause is closed, and its mask is that of a clause at its place. Lists of fragments,
limits and time windows make written clauses; the mask of such a list opens no clause
(`unobtrusive_join`).
-/

namespace Ariel.Query

open Ariel.Text Ariel.Validation Ariel.Calendar

variable {rank : Nat} {body after : List Char} {separator keyword : String} {items : List String}

/-- A constant text that touches no literal, parenthesis or comparison operator. -/
def isPlain (text : String) : Bool :=
  text.toList.all fun c => !touching.contains c

/-- A clause as it is written at a place of the order. -/
structure Written (rank : Nat) (clause : List Char) : Prop where
  closed : Closed clause
  masked : ClauseMask rank (mask clause)

section Plain

variable {text : String}

theorem not_mem_of_plain {cs : List Char} (h : cs.all (fun c => !touching.contains c) = true) :
    ∀ c ∈ cs, c ∉ touching := by
  intro c hc
  simpa using List.all_eq_true.mp h c hc

/-- A plain text is closed. -/
theorem closed_of_is_plain (h : isPlain text = true) : Closed text.toList :=
  closed_of_plain (not_mem_of_plain h)

/-- A plain text holds no quote. -/
theorem quote_not_mem_of_plain (h : isPlain text = true) : '\'' ∉ text.toList :=
  fun hquote => not_mem_of_plain h _ hquote (by decide)

/-- A plain text ends with no equals sign. -/
theorem last_of_plain (h : isPlain text = true) : text.toList.getLast? ≠ some '=' :=
  fun hlast => not_mem_of_plain h _ (List.mem_of_getLast? hlast) (by decide)

/-- A plain text in front of a text is its own mask. -/
theorem mask_plain_append (h : isPlain text = true) (cs : List Char) :
    mask (text.toList ++ cs) = text.toList ++ mask cs :=
  mask_append_of_no_quote (quote_not_mem_of_plain h)

end Plain

section Join

/-- What can stand between the fragments of a clause. -/
structure Separator (separator : String) : Prop where
  plain : isPlain separator = true
  head : separator.toList.head?.any (!afterEquals.contains ·) = true
  quiet : quietFrom none separator.toList = true
  separated : ∀ after, Separated (separator.toList ++ after)

theorem separator_comma : Separator ", " where
  plain := by decide
  head := by decide
  quiet := by decide
  separated := fun _ => separated_of_head rfl rfl (by decide)

theorem separator_and : Separator " AND " where
  plain := by decide
  head := by decide
  quiet := by decide
  separated := fun _ => separated_of_head rfl rfl (by decide)

/-- Closed texts can be joined by a plain text that cannot go on with an operator. -/
theorem closed_join (hplain : isPlain separator = true)
    (hhead : separator.toList.head?.any (!afterEquals.contains ·) = true)
    (h : ∀ item ∈ items, Closed item.toList) : Closed (join separator items).toList := by
  have hne : separator.toList ≠ [] := by
    intro hnil
    rw [hnil] at hhead
    cases hhead
  have hsafe : ∀ c ∈ separator.toList.head?, c ∉ afterEquals := by
    intro c hc
    rw [Option.mem_def.mp hc] at hhead
    simpa using hhead
  induction items with
  | nil => exact closed_of_plain fun c hc => absurd hc List.not_mem_nil
  | cons item items ih =>
      have hitem := h item (by simp)
      cases items with
      | nil => exact hitem
      | cons next items =>
          -- No operator comes about on either side of the separator.
          have hitems := ih fun other hother => h other (List.mem_cons_of_mem _ hother)
          have hfront := hitem.append (closed_of_is_plain hplain) (.inr hsafe)
          have hlast : (item.toList ++ separator.toList).getLast? ≠ some '=' := by
            rw [List.getLast?_append_of_ne_nil _ hne]
            exact last_of_plain hplain
          rw [join, String.toList_append, String.toList_append]
          exact hfront.append hitems (.inl hlast)

/-- The mask of joined fragments opens no clause. -/
theorem unobtrusive_join (hseparator : Separator separator)
    (h : ∀ item ∈ items, Fragment item.toList) :
    Unobtrusive (mask (join separator items).toList) := by
  induction items with
  | nil => exact fun _ _ => quiet_nil
  | cons item items ih =>
      have hitem := h item (by simp)
      cases items with
      | nil => exact fun after hafter => quiet_mask hitem.quiet hafter
      | cons next items =>
          have hitems := ih fun other hother => h other (List.mem_cons_of_mem _ hother)
          intro after hafter
          rw [join, String.toList_append, String.toList_append, List.append_assoc,
            mask_append hitem.singleQuotes, mask_plain_append hseparator.plain]
          refine Quiet.append (quiet_mask hitem.quiet ?_) ?_
          · rw [List.append_assoc]
            exact hseparator.separated _
          · exact (quiet_of_constant hseparator.quiet).append (hitems after hafter)

end Join

section Clauses

/-- A keyword in front of a closed text makes a written clause when the mask of that text fits. -/
theorem written_of_body (hplain : isPlain keyword = true) (hbody : Closed body)
    (hmasked : ClauseMask rank (keyword.toList ++ mask body)) :
    Written rank (keyword.toList ++ body) := by
  refine ⟨(closed_of_is_plain hplain).append hbody (.inl (last_of_plain hplain)), ?_⟩
  rw [mask_plain_append hplain]
  exact hmasked

/-- A keyword in front of a plain text makes a written clause when the text fits. -/
theorem written_of_plain (hplain : isPlain keyword = true) (hbody : ∀ c ∈ body, c ∉ touching)
    (hmasked : ClauseMask rank (keyword.toList ++ body)) :
    Written rank (keyword.toList ++ body) := by
  have hquote : '\'' ∉ body := fun hquote => hbody _ hquote (by decide)
  refine written_of_body hplain (closed_of_plain hbody) ?_
  rwa [mask_of_no_quote hquote]

/-- A keyword in front of joined fragments makes a written clause. -/
theorem written_list (hplain : isPlain keyword = true) (hseparator : Separator separator)
    (hitems : ∀ item ∈ items, Fragment item.toList)
    (hmasked : ∀ {body : List Char}, Unobtrusive body → ClauseMask rank (keyword.toList ++ body)) :
    Written rank (keyword ++ join separator items).toList := by
  rw [String.toList_append]
  refine written_of_body hplain (closed_join hseparator.plain hseparator.head ?_) ?_
  · exact fun item hitem => (hitems item hitem).toClosed
  · exact hmasked (unobtrusive_join hseparator hitems)

/-- The columns of a sort order and its direction make a written clause. -/
theorem written_order (hitems : ∀ item ∈ items, Fragment item.toList) (direction : Direction) :
    Written 5 ("ORDER BY " ++ join ", " items ++ " " ++ direction.keyword).toList := by
  have hclosed : Closed (join ", " items).toList :=
    closed_join separator_comma.plain separator_comma.head fun item hitem =>
      (hitems item hitem).toClosed
  have hplain : isPlain (" " ++ direction.keyword) = true := by
    cases direction <;> decide
  have hquiet : quietFrom none (" " ++ direction.keyword).toList = true := by
    cases direction <;> decide
  have hhead : (" " ++ direction.keyword).toList.head? = some ' ' := by
    cases direction <;> rfl
  have hseparated : ∀ after, Separated ((" " ++ direction.keyword).toList ++ after) := by
    intro after
    cases direction with
    | ascending => exact separated_of_head rfl rfl (by decide)
    | descending => exact separated_of_head rfl rfl (by decide)
  rw [String.append_assoc, String.append_assoc, String.toList_append, String.toList_append]
  refine written_of_body (by decide) (hclosed.append (closed_of_is_plain hplain) ?_) ?_
  · refine .inr fun c hc => ?_
    rw [hhead] at hc
    obtain rfl : ' ' = c := Option.some.inj hc
    decide
  · refine .order fun after hafter => ?_
    rw [mask_append hclosed.singleQuotes, mask_of_no_quote (quote_not_mem_of_plain hplain)]
    exact (unobtrusive_join separator_comma hitems _ (hseparated after)).append
      (quiet_of_constant hquiet)

/-- The name of a table makes a written clause. -/
theorem written_source (table : Table) : Written 1 ("FROM " ++ table.name).toList := by
  have hplain : isPlain table.name = true := by
    cases table <;> decide
  rw [String.toList_append]
  exact written_of_plain (by decide) (not_mem_of_plain hplain) (.source table)

/-- Digits touch nothing. -/
theorem decimal_not_touching {n : Nat} {c : Char} (h : c ∈ (decimal n).toList) : c ∉ touching := by
  have hnone : ∀ c ∈ touching, c.isDigit = false := by simp [touching]
  intro hmem
  have hdigit := is_digit_of_decimal h
  rw [hnone c hmem] at hdigit
  cases hdigit

/-- The number of rows makes a written clause. -/
theorem written_limit (limit : RowLimit) :
    Written 6 ("LIMIT " ++ decimal limit.rows.toNat).toList := by
  rw [String.toList_append]
  exact written_of_plain (by decide) (fun _ => decimal_not_touching) (.limit limit)

end Clauses

section Windows

open Window

variable {start stop : String}

/-- A text between quotes, its outer blanks apart. -/
def quoted (text : String) : List Char :=
  '\'' :: ((trim text).toList ++ ['\''])

/-- A quoted datetime is closed. -/
theorem closed_quoted (h : IsDatetime start.toList) : Closed (quoted start) := by
  refine closed_literal fun c hc hmem => ?_
  rw [to_list_trim] at hc
  have hnone : ∀ c ∈ ['\'', '"', '='], isDatetimeChar c = false := by
    simp [isDatetimeChar, isBlank]
  have hchar := datetime_chars h c hc
  rw [hnone c hmem] at hchar
  cases hchar

/-- The mask of a quoted datetime opens no clause. -/
theorem unobtrusive_quoted (h : IsDatetime start.toList) : Unobtrusive (mask (quoted start)) := by
  intro after _
  have hquote : '\'' ∉ (trim start).toList := by
    rw [to_list_trim]
    exact h.quote_not_mem
  refine quiet_of_no_letter fun c hc => ?_
  rw [quoted, mask_literal hquote] at hc
  simp only [List.mem_cons, List.mem_append, List.mem_replicate] at hc
  rcases hc with rfl | ⟨-, rfl⟩ | rfl | hc
  · decide
  · decide
  · decide
  · cases hc

/-- An amount that is not zero and a unit make a written clause. -/
theorem written_last {amount : UInt32} (unit : TimeUnit) (h : amount ≠ 0) :
    Written 7 ("LAST " ++ decimal amount.toNat ++ " " ++ unit.keyword).toList := by
  have hsplit : ("LAST " ++ decimal amount.toNat ++ " " ++ unit.keyword).toList =
      "LAST ".toList ++ ((decimal amount.toNat).toList ++ (' ' :: unit.keyword.toList)) := by
    simp [String.toList_append]
  rw [hsplit]
  refine written_of_plain (by decide) (fun c hc => ?_) (.last unit h)
  rcases List.mem_append.mp hc with hc | hc
  · exact decimal_not_touching hc
  · have hplain : isPlain (" " ++ unit.keyword) = true := by
      cases unit <;> decide
    refine not_mem_of_plain hplain c ?_
    rw [String.toList_append]
    exact hc

/-- A start makes a written clause. -/
theorem written_start (h : IsDatetime start.toList) :
    Written 7 ("START '" ++ trim start ++ "'").toList := by
  have hsplit : ("START '" ++ trim start ++ "'").toList = "START ".toList ++ quoted start := by
    simp [String.toList_append, quoted]
  rw [hsplit]
  exact written_of_body (by decide) (closed_quoted h) (.start (unobtrusive_quoted h))

/-- A start and a stop make a written clause. -/
theorem written_start_stop (h : IsDatetime start.toList) (hstop : IsDatetime stop.toList) :
    Written 7 ("START '" ++ trim start ++ "' STOP '" ++ trim stop ++ "'").toList := by
  have hsplit : ("START '" ++ trim start ++ "' STOP '" ++ trim stop ++ "'").toList =
      "START ".toList ++ (quoted start ++ (" STOP ".toList ++ quoted stop)) := by
    simp [String.toList_append, quoted]
  have hplain : isPlain " STOP " = true := by decide
  have hsecond : Closed (" STOP ".toList ++ quoted stop) :=
    (closed_of_is_plain hplain).append (closed_quoted hstop) (.inl (last_of_plain hplain))
  rw [hsplit]
  refine written_of_body (by decide) ((closed_quoted h).append hsecond ?_) ?_
  · refine .inr fun c hc => ?_
    obtain rfl : ' ' = c := Option.some.inj hc
    decide
  · refine .start fun after hafter => ?_
    rw [mask_append (closed_quoted h).singleQuotes, mask_plain_append hplain]
    exact (unobtrusive_quoted h _ (separated_of_head rfl rfl (by decide))).append
      ((quiet_of_constant (by decide)).append (unobtrusive_quoted hstop after hafter))

/-- The clause of a window, when it has one, is a written clause. -/
theorem written_window {window : Window} {clause : String} (h : window.clause? = some clause) :
    Written 7 clause.toList := by
  cases shows_of_clause h with
  | last unit hamount => exact written_last unit hamount
  | start hstart => exact written_start hstart
  | startStop hstart hbound => exact written_start_stop hstart hbound

end Windows

end Ariel.Query
