import Ariel.Proofs.Text.Scan
import Ariel.Proofs.Validation.Outside

/-!
# Searches for literals behind words

Some checks search a query for a word and the literal behind it. The search goes from left to right
and sees no difference between a quote that opens a literal and one that closes it. It finds the
words that stand outside of literals, each with its literal, as long as it keeps in step with the
literals (`Searches.reads`): no literal that it passes over ends with such a word when another
literal follows, and what stands behind a literal that it reads is clear.
-/

namespace Ariel.Validation

open Ariel.Text

variable {β : Type} {before : Option Char} {offset : Nat} {word : β}
  {cs front gap text behind query : List Char}

/-- The words that a search takes in front of a literal, with the blanks behind them, when they
stand behind a character or at the beginning of a text. -/
abbrev Lead (β : Type) := (before : Option Char) → β → List Char → Prop

/-- A literal behind a word: where the word stands, which one it is, and what the literal holds. -/
structure Reading (β : Type) where
  position : Nat
  word : β
  text : List Char

/-- Words hold no quotes, and a text does not end with two of them. -/
structure Lead.Lawful (lead : Lead β) : Prop where
  quoteless : ∀ {before word cs}, lead before word cs → '\'' ∉ cs
  unique : ∀ {before word word' start start' cs cs'}, start ++ cs = start' ++ cs' →
    lead (start.getLast?.or before) word cs → lead (start'.getLast?.or before) word' cs' →
      start = start' ∧ word = word'

/-- A text ends with a word. -/
def Ends (lead : Lead β) (before : Option Char) (cs : List Char) : Prop :=
  ∃ start word tail, cs = start ++ tail ∧ lead (start.getLast?.or before) word tail

/-- A word stands outside of literals in front of a literal, so many bytes behind an offset. -/
def Stands (lead : Lead β) (before : Option Char) (offset : Nat) (query : List Char)
    (reading : Reading β) : Prop :=
  ∃ front cs behind, query = front ++ (cs ++ '\'' :: (reading.text ++ '\'' :: behind)) ∧
    Even (front.count '\'') ∧ '\'' ∉ reading.text ∧
      lead (front.getLast?.or before) reading.word cs ∧
        reading.position = offset + byteLength front

/-- A search keeps in step with the literals of a query: one that it passes over does not end with a
word when another one follows, and behind one that it reads the text is clear. -/
structure InStep (lead : Lead β) (clear : List Char → Prop) (before : Option Char)
    (query : List Char) : Prop where
  passed : ∀ front text behind, query = front ++ '\'' :: (text ++ '\'' :: behind) →
    Even (front.count '\'') → '\'' ∉ text → ¬ Ends lead before front → '\'' ∈ behind →
      ¬ Ends lead (some '\'') text
  read : ∀ front text behind, query = front ++ '\'' :: (text ++ '\'' :: behind) →
    Even (front.count '\'') → '\'' ∉ text → Ends lead before front → clear behind

/-- A word and the literal behind it stand at the beginning of a text. -/
def Opens (lead : Lead β) (before : Option Char) (cs : List Char) : Prop :=
  ∃ word tail text rest, lead before word tail ∧ '\'' ∉ text ∧
    cs = tail ++ '\'' :: (text ++ '\'' :: rest)

/-- What a search finds from an offset on: it takes a word and its literal where they stand, as long
as the text behind them is clear, and goes on behind the first character where they do not. -/
structure Searches (lead : Lead β) (clear : List Char → Prop)
    (scan : (before : Option Char) → (offset : Nat) → List Char → List (Reading β)) : Prop where
  nil : ∀ {before offset}, scan before offset [] = []
  skip : ∀ {before offset c cs}, ¬ Opens lead before (c :: cs) →
    scan before offset (c :: cs) = scan (some c) (offset + c.utf8Size) cs
  found : ∀ {before offset word cs text behind}, lead before word cs → '\'' ∉ text →
    clear behind → scan before offset (cs ++ '\'' :: (text ++ '\'' :: behind)) =
      ⟨offset, word, text⟩ ::
        scan (some '\'') (offset + byteLength (cs ++ '\'' :: (text ++ ['\'']))) behind

section Literals

/-- A text with closed literals has none, or a first one. -/
theorem exists_first_literal (h : Even (cs.count '\'')) : '\'' ∉ cs ∨
    ∃ gap text behind, cs = gap ++ '\'' :: (text ++ '\'' :: behind) ∧ '\'' ∉ gap ∧ '\'' ∉ text ∧
      Even (behind.count '\'') := by
  obtain ⟨gap, hgap, rfl | ⟨rest, rfl⟩⟩ := exists_content cs
  · exact .inl hgap
  · obtain ⟨text, htext, rfl | ⟨behind, rfl⟩⟩ := exists_content rest
    · rw [List.count_append, List.count_cons_self, List.count_eq_zero.mpr hgap,
        List.count_eq_zero.mpr htext] at h
      exact absurd h (by decide)
    · refine .inr ⟨gap, text, behind, rfl, hgap, htext, ?_⟩
      rw [List.count_append, List.count_cons_self, List.count_append, List.count_cons_self,
        List.count_eq_zero.mpr hgap, List.count_eq_zero.mpr htext, Nat.even_iff] at h
      rw [Nat.even_iff]
      omega

/-- The quotes of a literal with closed literals in front of it are closed. -/
theorem even_behind_literal (hgap : '\'' ∉ gap) (htext : '\'' ∉ text) :
    Even ((gap ++ '\'' :: (text ++ '\'' :: front)).count '\'') ↔ Even (front.count '\'') := by
  rw [List.count_append, List.count_cons_self, List.count_append, List.count_cons_self,
    List.count_eq_zero.mpr hgap, List.count_eq_zero.mpr htext, Nat.even_iff, Nat.even_iff]
  omega

/-- Behind a quote stands that quote. -/
theorem last_behind_quote (gap front : List Char) (before : Option Char) :
    (gap ++ '\'' :: front).getLast?.or before = front.getLast?.or (some '\'') := by
  rw [List.getLast?_append, List.getLast?_cons]
  cases front.getLast? <;> rfl

/-- Behind a literal stands its closing quote. -/
theorem last_behind_literal (gap text front : List Char) (before : Option Char) :
    (gap ++ '\'' :: (text ++ '\'' :: front)).getLast?.or before =
      front.getLast?.or (some '\'') := by
  rw [last_behind_quote, last_behind_quote]

/-- What holds no quotes stands behind each quote of the text that it ends. -/
theorem behind_quote_of_quoteless {more : List Char} (h : front ++ cs = gap ++ '\'' :: more)
    (hcs : '\'' ∉ cs) : ∃ start, more = start ++ cs ∧ front = gap ++ '\'' :: start := by
  rcases List.append_eq_append_iff.mp h with ⟨inner, -, rfl⟩ | ⟨inner, rfl, hinner⟩
  · exact absurd (by simp) hcs
  · cases inner with
    | nil =>
        obtain rfl : '\'' :: more = cs := hinner
        exact absurd List.mem_cons_self hcs
    | cons c start =>
        obtain ⟨rfl, rfl⟩ := List.cons.inj hinner
        exact ⟨start, rfl, rfl⟩

/-- A literal of a text is its first one, or it stands behind the first one. -/
theorem literal_first_or_later {other rest : List Char} (hgap : '\'' ∉ gap) (htext : '\'' ∉ text)
    (h : gap ++ '\'' :: (text ++ '\'' :: behind) = front ++ '\'' :: (other ++ '\'' :: rest))
    (heven : Even (front.count '\'')) (hother : '\'' ∉ other) :
    (gap = front ∧ text = other ∧ behind = rest) ∨
      ∃ more, front = gap ++ '\'' :: (text ++ '\'' :: more) ∧
        behind = more ++ '\'' :: (other ++ '\'' :: rest) := by
  obtain ⟨content, hcontent, rfl | ⟨inner, rfl⟩⟩ := exists_content front
  · obtain ⟨rfl, hbehind⟩ := content_inj hgap hcontent h
    obtain ⟨rfl, rfl⟩ := content_inj htext hother hbehind
    exact .inl ⟨rfl, rfl, rfl⟩
  · rw [List.append_assoc, List.cons_append] at h
    obtain ⟨rfl, hbehind⟩ := content_inj hgap hcontent h
    obtain ⟨first, hfirst, rfl | ⟨more, rfl⟩⟩ := exists_content inner
    · rw [List.count_append, List.count_cons_self, List.count_eq_zero.mpr hgap,
        List.count_eq_zero.mpr hfirst] at heven
      exact absurd heven (by decide)
    · rw [List.append_assoc, List.cons_append] at hbehind
      obtain ⟨rfl, rfl⟩ := content_inj htext hfirst hbehind
      exact .inr ⟨more, rfl, rfl⟩

end Literals

variable {lead : Lead β} {clear : List Char → Prop} {reading : Reading β}
  {scan : (before : Option Char) → (offset : Nat) → List Char → List (Reading β)}

/-- A word at the end of a text stands behind its last literal. -/
theorem Lead.Lawful.ends_behind_literal (h : lead.Lawful) :
    Ends lead before (gap ++ '\'' :: (text ++ '\'' :: front)) ↔ Ends lead (some '\'') front := by
  constructor
  · rintro ⟨start, word, tail, hsplit, hlead⟩
    have hend : start ++ tail = (gap ++ '\'' :: text) ++ '\'' :: front := by
      rw [← hsplit, List.append_assoc, List.cons_append]
    obtain ⟨more, rfl, rfl⟩ := behind_quote_of_quoteless hend (h.quoteless hlead)
    rw [List.append_assoc, List.cons_append, last_behind_literal] at hlead
    exact ⟨more, word, tail, rfl, hlead⟩
  · rintro ⟨start, word, tail, rfl, hlead⟩
    refine ⟨gap ++ '\'' :: (text ++ '\'' :: start), word, tail, by simp, ?_⟩
    rwa [last_behind_literal]

/-- A search keeps in step with a query when it does so with its first literal and behind it. -/
theorem in_step_iff (hlaw : lead.Lawful) (hgap : '\'' ∉ gap) (htext : '\'' ∉ text) :
    InStep lead clear before (gap ++ '\'' :: (text ++ '\'' :: behind)) ↔
      (¬ Ends lead before gap → '\'' ∈ behind → ¬ Ends lead (some '\'') text) ∧
        (Ends lead before gap → clear behind) ∧ InStep lead clear (some '\'') behind := by
  constructor
  · intro h
    refine ⟨h.passed gap text behind rfl (even_count_of_not_mem hgap) htext,
      h.read gap text behind rfl (even_count_of_not_mem hgap) htext, ?_, ?_⟩
    · rintro front other rest rfl heven hother hends
      refine h.passed (gap ++ '\'' :: (text ++ '\'' :: front)) other rest (by simp) ?_ hother ?_
      · rwa [even_behind_literal hgap htext]
      · rwa [hlaw.ends_behind_literal]
    · rintro front other rest rfl heven hother hends
      refine h.read (gap ++ '\'' :: (text ++ '\'' :: front)) other rest (by simp) ?_ hother ?_
      · rwa [even_behind_literal hgap htext]
      · rwa [hlaw.ends_behind_literal]
  · rintro ⟨hpassed, hread, h⟩
    constructor
    · intro front other rest hsplit heven hother hends
      rcases literal_first_or_later hgap htext hsplit heven hother with
        ⟨rfl, rfl, rfl⟩ | ⟨more, rfl, rfl⟩
      · exact hpassed hends
      · rw [hlaw.ends_behind_literal] at hends
        rw [even_behind_literal hgap htext] at heven
        exact h.passed more other rest rfl heven hother hends
    · intro front other rest hsplit heven hother hends
      rcases literal_first_or_later hgap htext hsplit heven hother with
        ⟨rfl, rfl, rfl⟩ | ⟨more, rfl, rfl⟩
      · exact hread hends
      · rw [hlaw.ends_behind_literal] at hends
        rw [even_behind_literal hgap htext] at heven
        exact h.read more other rest rfl heven hother hends

/-- Where there are no literals, a search keeps in step with them. -/
theorem in_step_of_quoteless (h : '\'' ∉ cs) : InStep lead clear before cs where
  passed := by
    rintro front text behind rfl
    exact absurd (by simp) h
  read := by
    rintro front text behind rfl
    exact absurd (by simp) h

/-- The words of a query stand in front of its first literal, or behind it. -/
theorem stands_iff (hlaw : lead.Lawful) (hgap : '\'' ∉ gap) (htext : '\'' ∉ text) :
    Stands lead before offset (gap ++ '\'' :: (text ++ '\'' :: behind)) reading ↔
      (∃ start cs, gap = start ++ cs ∧ lead (start.getLast?.or before) reading.word cs ∧
        reading.text = text ∧ reading.position = offset + byteLength start) ∨
      Stands lead (some '\'') (offset + byteLength (gap ++ '\'' :: (text ++ ['\'']))) behind
        reading := by
  constructor
  · rintro ⟨front, cs, rest, hsplit, heven, hreading, hlead, hposition⟩
    have hcs := hlaw.quoteless hlead
    have hcount : Even ((front ++ cs).count '\'') := by
      rwa [List.count_append, List.count_eq_zero.mpr hcs, Nat.add_zero]
    rw [← List.append_assoc] at hsplit
    rcases literal_first_or_later hgap htext hsplit hcount hreading with
      ⟨rfl, hsame, -⟩ | ⟨more, hmore, rfl⟩
    · exact .inl ⟨front, cs, rfl, hlead, hsame.symm, hposition⟩
    · have hend : front ++ cs = (gap ++ '\'' :: text) ++ '\'' :: more := by
        rw [hmore, List.append_assoc, List.cons_append]
      obtain ⟨start, rfl, rfl⟩ := behind_quote_of_quoteless hend hcs
      rw [List.append_assoc, List.cons_append] at hlead heven
      rw [last_behind_literal] at hlead
      rw [even_behind_literal hgap htext] at heven
      refine .inr ⟨start, cs, rest, List.append_assoc .., heven, hreading, hlead, ?_⟩
      rw [hposition]
      simp only [byte_length_append, byte_length_cons, byte_length_nil]
      omega
  · rintro (⟨start, cs, rfl, hlead, hsame, hposition⟩ | ⟨front, cs, rest, rfl, heven, hreading,
      hlead, hposition⟩)
    · refine ⟨start, cs, behind, by simp [hsame], ?_, hsame ▸ htext, hlead, hposition⟩
      exact even_count_of_not_mem fun hmem => hgap (List.mem_append_left _ hmem)
    · refine ⟨gap ++ '\'' :: (text ++ '\'' :: front), cs, rest, by simp, ?_, hreading, ?_, ?_⟩
      · rwa [even_behind_literal hgap htext]
      · rwa [last_behind_literal]
      · rw [hposition]
        simp only [byte_length_append, byte_length_cons, byte_length_nil]
        omega

section Searches

/-- A search goes on behind a text in which nothing is taken. -/
theorem Searches.behind_text {tail : List Char} (h : Searches lead clear scan)
    (hnone : ∀ start rest, front = start ++ rest → rest ≠ [] →
      ¬ Opens lead (start.getLast?.or before) (rest ++ tail)) :
    scan before offset (front ++ tail) =
      scan (front.getLast?.or before) (offset + byteLength front) tail := by
  induction front generalizing before offset with
  | nil => rfl
  | cons c front ih =>
      have hhere : ¬ Opens lead before (c :: (front ++ tail)) :=
        hnone [] (c :: front) rfl (by simp)
      rw [List.cons_append, h.skip hhere, last_cons_or, byte_length_cons, ← Nat.add_assoc]
      refine ih fun start rest hsplit hne => ?_
      have hlater := hnone (c :: start) rest (by rw [hsplit, List.cons_append]) hne
      rwa [last_cons_or] at hlater

/-- Where there are no quotes, nothing is found. -/
theorem Searches.quoteless (h : Searches lead clear scan) (hcs : '\'' ∉ cs) :
    scan before offset cs = [] := by
  have hall : scan before offset (cs ++ []) =
      scan (cs.getLast?.or before) (offset + byteLength cs) [] := h.behind_text ?_
  · rwa [List.append_nil, h.nil] at hall
  · rintro start rest rfl - ⟨word, tail, text, more, -, -, hsplit⟩
    rw [List.append_nil] at hsplit
    exact hcs (by simp [hsplit])

/-- In front of a word with its literal, nothing is taken. -/
theorem Searches.read (h : Searches lead clear scan) (hlaw : lead.Lawful) {start : List Char}
    (hstart : '\'' ∉ start) (htext : '\'' ∉ text) (hlead : lead (start.getLast?.or before) word cs)
    (hclear : clear behind) :
    scan before offset (start ++ (cs ++ '\'' :: (text ++ '\'' :: behind))) =
      ⟨offset + byteLength start, word, text⟩ ::
        scan (some '\'')
          (offset + byteLength (start ++ (cs ++ '\'' :: (text ++ ['\''])))) behind := by
  have hcs := hlaw.quoteless hlead
  rw [h.behind_text, h.found hlead htext hclear, byte_length_append start, ← Nat.add_assoc]
  rintro init rest rfl hne ⟨word', tail, text', more, hlead', -, hsplit⟩
  have hrest : '\'' ∉ rest ++ cs := by
    simp only [List.mem_append, not_or] at hstart ⊢
    exact ⟨hstart.2, hcs⟩
  have hfirst : (rest ++ cs) ++ '\'' :: (text ++ '\'' :: behind) =
      tail ++ '\'' :: (text' ++ '\'' :: more) := by simpa using hsplit
  obtain ⟨rfl, -⟩ := content_inj hrest (hlaw.quoteless hlead') hfirst
  -- Both words end the same text, so they begin at the same place.
  obtain ⟨hinit, -⟩ := hlaw.unique (List.append_assoc init rest cs) hlead hlead'
  exact hne (by simpa using hinit)

/-- A literal without a word in front of it is passed over when it does not end with one, or when no
other literal follows. -/
theorem Searches.passed (h : Searches lead clear scan) (hlaw : lead.Lawful) (hgap : '\'' ∉ gap)
    (htext : '\'' ∉ text) (hends : ¬ Ends lead before gap)
    (hlater : '\'' ∈ behind → ¬ Ends lead (some '\'') text) :
    scan before offset (gap ++ '\'' :: (text ++ '\'' :: behind)) =
      scan (some '\'') (offset + byteLength (gap ++ '\'' :: (text ++ ['\'']))) behind := by
  have hsplit : gap ++ '\'' :: (text ++ '\'' :: behind) =
      (gap ++ '\'' :: (text ++ ['\''])) ++ behind := by simp
  have hlast : (gap ++ '\'' :: (text ++ ['\''])).getLast?.or before = some '\'' :=
    last_behind_literal gap text [] before
  rw [hsplit, h.behind_text, hlast]
  rintro start rest hfront hne ⟨word, tail, other, more, hlead, -, hopens⟩
  have htail := hlaw.quoteless hlead
  rcases List.append_eq_append_iff.mp hfront with ⟨inner, rfl, hinner⟩ | ⟨rest', rfl, rfl⟩
  · cases inner with
    | nil =>
        have hfirst : [] ++ '\'' :: (text ++ '\'' :: behind) =
            tail ++ '\'' :: (other ++ '\'' :: more) := by
          rw [← hopens, ← List.nil_append rest, ← hinner]
          simp
        obtain ⟨rfl, -⟩ := content_inj List.not_mem_nil htail hfirst
        exact hends ⟨gap, word, [], by simp, by simpa using hlead⟩
    | cons c inner =>
        rw [List.cons_append] at hinner
        obtain ⟨rfl, hcontent⟩ := List.cons.inj hinner
        obtain ⟨rest', d, rfl⟩ := (List.eq_nil_or_concat' rest).resolve_left hne
        rw [← List.append_assoc] at hcontent
        obtain ⟨rfl, hquote⟩ := List.append_inj' hcontent rfl
        obtain rfl := List.singleton_inj.mp hquote
        -- The word would end the literal that is passed over.
        have hfirst : rest' ++ '\'' :: behind = tail ++ '\'' :: (other ++ '\'' :: more) := by
          simpa using hopens
        have hrest : '\'' ∉ rest' := fun hmem => htext (List.mem_append_right _ hmem)
        obtain ⟨rfl, rfl⟩ := content_inj hrest htail hfirst
        rw [last_behind_quote] at hlead
        exact hlater (by simp) ⟨inner, word, rest', rfl, hlead⟩
  · -- The word would stand in front of the literal that is passed over.
    have hfirst : rest' ++ '\'' :: (text ++ '\'' :: behind) =
        tail ++ '\'' :: (other ++ '\'' :: more) := by simpa using hopens
    have hrest : '\'' ∉ rest' := fun hmem => hgap (List.mem_append_right _ hmem)
    obtain ⟨rfl, -⟩ := content_inj hrest htail hfirst
    exact hends ⟨start, word, rest', rfl, hlead⟩

/-- Words stand at their offset, or behind it. -/
theorem Stands.offset_le (h : Stands lead before offset query reading) :
    offset ≤ reading.position := by
  obtain ⟨front, -, -, -, -, -, -, hposition⟩ := h
  omega

/-- No word stands inside of a literal. -/
theorem Stands.even {tail : List Char} (h : Stands lead before offset (front ++ tail) reading)
    (hposition : reading.position = offset + byteLength front) : Even (front.count '\'') := by
  obtain ⟨start, cs, behind, hsplit, heven, -, -, hstart⟩ := h
  have hbytes : byteLength front = byteLength start := by omega
  have hsame : front = start := by
    refine front_eq_of_offsets hsplit hbytes.le fun c _ => ?_
    have := c.utf8Size_pos
    omega
  rwa [hsame]

/-- A search that keeps in step with the literals of a query finds the words that stand outside of
them, each once and in their order. -/
theorem Searches.reads (offset : Nat) (hscan : Searches lead clear scan) (hlaw : lead.Lawful)
    (hstep : InStep lead clear before query) (heven : Even (query.count '\'')) :
    (scan before offset query).Pairwise (·.position < ·.position) ∧
      ∀ reading, reading ∈ scan before offset query ↔
        Stands lead before offset query reading := by
  -- A literal is read or passed over as a whole, so the induction is on the length.
  induction hlength : query.length using Nat.strong_induction_on
    generalizing before offset query with
  | _ n ih =>
    rcases exists_first_literal heven with hquote | ⟨gap, text, behind, rfl, hgap, htext, heven⟩
    · rw [hscan.quoteless hquote]
      refine ⟨.nil, fun reading => ⟨fun h => absurd h List.not_mem_nil, ?_⟩⟩
      rintro ⟨front, cs, rest, rfl, -⟩
      exact absurd (by simp) hquote
    · have hshort : behind.length < n := by
        rw [← hlength]
        simp only [List.length_append, List.length_cons]
        omega
      obtain ⟨hpassed, hread, hbehind⟩ := (in_step_iff hlaw hgap htext).mp hstep
      have hlater := fun offset => ih _ hshort offset hbehind heven rfl
      by_cases hends : Ends lead before gap
      · have hclear := hread hends
        obtain ⟨start, word, cs, rfl, hlead⟩ := hends
        have hstart : '\'' ∉ start := fun hmem => hgap (List.mem_append_left _ hmem)
        have hfound : scan before offset ((start ++ cs) ++ '\'' :: (text ++ '\'' :: behind)) = _ :=
          (congrArg _ (List.append_assoc ..)).trans (hscan.read hlaw hstart htext hlead hclear)
        rw [hfound]
        obtain ⟨hsorted, hmem⟩ := hlater
          (offset + byteLength (start ++ (cs ++ '\'' :: (text ++ ['\'']))))
        refine ⟨List.pairwise_cons.mpr ⟨fun reading hreading => ?_, hsorted⟩, fun reading => ?_⟩
        · have hle := ((hmem reading).mp hreading).offset_le
          simp only [byte_length_append, byte_length_cons, byte_length_nil] at hle
          have hpos := Char.utf8Size_pos '\''
          show offset + byteLength start < reading.position
          omega
        · rw [List.mem_cons, hmem, stands_iff hlaw hgap htext, List.append_assoc start]
          refine or_congr_left ⟨?_, ?_⟩
          · rintro rfl
            exact ⟨start, cs, rfl, hlead, rfl, rfl⟩
          · rintro ⟨start', cs', hsplit, hlead', htext', hposition⟩
            obtain ⟨rfl, hword⟩ := hlaw.unique hsplit hlead hlead'
            cases reading
            simp_all
      · rw [hscan.passed hlaw hgap htext hends (hpassed hends)]
        obtain ⟨hsorted, hmem⟩ := hlater (offset + byteLength (gap ++ '\'' :: (text ++ ['\''])))
        refine ⟨hsorted, fun reading => ?_⟩
        rw [hmem, stands_iff hlaw hgap htext]
        refine (or_iff_right ?_).symm
        rintro ⟨start, cs, hsplit, hlead, -⟩
        exact hends ⟨start, _, cs, hsplit, hlead⟩

end Searches

end Ariel.Validation
