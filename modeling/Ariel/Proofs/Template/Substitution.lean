import Ariel.Proofs.Template.FillingOrder
import Ariel.Proofs.Text.Scan

/-!
# Filling in at once

Values are filled in one after the other, each in the text that the ones before it left. Where every
brace of a query belongs to a token and no value holds a brace, this is the same as going through
the query once and putting the first value for its name in the place of each token
(`fill_at_once`): no step makes a new token, and none takes the end of one token and the beginning
of the next for a token.
-/

namespace Ariel.Template

open Ariel.Text

variable {cs front tail name name' : List Char} {key value : String}
  {values : List (String × String)}

section Names

/-- The characters of the names in tokens: capitals, digits and the underscore. -/
def isNameCharacter (c : Char) : Bool := c.isUpper || c.isDigit || c == '_'

/-- A name as it stands in a token. -/
structure IsName (name : List Char) : Prop where
  nonempty : name ≠ []
  spelled : ∀ c ∈ name, isNameCharacter c = true

instance : Decidable (IsName name) :=
  decidable_of_iff (name ≠ [] ∧ name.all isNameCharacter = true)
    ⟨fun h => ⟨h.1, List.all_eq_true.mp h.2⟩,
      fun h => ⟨h.nonempty, List.all_eq_true.mpr h.spelled⟩⟩

/-- A text without braces. -/
structure Braceless (cs : List Char) : Prop where
  opening : '\x7b' ∉ cs
  closing : '\x7d' ∉ cs

instance : Decidable (Braceless cs) :=
  decidable_of_iff ('\x7b' ∉ cs ∧ '\x7d' ∉ cs)
    ⟨fun h => ⟨h.1, h.2⟩, fun h => ⟨h.opening, h.closing⟩⟩

/-- A name holds no braces. -/
theorem IsName.braceless (h : IsName name) : Braceless name where
  opening hmem := absurd (h.spelled _ hmem) (by decide)
  closing hmem := absurd (h.spelled _ hmem) (by decide)

/-- A name is a run of word characters. -/
theorem IsName.word_characters (h : IsName name) : ∀ c ∈ name, isWordCharacter c = true := by
  intro c hc
  have hspelled := h.spelled c hc
  simp only [isNameCharacter, Bool.or_eq_true, beq_iff_eq] at hspelled
  rcases hspelled with (hcapital | hdigit) | rfl
  · exact is_word_character_of_alpha (Bool.or_eq_true_iff.mpr (.inl hcapital))
  · have hascii := is_digit_iff.mp hdigit
    rw [isWordCharacter, if_pos (by omega), Char.isAlphanum, hdigit, Bool.or_true, Bool.true_or]
  · decide

end Names

section Holes

/-- A hole is not empty. -/
theorem hole_ne_nil (name : List Char) : hole name ≠ [] := by
  simp [hole]

/-- A hole begins with an opening brace. -/
theorem head_hole (name : List Char) : (hole name).head? = some '\x7b' := rfl

/-- A hole does not begin in what ends with the braces of another one and reach beyond them. -/
theorem not_straddles_hole (hname : Braceless name) (hfront : "\x7d\x7d".toList <:+ front) :
    ¬ Straddles (hole name) front tail := by
  rintro ⟨left, right, hsplit, hleft, hright, hsuffix, -⟩
  have hopen : '\x7b' ∈ left := by
    refine List.mem_of_mem_head? (?_ : left.head? = some '\x7b')
    have hhead : (left ++ right).head? = left.head? := List.head?_append_of_ne_nil left hleft
    rw [← hhead, ← hsplit, head_hole]
  have hclose : '\x7d' ∈ right := by
    refine List.mem_of_getLast? (?_ : right.getLast? = some '\x7d')
    rw [← List.getLast?_append_of_ne_nil left hright, ← hsplit, hole, List.getLast?_append,
      List.getLast?_append]
    rfl
  rcases List.suffix_or_suffix_of_suffix hsuffix hfront with hshort | hlong
  · exact absurd (hshort.subset hopen) (by decide)
  · -- The closing braces of the hole all stand in its left part already.
    have htwo : 2 ≤ left.count '\x7d' := hlong.sublist.count_le '\x7d'
    have hone : 1 ≤ right.count '\x7d' := List.count_pos_iff.mpr hclose
    have hcount := congrArg (List.count '\x7d') hsplit
    have hnone : name.count '\x7d' = 0 := List.count_eq_zero.mpr hname.closing
    have hall : (hole name).count '\x7d' = 2 := by
      rw [hole, List.count_append, List.count_append, hnone]
      rfl
    rw [hall, List.count_append] at hcount
    omega

/-- A hole ends with two closing braces. -/
theorem closing_suffix_hole (front name : List Char) : "\x7d\x7d".toList <:+ front ++ hole name :=
  ⟨front ++ ("\x7b\x7b".toList ++ name), by simp [hole]⟩

end Holes

/-- A part of a query: a text without braces, or a token. -/
inductive Part where
  | text (chars : List Char) (braceless : Braceless chars)
  | token (name : List Char) (isName : IsName name)

namespace Part

/-- How a part is written. -/
def chars : Part → List Char
  | .text cs _ => cs
  | .token name _ => hole name

/-- The name that a part asks a value for. -/
def name? : Part → Option String
  | .text .. => none
  | .token name _ => some (String.ofList name)

/-- How a part is written once values are given: the first value for its name stands in the place
of a token, and a token without a value stays. -/
def filled (values : List (String × String)) : Part → List Char
  | .text cs _ => cs
  | .token name _ => contentOf values name

/-- A value in the place of the token for a key. -/
def put (key value : String) (braceless : Braceless value.toList) : Part → Part
  | .text cs hcs => .text cs hcs
  | .token name hname =>
      if placeholderName key = String.ofList name then .text value.toList braceless
      else .token name hname

/-- One value after the other in the places of their tokens. -/
def fill : (values : List (String × String)) → (∀ pair ∈ values, Braceless pair.2.toList) →
    Part → Part
  | [], _, part => part
  | (key, value) :: values, h, part =>
      fill values (fun pair hpair => h pair (List.mem_cons_of_mem _ hpair))
        (put key value (h (key, value) List.mem_cons_self) part)

variable (hvalue : Braceless value.toList) (hvalues : ∀ pair ∈ values, Braceless pair.2.toList)
  (part : Part)

/-- Once a value is put in, the values behind it fill the part as all of them fill the part before.
-/
theorem filled_put (key : String) (values : List (String × String)) :
    (part.put key value hvalue).filled values = part.filled ((key, value) :: values) := by
  cases part with
  | text cs hcs => rfl
  | token name hname =>
      rw [put, filled, content_of_cons]
      split <;> rfl

/-- A value takes its name away. -/
theorem name_put (key : String) : (part.put key value hvalue).name? =
    part.name?.filter fun name => !(placeholderName key == name) := by
  cases part with
  | text cs hcs => rfl
  | token name hname =>
      rw [put, name?, Option.filter_some]
      split
      next hkey => simp [hkey, name?]
      next hkey => simp [hkey, name?]

/-- A part is written as its values say. -/
theorem chars_fill : (part.fill values hvalues).chars = part.filled values := by
  induction values generalizing part with
  | nil => cases part <;> rfl
  | cons pair values ih =>
      obtain ⟨key, value⟩ := pair
      rw [fill, ih, filled_put]

/-- The names that are left are those without a value. -/
theorem name_fill : (part.fill values hvalues).name? =
    part.name?.filter fun name => (valueOf? values name).isNone := by
  induction values generalizing part with
  | nil => cases part <;> rfl
  | cons pair values ih =>
      obtain ⟨key, value⟩ := pair
      rw [fill, ih, name_put, Option.filter_filter]
      refine congrArg (part.name?.filter ·) (funext fun name => ?_)
      rw [value_of_cons]
      by_cases hkey : placeholderName key = name
      · simp [hkey]
      · simp [hkey]

end Part

/-- Parts one behind the other. -/
def joined (parts : List Part) : List Char := parts.flatMap Part.chars

@[simp]
theorem joined_nil : joined [] = [] := rfl

@[simp]
theorem joined_cons (part : Part) (parts : List Part) :
    joined (part :: parts) = part.chars ++ joined parts :=
  List.flatMap_cons

section Filling

variable {parts : List Part}

/-- A token is replaced part by part. -/
theorem replace_token_joined (hkey : IsName (placeholderName key).toList)
    (hvalue : Braceless value.toList) :
    replaceAll (exactly (token key)) value.toList (joined parts) =
      joined (parts.map (Part.put key value hvalue)) := by
  induction parts with
  | nil => rfl
  | cons part parts ih =>
      rw [joined_cons, List.map_cons, joined_cons, ← ih]
      cases part with
      | text cs hcs =>
          have hbrace : '\x7b' ∈ (token key).toList := List.mem_of_mem_head? (head_token key)
          rw [Part.chars,
            replace_exactly_append (not_straddles_of_first (head_token key) hcs.opening),
            replace_exactly_of_not_mem hbrace hcs.opening]
          rfl
      | token name hname =>
          have hseam : ¬ Straddles (token key).toList (hole name) (joined parts) := by
            rw [to_list_token]
            exact not_straddles_hole hkey.braceless (closing_suffix_hole [] name)
          have hself : replaceAll (exactly (token key)) value.toList (hole name) =
              (Part.put key value hvalue (.token name hname)).chars := by
            by_cases heq : placeholderName key = String.ofList name
            · have htoken : hole name = (token key).toList := by
                rw [to_list_token, heq, String.toList_ofList]
              rw [Part.put, if_pos heq, htoken,
                replace_exactly_self (htoken ▸ hole_ne_nil name)]
              rfl
            · have hnone :
                  occurrences (exactly (token key)) (hole (String.ofList name).toList) = [] :=
                token_not_in_hole (by simpa using hname.braceless.opening)
                  (by simpa using hname.braceless.closing) heq
              rw [String.toList_ofList] at hnone
              rw [Part.put, if_neg heq, replace_all_of_no_occurrence _ hnone]
              rfl
          rw [Part.chars, replace_exactly_append hseam, hself]

/-- Values are filled in part by part. -/
theorem filled_joined (hkeys : ∀ pair ∈ values, IsName (placeholderName pair.1).toList)
    (hvalues : ∀ pair ∈ values, Braceless pair.2.toList) :
    filled values (joined parts) = joined (parts.map (Part.fill values hvalues)) := by
  induction values generalizing parts with
  | nil => rw [filled_nil, show Part.fill [] hvalues = id from rfl, List.map_id]
  | cons pair values ih =>
      obtain ⟨key, value⟩ := pair
      have hkey := hkeys (key, value) List.mem_cons_self
      have hvalue := hvalues (key, value) List.mem_cons_self
      rw [filled_cons, replace_token_joined hkey hvalue,
        ih (fun pair hpair => hkeys pair (List.mem_cons_of_mem _ hpair))
          (fun pair hpair => hvalues pair (List.mem_cons_of_mem _ hpair)), List.map_map]
      rfl

end Filling

section Listing

variable {names : List String} {parts : List Part}

/-- The names without repetitions, as they are dropped from the back. -/
theorem distinct_eq (seen names : List String) :
    distinct seen names = (names.filter (!seen.contains ·)).eraseDups := by
  induction names generalizing seen with
  | nil => rfl
  | cons name names ih =>
      rw [distinct]
      by_cases hseen : name ∈ seen
      · rw [if_pos (List.contains_iff_mem.mpr hseen), ih, List.filter_cons_of_neg (by simpa)]
      · rw [if_neg (by simpa using hseen), ih, List.filter_cons_of_pos (by simpa),
          List.eraseDups_cons, List.filter_filter]
        congr 2
        refine List.filter_congr fun other _ => ?_
        rw [List.contains_cons, Bool.not_or]

/-- The names without repetitions, each at its first place. -/
theorem distinct_nil (names : List String) : distinct [] names = names.eraseDups := by
  have hall : names.filter (!([] : List String).contains ·) = names :=
    List.filter_eq_self.mpr fun _ _ => rfl
  rw [distinct_eq, hall]

/-- The repetitions among some of the names are dropped as they are among all names. -/
theorem distinct_filter {p : String → Bool} {seen seen' : List String}
    (hseen : ∀ name, p name = true → (name ∈ seen' ↔ name ∈ seen)) :
    distinct seen' (names.filter p) = (distinct seen names).filter p := by
  induction names generalizing seen seen' with
  | nil => rfl
  | cons name names ih =>
      cases hname : p name with
      | false =>
          -- A name that is not kept may be seen or not.
          rw [List.filter_cons_of_neg (by simp [hname]), distinct]
          split
          · exact ih hseen
          · rw [List.filter_cons_of_neg (by simp [hname])]
            refine ih fun other hother => ?_
            have hne : other ≠ name := by
              rintro rfl
              rw [hname] at hother
              cases hother
            rw [hseen other hother, List.mem_cons, or_iff_right hne]
      | true =>
          rw [List.filter_cons_of_pos hname, distinct, distinct]
          have hcontains : seen'.contains name = seen.contains name := by
            rw [Bool.eq_iff_iff, List.contains_iff_mem, List.contains_iff_mem, hseen name hname]
          rw [hcontains]
          split
          · exact ih hseen
          · rw [List.filter_cons_of_pos hname, ih fun other hother => ?_]
            rw [List.mem_cons, List.mem_cons, hseen other hother]

/-- The search for placeholders finds the tokens, and nothing else. -/
theorem occurrences_from_joined (before : Option Char) (offset : Nat) :
    (occurrencesFrom placeholder before offset 0 (joined parts)).map
        (fun found => String.ofList found.value) = parts.filterMap Part.name? := by
  induction parts generalizing before offset with
  | nil => rfl
  | cons part parts ih =>
      rw [joined_cons]
      cases part with
      | text cs hcs =>
          have hnone : ∀ start rest, cs = start ++ rest → rest ≠ [] →
              placeholder (start.getLast?.or before) (rest ++ joined parts) = none := by
            rintro start rest rfl hne
            obtain ⟨c, more, rfl⟩ := List.exists_cons_of_ne_nil hne
            have hc : c ≠ '\x7b' := by
              rintro rfl
              exact hcs.opening (by simp)
            have hread : literal? "\x7b\x7b" (c :: more ++ joined parts) = none := by
              simp [literal?, hc]
            rw [placeholder, hread]
            rfl
          rw [Part.chars, occurrences_from_behind hnone]
          exact ih ..
      | token name hname =>
          have hmatch : placeholder before (hole name ++ joined parts) =
              some (name, joined parts) := by
            have hstop : ∀ c ∈ ("\x7d\x7d".toList ++ joined parts).head?,
                isWordCharacter c = false := by
              intro c hc
              obtain rfl := Option.some.inj hc
              decide
            have hopening : literal? "\x7b\x7b" (hole name ++ joined parts) =
                some (name ++ ("\x7d\x7d".toList ++ joined parts)) :=
              literal_eq_some_iff.mpr (by simp [hole])
            have hclosing : literal? "\x7d\x7d"
                ("\x7d\x7d".toList ++ joined parts) =
                  some (joined parts) := literal_eq_some_iff.mpr rfl
            have hne : name.isEmpty = false := List.isEmpty_eq_false_iff.mpr hname.nonempty
            simp only [placeholder, hopening, bind, Option.bind,
              take_while_append hname.word_characters hstop,
              drop_while_append hname.word_characters hstop, hclosing, hne]
            rfl
          rw [Part.chars, occurrences_from_at (hole_ne_nil name) hmatch, List.map_cons, ih]
          rfl

/-- The placeholders of a query are the names in its tokens, each at its first place. -/
theorem placeholders_joined {query : String} (hquery : query.toList = joined parts) :
    placeholders query = distinct [] (parts.filterMap Part.name?) := by
  rw [placeholders, hquery, occurrences, occurrences_from_joined]

end Listing

section Query

/-- Every brace stands in a token. -/
def BracesInTokens (cs : List Char) : Prop :=
  ∀ front c back, cs = front ++ c :: back → c = '\x7b' ∨ c = '\x7d' →
    ∃ start left right rest name, IsName name ∧ left ++ c :: right = hole name ∧
      front = start ++ left ∧ back = right ++ rest

/-- Behind a token, every brace stands in a token, too. -/
theorem BracesInTokens.behind {rest : List Char}
    (h : BracesInTokens (front ++ (hole name ++ rest))) : BracesInTokens rest := by
  rintro more c back rfl hc
  obtain ⟨start, left, right, rest, name', hname', hhole, hfront, rfl⟩ :=
    h (front ++ (hole name ++ more)) c back (by simp) hc
  rw [← List.append_assoc] at hfront
  rcases List.append_eq_append_iff.mp hfront with ⟨gap, rfl, rfl⟩ | ⟨reach, hbefore, rfl⟩
  · exact ⟨gap, left, right, rest, name', hname', hhole, rfl, rfl⟩
  · -- No token reaches over the end of the first one.
    have hnone : reach = [] := by
      by_contra hne
      have hstraddles : Straddles (hole name') (front ++ hole name)
          (more ++ c :: (right ++ rest)) := by
        refine ⟨reach, more ++ c :: right, ?_, hne, by simp, ?_, ?_⟩
        · rw [← hhole, List.append_assoc]
        · exact ⟨start, hbefore.symm⟩
        · exact ⟨rest, by simp⟩
      exact not_straddles_hole hname'.braceless (closing_suffix_hole front name) hstraddles
    subst hnone
    exact ⟨[], more, right, rest, name', hname', hhole, rfl, rfl⟩

/-- A text in which every brace stands in a token has no braces, or a token behind a text without
braces. -/
theorem BracesInTokens.exists_first (h : BracesInTokens cs) : Braceless cs ∨
    ∃ front name rest, cs = front ++ (hole name ++ rest) ∧ Braceless front ∧ IsName name := by
  have hsplit := List.takeWhile_append_dropWhile (p := fun c => !(c == '\x7b' || c == '\x7d'))
    (l := cs)
  have hfront : Braceless (cs.takeWhile fun c => !(c == '\x7b' || c == '\x7d')) :=
    ⟨fun hmem => absurd (List.mem_takeWhile_imp hmem) (by decide),
      fun hmem => absurd (List.mem_takeWhile_imp hmem) (by decide)⟩
  generalize cs.takeWhile (fun c => !(c == '\x7b' || c == '\x7d')) = front at hsplit hfront
  cases hback : cs.dropWhile fun c => !(c == '\x7b' || c == '\x7d') with
  | nil =>
      rw [hback, List.append_nil] at hsplit
      exact .inl (hsplit ▸ hfront)
  | cons c back =>
      have hhead := head_drop_while (c := c) (by rw [hback]; rfl)
      have hc : c = '\x7b' ∨ c = '\x7d' := by simpa [or_iff_not_imp_left] using hhead
      rw [hback] at hsplit
      obtain ⟨start, left, right, rest, name, hname, hhole, rfl, rfl⟩ :=
        h front c back hsplit.symm hc
      -- The first brace of the text is the first character of its token.
      obtain rfl : left = [] := by
        cases left with
        | nil => rfl
        | cons d left =>
            obtain ⟨rfl, -⟩ := List.cons.inj (show d :: _ = '\x7b' :: _ from hhole)
            exact absurd (by simp) hfront.opening
      rw [List.append_nil] at hsplit hfront
      exact .inr ⟨start, name, rest, by rw [← hsplit, ← hhole]; simp, hfront, hname⟩

/-- In a row of parts, every brace stands in a token. -/
theorem braces_in_tokens_joined (parts : List Part) : BracesInTokens (joined parts) := by
  induction parts with
  | nil => exact fun front c back hsplit _ => absurd hsplit (by simp)
  | cons part parts ih =>
      intro front c back hsplit hc
      have hlater : ∀ more, joined parts = more ++ c :: back → front = part.chars ++ more →
          ∃ start left right rest name, IsName name ∧ left ++ c :: right = hole name ∧
            front = start ++ left ∧ back = right ++ rest := by
        rintro more hrest rfl
        obtain ⟨start, left, right, rest, name, hname, hhole, rfl, rfl⟩ := ih more c back hrest hc
        exact ⟨part.chars ++ start, left, right, rest, name, hname, hhole, by simp, rfl⟩
      rw [joined_cons] at hsplit
      rcases List.append_eq_append_iff.mp hsplit with ⟨more, hfront, hrest⟩ | ⟨more, hpart, hback⟩
      · exact hlater more hrest hfront
      · cases more with
        | nil => exact hlater [] hback.symm (by simpa using hpart.symm)
        | cons d more =>
            obtain ⟨rfl, rfl⟩ := List.cons.inj hback
            cases part with
            | text cs hcs =>
                obtain rfl : cs = front ++ c :: more := hpart
                rcases hc with rfl | rfl
                · exact absurd (by simp) hcs.opening
                · exact absurd (by simp) hcs.closing
            | token name hname =>
                exact ⟨[], front, more, joined parts, name, hname, hpart.symm, rfl, rfl⟩

/-- A text in which every brace stands in a token is a row of parts. -/
theorem exists_parts (cs : List Char) (h : BracesInTokens cs) : ∃ parts, cs = joined parts := by
  rcases h.exists_first with hcs | ⟨front, name, rest, hform, hfront, hname⟩
  · exact ⟨[.text cs hcs], by simp [Part.chars]⟩
  · have hshorter : rest.length < cs.length := by
      have hpos := List.length_pos_iff.mpr (hole_ne_nil name)
      rw [hform, List.length_append, List.length_append]
      omega
    rw [hform] at h
    obtain ⟨parts, rfl⟩ := exists_parts rest h.behind
    exact ⟨.text front hfront :: .token name hname :: parts, hform⟩
termination_by cs.length

/-- Where a reader of a query stands: outside of tokens, behind one or both opening braces, in a
name, or behind one of the closing braces. -/
inductive Place where
  | outside
  | opening
  | opened
  | named
  | closing

/-- Whether every brace from a place on stands in a token. -/
def closes : Place → List Char → Bool
  | .outside, [] => true
  | _, [] => false
  | .outside, c :: cs =>
      if c == '\x7b' then closes .opening cs else c != '\x7d' && closes .outside cs
  | .opening, c :: cs => c == '\x7b' && closes .opened cs
  | .opened, c :: cs => isNameCharacter c && closes .named cs
  | .named, c :: cs =>
      if c == '\x7d' then closes .closing cs else isNameCharacter c && closes .named cs
  | .closing, c :: cs => c == '\x7d' && closes .outside cs

/-- What stands from a place on when every brace stands in a token: the rest of a token, if the
place lies in one, and parts. -/
def Place.Rest : Place → List Char → Prop
  | .outside, cs => ∃ parts, cs = joined parts
  | .opening, cs => ∃ name parts, IsName name ∧
      cs = '\x7b' :: (name ++ ("\x7d\x7d".toList ++ joined parts))
  | .opened, cs => ∃ name parts, IsName name ∧ cs = name ++ ("\x7d\x7d".toList ++ joined parts)
  | .named, cs => ∃ name parts, (∀ c ∈ name, isNameCharacter c = true) ∧
      cs = name ++ ("\x7d\x7d".toList ++ joined parts)
  | .closing, cs => ∃ parts, cs = '\x7d' :: joined parts

/-- Where the reading from a place on succeeds, what it read is of that form. -/
theorem rest_of_closes {place : Place} (h : closes place cs = true) : place.Rest cs := by
  induction cs generalizing place with
  | nil =>
      cases place with
      | outside => exact ⟨[], rfl⟩
      | _ => cases h
  | cons c cs ih =>
      cases place with
      | outside =>
          by_cases hc : c = '\x7b'
          · subst hc
            have hrest : Place.Rest .opening cs := ih h
            obtain ⟨name, parts, hname, rfl⟩ := hrest
            exact ⟨.token name hname :: parts, by simp [Part.chars, hole]⟩
          · rw [closes, if_neg (by simpa using hc), Bool.and_eq_true, bne_iff_ne] at h
            have hrest : Place.Rest .outside cs := ih h.2
            obtain ⟨parts, rfl⟩ := hrest
            have hcs : Braceless [c] :=
              ⟨fun hmem => hc (List.mem_singleton.mp hmem).symm,
                fun hmem => h.1 (List.mem_singleton.mp hmem).symm⟩
            exact ⟨.text [c] hcs :: parts, rfl⟩
      | opening =>
          rw [closes, Bool.and_eq_true, beq_iff_eq] at h
          obtain ⟨rfl, h⟩ := h
          have hrest : Place.Rest .opened cs := ih h
          obtain ⟨name, parts, hname, rfl⟩ := hrest
          exact ⟨name, parts, hname, rfl⟩
      | opened =>
          rw [closes, Bool.and_eq_true] at h
          have hrest : Place.Rest .named cs := ih h.2
          obtain ⟨name, parts, hname, rfl⟩ := hrest
          exact ⟨c :: name, parts, ⟨by simp, List.forall_mem_cons.mpr ⟨h.1, hname⟩⟩, rfl⟩
      | named =>
          by_cases hc : c = '\x7d'
          · subst hc
            have hrest : Place.Rest .closing cs := ih h
            obtain ⟨parts, rfl⟩ := hrest
            exact ⟨[], parts, by simp, rfl⟩
          · rw [closes, if_neg (by simpa using hc), Bool.and_eq_true] at h
            have hrest : Place.Rest .named cs := ih h.2
            obtain ⟨name, parts, hname, rfl⟩ := hrest
            exact ⟨c :: name, parts, List.forall_mem_cons.mpr ⟨h.1, hname⟩, rfl⟩
      | closing =>
          rw [closes, Bool.and_eq_true, beq_iff_eq] at h
          obtain ⟨rfl, h⟩ := h
          have hrest : Place.Rest .outside cs := ih h
          obtain ⟨parts, rfl⟩ := hrest
          exact ⟨parts, rfl⟩

/-- Whether every brace stands in a token is read off the characters. -/
theorem closes_of_chars {s : String} (hs : s.toList = cs) (h : closes .outside cs = true) :
    closes .outside s.toList = true := hs ▸ h

/-- In the queries of the library, every brace stands in a token. -/
theorem braces_in_tokens_of_mem_library : ∀ t ∈ library, BracesInTokens t.query.toList := by
  have hcloses : ∀ t ∈ library, closes .outside t.query.toList = true := by
    simp only [library, authenticationTemplates, networkTemplates, threatTemplates,
      systemTemplates, windowsTemplates, investigationTemplates, List.cons_append,
      List.nil_append, List.forall_mem_cons, List.not_mem_nil, false_imp_iff, implies_true,
      and_true]
    repeat' apply And.intro
    all_goals
      exact closes_of_chars
        (by
          repeat' first
            | with_reducible apply chars_lines
            | with_reducible apply chars_line
            | with_reducible apply chars_append
            | with_reducible exact String.toList_ofList)
        (by decide +kernel)
  intro t ht
  obtain ⟨parts, hparts⟩ := rest_of_closes (hcloses t ht)
  rw [hparts]
  exact braces_in_tokens_joined parts

/-- Where every brace of a query stands in a token, the keys are names and no value holds a brace,
filling in is putting the first value for its name in the place of each token, all at once. The
placeholders that are left are those without a value. -/
theorem fill_at_once {query : String} (hquery : BracesInTokens query.toList)
    (hkeys : ∀ pair ∈ values, IsName (placeholderName pair.1).toList)
    (hvalues : ∀ pair ∈ values, Braceless pair.2.toList) :
    ∃ parts, query.toList = joined parts ∧
      fill query values = String.ofList (parts.flatMap (Part.filled values)) ∧
      placeholders query = (parts.filterMap Part.name?).eraseDups ∧
      placeholders (fill query values) =
        (placeholders query).filter fun name => (valueOf? values name).isNone := by
  obtain ⟨parts, hparts⟩ := exists_parts _ hquery
  have hfilled : (fill query values).toList = joined (parts.map (Part.fill values hvalues)) := by
    rw [to_list_fill, hparts, filled_joined hkeys hvalues]
  have hchars : joined (parts.map (Part.fill values hvalues)) =
      parts.flatMap (Part.filled values) := by
    rw [joined, List.flatMap_map]
    exact List.flatMap_congr fun part _ => part.chars_fill hvalues
  have hnames : (parts.map (Part.fill values hvalues)).filterMap Part.name? =
      (parts.filterMap Part.name?).filter fun name => (valueOf? values name).isNone := by
    rw [List.filterMap_map, List.filter_filterMap]
    exact List.filterMap_congr fun part _ => part.name_fill hvalues
  refine ⟨parts, hparts, ?_, ?_, ?_⟩
  · rw [← hchars, ← hfilled, String.ofList_toList]
  · rw [placeholders_joined hparts, distinct_nil]
  · rw [placeholders_joined hfilled, placeholders_joined hparts, hnames,
      distinct_filter fun _ _ => Iff.rfl]

/-- Tokens may stand side by side and more than once, and a name may be given twice. -/
theorem fill_at_once_side_by_side :
    ∃ query, query = "\x7b\x7bA\x7d\x7d\x7b\x7bB_1\x7d\x7d OR \x7b\x7bA\x7d\x7d" ∧
      ∃ parts, query.toList = joined parts ∧
        fill query [(" a", "1"), ("A", "2")] =
          String.ofList (parts.flatMap (Part.filled [(" a", "1"), ("A", "2")])) ∧
        placeholders query = (parts.filterMap Part.name?).eraseDups ∧
        placeholders (fill query [(" a", "1"), ("A", "2")]) = (placeholders query).filter
          fun name => (valueOf? [(" a", "1"), ("A", "2")] name).isNone := by
  refine ⟨_, rfl, fill_at_once ?_ (by decide +kernel) (by decide +kernel)⟩
  have hform : "\x7b\x7bA\x7d\x7d\x7b\x7bB_1\x7d\x7d OR \x7b\x7bA\x7d\x7d".toList =
      joined [.token ['A'] (by decide), .token ['B', '_', '1'] (by decide),
        .text [' ', 'O', 'R', ' '] (by decide), .token ['A'] (by decide)] := by decide
  rw [hform]
  exact braces_in_tokens_joined _

end Query

end Ariel.Template
