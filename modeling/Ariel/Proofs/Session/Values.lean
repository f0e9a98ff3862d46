import Ariel.Proofs.Query.Assembly
import Ariel.Proofs.Query.Draft
import Ariel.Proofs.Validation.Literal
import Ariel.Session.Builder

/-!
# Conditions made from typed values

A value is put between quotes as it is typed, in one of a few frames (`condition_eq_fill`). Each
frame is a fragment with one literal, so whatever a value without quotes holds, it stays in this
literal: the condition disturbs no query, and neither check of wildcards has anything to say of the
operator that is chosen for the value. `value_conditions_safe` says so of single conditions, and of
every query that is assembled from them.
-/

namespace Ariel.Session

open Ariel.Query Ariel.Text Ariel.Validation

/-- What a condition puts around a value: the text in front of its literal and behind it, and the
wildcards at the ends of the literal. -/
structure Frame where
  front : String
  wildcard : String := ""
  behind : String := ""
  unquoted : '\'' ∉ front.toList ++ (wildcard.toList ++ behind.toList) := by
    decide
  undoubled : '"' ∉ wildcard.toList := by
    decide
  fragment : Fragment (front.toList ++ '\'' :: ([] ++ '\'' :: behind.toList)) := by
    decide +kernel

namespace Frame

variable {frame : Frame} {value other : String}

/-- What the literal holds. -/
def literal (frame : Frame) (value : String) : List Char :=
  frame.wildcard.toList ++ (value.toList ++ frame.wildcard.toList)

/-- The condition that a value makes in a frame. -/
def fill (frame : Frame) (value : String) : String :=
  frame.front ++ "'" ++ frame.wildcard ++ value ++ (frame.wildcard ++ "'" ++ frame.behind)

theorem to_list_fill (frame : Frame) (value : String) : (frame.fill value).toList =
    frame.front.toList ++ '\'' :: (frame.literal value ++ '\'' :: frame.behind.toList) := by
  simp [fill, literal, String.toList_append]

/-- No part of a frame holds quotes. -/
theorem quote_not_mem (frame : Frame) : '\'' ∉ frame.front.toList ∧
    '\'' ∉ frame.wildcard.toList ∧ '\'' ∉ frame.behind.toList := by
  simpa only [List.mem_append, not_or] using frame.unquoted

/-- Without quotes in the value, the literal holds none. -/
theorem quote_not_mem_literal (frame : Frame) (hvalue : '\'' ∉ value.toList) :
    '\'' ∉ frame.literal value := by
  have hwildcard := frame.quote_not_mem.2.1
  simp only [literal, List.mem_append, not_or]
  exact ⟨hwildcard, hvalue, hwildcard⟩

/-- The double quotes of a literal are those of the value. -/
theorem count_literal (frame : Frame) (value : String) :
    (frame.literal value).count '"' = value.toList.count '"' := by
  have hwildcard : frame.wildcard.toList.count '"' = 0 :=
    List.count_eq_zero.mpr frame.undoubled
  rw [literal, List.count_append, List.count_append, hwildcard, Nat.zero_add, Nat.add_zero]

/-- A filled frame has the quotes of its literal. -/
theorem count_fill (frame : Frame) (hvalue : '\'' ∉ value.toList) :
    (frame.fill value).toList.count '\'' = 2 := by
  obtain ⟨hfront, -, hbehind⟩ := frame.quote_not_mem
  rw [to_list_fill, count_single hfront (frame.quote_not_mem_literal hvalue) hbehind]

/-- A filled frame shows the length of the value and nothing else of it. -/
theorem mask_fill_eq (frame : Frame) (hvalue : '\'' ∉ value.toList) (hother : '\'' ∉ other.toList)
    (hbytes : byteLength other.toList = byteLength value.toList) :
    mask (frame.fill other).toList = mask (frame.fill value).toList := by
  obtain ⟨hfront, -, hbehind⟩ := frame.quote_not_mem
  have hliteral : byteLength (frame.literal other) = byteLength (frame.literal value) := by
    simp only [literal, byte_length_append, hbytes]
  rw [to_list_fill, to_list_fill, mask_single hfront (frame.quote_not_mem_literal hvalue) hbehind,
    mask_single hfront (frame.quote_not_mem_literal hother) hbehind, hliteral]

/-- A frame that is filled with double quotes in pairs is a fragment. -/
theorem fragment_fill (frame : Frame) (hvalue : '\'' ∉ value.toList)
    (hdouble : Even (value.toList.count '"')) : Fragment (frame.fill value).toList := by
  obtain ⟨hfront, -, hbehind⟩ := frame.quote_not_mem
  rw [to_list_fill]
  refine fragment_single frame.fragment hfront (frame.quote_not_mem_literal hvalue) hbehind ?_
  rwa [count_literal]

/-- The operator in front of a literal goes with what the literal holds: wildcards are matched, and
anything else is compared. -/
structure Suits (frame : Frame) (value : String) : Prop where
  equals : Ends Compares none frame.front.toList → '%' ∉ frame.literal value
  like : Ends Matches none frame.front.toList → '%' ∈ frame.literal value

/-- The two checks of wildcards. -/
def wildcardChecks : List Check := [.wildcardWithEquals, .likeWithoutWildcard]

/-- The checks of wildcards have nothing to say of a frame that suits its value. -/
theorem no_findings_fill (hvalue : '\'' ∉ value.toList) (hsuits : frame.Suits value) :
    (validateWith wildcardChecks (frame.fill value)).findings = [] := by
  obtain ⟨hfront, -, hbehind⟩ := frame.quote_not_mem
  have hliteral := frame.quote_not_mem_literal hvalue
  have hremarks : ∀ check ∈ wildcardChecks, remarksOf check (frame.fill value).toList = [] := by
    rw [to_list_fill, wildcardChecks, List.forall_mem_cons, List.forall_mem_singleton]
    exact ⟨wildcard_with_equals_single hfront hliteral hbehind hsuits.equals,
      like_without_wildcard_single hfront hliteral hbehind hsuits.like⟩
  refine List.flatMap_eq_nil_iff.mpr fun check hcheck => ?_
  rw [hremarks check hcheck]
  rfl

/-- A frame with LIKE suits a value with a wildcard. -/
theorem suits_of_like (hfront : frame.front.toList.any operatorCharacters.contains = false)
    (hwildcard : '%' ∈ frame.wildcard.toList ∨ '%' ∈ value.toList) : frame.Suits value where
  equals := fun hends => absurd hends (not_ends_compares_of_plain hfront)
  like := by
    intro _
    simp only [literal, List.mem_append]
    exact hwildcard.imp_right .inl

end Frame

section Conditions

variable {kind : ValueCondition} {value : String} {marked : Bool} {frame : Frame}

/-- The character of a value on which the frame depends. -/
def markOf? : ValueCondition → Option Char
  | .sourceAddress => some '/'
  | .destinationAddress => some '/'
  | .username => some '%'
  | _ => none

/-- Whether a trimmed value holds the mark of a kind of condition. -/
def isMarked (kind : ValueCondition) (value : String) : Bool :=
  (markOf? kind).any fun mark => (trim value).toList.contains mark

theorem is_marked_eq {mark : Char} (h : markOf? kind = some mark) (value : String) :
    isMarked kind value = (trim value).toList.contains mark := by
  rw [isMarked, h, Option.any_some]

/-- The frame of a kind of condition, for values that hold its mark and for those that do not. A
custom condition has none. -/
def frameOf? : ValueCondition → (marked : Bool) → Option Frame
  | .sourceAddress, true => some { front := "INCIDR(", behind := ", sourceip)" }
  | .sourceAddress, false => some { front := "sourceip = " }
  | .destinationAddress, true => some { front := "INCIDR(", behind := ", destinationip)" }
  | .destinationAddress, false => some { front := "destinationip = " }
  | .username, true => some { front := "username ILIKE " }
  | .username, false => some { front := "username = " }
  | .logSource, _ => some { front := "LOGSOURCENAME(logsourceid) ILIKE ", wildcard := "%" }
  | .eventName, _ => some { front := "QIDNAME(qid) ILIKE ", wildcard := "%" }
  | .custom, _ => none

theorem exists_frame (hkind : kind ≠ .custom) (marked : Bool) :
    ∃ frame, frameOf? kind marked = some frame := by
  cases kind with
  | custom => exact absurd rfl hkind
  | _ => cases marked <;> exact ⟨_, rfl⟩

/-- A condition on an address, where it is known whether the value has a slash. -/
theorem address_eq (field : String) (h : (trim value).toList.contains '/' = marked) :
    Condition.address field value =
      if marked then "INCIDR('" ++ trim value ++ ("', " ++ field ++ ")")
      else field ++ " = '" ++ trim value ++ "'" := by
  simp only [Condition.address, h, String.append_assoc]

/-- A condition is its frame, filled with the trimmed value. -/
theorem condition_eq_fill (h : frameOf? kind (isMarked kind value) = some frame) :
    kind.condition value = frame.fill (trim value) := by
  generalize hmarked : isMarked kind value = marked at h
  cases kind with
  | custom => cases h
  | sourceAddress =>
      rw [@is_marked_eq .sourceAddress '/' rfl] at hmarked
      rw [ValueCondition.condition, Condition.sourceAddress, address_eq _ hmarked]
      cases marked with
      | true =>
          obtain rfl := Option.some.inj h
          rw [if_pos rfl]
          simp only [Frame.fill, String.reduceAppend]
      | false =>
          obtain rfl := Option.some.inj h
          rw [if_neg Bool.false_ne_true]
          simp only [Frame.fill, String.reduceAppend]
  | destinationAddress =>
      rw [@is_marked_eq .destinationAddress '/' rfl] at hmarked
      rw [ValueCondition.condition, Condition.destinationAddress, address_eq _ hmarked]
      cases marked with
      | true =>
          obtain rfl := Option.some.inj h
          rw [if_pos rfl]
          simp only [Frame.fill, String.reduceAppend]
      | false =>
          obtain rfl := Option.some.inj h
          rw [if_neg Bool.false_ne_true]
          simp only [Frame.fill, String.reduceAppend]
  | username =>
      rw [@is_marked_eq .username '%' rfl] at hmarked
      rw [ValueCondition.condition, Condition.username, hmarked]
      cases marked with
      | true =>
          obtain rfl := Option.some.inj h
          rw [if_pos rfl]
          simp only [Frame.fill, String.reduceAppend]
      | false =>
          obtain rfl := Option.some.inj h
          rw [if_neg Bool.false_ne_true]
          simp only [Frame.fill, String.reduceAppend]
  | logSource =>
      obtain rfl := Option.some.inj h
      dsimp only [ValueCondition.condition, Condition.logSource]
      simp only [Frame.fill, String.reduceAppend]
  | eventName =>
      obtain rfl := Option.some.inj h
      dsimp only [ValueCondition.condition, Condition.eventName]
      simp only [Frame.fill, String.reduceAppend]

/-- Trimming brings no quotes. -/
theorem quote_not_mem_trim (hvalue : '\'' ∉ value.toList) : '\'' ∉ (trim value).toList := by
  rw [to_list_trim]
  exact fun hmem => hvalue (mem_of_mem_trimmed hmem)

/-- A condition has the quotes of its literal. -/
theorem count_condition (hkind : kind ≠ .custom) (hvalue : '\'' ∉ value.toList) :
    (kind.condition value).toList.count '\'' = 2 := by
  obtain ⟨frame, hframe⟩ := exists_frame hkind (isMarked kind value)
  rw [condition_eq_fill hframe]
  exact frame.count_fill (quote_not_mem_trim hvalue)

/-- A condition shows of its value the length, and which frame it takes. -/
theorem mask_condition_eq {other : String} (hkind : kind ≠ .custom) (hvalue : '\'' ∉ value.toList)
    (hother : '\'' ∉ other.toList)
    (hbytes : byteLength (trim other).toList = byteLength (trim value).toList)
    (hmarked : isMarked kind other = isMarked kind value) :
    mask (kind.condition other).toList = mask (kind.condition value).toList := by
  obtain ⟨frame, hframe⟩ := exists_frame hkind (isMarked kind value)
  have hsame : frameOf? kind (isMarked kind other) = some frame := by rw [hmarked, hframe]
  rw [condition_eq_fill hframe, condition_eq_fill hsame]
  exact frame.mask_fill_eq (quote_not_mem_trim hvalue) (quote_not_mem_trim hother) hbytes

/-- A condition from a value with double quotes in pairs is a fragment. -/
theorem fragment_condition (hkind : kind ≠ .custom) (hvalue : '\'' ∉ value.toList)
    (hdouble : Even (value.toList.count '"')) : Fragment (kind.condition value).toList := by
  obtain ⟨frame, hframe⟩ := exists_frame hkind (isMarked kind value)
  rw [condition_eq_fill hframe]
  refine frame.fragment_fill (quote_not_mem_trim hvalue) ?_
  rwa [to_list_trim, count_trimmed (by decide)]

/-- A user name is compared when it holds no wildcard. -/
theorem suits_of_username (hvalue : '%' ∉ value.toList)
    (hframe : frameOf? .username false = some frame) : frame.Suits value := by
  obtain rfl := Option.some.inj hframe
  constructor
  · intro _
    simpa [Frame.literal] using hvalue
  · intro hends
    have hfront : "username = ".toList = "username =".toList ++ [' '] := by decide
    have hnone : ¬ Ends Matches none ("username =".toList ++ [' ']) :=
      not_ends_matches_behind (by simp [isBlank]) (by simp [isBlank, isWordCharacter])
    rw [← hfront] at hnone
    exact absurd hends hnone

/-- The operator of a condition on names goes with the value. -/
theorem suits_of_name (hkind : kind ∈ [.username, .logSource, .eventName])
    (hframe : frameOf? kind (isMarked kind value) = some frame) : frame.Suits (trim value) := by
  generalize hmarked : isMarked kind value = marked at hframe
  cases kind with
  | username =>
      rw [@is_marked_eq .username '%' rfl] at hmarked
      cases marked with
      | true =>
          obtain rfl := Option.some.inj hframe
          exact Frame.suits_of_like (by decide) (.inr (List.contains_iff_mem.mp hmarked))
      | false =>
          refine suits_of_username ?_ hframe
          intro hmem
          rw [List.contains_iff_mem.mpr hmem] at hmarked
          cases hmarked
  | logSource =>
      obtain rfl := Option.some.inj hframe
      exact Frame.suits_of_like (by decide) (.inl (by decide))
  | eventName =>
      obtain rfl := Option.some.inj hframe
      exact Frame.suits_of_like (by decide) (.inl (by decide))
  | _ => simp at hkind

/-- The checks of wildcards have nothing to say of a condition on names. -/
theorem no_findings_condition (hkind : kind ∈ [.username, .logSource, .eventName])
    (hvalue : '\'' ∉ value.toList) :
    (validateWith Frame.wildcardChecks (kind.condition value)).findings = [] := by
  have hnamed : kind ≠ .custom := by
    intro hcustom
    rw [hcustom] at hkind
    simp at hkind
  obtain ⟨frame, hframe⟩ := exists_frame hnamed (isMarked kind value)
  rw [condition_eq_fill hframe]
  exact Frame.no_findings_fill (quote_not_mem_trim hvalue) (suits_of_name hkind hframe)

end Conditions

/-- A complete draft of fragments without conditions on groups is assembled into a query without
errors. -/
theorem assemble_of_fragments {draft : Draft} (hcomplete : draft.missing? = none)
    (hhaving : draft.having = []) (hentries : ∀ entry ∈ draft.entries, Fragment entry.toList) :
    ∃ query, draft.assemble = .ok query ∧
      ∀ finding ∈ (validate query).findings, finding.severity ≠ .error := by
  obtain ⟨table, -, hquery, -⟩ := Draft.assemble_of_complete hcomplete
  have harranged := Draft.arranged_placed_clauses hentries (fun hne => absurd hhaving hne) table
  have hvalid := harranged.no_error
  rw [Draft.placed_clauses_map_snd] at hvalid
  exact ⟨_, hquery, hvalid⟩

/-- The conditions that typed values make, whatever the values hold besides quotes. Each has one
literal, and shows of its value how long it is when it is trimmed, and whether the value asks for
another operator; the operators for names suit their values; and every draft with such conditions is
assembled into a query without errors, when the values bring double quotes in pairs. -/
theorem value_conditions_safe :
    (∀ (kind : ValueCondition) (value : String), kind ≠ .custom → '\'' ∉ value.toList →
      (kind.condition value).toList.count '\'' = 2 ∧
      (∀ other : String, '\'' ∉ other.toList →
        byteLength (trim other).toList = byteLength (trim value).toList →
        (∀ mark ∈ markOf? kind, mark ∈ (trim other).toList ↔ mark ∈ (trim value).toList) →
          mask (kind.condition other).toList = mask (kind.condition value).toList) ∧
      (kind ∈ [.username, .logSource, .eventName] →
        (validateWith [.wildcardWithEquals, .likeWithoutWildcard]
          (kind.condition value)).findings = [])) ∧
    ∀ (given : List (ValueCondition × String)) (table : Table) (limit : Option RowLimit)
      (window : Window),
      (∀ entry ∈ given, entry.1 ≠ .custom ∧ '\'' ∉ entry.2.toList ∧
        Even (entry.2.toList.count '"')) →
      let draft : Draft := {
        table := some table
        columns := ["*"]
        conditions := given.map fun entry => entry.1.condition entry.2
        limit := limit
        window := window }
      ∃ query, draft.assemble = .ok query ∧
        ∀ finding ∈ (validate query).findings, finding.severity ≠ .error := by
  refine ⟨fun kind value hkind hvalue => ⟨count_condition hkind hvalue, ?_, ?_⟩, ?_⟩
  · intro other hother hbytes hmark
    refine mask_condition_eq hkind hvalue hother hbytes ?_
    cases hsome : markOf? kind with
    | none => rw [isMarked, isMarked, hsome, Option.any_none, Option.any_none]
    | some mark =>
        rw [is_marked_eq hsome, is_marked_eq hsome, Bool.eq_iff_iff, List.contains_iff_mem,
          List.contains_iff_mem]
        exact hmark mark hsome
  · intro hname
    exact no_findings_condition hname hvalue
  · intro given table limit window hgiven draft
    refine assemble_of_fragments ?_ rfl ?_
    · exact Draft.missing_eq_none_iff.mpr ⟨rfl, "*", List.mem_singleton_self _, by decide⟩
    · intro entry hentry
      have hentries : draft.entries = "*" :: draft.conditions := by
        simp only [draft, Draft.entries, List.cons_append, List.nil_append, List.append_nil,
          Option.map_none, Option.getD_none]
      rw [hentries] at hentry
      rcases List.mem_cons.mp hentry with rfl | hcondition
      · decide +kernel
      · obtain ⟨pair, hpair, rfl⟩ := List.mem_map.mp hcondition
        obtain ⟨hkind, hvalue, hdouble⟩ := hgiven pair hpair
        exact fragment_condition hkind hvalue hdouble

/-- A user name that holds a wildcard, parentheses, keywords and an operator that does not exist. -/
def strangeName : String := "%) FROM (\"x\" == LIKE "

/-- The strange name stays in its literal, also next to a network. -/
theorem value_conditions_safe_strange_name :
    '\'' ∉ strangeName.toList ∧ Even (strangeName.toList.count '"') ∧
      (ValueCondition.username.condition strangeName).toList.count '\'' = 2 ∧
      mask (ValueCondition.username.condition "an ordinary pattern%").toList =
        mask (ValueCondition.username.condition strangeName).toList ∧
      (validateWith [.wildcardWithEquals, .likeWithoutWildcard]
        (ValueCondition.username.condition strangeName)).findings = [] ∧
      ∃ query, ({
          table := some .flows
          columns := ["*"]
          conditions := [ValueCondition.username.condition strangeName,
            ValueCondition.sourceAddress.condition " 10.0.0.0/8 "]
          limit := RowLimit.ofWord? 10
          window := .relative 2 .hours } : Draft).assemble = .ok query ∧
        ∀ finding ∈ (validate query).findings, finding.severity ≠ .error := by
  have hquote : '\'' ∉ strangeName.toList := by decide
  have hdouble : Even (strangeName.toList.count '"') := by decide
  obtain ⟨hconditions, hdrafts⟩ := value_conditions_safe
  obtain ⟨hcount, hmask, hsilent⟩ := hconditions .username strangeName (by decide) hquote
  refine ⟨hquote, hdouble, hcount, ?_, hsilent (by decide), ?_⟩
  · exact hmask _ (by decide) (by decide +kernel) fun mark hmark => by
      obtain rfl := Option.some.inj hmark
      decide +kernel
  · exact hdrafts [(.username, strangeName), (.sourceAddress, " 10.0.0.0/8 ")] .flows
      (RowLimit.ofWord? 10) (.relative 2 .hours) (by decide +kernel)

end Ariel.Session
