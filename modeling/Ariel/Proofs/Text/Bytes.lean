import Ariel.Proofs.Text.Reader

/-!
# Byte offsets

Texts are split and sliced at byte offsets, which fails inside of a character and behind the end.
`slice_eq_some_iff` says which slices there are. A search for a boundary goes down or up from an
offset to the next place where a text can be split (`floor_boundary_eq`, `ceil_boundary_eq`).
-/

namespace Ariel.Text

@[simp]
theorem byte_length_nil : byteLength [] = 0 := rfl

@[simp]
theorem byte_length_cons (c : Char) (cs : List Char) :
    byteLength (c :: cs) = c.utf8Size + byteLength cs := rfl

@[simp]
theorem byte_length_append (cs ds : List Char) :
    byteLength (cs ++ ds) = byteLength cs + byteLength ds := by
  induction cs with
  | nil => simp
  | cons c cs ih => simp [ih, Nat.add_assoc]

/-- A text that is not empty takes some bytes. -/
theorem byte_length_pos {cs : List Char} (hne : cs ≠ []) : 0 < byteLength cs := by
  obtain ⟨c, more, rfl⟩ := List.exists_cons_of_ne_nil hne
  have := c.utf8Size_pos
  rw [byte_length_cons]
  omega

/-- So many spaces take as many bytes. -/
@[simp]
theorem byte_length_spaces (n : Nat) : byteLength (List.replicate n ' ') = n := by
  induction n with
  | zero => rfl
  | succ n ih =>
      have hspace : ' '.utf8Size = 1 := rfl
      rw [List.replicate_succ, byte_length_cons, ih, hspace, Nat.add_comm]

/-- The bytes of a text are counted as in its encoding. -/
@[simp]
theorem byte_length_to_list (s : String) : byteLength s.toList = s.utf8ByteSize := by
  have hbytes (cs : List Char) : byteLength cs = cs.utf8Encode.size := by
    induction cs with
    | nil => rfl
    | cons c cs ih =>
        rw [List.utf8Encode_cons, ByteArray.size_append, List.utf8Encode_singleton,
          List.size_toByteArray, String.length_utf8EncodeChar, byte_length_cons, ih]
  rw [hbytes, String.utf8Encode_toList]
  rfl

/-- Behind a beginning of a text is a valid position of its encoding. -/
theorem is_valid_of_split {s : String} {front tail : List Char} (h : s.toList = front ++ tail) :
    (⟨byteLength front⟩ : String.Pos.Raw).IsValid s := by
  refine String.Pos.Raw.isValid_iff_exists_append.mpr
    ⟨String.ofList front, String.ofList tail, ?_, ?_⟩
  · rw [← String.ofList_append, ← h, String.ofList_toList]
  · apply String.Pos.Raw.ext
    rw [String.byteIdx_rawEndPos, ← byte_length_to_list, String.toList_ofList]

/-- Where a text is split, its tail begins behind the bytes of its front. -/
theorem bytes_up_to_of_split {cs front tail : List Char} (h : cs = front ++ tail) :
    bytesUpTo tail cs = byteLength front := by
  rw [bytesUpTo, h, byte_length_append]
  omega

/-- Of two splits of a text at one offset, or with no offset between them, both are the same. -/
theorem front_eq_of_offsets {front tail front' tail' : List Char}
    (h : front ++ tail = front' ++ tail') (hle : byteLength front ≤ byteLength front')
    (hnext : ∀ c ∈ tail.head?, byteLength front' < byteLength front + c.utf8Size) :
    front = front' := by
  rcases List.append_eq_append_iff.mp h with ⟨more, rfl, rfl⟩ | ⟨more, rfl, rfl⟩
  · cases more with
    | nil => simp
    | cons c more =>
        have := hnext c (by simp)
        simp only [byte_length_append, byte_length_cons] at this
        omega
  · cases more with
    | nil => simp
    | cons c more =>
        have := c.utf8Size_pos
        simp only [byte_length_append, byte_length_cons] at hle
        omega

/-- Of two splits of a text, the one with the longer front is behind the other one. -/
theorem split_behind_of_le {front tail front' tail' : List Char} (h : front ++ tail = front' ++ tail')
    (hle : byteLength front ≤ byteLength front') :
    ∃ more, front' = front ++ more ∧ tail = more ++ tail' := by
  rcases List.append_eq_append_iff.mp h with hbehind | ⟨more, rfl, htail⟩
  · exact hbehind
  · have hnil : more = [] := by
      by_contra hne
      have hpos := byte_length_pos hne
      rw [byte_length_append] at hle
      omega
    subst hnil
    exact ⟨[], by simp, htail.symm⟩

/-- Split a text at a byte offset, when there is a boundary. -/
def splitAtByte? : (offset : Nat) → List Char → Option (List Char × List Char)
  | 0, cs => some ([], cs)
  | _ + 1, [] => none
  | n + 1, c :: cs =>
      if c.utf8Size ≤ n + 1 then
        (splitAtByte? (n + 1 - c.utf8Size) cs).map fun (front, tail) => (c :: front, tail)
      else none

/-- A text is split behind any of its beginnings, and nowhere else. -/
theorem split_at_byte_eq_some_iff {offset : Nat} {cs front tail : List Char} :
    splitAtByte? offset cs = some (front, tail) ↔
      cs = front ++ tail ∧ byteLength front = offset := by
  induction cs generalizing offset front tail with
  | nil =>
      cases offset with
      | zero => constructor <;> simp +contextual [splitAtByte?]
      | succ n => constructor <;> simp +contextual [splitAtByte?]
  | cons c cs ih =>
      have hpos := c.utf8Size_pos
      cases offset with
      | zero =>
          cases front with
          | nil => simp [splitAtByte?, eq_comm]
          | cons d front =>
              have := d.utf8Size_pos
              simp only [splitAtByte?, byte_length_cons]
              constructor
              · intro h
                cases h
              · rintro ⟨-, hlength⟩
                omega
      | succ n =>
          simp only [splitAtByte?, Option.ite_none_right_eq_some, Option.map_eq_some_iff,
            Prod.exists, ih, Prod.mk.injEq]
          constructor
          · rintro ⟨hle, front', tail', ⟨rfl, hlength⟩, rfl, rfl⟩
            refine ⟨rfl, ?_⟩
            rw [byte_length_cons]
            omega
          · rintro ⟨hsplit, hlength⟩
            cases front with
            | nil => simp at hlength
            | cons d front =>
                obtain ⟨rfl, rfl⟩ := List.cons.inj hsplit
                rw [byte_length_cons] at hlength
                exact ⟨by omega, front, tail, ⟨rfl, by omega⟩, rfl, rfl⟩

/-- The part of a text between two byte offsets, when both lie on boundaries. -/
def slice? (start stop : Nat) (cs : List Char) : Option (List Char) := do
  guard (start ≤ stop)
  let (_, tail) ← splitAtByte? start cs
  let (part, _) ← splitAtByte? (stop - start) tail
  pure part

/-- A text is sliced between the ends of any of its parts, and nowhere else. -/
theorem slice_eq_some_iff {start stop : Nat} {cs part : List Char} :
    slice? start stop cs = some part ↔ ∃ front tail, cs = front ++ part ++ tail ∧
      byteLength front = start ∧ byteLength (front ++ part) = stop := by
  simp only [slice?, bind, Option.bind_eq_some_iff, guard_eq_some_iff, Prod.exists,
    split_at_byte_eq_some_iff, pure, Option.some.injEq]
  constructor
  · rintro ⟨-, hle, front, rest, ⟨rfl, rfl⟩, _, tail, ⟨rfl, hlength⟩, rfl⟩
    refine ⟨front, tail, by simp, rfl, ?_⟩
    rw [byte_length_append]
    omega
  · rintro ⟨front, tail, rfl, rfl, rfl⟩
    rw [byte_length_append]
    exact ⟨(), by omega, front, part ++ tail, ⟨by simp, rfl⟩, part, tail, ⟨rfl, by omega⟩, rfl⟩

/-- Whether a text can be split at a byte offset. -/
def onBoundary (cs : List Char) (offset : Nat) : Bool :=
  (splitAtByte? offset cs).isSome

/-- There is a boundary behind any beginning of a text. -/
theorem on_boundary_append (front tail : List Char) :
    onBoundary (front ++ tail) (byteLength front) = true :=
  Option.isSome_iff_exists.mpr ⟨(front, tail), split_at_byte_eq_some_iff.mpr ⟨rfl, rfl⟩⟩

/-- Search for a boundary from an offset down. -/
def floorBoundary (cs : List Char) : (offset : Nat) → Nat
  | 0 => 0
  | n + 1 => if onBoundary cs (n + 1) then n + 1 else floorBoundary cs n

/-- Search for a boundary from an offset up to the end of a text. -/
def ceilBoundary (cs : List Char) (offset : Nat) : Nat :=
  if onBoundary cs offset then offset
  else if offset < byteLength cs then ceilBoundary cs (offset + 1)
  else offset
termination_by byteLength cs - offset

/-- The search down ends before the character that covers the offset. -/
theorem floor_boundary_eq {front tail : List Char} {offset : Nat}
    (hle : byteLength front ≤ offset)
    (hnext : ∀ c ∈ tail.head?, offset < byteLength front + c.utf8Size)
    (hend : offset ≤ byteLength (front ++ tail)) :
    floorBoundary (front ++ tail) offset = byteLength front := by
  induction offset with
  | zero =>
      show 0 = byteLength front
      omega
  | succ n ih =>
      unfold floorBoundary
      split
      next hsplit =>
        obtain ⟨⟨front', tail'⟩, hsplit⟩ := Option.isSome_iff_exists.mp hsplit
        obtain ⟨hsame, hlength⟩ := split_at_byte_eq_some_iff.mp hsplit
        have hfront : front = front' :=
          front_eq_of_offsets hsame (by omega) fun c hc => by rw [hlength]; exact hnext c hc
        rw [hfront, hlength]
      next hsplit =>
        have hne : byteLength front ≠ n + 1 := by
          intro heq
          exact hsplit (heq ▸ on_boundary_append front tail)
        exact ih (by omega) (fun c hc => by have := hnext c hc; omega) (by omega)

/-- The search up ends behind the character that covers the byte before the offset. -/
theorem ceil_boundary_eq {front tail : List Char} {offset : Nat}
    (hle : offset ≤ byteLength front)
    (hlast : ∀ c ∈ front.getLast?, byteLength front < offset + c.utf8Size) :
    ceilBoundary (front ++ tail) offset = byteLength front := by
  induction hdistance : byteLength front - offset generalizing offset with
  | zero =>
      obtain rfl : offset = byteLength front := by omega
      rw [ceilBoundary, if_pos (on_boundary_append front tail)]
  | succ n ih =>
      have hcovered : onBoundary (front ++ tail) offset = false := by
        refine Bool.eq_false_iff.mpr fun hsplit => ?_
        obtain ⟨⟨front', tail'⟩, hsplit⟩ := Option.isSome_iff_exists.mp hsplit
        obtain ⟨hsame, rfl⟩ := split_at_byte_eq_some_iff.mp hsplit
        rcases List.eq_nil_or_concat' front with rfl | ⟨init, c, rfl⟩
        · simp at hdistance
        · have hc := hlast c (by simp)
          simp only [byte_length_append, byte_length_cons, byte_length_nil] at hc hdistance
          have hinit : init ++ c :: tail = front' ++ tail' := by simpa using hsame
          have hsame := front_eq_of_offsets hinit (by omega) fun d hd => by
            obtain rfl : c = d := by simpa using hd
            omega
          rw [hsame] at hdistance hc
          omega
      have hinside : offset < byteLength (front ++ tail) := by
        rw [byte_length_append]
        omega
      rw [ceilBoundary, hcovered, if_neg (by decide), if_pos hinside]
      exact ih (by omega) (fun c hc => by have := hlast c hc; omega) (by omega)

end Ariel.Text
