import Ariel.Proofs.Text.Blank
import Ariel.Proofs.Text.Bytes

/-!
# Maximal runs

A maximal run of a class of characters can be continued on neither side. Around every part of a text
that is made of such characters stands a maximal run (`exists_run_around`), and a part that touches
a maximal run lies in it (`RunAt.holds_part`).
-/

namespace Ariel.Text

variable {p : Char → Bool} {text run front word tail : List Char} {offset : Nat}

/-- A maximal run of a class of characters stands in a text at a byte offset. -/
structure RunAt (p : Char → Bool) (text : List Char) (offset : Nat) (run : List Char) : Prop where
  ne_nil : run ≠ []
  all : ∀ c ∈ run, p c = true
  bounded : ∃ front tail, text = front ++ (run ++ tail) ∧ byteLength front = offset ∧
    (∀ c ∈ front.getLast?, p c = false) ∧ ∀ c ∈ tail.head?, p c = false

/-- A part of a text at a byte offset lies in a run at another one. -/
def Within (offset : Nat) (run : List Char) (place : Nat) (word : List Char) : Prop :=
  offset ≤ place ∧ place + byteLength word ≤ offset + byteLength run

/-- A part that is made of characters of a class lies in a maximal run of them. -/
theorem exists_run_around (hne : word ≠ []) (hword : ∀ c ∈ word, p c = true) :
    ∃ offset run, RunAt p (front ++ (word ++ tail)) offset run ∧
      Within offset run (byteLength front) word := by
  -- The run goes on in front of the part and behind it as far as the class does.
  have hfront : front = (front.reverse.dropWhile p).reverse ++
      (front.reverse.takeWhile p).reverse := by
    rw [← List.reverse_append, List.takeWhile_append_dropWhile, List.reverse_reverse]
  have htail : tail = tail.takeWhile p ++ tail.dropWhile p :=
    List.takeWhile_append_dropWhile.symm
  have hbytes := congrArg byteLength hfront
  rw [byte_length_append] at hbytes
  refine ⟨byteLength (front.reverse.dropWhile p).reverse,
    (front.reverse.takeWhile p).reverse ++ (word ++ tail.takeWhile p), ?_, ?_⟩
  · refine ⟨by simp [hne], fun c hc => ?_, (front.reverse.dropWhile p).reverse, tail.dropWhile p,
      ?_, rfl, fun c hc => ?_, fun c => head_drop_while⟩
    · rcases List.mem_append.mp hc with hleft | hc
      · exact List.mem_takeWhile_imp (List.mem_reverse.mp hleft)
      · rcases List.mem_append.mp hc with hc | hright
        · exact hword c hc
        · exact List.mem_takeWhile_imp hright
    · conv_lhs => rw [hfront, htail]
      simp only [List.append_assoc]
    · rw [List.getLast?_reverse] at hc
      exact head_drop_while hc
  · constructor
    · omega
    · simp only [byte_length_append]
      omega

/-- A part that is made of characters of a class and shares a place with a maximal run of them lies
in the run. -/
theorem RunAt.holds_part (h : RunAt p (front ++ (word ++ tail)) offset run) (place : Nat)
    (hword : ∀ c ∈ word, p c = true) (hlow : byteLength front ≤ place)
    (hhigh : place < byteLength (front ++ word)) (hbelow : offset ≤ place)
    (habove : place < offset + byteLength run) : Within offset run (byteLength front) word := by
  obtain ⟨-, -, start, stop, hsplit, rfl, hstart, hstop⟩ := h
  rw [byte_length_append] at hhigh
  constructor
  · by_contra hlt
    obtain ⟨more, rfl, hmore⟩ := split_behind_of_le hsplit (by omega)
    rw [byte_length_append] at hbelow hlt
    have hne : more ≠ [] := by
      rintro rfl
      simp at hlt
    -- What stands in front of the run, but within the part, belongs to the class.
    obtain ⟨rest, rfl, -⟩ := split_behind_of_le hmore.symm (by omega)
    have hlast := hstart (more.getLast hne) (by
      rw [List.getLast?_append_of_ne_nil _ hne]
      exact List.getLast?_eq_some_getLast hne)
    rw [hword _ (List.mem_append_left _ (List.getLast_mem hne))] at hlast
    cases hlast
  · by_contra hlt
    have hends : (start ++ run) ++ stop = (front ++ word) ++ tail := by simpa using hsplit.symm
    obtain ⟨more, hmore, rfl⟩ := split_behind_of_le hends (by
      simp only [byte_length_append]
      omega)
    have hbytes := congrArg byteLength hmore
    simp only [byte_length_append] at hbytes
    obtain ⟨rest, -, rfl⟩ := split_behind_of_le hmore (by
      simp only [byte_length_append]
      omega)
    have hne : more ≠ [] := by
      rintro rfl
      simp only [byte_length_nil] at hbytes
      omega
    obtain ⟨c, more, rfl⟩ := List.exists_cons_of_ne_nil hne
    have hhead := hstop c rfl
    rw [hword c (by simp)] at hhead
    cases hhead

end Ariel.Text
