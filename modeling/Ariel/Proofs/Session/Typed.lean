import Ariel.Proofs.Session.Conversation
import Ariel.Proofs.Text.Blank

/-!
# Typed lines

What is typed line by line arrives as bytes and is read as the same lines (`of_input_page`), and no
other lines are read (`typable_of_read`). A session answers them one after the other, and reads on
where `follow` leads (`readings_follow`).
-/

namespace Ariel.Session

open Ariel.Text

section Bytes

variable {s line : String} {bytes piece rest : List UInt8} {lines : List String} {input : ByteArray}

/-- The bytes of a text are those of its characters. -/
theorem to_list_bytes (s : String) :
    s.toUTF8.data.toList = s.toList.flatMap String.utf8EncodeChar := by
  rw [String.toUTF8, ← String.utf8Encode_toList, List.utf8Encode, List.toList_data_toByteArray]

/-- Only a line feed has the byte of one. -/
theorem line_feed_of_byte {c : Char} (h : 10 ∈ String.utf8EncodeChar c) : c = '\n' := by
  simp only [String.utf8EncodeChar] at h
  split at h
  next hle =>
    have hle : c.toNat ≤ 127 := hle
    have hvalue : c.toNat = 10 := by
      simp [← UInt8.toNat_inj] at h
      omega
    exact Char.ext (UInt32.toNat_inj.mp hvalue)
  next =>
    -- Every byte of a longer encoding is 128 at least.
    split at h
    next => simp [← UInt8.toNat_inj] at h; omega
    next =>
      split at h
      next => simp [← UInt8.toNat_inj] at h; omega
      next => simp [← UInt8.toNat_inj] at h; omega

/-- A text without line feeds has none among its bytes. -/
theorem line_feed_not_mem_bytes (h : '\n' ∉ s.toList) : 10 ∉ s.toUTF8.data.toList := by
  rw [to_list_bytes, List.mem_flatMap]
  rintro ⟨c, hc, hbyte⟩
  exact h (line_feed_of_byte hbyte ▸ hc)

/-- Bytes are split behind the first line feed. -/
theorem split_bytes_append (h : 10 ∉ bytes) (rest : List UInt8) :
    Line.splitBytes (bytes ++ 10 :: rest) = (bytes ++ [10]) :: Line.splitBytes rest := by
  induction bytes with
  | nil => rfl
  | cons b bytes ih =>
      rw [List.mem_cons, not_or] at h
      rw [List.cons_append, Line.splitBytes, if_neg (Ne.symm h.1), ih h.2]
      rfl

/-- A line that can be typed: it holds no line feed, and no carriage return at its end. -/
structure Typable (line : String) : Prop where
  unbroken : '\n' ∉ line.toList
  last : line.toList.getLast? ≠ some '\r'

/-- A typed line is read without its line feed. -/
theorem of_bytes_line (h : Typable s) : Line.ofBytes (s ++ "\n").toUTF8.data.toList = .text s := by
  have hread : String.fromUTF8? ⟨((s ++ "\n").toUTF8.data.toList).toArray⟩ = some (s ++ "\n") :=
    dif_pos (s ++ "\n").isValidUTF8
  have hend : Line.withoutLineEnd (s ++ "\n") = s := by
    have hlast : ∀ c ∈ s.toList.reverse.head?, (c == '\n' || c == '\r') = false := by
      intro c hc
      rw [List.head?_reverse, Option.mem_def] at hc
      have hfeed : c ≠ '\n' := fun heq => h.unbroken (heq ▸ List.mem_of_getLast? hc)
      have hreturn : c ≠ '\r' := fun heq => h.last (heq ▸ hc)
      simp [hfeed, hreturn]
    have hreverse : (s ++ "\n").toList.reverse = ['\n'] ++ s.toList.reverse := by
      rw [String.toList_append, List.reverse_append]
      rfl
    rw [Line.withoutLineEnd, hreverse, drop_while_append (by simp) hlast, List.reverse_reverse,
      String.ofList_toList]
  rw [Line.ofBytes, hread]
  exact congrArg Line.text hend

/-- The lines of a page are read one after the other, and what stands behind them in its turn. -/
theorem of_input_page (h : ∀ line ∈ lines, Typable line) (rest : String) :
    Line.ofInput (page lines ++ rest).toUTF8 =
      lines.map Line.text ++ Line.ofInput rest.toUTF8 := by
  induction lines with
  | nil => rw [page, String.empty_append, List.map_nil, List.nil_append]
  | cons line lines ih =>
      rw [List.forall_mem_cons] at h
      have hfeed : "\n".toList.flatMap String.utf8EncodeChar = [10] := by decide
      have hline : (line ++ "\n").toUTF8.data.toList = line.toUTF8.data.toList ++ [10] := by
        rw [to_list_bytes, String.toList_append, List.flatMap_append, hfeed, to_list_bytes]
      have hbytes : (page (line :: lines) ++ rest).toUTF8.data.toList =
          line.toUTF8.data.toList ++ 10 :: (page lines ++ rest).toUTF8.data.toList := by
        rw [page, String.append_assoc, to_list_bytes, String.toList_append, List.flatMap_append,
          ← to_list_bytes, ← to_list_bytes, hline, List.append_assoc]
        rfl
      rw [Line.ofInput, hbytes, split_bytes_append (line_feed_not_mem_bytes h.1.unbroken), ← hline,
        List.map_cons, of_bytes_line h.1]
      exact congrArg (Line.text line :: ·) (ih h.2)

/-- Within a piece of the input only the last byte is a line feed. -/
theorem line_feed_not_mem_drop_last (h : piece ∈ Line.splitBytes bytes) : 10 ∉ piece.dropLast := by
  induction bytes generalizing piece with
  | nil => cases h
  | cons b bytes ih =>
      unfold Line.splitBytes at h
      split at h
      next =>
        rcases List.mem_cons.mp h with rfl | h
        · exact List.not_mem_nil
        · exact ih h
      next hb =>
        split at h
        next =>
          obtain rfl := List.mem_singleton.mp h
          exact List.not_mem_nil
        next front pieces hsplit =>
          rcases List.mem_cons.mp h with rfl | h
          · cases front with
            | nil => exact List.not_mem_nil
            | cons first front =>
                rw [List.dropLast_cons_cons, List.mem_cons, not_or]
                exact ⟨Ne.symm hb, ih (hsplit ▸ List.mem_cons_self)⟩
          · exact ih (hsplit ▸ List.mem_cons_of_mem _ h)

/-- A line feed that is followed by more text is followed by bytes. -/
theorem mem_drop_last_bytes {front back : List Char} (hback : back ≠ []) :
    10 ∈ ((front ++ '\n' :: back).flatMap String.utf8EncodeChar).dropLast := by
  have hbytes : back.flatMap String.utf8EncodeChar ≠ [] := by
    obtain ⟨c, cs, rfl⟩ := List.exists_cons_of_ne_nil hback
    have hc : String.utf8EncodeChar c ≠ [] := List.ne_nil_of_length_pos (by
      rw [String.length_utf8EncodeChar]
      exact Char.utf8Size_pos c)
    simp [hc]
  have hfeed : String.utf8EncodeChar '\n' = [10] := by decide
  rw [List.flatMap_append, List.flatMap_cons, hfeed, ← List.append_assoc,
    List.dropLast_append_of_ne_nil hbytes]
  simp

/-- Line ends are taken away, and no other characters. -/
theorem without_line_end_spec (s : String) :
    ∃ ends, s.toList = (Line.withoutLineEnd s).toList ++ ends ∧
      ∀ c ∈ (Line.withoutLineEnd s).toList.getLast?, c ≠ '\n' ∧ c ≠ '\r' := by
  rw [Line.withoutLineEnd, String.toList_ofList, List.getLast?_reverse]
  refine ⟨(s.toList.reverse.takeWhile fun c => c == '\n' || c == '\r').reverse, ?_, ?_⟩
  · rw [← List.reverse_append, List.takeWhile_append_dropWhile, List.reverse_reverse]
  · intro c hc
    simpa using head_drop_while hc

/-- A line that is read can be typed. -/
theorem typable_of_read (h : .text line ∈ Line.ofInput input) : Typable line := by
  obtain ⟨piece, hpiece, hread⟩ := List.mem_map.mp h
  obtain ⟨s, rfl, rfl⟩ : ∃ s : String, s.toUTF8.data.toList = piece ∧
      Line.withoutLineEnd s = line := by
    unfold Line.ofBytes String.fromUTF8? at hread
    split at hread
    next s hvalid =>
      split at hvalid
      next =>
        obtain rfl := Option.some.inj hvalid
        exact ⟨_, rfl, Line.text.inj hread⟩
      next => cases hvalid
    next => cases hread
  obtain ⟨ends, hsplit, hlast⟩ := without_line_end_spec s
  refine ⟨fun hmem => ?_, fun hreturn => (hlast _ hreturn).2 rfl⟩
  -- A line feed in the line would stand in front of the last byte.
  obtain ⟨front, back, hfeed⟩ := List.append_of_mem hmem
  have hback : back ++ ends ≠ [] := by
    intro hnil
    obtain ⟨rfl, -⟩ := List.append_eq_nil_iff.mp hnil
    exact (hlast '\n' (by rw [hfeed]; simp)).1 rfl
  refine line_feed_not_mem_drop_last hpiece ?_
  rw [to_list_bytes, hsplit, hfeed, List.append_assoc, List.cons_append]
  exact mem_drop_last_bytes hback

end Bytes

section Follow

variable {ctx : Context} {progress : Progress} {memory : Memory} {prompt : Prompt}
  {output : String} {lines more : List String} {rest : List Line}

/-- How a session goes on after some lines. -/
def follow (ctx : Context) : Progress → List String → Progress
  | progress, [] => progress
  | .finished memory output, _ :: _ => .finished memory output
  | .asking memory prompt _, line :: lines => follow ctx (answer ctx memory prompt line) lines

/-- Further lines are answered where the lines before them lead. -/
theorem follow_append :
    follow ctx progress (lines ++ more) = follow ctx (follow ctx progress lines) more := by
  induction lines generalizing progress with
  | nil => rfl
  | cons line lines ih =>
      cases progress with
      | finished memory output => cases more <;> rfl
      | asking memory prompt output => exact ih

/-- A session reads on where the lines lead. -/
theorem readings_follow (h : follow ctx progress lines = .asking memory prompt output) :
    (readings ctx progress (lines.map Line.text ++ rest))[lines.length]? =
      some ⟨memory, prompt, output⟩ := by
  induction lines generalizing progress with
  | nil =>
      obtain rfl : progress = .asking memory prompt output := h
      match rest with
      | [] => rfl
      | .text line :: rest => rfl
      | .undecodable :: rest => rfl
  | cons line lines ih =>
      cases progress with
      | finished memory output => cases h
      | asking memory prompt output => exact ih h

end Follow

end Ariel.Session
