import Ariel.Proofs.Session.Turn

/-!
# Conversations end

`Unfolds` gives the steps of a conversation one by one: a line is answered, the end of the input is
met as often as the session reads on, and a line that cannot be read breaks off. `unfolds_iff` says
that these steps always come to an end, in the one transcript that `converse` gives, and `readings`
lists the moments at which the session reads on the way. `run_ends` bounds their number and says
how the transcript closes.
-/

namespace Ariel.Session

open Ariel.Query Ariel.Text

/-- A moment at which a session reads: what it keeps, the prompt at which it waits, and what it has
printed since the last reading. -/
structure Moment where
  memory : Memory
  prompt : Prompt
  output : String

/-- The moments of a conversation at which a line is read, or the end of the input is met. -/
def readings (ctx : Context) : Progress → List Line → List Moment
  | .finished _ _, _ => []
  | .asking memory prompt output, [] =>
      ⟨memory, prompt, output⟩ ::
        match answerEnd ctx memory prompt with
        | .finished _ _ => []
        | .asking memory prompt output => [⟨memory, prompt, output⟩]
  | .asking memory prompt output, .text line :: lines =>
      ⟨memory, prompt, output⟩ :: readings ctx (answer ctx memory prompt line) lines
  | .asking memory prompt output, .undecodable :: _ => [⟨memory, prompt, output⟩]

/-- `Unfolds ctx progress lines transcript` says that a session that goes on like this, over the
lines that are left, comes to an end and leaves the transcript. -/
inductive Unfolds (ctx : Context) : Progress → List Line → Transcript → Prop where
  | finished (memory output lines) :
      Unfolds ctx (.finished memory output) lines ⟨[output], memory, true⟩
  | line {memory prompt text lines transcript} (output) :
      Unfolds ctx (answer ctx memory prompt text) lines transcript →
      Unfolds ctx (.asking memory prompt output) (.text text :: lines) (.after output transcript)
  | ended {memory prompt transcript} (output) :
      Unfolds ctx (answerEnd ctx memory prompt) [] transcript →
      Unfolds ctx (.asking memory prompt output) [] (.after output transcript)
  | broken (memory prompt output lines) :
      Unfolds ctx (.asking memory prompt output) (.undecodable :: lines)
        ⟨[output, ""], memory, false⟩

section End

variable (ctx : Context) (memory : Memory) (prompt : Prompt) (output : String)

/-- A conversation whose input has ended goes on as the end of the input makes it. -/
theorem converse_nil : converse ctx (.asking memory prompt output) [] =
    .after output (converse ctx (answerEnd ctx memory prompt) []) := by
  rcases answer_end_eq ctx memory prompt with hend | ⟨next, asked, hend, -, hagain⟩
  · simp only [converse, closing, hend]
  · simp only [converse, closing, hend, hagain]
    rfl

theorem readings_nil : readings ctx (.asking memory prompt output) [] =
    ⟨memory, prompt, output⟩ :: readings ctx (answerEnd ctx memory prompt) [] := by
  rcases answer_end_eq ctx memory prompt with hend | ⟨next, asked, hend, -, hagain⟩
  · simp only [readings, hend]
  · simp only [readings, hend, hagain]

/-- The end of the input ends a session, or leaves it with its draft outside of any dialogue about a
part. -/
theorem settles_or_finished_end : answerEnd ctx memory prompt = .finished memory "\n\nGoodbye!\n" ∨
    (answerEnd ctx memory prompt).Settles memory.draft := by
  rcases answer_end_eq ctx memory prompt with hend | ⟨next, asked, hend, hpart, -⟩
  · exact .inl hend
  · rw [hend]
    exact .inr ⟨rfl, hpart, holds_of_part hpart⟩

end End

section Run

variable {ctx : Context} {progress : Progress} {lines : List Line} {transcript : Transcript}

/-- Every conversation comes to an end. -/
theorem unfolds_converse (ctx : Context) (progress : Progress) (lines : List Line) :
    Unfolds ctx progress lines (converse ctx progress lines) := by
  induction lines generalizing progress with
  | nil =>
      cases progress with
      | finished memory output => exact .finished memory output []
      | asking memory prompt output =>
          -- The end of the input is met once or twice.
          rw [converse_nil]
          refine .ended output ?_
          rcases answer_end_eq ctx memory prompt with hend | ⟨next, asked, hend, -, hagain⟩
          · rw [hend]
            exact .finished memory _ []
          · rw [hend, converse_nil]
            refine .ended asked ?_
            rw [hagain]
            exact .finished memory _ []
  | cons line lines ih =>
      cases progress with
      | finished memory output => exact .finished memory output _
      | asking memory prompt output =>
          cases line with
          | text text => exact .line output (ih _)
          | undecodable => exact .broken memory prompt output lines

/-- A conversation comes to the end that `converse` computes, and to no other. -/
theorem unfolds_iff :
    Unfolds ctx progress lines transcript ↔ transcript = converse ctx progress lines := by
  constructor
  · intro h
    induction h with
    | finished memory output lines => cases lines <;> rfl
    | line output _ ih => rw [ih, converse]
    | ended output _ ih => rw [ih, converse_nil]
    | broken memory prompt output lines => rfl
  · rintro rfl
    exact unfolds_converse ctx progress lines

/-- A session reads each line at most once, and meets the end of the input at most twice. -/
theorem length_readings_le (ctx : Context) (progress : Progress) (lines : List Line) :
    (readings ctx progress lines).length ≤ lines.length + 2 := by
  induction lines generalizing progress with
  | nil =>
      cases progress with
      | finished memory output => exact Nat.zero_le _
      | asking memory prompt output =>
          rcases answer_end_eq ctx memory prompt with hend | ⟨next, asked, hend, -, -⟩
          · simp [readings, hend]
          · simp [readings, hend]
  | cons line lines ih =>
      cases progress with
      | finished memory output => exact Nat.zero_le _
      | asking memory prompt output =>
          cases line with
          | text text =>
              rw [readings, List.length_cons, List.length_cons]
              have := ih (answer ctx memory prompt text)
              omega
          | undecodable => simp [readings]

/-- What holds at the beginning of a conversation holds at each reading, when the answers to the
lines and the end of the input keep it. -/
theorem reading_induction {P : Progress → Prop} {moment : Moment}
    (hanswer : ∀ {memory prompt output text}, .text text ∈ lines →
      P (.asking memory prompt output) → P (answer ctx memory prompt text))
    (hend : ∀ {memory prompt output},
      P (.asking memory prompt output) → P (answerEnd ctx memory prompt))
    (h : P progress) (hmoment : moment ∈ readings ctx progress lines) :
    P (.asking moment.memory moment.prompt moment.output) := by
  induction lines generalizing progress with
  | nil =>
      cases progress with
      | finished memory output => cases hmoment
      | asking memory prompt output =>
          rw [readings_nil] at hmoment
          rcases List.mem_cons.mp hmoment with rfl | hmoment
          · exact h
          · have hnext := hend h
            rcases answer_end_eq ctx memory prompt with hfinal | ⟨next, asked, hfinal, -, hagain⟩
            · simp [hfinal, readings] at hmoment
            · rw [hfinal] at hmoment hnext
              simp only [readings, hagain, List.mem_singleton] at hmoment
              rwa [hmoment]
  | cons line lines ih =>
      cases progress with
      | finished memory output => cases hmoment
      | asking memory prompt output =>
          cases line with
          | text text =>
              rcases List.mem_cons.mp hmoment with rfl | hmoment
              · exact h
              · exact ih (fun hline => hanswer (List.mem_cons_of_mem _ hline))
                  (hanswer List.mem_cons_self h) hmoment
          | undecodable =>
              rw [List.mem_singleton.mp hmoment]
              exact h

/-- A conversation succeeds exactly when each line that it reads can be read. -/
theorem Unfolds.ok_iff (h : Unfolds ctx progress lines transcript) :
    transcript.ok = true ↔
      ∀ line ∈ lines.take (readings ctx progress lines).length, line ≠ .undecodable := by
  induction h with
  | finished memory output lines => simp [readings]
  | line output _ ih => simpa [readings, Transcript.after] using ih
  | ended output _ ih => simpa [Transcript.after] using ih
  | broken memory prompt output lines => simp [readings]

/-- Where a session is over, it has said goodbye. -/
inductive Progress.Courteous : Progress → Prop where
  | asking (memory prompt output) : Courteous (.asking memory prompt output)
  | finished {memory output} : "Goodbye!\n".toList <:+ output.toList →
      Courteous (.finished memory output)

section Courteous

variable {ctx : Context} {memory : Memory} {prompt : Prompt} {progress : Progress} {draft : Draft}

theorem Progress.Turns.courteous (h : progress.Turns draft prompt) : progress.Courteous := by
  obtain ⟨memory, next, output, rfl, -⟩ := h.exists_asking
  exact .asking memory next output

theorem Progress.Asks.courteous {part? : Option Part} (h : progress.Asks draft part?) :
    progress.Courteous := by
  obtain ⟨memory, next, output, rfl, -⟩ := h.exists_asking
  exact .asking memory next output

theorem Progress.Answers.courteous (h : progress.Answers ctx memory prompt) :
    progress.Courteous := by
  cases h with
  | turn hturns => exact hturns.courteous
  | opened hasks => exact hasks.courteous
  | restarted hsettles => exact hsettles.courteous
  | ended => exact .finished (by decide)

end Courteous

/-- The end of the input does not end a session without a goodbye. -/
theorem courteous_end (ctx : Context) (memory : Memory) (prompt : Prompt) :
    (answerEnd ctx memory prompt).Courteous := by
  rcases answer_end_eq ctx memory prompt with hend | ⟨next, asked, hend, -, -⟩
  · rw [hend]
    exact .finished (by decide)
  · rw [hend]
    exact .asking _ _ _

/-- A transcript holds what was printed before each reading and, behind the last one, a goodbye, or
nothing when a line could not be read. -/
theorem Unfolds.chunks_eq (h : Unfolds ctx progress lines transcript)
    (hcourteous : progress.Courteous) :
    ∃ last, transcript.chunks = (readings ctx progress lines).map Moment.output ++ [last] ∧
      (transcript.ok = true → "Goodbye!\n".toList <:+ last.toList) ∧
      (transcript.ok = false → last = "") := by
  induction h with
  | finished memory output lines =>
      obtain ⟨⟩ | ⟨hgoodbye⟩ := hcourteous
      exact ⟨output, by simp [readings], fun _ => hgoodbye, nofun⟩
  | line output _ ih =>
      obtain ⟨last, hchunks, hlast⟩ := ih (answers_answer _ _ _ _).courteous
      exact ⟨last, by simp [readings, Transcript.after, hchunks], hlast⟩
  | ended output _ ih =>
      obtain ⟨last, hchunks, hlast⟩ := ih (courteous_end _ _ _)
      exact ⟨last, by simp [readings_nil, Transcript.after, hchunks], hlast⟩
  | broken memory prompt output lines => exact ⟨"", by simp [readings], nofun, fun _ => rfl⟩

/-- A conversation that fails does so at the last line that it reads. -/
theorem Unfolds.last_of_failed (h : Unfolds ctx progress lines transcript)
    (hfailed : transcript.ok = false) :
    ∃ front, lines.take (readings ctx progress lines).length = front ++ [.undecodable] := by
  induction h with
  | finished memory output lines => cases hfailed
  | @line memory prompt text lines transcript output _ ih =>
      obtain ⟨front, hfront⟩ := ih hfailed
      exact ⟨.text text :: front, by simp [readings, hfront]⟩
  | ended output _ ih =>
      obtain ⟨front, hfront⟩ := ih hfailed
      simp at hfront
  | broken memory prompt output lines => exact ⟨[], by simp [readings]⟩

end Run

/-- A line cannot be read exactly when its bytes are no UTF-8. -/
theorem of_bytes_eq_undecodable_iff {bytes : List UInt8} :
    Line.ofBytes bytes = .undecodable ↔ ¬ ByteArray.IsValidUTF8 ⟨bytes.toArray⟩ := by
  unfold Line.ofBytes String.fromUTF8?
  by_cases hvalid : ByteArray.IsValidUTF8 ⟨bytes.toArray⟩ <;> simp [hvalid]

/-- Every session ends, whatever the settings, the clipboard tools and the bytes of its input are.
It reads at most twice more than there are lines, and succeeds exactly when each line that it reads
is UTF-8. Behind its last reading it says goodbye, or nothing when that reading fails. -/
theorem run_ends (ctx : Context) (input : ByteArray) :
    let lines := Line.splitBytes input.data.toList
    let moments := readings ctx (start ctx) (Line.ofInput input)
    let transcript := run ctx (Line.ofInput input)
    (∀ other, Unfolds ctx (start ctx) (Line.ofInput input) other ↔ other = transcript) ∧
      moments.length ≤ lines.length + 2 ∧
      (transcript.ok = true ↔
        ∀ line ∈ lines.take moments.length, ByteArray.IsValidUTF8 ⟨line.toArray⟩) ∧
      ∃ last, transcript.chunks = moments.map Moment.output ++ [last] ∧
        (transcript.ok = true → "Goodbye!\n".toList <:+ last.toList) ∧
        (transcript.ok = false → last = "" ∧ ∃ front line,
          lines.take moments.length = front ++ [line] ∧
            ¬ ByteArray.IsValidUTF8 ⟨line.toArray⟩) := by
  intro lines moments transcript
  have hunfolds : Unfolds ctx (start ctx) (Line.ofInput input) transcript :=
    unfolds_converse ctx (start ctx) (Line.ofInput input)
  have hlength : moments.length ≤ (Line.ofInput input).length + 2 := length_readings_le ctx _ _
  have htake : (Line.ofInput input).take moments.length =
      (lines.take moments.length).map Line.ofBytes := List.map_take.symm
  refine ⟨fun other => unfolds_iff, by simpa [Line.ofInput] using hlength, ?_, ?_⟩
  · rw [hunfolds.ok_iff, htake, List.forall_mem_map]
    exact forall₂_congr fun line _ => by rw [Ne, of_bytes_eq_undecodable_iff, Classical.not_not]
  · obtain ⟨last, hchunks, hgoodbye, hnothing⟩ := hunfolds.chunks_eq (.asking _ _ _)
    refine ⟨last, hchunks, hgoodbye, fun hfailed => ⟨hnothing hfailed, ?_⟩⟩
    obtain ⟨front, hfront⟩ := hunfolds.last_of_failed hfailed
    rw [htake] at hfront
    obtain ⟨front', back, hsplit, -, hback⟩ := List.map_eq_append_iff.mp hfront
    obtain ⟨line, rfl, hline⟩ := List.map_eq_singleton_iff.mp hback
    exact ⟨front', line, hsplit, of_bytes_eq_undecodable_iff.mp hline⟩

/-- The end of the input completes a query that is being typed, and ends the session when it is met
again, so that two lines are followed by two more readings. -/
theorem run_ends_in_typed_query :
    (readings {} (start {}) (Line.ofInput "8\nSELECT".toUTF8)).length = 4 ∧
      (run {} (Line.ofInput "8\nSELECT".toUTF8)).ok = true ∧
      ∃ last ∈ (run {} (Line.ofInput "8\nSELECT".toUTF8)).chunks.getLast?,
        "Goodbye!\n".toList <:+ last.toList := by
  have hok : (run {} (Line.ofInput "8\nSELECT".toUTF8)).ok = true := by decide +kernel
  obtain ⟨-, -, -, last, hchunks, hgoodbye, -⟩ := run_ends {} "8\nSELECT".toUTF8
  exact ⟨by decide +kernel, hok, last, by rw [hchunks]; simp, hgoodbye hok⟩

end Ariel.Session
