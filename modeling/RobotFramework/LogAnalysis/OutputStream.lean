import RobotFramework.LogAnalysis.WorkerOutput

/-!
# The calls of an output stream

A stream is written to in chunks and may be flushed at any time. What it puts on the queue and what it
still holds are together the text it was given, without the delimiters. If it is flushed at the end only,
the chunks do not show: the lines are those of the whole text.
-/

namespace LogAnalysis

open History

/-- A call of a method of `WorkerOutputStream`. -/
inductive StreamCall where
  | write (text : List Char)
  | flush

/-- What a call adds to the text. -/
def StreamCall.text : StreamCall → List Char
  | .write text => text
  | .flush => []

/-- The stream after a call, and what is put on the queue. -/
def WorkerOutputStream.call (s : WorkerOutputStream) : StreamCall → WorkerOutputStream × List OutputLine
  | .write text => s.write text
  | .flush => s.flush

/-- A stream and what it has put on the queue so far. -/
structure StreamRun where
  stream : WorkerOutputStream
  put : List OutputLine := []

def StreamRun.step (r : StreamRun) (c : StreamCall) : StreamRun :=
  let (stream, put) := r.stream.call c
  { stream, put := r.put ++ put }

/-- A new stream after some calls. -/
def streamRun (bagPath : List Char) (isError : Bool) (calls : List StreamCall) : StreamRun :=
  run StreamRun.step { stream := ⟨bagPath, isError, []⟩ } calls

/-- The lines put on the queue. -/
def StreamRun.lines (r : StreamRun) : List (List Char) := r.put.map OutputLine.line

/-! ## The pieces of a text -/

theorem flatten_splitOnP {α : Type} (p : α → Bool) (text : List α) :
    (text.splitOnP p).flatten = text.filter (!p ·) := by
  induction text with
  | nil => simp
  | cons c text ih =>
    obtain ⟨piece, pieces, hpieces⟩ := List.exists_cons_of_ne_nil (List.splitOnP_ne_nil p text)
    rw [hpieces] at ih
    rw [List.splitOnP_cons_eq_if_modifyHead, hpieces, List.filter_cons, ← ih]
    by_cases hc : p c = true
    · simp [hc]
    · simp [hc]

theorem mem_splitOnP {α : Type} {p : α → Bool} {text piece : List α} (h : piece ∈ text.splitOnP p) :
    ∀ c ∈ piece, p c = false := by
  induction text generalizing piece with
  | nil =>
    rw [List.splitOnP_nil, List.mem_singleton] at h
    simp [h]
  | cons c text ih =>
    obtain ⟨first, pieces, hpieces⟩ := List.exists_cons_of_ne_nil (List.splitOnP_ne_nil p text)
    rw [hpieces] at ih
    rw [List.splitOnP_cons_eq_if_modifyHead, hpieces] at h
    by_cases hc : p c = true
    · rw [if_pos hc, List.mem_cons] at h
      rcases h with rfl | h
      · simp
      · exact ih h
    · rw [if_neg hc, List.modifyHead_cons, List.mem_cons] at h
      rcases h with rfl | h
      · intro d hd
        rcases List.mem_cons.mp hd with rfl | hd
        · simpa using hc
        · exact ih List.mem_cons_self d hd
      · exact ih (List.mem_cons_of_mem _ h)

/-- A line that may be put on the queue. -/
def IsLine (line : List Char) : Prop := line ≠ [] ∧ ∀ c ∈ line, isDelimiter c = false

theorem linesOf_flatten (text : List Char) : (linesOf text).flatten = text.filter (!isDelimiter ·) := by
  rw [linesOf, List.flatten_filter_not_isEmpty, flatten_splitOnP]

theorem isLine_of_mem_linesOf {text line : List Char} (h : line ∈ linesOf text) : IsLine line := by
  obtain ⟨hpiece, hempty⟩ := List.mem_filter.mp h
  exact ⟨by simpa using hempty, mem_splitOnP hpiece⟩

theorem putLines_flatten (text : List Char) :
    (putLines text).1.flatten ++ (putLines text).2 = text.filter (!isDelimiter ·) := by
  rw [← linesOf_flatten, ← putLines_lines]
  by_cases hempty : (putLines text).2 = []
  · simp [hempty]
  · simp [hempty]

theorem putLines_isLine {text line : List Char} (h : line ∈ (putLines text).1) : IsLine line :=
  isLine_of_mem_linesOf (putLines_lines text ▸ List.mem_append_left _ h)

theorem putLines_left {text : List Char} : ∀ c ∈ (putLines text).2, isDelimiter c = false := by
  intro c hc
  have hline : (putLines text).2 ∈ linesOf text := by
    rw [← putLines_lines, if_neg]
    · simp
    · simpa using List.ne_nil_of_mem hc
  exact (isLine_of_mem_linesOf hline).2 c hc

/-! ## Runs -/

/-- What a stream has put and what it holds are its text, in lines of its own. -/
structure StreamRun.Keeps (bagPath : List Char) (isError : Bool) (calls : List StreamCall)
    (r : StreamRun) : Prop where
  owner : r.stream.bagPath = bagPath ∧ r.stream.isError = isError
  buffer : ∀ c ∈ r.stream.buffer, isDelimiter c = false
  text : r.lines.flatten ++ r.stream.buffer =
    (calls.flatMap StreamCall.text).filter (!isDelimiter ·)
  put : ∀ item ∈ r.put, item.bagPath = bagPath ∧ item.isError = isError ∧ IsLine item.line

section Keeps

variable {bagPath : List Char} {isError : Bool} {calls : List StreamCall} {r : StreamRun}

theorem StreamRun.Keeps.write (h : r.Keeps bagPath isError calls) (text : List Char) :
    (r.step (.write text)).Keeps bagPath isError (calls ++ [.write text]) := by
  have hlines : (r.step (.write text)).lines =
      r.lines ++ (putLines (r.stream.buffer ++ text)).1 := by
    show List.map _ (r.put ++ List.map r.stream.item _) = _
    rw [List.map_append, List.map_map]
    exact congrArg _ (List.map_id _)
  refine ⟨h.owner, putLines_left, ?_, ?_⟩
  · -- The buffer has no delimiter, so dropping them from it changes nothing.
    have hbuffer : r.stream.buffer.filter (!isDelimiter ·) = r.stream.buffer := by
      rw [List.filter_eq_self]
      intro c hc
      simp [h.buffer c hc]
    calc (r.step (.write text)).lines.flatten ++ (putLines (r.stream.buffer ++ text)).2
        = r.lines.flatten ++ (r.stream.buffer ++ text).filter (!isDelimiter ·) := by
          rw [hlines, List.flatten_append, List.append_assoc, putLines_flatten]
      _ = (r.lines.flatten ++ r.stream.buffer) ++ text.filter (!isDelimiter ·) := by
          rw [List.filter_append, hbuffer, List.append_assoc]
      _ = ((calls ++ [StreamCall.write text]).flatMap StreamCall.text).filter (!isDelimiter ·) := by
          rw [h.text, List.flatMap_append, List.filter_append]
          simp [StreamCall.text]
  · intro item hitem
    rcases List.mem_append.mp hitem with hold | hnew
    · exact h.put item hold
    · obtain ⟨line, hline, rfl⟩ := List.mem_map.mp hnew
      exact ⟨h.owner.1, h.owner.2, putLines_isLine hline⟩

theorem StreamRun.Keeps.flush (h : r.Keeps bagPath isError calls) :
    (r.step .flush).Keeps bagPath isError (calls ++ [.flush]) := by
  have htext : (calls ++ [StreamCall.flush]).flatMap StreamCall.text = calls.flatMap StreamCall.text := by
    simp [StreamCall.text]
  by_cases hempty : r.stream.buffer = []
  · have hstep : r.step .flush = r := by
      unfold StreamRun.step WorkerOutputStream.call WorkerOutputStream.flush
      simp [hempty]
    rw [hstep]
    exact ⟨h.owner, h.buffer, by rw [h.text, htext], h.put⟩
  · have hstep : r.step .flush =
        { stream := { r.stream with buffer := [] }, put := r.put ++ [r.stream.item r.stream.buffer] } := by
      unfold StreamRun.step WorkerOutputStream.call WorkerOutputStream.flush
      simp [hempty]
    rw [hstep]
    refine ⟨h.owner, by simp, ?_, ?_⟩
    · rw [htext, ← h.text]
      simp [StreamRun.lines, WorkerOutputStream.item]
    · intro item hitem
      rcases List.mem_append.mp hitem with hold | hnew
      · exact h.put item hold
      · rw [List.mem_singleton.mp hnew]
        exact ⟨h.owner.1, h.owner.2, hempty, h.buffer⟩

end Keeps

theorem streamRun_keeps (bagPath : List Char) (isError : Bool) (calls : List StreamCall) :
    (streamRun bagPath isError calls).Keeps bagPath isError calls := by
  have hinit : StreamRun.Keeps bagPath isError [] { stream := ⟨bagPath, isError, []⟩ } :=
    ⟨⟨rfl, rfl⟩, by simp, rfl, by simp⟩
  refine run_invariant hinit (fun past r c h => ?_) calls
  cases c with
  | write text => exact h.write text
  | flush => exact h.flush

theorem streamRun_writes (bagPath : List Char) (isError : Bool) (chunks : List (List Char)) :
    streamRun bagPath isError (chunks.map .write) =
      { stream := ⟨bagPath, isError, (putLines chunks.flatten).2⟩
        put := (putLines chunks.flatten).1.map (OutputLine.mk bagPath isError) } := by
  induction chunks using List.reverseRecOn with
  | nil => simp [streamRun, putLines_nil]
  | append_singleton chunks chunk ih =>
    have hrun : streamRun bagPath isError ((chunks ++ [chunk]).map .write) =
        (streamRun bagPath isError (chunks.map .write)).step (.write chunk) := by
      rw [List.map_append]
      exact run_concat ..
    rw [hrun, ih, List.flatten_append, List.flatten_singleton, putLines_append, List.map_append]
    rfl

/-- **Worker output.** However a stream is written to and flushed, the lines it has put and its buffer
are the text it was given without the delimiters; and if it is flushed at the end only, its lines are
those of the whole text. -/
theorem streamRun_text (bagPath : List Char) (isError : Bool) :
    (∀ calls : List StreamCall,
      (streamRun bagPath isError calls).lines.flatten ++ (streamRun bagPath isError calls).stream.buffer =
          (calls.flatMap StreamCall.text).filter (fun c => c ≠ '\n' ∧ c ≠ '\r') ∧
        ∀ item ∈ (streamRun bagPath isError calls).put, item.bagPath = bagPath ∧
          item.isError = isError ∧ item.line ≠ [] ∧ '\n' ∉ item.line ∧ '\r' ∉ item.line) ∧
    ∀ chunks : List (List Char),
      (streamRun bagPath isError (chunks.map .write ++ [.flush])).lines = linesOf chunks.flatten ∧
        (streamRun bagPath isError (chunks.map .write ++ [.flush])).stream.buffer = [] := by
  constructor
  · intro calls
    have h := streamRun_keeps bagPath isError calls
    refine ⟨?_, fun item hitem => ?_⟩
    · rw [h.text]
      refine List.filter_congr fun c _ => ?_
      simp [isDelimiter]
    · obtain ⟨hbag, herror, hne, hfree⟩ := h.put item hitem
      refine ⟨hbag, herror, hne, fun hmem => ?_, fun hmem => ?_⟩
      · exact absurd (hfree _ hmem) (by decide)
      · exact absurd (hfree _ hmem) (by decide)
  · intro chunks
    have hrun : streamRun bagPath isError (chunks.map .write ++ [.flush]) =
        (streamRun bagPath isError (chunks.map .write)).step .flush := run_concat ..
    rw [hrun, streamRun_writes, ← putLines_lines]
    unfold StreamRun.step WorkerOutputStream.call WorkerOutputStream.flush
    by_cases hempty : (putLines chunks.flatten).2 = []
    · simp [hempty, StreamRun.lines, Function.comp_def]
    · simp [hempty, StreamRun.lines, WorkerOutputStream.item, Function.comp_def]

example : (streamRun "bag".toList false
    [.write "50%\r10".toList, .flush, .write "0%\n\n".toList]).lines =
    ["50%".toList, "10".toList, "0%".toList] := by
  decide +kernel

end LogAnalysis
