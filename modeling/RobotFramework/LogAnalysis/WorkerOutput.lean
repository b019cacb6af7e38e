import Mathlib.Data.List.TakeWhile
import RobotFramework.History

/-!
# The output of a worker

A worker process analyses one bag. What it prints is cut into lines by `WorkerOutputStream`, one stream
for the standard output and one for the standard error, and each line is put on the queue to the parent.
Which lines are put depends on the text of a stream only, not on the pieces in which it is written
(`processBagDirectory_lines`).
-/

namespace LogAnalysis

/-! ## The code -/

/-- `(bag_path, is_error, line)` on the queue. -/
structure OutputLine where
  bagPath : List Char
  isError : Bool
  line : List Char
  deriving DecidableEq

structure WorkerOutputStream where
  bagPath : List Char
  isError : Bool
  buffer : List Char := []

def isDelimiter (c : Char) : Bool := c = '\n' || c = '\r'

/-- The loop of `write`: the lines it puts, and the buffer it leaves. -/
def putLines (buffer : List Char) : List (List Char) × List Char :=
  match _h : buffer.dropWhile (!isDelimiter ·) with
  | [] => ([], buffer)
  | _ :: rest =>
    let line := buffer.takeWhile (!isDelimiter ·)
    let (lines, left) := putLines rest
    (if line.isEmpty then lines else line :: lines, left)
termination_by buffer.length
decreasing_by
  have hle := (List.dropWhile_sublist (!isDelimiter ·) (l := buffer)).length_le
  rw [_h, List.length_cons] at hle
  omega

def WorkerOutputStream.item (s : WorkerOutputStream) (line : List Char) : OutputLine :=
  ⟨s.bagPath, s.isError, line⟩

/-- The stream after `write`, and what is put on the queue. -/
def WorkerOutputStream.write (s : WorkerOutputStream) (text : List Char) :
    WorkerOutputStream × List OutputLine :=
  let (lines, left) := putLines (s.buffer ++ text)
  ({ s with buffer := left }, lines.map s.item)

/-- The stream after `flush`, and what is put on the queue. -/
def WorkerOutputStream.flush (s : WorkerOutputStream) : WorkerOutputStream × List OutputLine :=
  if s.buffer.isEmpty then (s, []) else ({ s with buffer := [] }, [s.item s.buffer])

/-- The streams of a worker, and what it has put on the queue so far. -/
structure Streams where
  stdoutStream : WorkerOutputStream
  stderrStream : WorkerOutputStream
  put : List OutputLine := []

/-- A write to the standard error (`true`) or to the standard output. -/
abbrev Write := Bool × List Char

def Streams.write (streams : Streams) : Write → Streams
  | (false, text) =>
    let (stdoutStream, put) := streams.stdoutStream.write text
    { streams with stdoutStream, put := streams.put ++ put }
  | (true, text) =>
    let (stderrStream, put) := streams.stderrStream.write text
    { streams with stderrStream, put := streams.put ++ put }

/-- `print` writes its text and the end of the line. -/
def print (isError : Bool) (text : List Char) : List Write := [(isError, text), (isError, ['\n'])]

/-- The writes of `process_bag_directory`: what `generate_metadata_summary` writes stands between the
first line and the message about the exception that it raises. -/
def workerWrites (bagPath : List Char) (summary : List Write) (error : Option (List Char)) :
    List Write :=
  print false ("Starting analysis: ".toList ++ bagPath) ++ summary ++
    match error with
    | none => []
    | some error =>
      print true ("Unexpected error analyzing '".toList ++ bagPath ++ "': ".toList ++ error)

/-- What `process_bag_directory` puts on the queue. -/
def processBagDirectory (bagPath : List Char) (summary : List Write) (error : Option (List Char)) :
    List OutputLine :=
  let streams := (workerWrites bagPath summary error).foldl Streams.write
    { stdoutStream := ⟨bagPath, false, []⟩, stderrStream := ⟨bagPath, true, []⟩ }
  streams.put ++ streams.stdoutStream.flush.2 ++ streams.stderrStream.flush.2

/-! ## The lines of a text -/

theorem putLines_of_dropWhile_nil {buffer : List Char}
    (h : buffer.dropWhile (!isDelimiter ·) = []) : putLines buffer = ([], buffer) := by
  unfold putLines
  split
  · rfl
  · rename_i _ _ heq
    rw [h] at heq
    exact absurd heq.symm (List.cons_ne_nil _ _)

theorem putLines_of_dropWhile_cons {buffer rest : List Char} {c : Char}
    (h : buffer.dropWhile (!isDelimiter ·) = c :: rest) :
    putLines buffer =
      (if (buffer.takeWhile (!isDelimiter ·)).isEmpty then (putLines rest).1
        else buffer.takeWhile (!isDelimiter ·) :: (putLines rest).1, (putLines rest).2) := by
  rw [putLines]
  split
  · rename_i heq
    rw [h] at heq
    exact absurd heq (List.cons_ne_nil _ _)
  · rename_i _ _ heq
    rw [h] at heq
    obtain ⟨-, rfl⟩ := List.cons.inj heq
    rfl

/-- Cutting a text into lines can be interrupted anywhere: what is left is put before the rest. -/
theorem putLines_append (text more : List Char) :
    putLines (text ++ more) =
      ((putLines text).1 ++ (putLines ((putLines text).2 ++ more)).1,
        (putLines ((putLines text).2 ++ more)).2) := by
  induction text using putLines.induct with
  | case1 text h =>
    rw [putLines_of_dropWhile_nil h, List.nil_append]
  | case2 text c rest h lines left hrest ih =>
    have hmore : (text ++ more).dropWhile (!isDelimiter ·) = c :: (rest ++ more) := by
      rw [List.dropWhile_append, h]
      rfl
    have hline : (text ++ more).takeWhile (!isDelimiter ·) = text.takeWhile (!isDelimiter ·) := by
      rw [List.takeWhile_append, if_neg]
      intro hlen
      have hsplit := congrArg List.length (@List.takeWhile_append_dropWhile _ (!isDelimiter ·) text)
      rw [List.length_append, h, List.length_cons] at hsplit
      omega
    rw [putLines_of_dropWhile_cons h, putLines_of_dropWhile_cons hmore, hline, ih]
    by_cases hempty : (text.takeWhile (!isDelimiter ·)).isEmpty = true
    · rw [if_pos hempty, if_pos hempty]
    · rw [if_neg hempty, if_neg hempty, List.cons_append]

/-- The lines of a text: its pieces between delimiters, without the empty ones. -/
def linesOf (text : List Char) : List (List Char) :=
  (text.splitOnP isDelimiter).filter (!·.isEmpty)

/-- `write` puts the lines of a text, and `flush` the last one if no delimiter ends it. -/
theorem putLines_lines (text : List Char) :
    (putLines text).1 ++ (if (putLines text).2.isEmpty then [] else [(putLines text).2]) =
      linesOf text := by
  unfold linesOf
  induction text using putLines.induct with
  | case1 text h =>
    have hnone : ∀ c ∈ text, isDelimiter c = false := by
      intro c hc
      have := List.dropWhile_eq_nil_iff.mp h c hc
      simpa using this
    rw [putLines_of_dropWhile_nil h, List.splitOnP_eq_singleton hnone]
    by_cases hempty : text.isEmpty = true
    · simp [hempty]
    · simp [hempty]
  | case2 text c rest h lines left hrest ih =>
    have hline : ∀ d ∈ text.takeWhile (!isDelimiter ·), isDelimiter d = false := by
      intro d hd
      have := List.mem_takeWhile_imp hd
      simpa using this
    have hdelimiter : isDelimiter c = true := by
      have := List.head?_dropWhile_not (!isDelimiter ·) text
      rw [h] at this
      simpa using this
    have hsplit : text.splitOnP isDelimiter =
        text.takeWhile (!isDelimiter ·) :: rest.splitOnP isDelimiter := by
      rw [← List.splitOnP_append_cons_of_forall_mem hline c hdelimiter, ← h,
        List.takeWhile_append_dropWhile]
    rw [putLines_of_dropWhile_cons h, hsplit, List.filter_cons, ← ih]
    by_cases hempty : (text.takeWhile (!isDelimiter ·)).isEmpty = true
    · simp [hempty]
    · simp [hempty]

theorem putLines_nil : putLines [] = ([], []) := putLines_of_dropWhile_nil rfl

/-! ## What a worker puts -/

/-- The text written to one of the two streams. -/
def textOf (isError : Bool) (writes : List Write) : List Char :=
  (writes.filter (·.1 = isError)).flatMap Prod.snd

theorem textOf_concat_self (isError : Bool) (writes : List Write) (text : List Char) :
    textOf isError (writes ++ [(isError, text)]) = textOf isError writes ++ text := by
  simp [textOf]

theorem textOf_concat_of_ne {isError other : Bool} (h : other ≠ isError) (writes : List Write)
    (text : List Char) : textOf isError (writes ++ [(other, text)]) = textOf isError writes := by
  simp [textOf, h]

def Streams.stream (streams : Streams) : Bool → WorkerOutputStream
  | false => streams.stdoutStream
  | true => streams.stderrStream

theorem filter_items (bagPath : List Char) (own isError : Bool) (lines : List (List Char)) :
    (lines.map (OutputLine.mk bagPath own)).filter (·.isError = isError) =
      if own = isError then lines.map (OutputLine.mk bagPath own) else [] := by
  by_cases h : own = isError
  · rw [if_pos h, List.filter_eq_self]
    simp [h]
  · rw [if_neg h, List.filter_eq_nil_iff]
    simp [h]

/-- What has been put and what is in the buffers after some writes. -/
structure Streams.Wrote (bagPath : List Char) (writes : List Write) (streams : Streams) : Prop where
  stream (isError : Bool) :
    streams.stream isError = ⟨bagPath, isError, (putLines (textOf isError writes)).2⟩
  put (isError : Bool) : streams.put.filter (·.isError = isError) =
    (putLines (textOf isError writes)).1.map (OutputLine.mk bagPath isError)
  bagPath : ∀ item ∈ streams.put, item.bagPath = bagPath

theorem Streams.write_eq (streams : Streams) (isError : Bool) (text : List Char) :
    (∀ e, (streams.write (isError, text)).stream e =
      if e = isError then ((streams.stream isError).write text).1 else streams.stream e) ∧
    (streams.write (isError, text)).put =
      streams.put ++ ((streams.stream isError).write text).2 := by
  cases isError
  · exact ⟨fun e => by cases e <;> rfl, rfl⟩
  · exact ⟨fun e => by cases e <;> rfl, rfl⟩

theorem Streams.Wrote.write {bagPath : List Char} {writes : List Write} {streams : Streams}
    (h : streams.Wrote bagPath writes) (w : Write) :
    (streams.write w).Wrote bagPath (writes ++ [w]) := by
  obtain ⟨isError, text⟩ := w
  obtain ⟨hstream, hput⟩ := streams.write_eq isError text
  have happend := putLines_append (textOf isError writes) text
  have hwrite : (streams.stream isError).write text =
      (⟨bagPath, isError, (putLines (textOf isError writes ++ text)).2⟩,
        (putLines ((putLines (textOf isError writes)).2 ++ text)).1.map
          (OutputLine.mk bagPath isError)) := by
    rw [h.stream, happend]
    rfl
  rw [hwrite] at hstream hput
  constructor
  · intro e
    rw [hstream]
    by_cases he : e = isError
    · subst he
      rw [if_pos rfl, textOf_concat_self]
    · rw [if_neg he, textOf_concat_of_ne (Ne.symm he), h.stream]
  · intro e
    rw [hput, List.filter_append, h.put, filter_items]
    by_cases he : e = isError
    · subst he
      rw [if_pos rfl, textOf_concat_self, happend, List.map_append]
    · rw [if_neg (Ne.symm he), textOf_concat_of_ne (Ne.symm he), List.append_nil]
  · intro item hitem
    rw [hput] at hitem
    rcases List.mem_append.mp hitem with hold | hnew
    · exact h.bagPath item hold
    · obtain ⟨line, -, rfl⟩ := List.mem_map.mp hnew
      rfl

theorem wrote_all (bagPath : List Char) (writes : List Write) :
    (writes.foldl Streams.write
      { stdoutStream := ⟨bagPath, false, []⟩, stderrStream := ⟨bagPath, true, []⟩ }).Wrote
      bagPath writes := by
  have hinit : Streams.Wrote bagPath []
      { stdoutStream := ⟨bagPath, false, []⟩, stderrStream := ⟨bagPath, true, []⟩ } := by
    refine ⟨?_, ?_, ?_⟩
    · intro isError
      cases isError <;> simp [Streams.stream, textOf, putLines_nil]
    · simp [textOf, putLines_nil]
    · simp
  exact History.run_invariant hinit (fun _ _ w h => h.write w) writes

theorem flush_stream (bagPath : List Char) (isError : Bool) (buffer : List Char) :
    (WorkerOutputStream.flush ⟨bagPath, isError, buffer⟩).2 =
      (if buffer.isEmpty then [] else [buffer]).map (OutputLine.mk bagPath isError) := by
  unfold WorkerOutputStream.flush
  by_cases h : buffer.isEmpty = true
  · rw [if_pos h, if_pos h]
    rfl
  · rw [if_neg h, if_neg h]
    rfl

/-- **What a worker puts.** Each of its two streams is put line by line, in the order it was written
and without empty lines; all of it carries the path of the bag. -/
theorem processBagDirectory_lines (bagPath : List Char) (summary : List Write)
    (error : Option (List Char)) :
    (∀ item ∈ processBagDirectory bagPath summary error, item.bagPath = bagPath) ∧
    ∀ isError, ((processBagDirectory bagPath summary error).filter (·.isError = isError)).map
      OutputLine.line = linesOf (textOf isError (workerWrites bagPath summary error)) := by
  have h := wrote_all bagPath (workerWrites bagPath summary error)
  have hstdout := h.stream false
  have hstderr := h.stream true
  unfold processBagDirectory
  dsimp only [Streams.stream] at hstdout hstderr ⊢
  rw [hstdout, hstderr, flush_stream, flush_stream]
  constructor
  · intro item hitem
    rcases List.mem_append.mp hitem with hitem | hitem
    · rcases List.mem_append.mp hitem with hitem | hitem
      · exact h.bagPath item hitem
      · obtain ⟨line, -, rfl⟩ := List.mem_map.mp hitem
        rfl
    · obtain ⟨line, -, rfl⟩ := List.mem_map.mp hitem
      rfl
  · intro isError
    rw [List.filter_append, List.filter_append, h.put, filter_items, filter_items]
    have hline : OutputLine.line ∘ OutputLine.mk bagPath isError = id := rfl
    rw [← putLines_lines]
    cases isError <;>
      simp only [reduceCtorEq, if_true, if_false, List.append_nil, ← List.map_append, List.map_map,
        hline, List.map_id]

end LogAnalysis
