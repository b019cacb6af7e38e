import Mathlib.Algebra.Order.Round
import Mathlib.Data.Rat.Floor
import RobotFramework.History

/-!
# Timing diagnostics

The timer callbacks of a base node. Each of the eight loops has a flag that its last iteration sets,
all of them share one diagnostic, and the 1 Hz callback publishes it before it runs its own loop.
Execution times are exact, and a callback runs to its end before the next one starts.

`Flags` says what the flags and the diagnostic hold after any interleaving of callbacks. With it the
published diagnostic is a failed one exactly if some loop's last iteration was too slow.
-/

namespace BaseNode

open History

/-! ## The code -/

/-- `fast::rf::Level`. -/
inductive Level where
  | unknown
  | noError
  | debug
  | info
  | notice
  | warn
  | error
  | fatal
  deriving DecidableEq, Repr

/-- `fast::rf::DiagnosticDefinition::DiagnosticType`. -/
inductive DiagnosticType where
  | timing
  | other (code : Nat)
  deriving DecidableEq, Repr

/-- `fast::rf::DiagnosticDefinition::DiagnosticMessage`. -/
inductive DiagnosticMessage where
  | noError
  | initializing
  | diagnosticFailed
  | other (code : Nat)
  deriving DecidableEq, Repr

/-- `fast::rf::messages::InfrastructureMsgs::DiagnosticMsg`. -/
structure Diagnostic where
  systemID : Nat
  subsystemID : Nat
  processID : Nat
  diagnosticType : DiagnosticType
  level : Level
  diagnosticMessage : DiagnosticMessage
  description : String
  deriving DecidableEq, Repr

/-- The timed loops. -/
inductive Loop where
  | loop100Hz
  | loop10Hz
  | loop1Hz
  | loop01Hz
  | loop001Hz
  | loop1
  | loop2
  | loop3
  deriving DecidableEq, Repr

/-- The loops, in the order of `baseRun1Hz`. -/
def Loop.all : List Loop :=
  [.loop100Hz, .loop10Hz, .loop1Hz, .loop01Hz, .loop001Hz, .loop1, .loop2, .loop3]

/-- The name a callback passes to `TimerLoopTiming::run`. -/
def Loop.name : Loop → String
  | .loop100Hz => "Loop100Hz"
  | .loop10Hz => "Loop10Hz"
  | .loop1Hz => "Loop1Hz"
  | .loop01Hz => "Loop01Hz"
  | .loop001Hz => "Loop001Hz"
  | .loop1 => "Loop1"
  | .loop2 => "Loop2"
  | .loop3 => "Loop3"

/-- `m_loop1Rate`, `m_loop2Rate` and `m_loop3Rate`. -/
structure UserRates where
  loop1 : Rat
  loop2 : Rat
  loop3 : Rat

/-- The rate a callback passes to `TimerLoopTiming::run`. -/
def Loop.rate (rates : UserRates) : Loop → Rat
  | .loop100Hz => 100
  | .loop10Hz => 10
  | .loop1Hz => 1
  | .loop01Hz => 1 / 10
  | .loop001Hz => 1 / 100
  | .loop1 => rates.loop1
  | .loop2 => rates.loop2
  | .loop3 => rates.loop3

/-- What user code sets through `setDiagnostics` and `setReadyToArm`. -/
structure UserData where
  diagnostics : List Diagnostic
  systemID : Nat
  subsystemID : Nat
  processID : Nat
  readyToArm : Bool
  deriving DecidableEq, Repr

/-- The members of a base node that its timer callbacks use. -/
structure Timing where
  loopOk : Loop → Bool
  timingDiagnostic : Diagnostic
  user : UserData

/-- The published messages, without their timestamp and node name. -/
inductive Message where
  | diagnostic (d : Diagnostic)
  | readyToArm (systemID subsystemID processID : Nat) (readyToArm : Bool)
  deriving DecidableEq, Repr

/-- The members as the constructor leaves them. -/
def Timing.initial : Timing where
  loopOk _ := true
  timingDiagnostic :=
    { systemID := 0, subsystemID := 0, processID := 0, diagnosticType := .timing, level := .info,
      diagnosticMessage := .initializing, description := "Initializing Diagnostic" }
  user := { diagnostics := [], systemID := 0, subsystemID := 0, processID := 0, readyToArm := false }

/-- `std::to_string` of a `double`: six decimals, a tie to the even last digit. The argument is exact here,
where the code divides `double`s, so that the last digit it prints can differ. -/
def toStringDouble (x : Rat) : String :=
  let scaled := |x| * 1000000
  let rounded := if scaled - ⌊scaled⌋ = 1 / 2 then 2 * round (scaled / 2) else round scaled
  let decimals := toString (rounded % 1000000)
  (if x < 0 then "-" else "") ++ toString (rounded / 1000000) ++ "." ++
    String.ofList (List.replicate (6 - decimals.length) '0') ++ decimals

/-- How many of its periods an iteration took: `slowDownRate`. -/
def slowDownRate (rate elapsedSeconds : Rat) : Rat := elapsedSeconds / (1 / rate)

/-- `TimerLoopTiming::run` after its callback has returned. -/
def timerLoopTimingRun (loop : Loop) (rate elapsedSeconds : Rat) (t : Timing) : Timing :=
  if slowDownRate rate elapsedSeconds > 1 then
    { t with
      loopOk := Function.update t.loopOk loop false
      timingDiagnostic := { t.timingDiagnostic with
        level := .warn
        diagnosticMessage := .diagnosticFailed
        description := loop.name ++ " Slow: Rate: " ++
          toStringDouble (slowDownRate rate elapsedSeconds) ++ "X " ++ toStringDouble elapsedSeconds ++
          " (sec) Expected: " ++ toStringDouble (1 / rate) } }
  else { t with loopOk := Function.update t.loopOk loop true }

/-- `m_timingDiagnostic`, as `BaseNode::baseRun1Hz` publishes it. -/
def publishedTimingDiagnostic (t : Timing) : Diagnostic :=
  let ids : Diagnostic := { t.timingDiagnostic with
    systemID := t.user.systemID, subsystemID := t.user.subsystemID, processID := t.user.processID }
  if Loop.all.all t.loopOk then
    { ids with level := .info, diagnosticMessage := .noError, description := "No Loop Timing Issues" }
  else ids

/-- `BaseNode::baseRun1Hz` and what it publishes. -/
def baseRun1Hz (t : Timing) : Timing × List Message :=
  ({ t with timingDiagnostic := publishedTimingDiagnostic t },
    t.user.diagnostics.map .diagnostic ++
      [.diagnostic (publishedTimingDiagnostic t),
       .readyToArm t.user.systemID t.user.subsystemID t.user.processID t.user.readyToArm])

/-- One timer callback: its loop, how long the user's callback takes and what it sets. -/
structure Callback where
  loop : Loop
  elapsedSeconds : Rat
  effect : UserData → UserData

/-- A timer callback of the node: `timer100HzCallback` and its siblings. Only the 1 Hz callback does
something with these members before it runs its loop. -/
def timerCallback (rates : UserRates) (t : Timing) (c : Callback) : Timing :=
  let t := if c.loop = .loop1Hz then (baseRun1Hz t).1 else t
  timerLoopTimingRun c.loop (c.loop.rate rates) c.elapsedSeconds { t with user := c.effect t.user }

/-! ## The flags after a run -/

/-- The iteration took longer than the period of its loop. -/
def overran (rates : UserRates) (c : Callback) : Bool :=
  slowDownRate (c.loop.rate rates) c.elapsedSeconds > 1

/-- Whether the last iteration of a loop overran. -/
def lastOverran (rates : UserRates) (past : List Callback) (l : Loop) : Option Bool :=
  lastSome (fun c => if c.loop = l then some (overran rates c) else none) past

/-- A flag is lowered exactly by an overrun of the loop's last iteration, and while one is lowered
the diagnostic is a failed one. -/
structure Flags (rates : UserRates) (past : List Callback) (t : Timing) : Prop where
  loopOk : ∀ l, t.loopOk l = false ↔ lastOverran rates past l = some true
  failed : (∃ l, t.loopOk l = false) →
    t.timingDiagnostic.level = .warn ∧ t.timingDiagnostic.diagnosticMessage = .diagnosticFailed

theorem mem_all (l : Loop) : l ∈ Loop.all := by
  cases l <;> decide

theorem all_loopOk {t : Timing} : Loop.all.all t.loopOk = true ↔ ∀ l, t.loopOk l = true := by
  rw [List.all_eq_true]
  exact ⟨fun h l => h l (mem_all l), fun h l _ => h l⟩

theorem lastOverran_concat (rates : UserRates) (past : List Callback) (c : Callback) (l : Loop) :
    lastOverran rates (past ++ [c]) l =
      if c.loop = l then some (overran rates c) else lastOverran rates past l := by
  unfold lastOverran
  rw [lastSome_concat]
  split_ifs <;> rfl

/-- While a flag is lowered, the diagnostic is published as the last overrun has written it. -/
theorem published_of_lowered {t : Timing} {l : Loop} (hl : t.loopOk l = false) :
    publishedTimingDiagnostic t = { t.timingDiagnostic with
      systemID := t.user.systemID, subsystemID := t.user.subsystemID, processID := t.user.processID } := by
  unfold publishedTimingDiagnostic
  rw [if_neg]
  rw [all_loopOk]
  intro hall
  exact absurd ((hall l).symm.trans hl) (by decide)

theorem lowered_of_not_all {t : Timing} (h : ¬ Loop.all.all t.loopOk = true) :
    ∃ l, t.loopOk l = false := by
  rw [all_loopOk] at h
  push Not at h
  obtain ⟨l, hl⟩ := h
  exact ⟨l, eq_false_of_ne_true hl⟩

theorem lowered_of_update {t : Timing} {loop l : Loop}
    (hl : Function.update t.loopOk loop true l = false) : t.loopOk l = false := by
  have hne : l ≠ loop := by
    rintro rfl
    simp at hl
  rwa [Function.update_of_ne hne] at hl

theorem Flags.baseRun1Hz {rates : UserRates} {past : List Callback} {t : Timing}
    (h : Flags rates past t) : Flags rates past (baseRun1Hz t).1 := by
  refine ⟨h.loopOk, ?_⟩
  rintro ⟨l, hl⟩
  change t.loopOk l = false at hl
  show (publishedTimingDiagnostic t).level = .warn ∧
    (publishedTimingDiagnostic t).diagnosticMessage = .diagnosticFailed
  rw [published_of_lowered hl]
  exact h.failed ⟨l, hl⟩

theorem Flags.timerLoopTimingRun {rates : UserRates} {past : List Callback} {t : Timing}
    (h : Flags rates past t) (c : Callback) (user : UserData) :
    Flags rates (past ++ [c])
      (timerLoopTimingRun c.loop (c.loop.rate rates) c.elapsedSeconds { t with user := user }) := by
  have hover : overran rates c = decide (slowDownRate (c.loop.rate rates) c.elapsedSeconds > 1) := rfl
  unfold BaseNode.timerLoopTimingRun
  by_cases hslow : slowDownRate (c.loop.rate rates) c.elapsedSeconds > 1
  · rw [if_pos hslow]
    refine ⟨fun l => ?_, fun _ => ⟨rfl, rfl⟩⟩
    rw [lastOverran_concat, hover, decide_eq_true hslow]
    by_cases hl : c.loop = l
    · subst hl
      simp
    · rw [if_neg hl, ← h.loopOk l]
      show Function.update t.loopOk c.loop false l = false ↔ _
      rw [Function.update_of_ne (Ne.symm hl)]
  · rw [if_neg hslow]
    refine ⟨fun l => ?_, fun ⟨l, hl⟩ => h.failed ⟨l, lowered_of_update hl⟩⟩
    rw [lastOverran_concat, hover, decide_eq_false hslow]
    by_cases hl : c.loop = l
    · subst hl
      simp
    · rw [if_neg hl, ← h.loopOk l]
      show Function.update t.loopOk c.loop true l = false ↔ _
      rw [Function.update_of_ne (Ne.symm hl)]

theorem flags_run (rates : UserRates) (past : List Callback) :
    Flags rates past (run (timerCallback rates) Timing.initial past) := by
  apply run_invariant
  · refine ⟨fun l => ?_, fun hex => ?_⟩
    · show true = false ↔ lastSome _ [] = some true
      simp
    · obtain ⟨l, hl⟩ := hex
      exact absurd hl (by show ¬ true = false; decide)
  · intro past t c h
    unfold timerCallback
    split_ifs
    · exact h.baseRun1Hz.timerLoopTimingRun c _
    · exact h.timerLoopTimingRun c _

/-! ## The published diagnostic -/

/-- The timing diagnostic `baseRun1Hz` publishes, after the user's diagnostics, is a failed one. -/
def PublishesFailed (t : Timing) : Prop :=
  ∃ d ready, (baseRun1Hz t).2 = t.user.diagnostics.map .diagnostic ++ [.diagnostic d, ready] ∧
    d.diagnosticMessage = .diagnosticFailed

theorem published_eq {t : Timing} {d : Diagnostic} {ready : Message}
    (h : (baseRun1Hz t).2 = t.user.diagnostics.map .diagnostic ++ [.diagnostic d, ready]) :
    d = publishedTimingDiagnostic t := by
  have htail := List.append_cancel_left h
  rw [List.cons.injEq, Message.diagnostic.injEq] at htail
  exact htail.1.symm

theorem publishesFailed_iff {rates : UserRates} {past : List Callback} {t : Timing}
    (h : Flags rates past t) : PublishesFailed t ↔ ∃ l, lastOverran rates past l = some true := by
  have hd : PublishesFailed t ↔
      (publishedTimingDiagnostic t).diagnosticMessage = .diagnosticFailed := by
    constructor
    · rintro ⟨d, ready, hmessages, hfailed⟩
      rw [← published_eq hmessages]
      exact hfailed
    · intro hfailed
      exact ⟨_, _, rfl, hfailed⟩
  rw [hd]
  constructor
  · intro hfailed
    have hall : ¬ Loop.all.all t.loopOk = true := by
      intro hall
      unfold publishedTimingDiagnostic at hfailed
      rw [if_pos hall] at hfailed
      exact absurd hfailed (by simp)
    obtain ⟨l, hl⟩ := lowered_of_not_all hall
    exact ⟨l, (h.loopOk l).mp hl⟩
  · rintro ⟨l, hl⟩
    have hlow := (h.loopOk l).mpr hl
    rw [published_of_lowered hlow]
    exact (h.failed ⟨l, hlow⟩).2

/-- Whenever the 1 Hz callback comes after an overrun since the previous one, it publishes a failed
timing diagnostic. The window starts with the previous 1 Hz callback itself: its own loop runs after
its publication. -/
def OverrunsReported (rates : UserRates) (callbacks : List Callback) : Prop :=
  ∀ past c future, callbacks = past ++ c :: future → c.loop = .loop1Hz →
    (∃ i ∈ fromLast (·.loop = .loop1Hz) past, overran rates i) →
    PublishesFailed (run (timerCallback rates) Timing.initial past)

/-- Whenever the 1 Hz callback comes after an overrun since the previous one, some loop has not been
on time since it last overran. -/
def OverrunsPersist (rates : UserRates) (callbacks : List Callback) : Prop :=
  ∀ past c future, callbacks = past ++ c :: future → c.loop = .loop1Hz →
    (∃ i ∈ fromLast (·.loop = .loop1Hz) past, overran rates i) →
    ∃ l, lastOverran rates past l = some true

/-- **Overrun reporting.** Every overrun of a run is reported by the next publication exactly if each
publication that has one to report finds a loop whose last iteration overran. -/
theorem overruns_reported_iff (rates : UserRates) (callbacks : List Callback) :
    OverrunsReported rates callbacks ↔ OverrunsPersist rates callbacks := by
  have hpast : ∀ past, PublishesFailed (run (timerCallback rates) Timing.initial past) ↔
      ∃ l, lastOverran rates past l = some true := fun past => publishesFailed_iff (flags_run rates past)
  constructor
  · intro h past c future hsplit hc hover
    exact (hpast past).mp (h past c future hsplit hc hover)
  · intro h past c future hsplit hc hover
    exact (hpast past).mpr (h past c future hsplit hc hover)

/-- An iteration of the 10 Hz loop takes 200 ms and the next one 10 ms; then the 1 Hz callback comes. -/
def recoveredOverrun : List Callback :=
  [⟨.loop10Hz, 1 / 5, id⟩, ⟨.loop10Hz, 1 / 100, id⟩, ⟨.loop1Hz, 0, id⟩]

/-- The overrun is not reported. -/
theorem recoveredOverrun_unreported : ¬ OverrunsReported ⟨-1, -1, -1⟩ recoveredOverrun := by
  intro h
  have hfailed := h [⟨.loop10Hz, 1 / 5, id⟩, ⟨.loop10Hz, 1 / 100, id⟩] ⟨.loop1Hz, 0, id⟩ [] rfl rfl
    ⟨⟨.loop10Hz, 1 / 5, id⟩, by simp [fromLast], by decide +kernel⟩
  obtain ⟨l, hl⟩ := (publishesFailed_iff (flags_run _ _)).mp hfailed
  revert hl
  cases l <;> decide +kernel

end BaseNode
