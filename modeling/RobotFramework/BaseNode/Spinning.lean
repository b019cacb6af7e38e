import RobotFramework.BaseNode.Stages
import RobotFramework.BaseNode.TimingReports

/-!
# The main program of a base node

`main` calls `init` and `start` and leaves if one of them fails. Then the node spins: its active timers
fire one at a time, and the derived node may call `reset` at any time. A callback of the 10 Hz timer
publishes a heartbeat with the state of the node, one of the 1 Hz timer the diagnostics and the ready-to-arm
message. A failed `reset` cancels the timers, so whatever a spinning node publishes, it publishes in
`STATE_RUNNING` (`Program.Valid.step`).
-/

namespace BaseNode

open History

/-! ## The code -/

/-- Where `main` is. -/
inductive MainStage where
  | constructed
  | initialized
  | spinning
  | exited
  deriving DecidableEq, Repr

/-- The program: the node with what user code has set, and the members of its timer callbacks. -/
structure Program where
  stage : MainStage
  node : Node UserData
  loopOk : Loop → Bool
  timingDiagnostic : Diagnostic

/-- The members that the timer callbacks use. -/
def Program.timing (q : Program) : Timing where
  loopOk := q.loopOk
  timingDiagnostic := q.timingDiagnostic
  user := q.node.user

/-- The program with a constructed node. -/
def Program.initial : Program where
  stage := .constructed
  node := .initial Timing.initial.user
  loopOk := Timing.initial.loopOk
  timingDiagnostic := Timing.initial.timingDiagnostic

/-- What the program publishes. -/
inductive Publication where
  | heartbeat (nodeState : NodeState)
  | message (m : Message)
  deriving DecidableEq, Repr

/-- What `timer10HzCallback` and `timer1HzCallback` publish before they run the loop of the user. -/
def Program.published (q : Program) : Loop → List Publication
  | .loop10Hz => [.heartbeat q.node.nodeState]
  | .loop1Hz => (baseRun1Hz q.timing).2.map .message
  | _ => []

/-- What happens next in the program, with what the hooks and the callbacks of the derived node do. -/
inductive MainEvent where
  | init (hooks : InitHooks UserData)
  | start
  | reset (initDiagnostics initData : Hook UserData)
  | fire (c : Callback)

/-- A call of `main`, which goes on only if it returns `true`. -/
def Program.mainCall (q : Program) (op : Op UserData) (next : MainStage) : Program :=
  let (result, node) := op q.node
  { q with
    stage := if result = .returned true then next else .exited
    node := node }

/-- A call from user code; an exception ends the program. -/
def Program.userCall (q : Program) (op : Op UserData) : Program :=
  let (result, node) := op q.node
  { q with
    stage := match result with
      | .returned _ => q.stage
      | .threw _ => .exited
    node := node }

def Program.callback (q : Program) (c : Callback) : Program :=
  let t := timerCallback q.node.loopRates q.timing c
  { q with
    node := { q.node with user := t.user }
    loopOk := t.loopOk
    timingDiagnostic := t.timingDiagnostic }

/-- The program after an event and what it publishes; what cannot happen changes nothing. -/
def Program.step (p : Parameters) (q : Program) : MainEvent → Program × List Publication
  | .init hooks =>
    if q.stage = .constructed then (q.mainCall (BaseNode.init p hooks) .initialized, []) else (q, [])
  | .start => if q.stage = .initialized then (q.mainCall (BaseNode.start p) .spinning, []) else (q, [])
  | .reset initDiagnostics initData =>
    if q.stage = .spinning then (q.userCall (BaseNode.reset initDiagnostics initData), []) else (q, [])
  | .fire c =>
    if q.stage = .spinning ∧ q.node.timers c.loop = some .active then (q.callback c, q.published c.loop)
    else (q, [])

/-! ## The states of the program -/

/-- All timers that the node has are in one state. -/
def AllTimers (timer : Timer) (s : Node UserData) : Prop := ∀ l t, s.timers l = some t → t = timer

/-- A spinning node runs with all its timers, or it is starting without any of them. -/
structure Spins (s : Node UserData) : Prop where
  timers : HasTimers s
  state : (s.nodeState = .running ∧ AllTimers .active s) ∨ (s.nodeState = .starting ∧ AllTimers .cancelled s)

/-- What holds of the program at each stage. -/
def Program.Valid (q : Program) : Prop :=
  match q.stage with
  | .constructed => ∃ user, q.node = .initial user
  | .initialized => Unfinished q.node
  | .spinning => Spins q.node
  | .exited => True

/-! ## What an event keeps -/

theorem keeps_allTimers_of_eq {timer : Timer} {op : Op UserData} (h : ∀ s, (op s).2.timers = s.timers) :
    Keeps (AllTimers timer) op := by
  intro s hs
  unfold AllTimers
  rw [h s]
  exact hs

theorem start_allTimers (p : Parameters) {s : Node UserData} (hs : AllTimers .active s) :
    AllTimers .active (start p s).2 := by
  have hcreate (l : Loop) : Keeps (AllTimers .active) (createTimer (σ := UserData) l) := by
    intro s hs k t hk
    by_cases hkl : k = l
    · subst hkl
      simpa [createTimer, modify, eq_comm] using hk
    · exact hs k t (by simpa [createTimer, modify, hkl] using hk)
  have huser (l : Loop) (rate : Rat) : Keeps (AllTimers .active) (createUserTimer (σ := UserData) l rate) := by
    by_cases hrate : rate ≤ 0
    · exact keeps_allTimers_of_eq fun s => by simp [createUserTimer, modify, hrate]
    · intro s hs
      have hsame : createUserTimer l rate s = createTimer l s := by
        simp [createUserTimer, createTimer, modify, hrate]
      rw [hsame]
      exact hcreate l s hs
  have hrequest (state : NodeState) :
      Keeps (AllTimers .active) (requestNodeStateChange (σ := UserData) state false) :=
    keeps_allTimers_of_eq fun s => by
      unfold requestNodeStateChange
      split_ifs <;> rfl
  have hdeclare (name : String) : Keeps (AllTimers .active) (declareParameter (σ := UserData) name) :=
    keeps_allTimers_of_eq fun s => by
      unfold declareParameter
      split_ifs <;> rfl
  refine Keeps.runSteps ?_ s hs
  simp only [fixedLoops, List.map_cons, List.map_nil, List.cons_append, List.nil_append,
    List.forall_mem_cons, List.not_mem_nil, false_imp_iff, implies_true, and_true]
  exact ⟨hrequest _, hcreate _, hcreate _, hcreate _, hcreate _, hcreate _,
    hdeclare _, keeps_allTimers_of_eq fun _ => rfl, huser _ _,
    hdeclare _, keeps_allTimers_of_eq fun _ => rfl, huser _ _,
    hdeclare _, keeps_allTimers_of_eq fun _ => rfl, huser _ _, hrequest _⟩

theorem Spins.restartable {s : Node UserData} (h : Spins s) : Restartable s :=
  h.state.elim (fun hrun => .inr (.inr hrun.1)) fun hstart => .inr (.inl hstart.1)

/-- A reset leaves a spinning node spinning: it runs again, or it has stopped its timers. -/
theorem Spins.reset {s : Node UserData} (h : Spins s) (d e : Hook UserData) :
    Spins (BaseNode.reset d e s).2 ∧ ∃ value, (BaseNode.reset d e s).1 = .returned value := by
  have htimers (t : Timer) : ∀ l ∈ fixedLoops, ((s.timers l).map fun _ => t).isSome := by
    intro l hl
    rw [Option.isSome_map]
    exact h.timers l hl
  have hall (t : Timer) (l : Loop) (x : Timer) (hx : ((s.timers l).map fun _ => t) = some x) : x = t := by
    obtain ⟨_, -, rfl⟩ := Option.map_eq_some_iff.mp hx
    rfl
  rw [reset_eq d e h.restartable h.timers]
  split_ifs
  · exact ⟨⟨htimers _, .inr ⟨rfl, hall _⟩⟩, _, rfl⟩
  · exact ⟨⟨htimers _, .inr ⟨rfl, hall _⟩⟩, _, rfl⟩
  · exact ⟨⟨htimers _, .inl ⟨rfl, hall _⟩⟩, _, rfl⟩

theorem Spins.running {s : Node UserData} (h : Spins s) {l : Loop} (hl : s.timers l = some .active) :
    s.nodeState = .running := by
  rcases h.state with ⟨hrun, -⟩ | ⟨-, hall⟩
  · exact hrun
  · have hcancelled := hall l .active hl
    cases hcancelled

/-- The state of the node in a heartbeat. -/
def Publication.state : Publication → Option NodeState
  | .heartbeat nodeState => some nodeState
  | .message _ => none

theorem state_published (q : Program) (l : Loop) :
    ∀ m ∈ q.published l, ∀ state, m.state = some state → state = q.node.nodeState := by
  intro m hm state hstate
  unfold Program.published at hm
  split at hm
  · rw [List.mem_singleton] at hm
    subst hm
    exact (Option.some.inj hstate).symm
  · obtain ⟨x, -, rfl⟩ := List.mem_map.mp hm
    cases hstate
  · cases hm

/-- Every heartbeat among some publications reports `STATE_RUNNING`. -/
def ReportsRunning (published : List Publication) : Prop :=
  ∀ m ∈ published, ∀ state, m.state = some state → state = .running

theorem reportsRunning_nil : ReportsRunning [] := fun _ hm => absurd hm List.not_mem_nil

theorem Program.valid_of_spins {q : Program} (hstage : q.stage = .spinning) (h : Spins q.node) : q.Valid := by
  unfold Program.Valid
  rw [hstage]
  exact h

theorem Program.Valid.spins {q : Program} (h : q.Valid) (hstage : q.stage = .spinning) : Spins q.node := by
  unfold Program.Valid at h
  rw [hstage] at h
  exact h

theorem Program.valid_mainCall {q : Program} {op : Op UserData} {next : MainStage}
    (h : Program.Valid { q with stage := next, node := (op q.node).2 }) :
    (q.mainCall op next).Valid := by
  unfold Program.mainCall
  dsimp only
  split_ifs
  · exact h
  · exact trivial

theorem Program.Valid.step (p : Parameters) {q : Program} (h : q.Valid) (e : MainEvent) :
    (q.step p e).1.Valid ∧ ReportsRunning (q.step p e).2 := by
  cases e with
  | init hooks =>
    by_cases hstage : q.stage = .constructed
    · have hstep : q.step p (.init hooks) = (q.mainCall (BaseNode.init p hooks) .initialized, []) :=
        if_pos hstage
      rw [hstep]
      refine ⟨Program.valid_mainCall ?_, reportsRunning_nil⟩
      unfold Program.Valid at h
      rw [hstage] at h
      obtain ⟨user, hnode⟩ := h
      rw [hnode]
      exact (init_initial p hooks user).2
    · rw [show q.step p (.init hooks) = (q, []) from if_neg hstage]
      exact ⟨h, reportsRunning_nil⟩
  | start =>
    by_cases hstage : q.stage = .initialized
    · rw [show q.step p .start = (q.mainCall (BaseNode.start p) .spinning, []) from if_pos hstage]
      refine ⟨Program.valid_mainCall (Program.valid_of_spins rfl ?_), reportsRunning_nil⟩
      unfold Program.Valid at h
      rw [hstage] at h
      obtain ⟨-, hrunning, -, htimers⟩ := start_unfinished p h
      exact ⟨htimers, .inl ⟨hrunning, start_allTimers p fun l t hl => by simp [h.timers l] at hl⟩⟩
    · rw [show q.step p .start = (q, []) from if_neg hstage]
      exact ⟨h, reportsRunning_nil⟩
  | reset d e =>
    by_cases hstage : q.stage = .spinning
    · rw [show q.step p (.reset d e) = (q.userCall (BaseNode.reset d e), []) from if_pos hstage]
      obtain ⟨hspins, value, hvalue⟩ := (h.spins hstage).reset d e
      refine ⟨Program.valid_of_spins ?_ hspins, reportsRunning_nil⟩
      unfold Program.userCall
      dsimp only
      rw [hvalue]
      exact hstage
    · rw [show q.step p (.reset d e) = (q, []) from if_neg hstage]
      exact ⟨h, reportsRunning_nil⟩
  | fire c =>
    by_cases hfires : q.stage = .spinning ∧ q.node.timers c.loop = some .active
    · rw [show q.step p (.fire c) = (q.callback c, q.published c.loop) from if_pos hfires]
      have hspins := h.spins hfires.1
      refine ⟨Program.valid_of_spins hfires.1 ⟨hspins.timers, hspins.state⟩, fun m hm state hstate => ?_⟩
      exact (state_published q c.loop m hm state hstate).trans (hspins.running hfires.2)
    · rw [show q.step p (.fire c) = (q, []) from if_neg hfires]
      exact ⟨h, reportsRunning_nil⟩

theorem valid_initial : Program.initial.Valid := ⟨_, rfl⟩

/-! ## After a failed reset -/

/-- The program spins with its timers cancelled. -/
def Program.Stopped (q : Program) : Prop := q.stage = .spinning ∧ AllTimers .cancelled q.node

def MainEvent.isReset : MainEvent → Bool
  | .reset _ _ => true
  | _ => false

theorem Program.Stopped.step (p : Parameters) {q : Program} (h : q.Stopped) {e : MainEvent}
    (he : e.isReset = false) : q.step p e = (q, []) := by
  cases e with
  | init hooks => exact if_neg (by rw [h.1]; decide)
  | start => exact if_neg (by rw [h.1]; decide)
  | reset d e => cases he
  | fire c =>
    refine if_neg fun hfires => ?_
    have hcancelled := h.2 c.loop .active hfires.2
    cases hcancelled

theorem Program.Valid.stopped {q : Program} (h : q.Valid) (hstage : q.stage = .spinning)
    (hstate : q.node.nodeState ≠ .running) : q.Stopped := by
  rcases (h.spins hstage).state with ⟨hrun, -⟩ | ⟨-, hcancelled⟩
  · exact absurd hrun hstate
  · exact ⟨hstage, hcancelled⟩

end BaseNode
