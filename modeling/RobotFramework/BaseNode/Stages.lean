import RobotFramework.BaseNode.Initialization

/-!
# The order of calls

What a call returns depends only on the stage the earlier calls have brought the node to: no `init` yet,
an `init` that nothing followed, or a `start` after it (`op_refines`). A `reset` before the `start` calls
through a null timer, a repeated `init` or `start` declares a parameter again; from the `start` on a
`reset` either restarts all timers or leaves all of them cancelled.
-/

namespace BaseNode

open History

variable {σ : Type}

/-! ## Nodes that have been started -/

/-- A node that `start` has got through its first state request. -/
structure Operational (s : Node σ) : Prop where
  nodeState : s.nodeState = .starting ∨ s.nodeState = .running
  timers : HasTimers s
  declared : "loop1_rate" ∈ s.declared

theorem Operational.restartable {s : Node σ} (hs : Operational s) : Restartable s := .inr hs.nodeState

theorem Operational.init {s : Node σ} (hs : Operational s) (p : Parameters) (h : InitHooks σ) :
    BaseNode.init p h s = (.returned false, s) := by
  have hrefused : requestNodeStateChange .initializing false s = (.returned false, s) := by
    unfold requestNodeStateChange
    rcases hs.nodeState with hstate | hstate
    · rw [hstate]
      rfl
    · rw [hstate]
      rfl
  exact runSteps_cons_of_stop hrefused (by simp) _

/-- A repeated `start` creates the timers again and stops at the first parameter. -/
theorem Operational.start {s : Node σ} (hs : Operational s) (p : Parameters) :
    (BaseNode.start p s).1 = .threw .parameterAlreadyDeclared ∧ Operational (BaseNode.start p s).2 := by
  have hrequest := requestNodeStateChange_starting hs.restartable
  have hdeclared := hs.declared
  have hstart : BaseNode.start p s = (.threw .parameterAlreadyDeclared, { s with
      nodeState := .starting
      timers := fixedLoops.foldl (fun timers l => Function.update timers l (some .active)) s.timers }) := by
    unfold BaseNode.start
    rw [List.cons_append, runSteps_cons_of_true hrequest]
    simp [fixedLoops, runSteps, modify, createTimer, declareParameter, hdeclared]
  rw [hstart]
  refine ⟨rfl, .inl rfl, ?_, hdeclared⟩
  intro l hl
  simp only [fixedLoops, List.mem_cons, List.not_mem_nil, or_false] at hl
  rcases hl with rfl | rfl | rfl | rfl | rfl <;> simp [fixedLoops]

theorem Operational.reset {s : Node σ} (hs : Operational s) (d e : Hook σ) :
    (BaseNode.reset d e s).1 = .returned (d.succeeds && e.succeeds) ∧
      Operational (BaseNode.reset d e s).2 := by
  have htimers (t : Timer) : ∀ l ∈ fixedLoops, ((s.timers l).map fun _ => t).isSome := by
    intro l hl
    rw [Option.isSome_map]
    exact hs.timers l hl
  rw [reset_eq d e hs.restartable hs.timers]
  cases hd : d.succeeds with
  | false => exact ⟨rfl, .inl rfl, htimers _, hs.declared⟩
  | true =>
    cases he : e.succeeds with
    | false => exact ⟨rfl, .inl rfl, htimers _, hs.declared⟩
    | true => exact ⟨rfl, .inr rfl, htimers _, hs.declared⟩

theorem operational_of_unfinished (p : Parameters) {s : Node σ} (hs : Unfinished s) :
    (start p s).1 = .returned true ∧ Operational (start p s).2 := by
  obtain ⟨hresult, hstate, -, htimers⟩ := start_unfinished p hs
  refine ⟨hresult, .inr hstate, htimers, ?_⟩
  refine runSteps_establishes (P := fun t => "loop1_rate" ∈ t.declared)
    (declareParameter_declares "loop1_rate") ?_ _ hresult
  simp only [List.forall_mem_cons, List.not_mem_nil, false_imp_iff, implies_true, and_true]
  have hkeeps {op : Op σ} (hop : ∀ s, (op s).2.declared = s.declared) :=
    keeps_of_declared_eq "loop1_rate" hop
  exact ⟨hkeeps fun _ => rfl, hkeeps fun _ => rfl, declareParameter_keeps _ _, hkeeps fun _ => rfl,
    hkeeps fun _ => rfl, declareParameter_keeps _ _, hkeeps fun _ => rfl, hkeeps fun _ => rfl,
    hkeeps (requestNodeStateChange_declared _ _)⟩

/-! ## Stages -/

/-- What the calls so far have brought a node to. -/
inductive Stage where
  /-- No `init` yet. -/
  | fresh
  /-- An `init`, and no `start` or `reset` since. -/
  | initializing
  /-- A `start` after an `init`. -/
  | started
  /-- A `reset` of a node without timers. -/
  | crashed
  deriving DecidableEq

def Stage.step : Stage → Call σ → Stage
  | .fresh, .init _ => .initializing
  | .initializing, .start => .started
  | .initializing, .reset _ _ => .crashed
  | stage, _ => stage

/-- What a call returns in each stage; none is made after a crash. -/
def Stage.result (p : Parameters) : Stage → Call σ → Result
  | .fresh, .init hooks => .returned (hooks.succeed p)
  | .initializing, .init _ => .threw .parameterAlreadyDeclared
  | .initializing, .start => .returned true
  | .initializing, .reset _ _ => .threw .nullTimer
  | .started, .start => .threw .parameterAlreadyDeclared
  | .started, .reset d e => .returned (d.succeeds && e.succeeds)
  | _, _ => .returned false

/-- What a node is in each stage. -/
def Stage.OfNode : Stage → Node σ → Prop
  | .fresh, s => ∃ user, s = .initial user
  | .initializing, s => Unfinished s
  | .started, s => Operational s
  | .crashed, _ => True

theorem op_refines (p : Parameters) {stage : Stage} {s : Node σ} (h : stage.OfNode s) (c : Call σ)
    (halive : stage ≠ .crashed) :
    (c.op p s).1 = stage.result p c ∧ (stage.step c).OfNode (c.op p s).2 := by
  cases stage with
  | fresh =>
    obtain ⟨user, rfl⟩ := h
    cases c with
    | init hooks => exact init_initial p hooks user
    | start => exact ⟨rfl, user, rfl⟩
    | reset d e => exact ⟨rfl, user, rfl⟩
  | initializing =>
    cases c with
    | init hooks =>
      show (init p hooks s).1 = _ ∧ Unfinished (init p hooks s).2
      rw [init_unfinished p hooks h]
      exact ⟨rfl, h⟩
    | start => exact operational_of_unfinished p h
    | reset d e => exact ⟨(reset_unfinished d e h).1, trivial⟩
  | started =>
    cases c with
    | init hooks =>
      show (init p hooks s).1 = _ ∧ Operational (init p hooks s).2
      rw [Operational.init h p hooks]
      exact ⟨rfl, h⟩
    | start => exact Operational.start h p
    | reset d e => exact Operational.reset h d e
  | crashed => exact absurd rfl halive

theorem Stage.result_nullTimer (p : Parameters) {stage : Stage} (halive : stage ≠ .crashed)
    (c : Call σ) : stage.result p c = .threw .nullTimer ↔ stage.step c = .crashed := by
  cases stage with
  | fresh => cases c <;> simp [Stage.result, Stage.step]
  | initializing => cases c <;> simp [Stage.result, Stage.step]
  | started => cases c <;> simp [Stage.result, Stage.step]
  | crashed => exact absurd rfl halive

theorem Stage.step_start {p : Parameters} {stage : Stage}
    (h : stage.result p (.start : Call σ) = .returned true) : stage.step (.start : Call σ) = .started := by
  cases stage with
  | initializing => rfl
  | fresh => exact absurd h (by simp [Stage.result])
  | started => exact absurd h (by simp [Stage.result])
  | crashed => exact absurd h (by simp [Stage.result])

/-- What a process is in each stage. -/
structure Stage.Holds (stage : Stage) (q : Process σ) : Prop where
  node : stage.OfNode q.node
  crashed : q.crashed = true ↔ stage = .crashed
  started : (.start, .returned true) ∈ q.log → stage = .started

theorem stage_step (p : Parameters) {stage : Stage} {q : Process σ} (h : stage.Holds q) (c : Call σ) :
    (stage.step c).Holds (q.step p c) := by
  by_cases hstage : stage = .crashed
  · unfold Process.step
    rw [if_pos (h.crashed.mpr hstage)]
    subst hstage
    exact h
  · have halive : q.crashed = false := by
      rw [← Bool.not_eq_true, h.crashed]
      exact hstage
    obtain ⟨hresult, hnode⟩ := op_refines p h.node c hstage
    rw [step_of_alive p halive, hresult]
    refine ⟨hnode, ?_, fun hmem => ?_⟩
    · rw [crashed_concat _ _ _ _ halive, decide_eq_true_iff]
      exact Stage.result_nullTimer p hstage c
    · rcases List.mem_append.mp hmem with hold | hnew
      · rw [h.started hold]
        cases c <;> rfl
      · obtain ⟨rfl, hreturned⟩ := Prod.mk.inj (List.mem_singleton.mp hnew)
        exact Stage.step_start hreturned.symm

theorem stage_run (p : Parameters) (user : σ) (calls : List (Call σ)) :
    (run Stage.step .fresh calls).Holds (run (Process.step p) (.initial user) calls) := by
  apply run_invariant (I := fun past q => (run Stage.step .fresh past).Holds q)
  · exact ⟨⟨user, rfl⟩, ⟨Bool.noConfusion, Stage.noConfusion⟩, fun hmem => absurd hmem List.not_mem_nil⟩
  · intro past q c h
    rw [run_concat]
    exact stage_step p h c

/-! ## The calls of each stage -/

/-- An `init` has been called, and a `start` after it. -/
def StartedAfterInit (past : List (Call σ)) : Prop :=
  ∃ before later, past = before ++ .start :: later ∧ ∃ hooks, .init hooks ∈ before

/-- No `reset` between the first `init` and the first `start` after it. -/
def ResetAfterStart (past : List (Call σ)) (c : Call σ) : Prop :=
  ∀ d e, c = .reset d e → (∃ hooks, .init hooks ∈ past) → StartedAfterInit past

theorem startedAfterInit_concat {past : List (Call σ)} {c : Call σ} :
    StartedAfterInit (past ++ [c]) ↔
      StartedAfterInit past ∨ (c = .start ∧ ∃ hooks, .init hooks ∈ past) := by
  constructor
  · rintro ⟨before, later, hsplit, hinit⟩
    rcases split_concat hsplit with ⟨rfl, rfl, -⟩ | ⟨later, -, rfl⟩
    · exact .inr ⟨rfl, hinit⟩
    · exact .inl ⟨before, later, rfl, hinit⟩
  · rintro (⟨before, later, rfl, hinit⟩ | ⟨rfl, hinit⟩)
    · exact ⟨before, later ++ [c], by simp, hinit⟩
    · exact ⟨past, [], rfl, hinit⟩

/-- Which calls have led to a stage. -/
def Stage.Calls (past : List (Call σ)) : Stage → Prop
  | .fresh => Every ResetAfterStart past ∧ ∀ hooks, .init hooks ∉ past
  | .initializing =>
    Every ResetAfterStart past ∧ (∃ hooks, .init hooks ∈ past) ∧ ¬ StartedAfterInit past
  | .started => Every ResetAfterStart past ∧ StartedAfterInit past
  | .crashed => ¬ Every ResetAfterStart past

theorem StartedAfterInit.init {past : List (Call σ)} (h : StartedAfterInit past) :
    ∃ hooks, .init hooks ∈ past := by
  obtain ⟨before, later, rfl, hooks, hmem⟩ := h
  exact ⟨hooks, List.mem_append_left _ hmem⟩

theorem not_startedAfterInit_concat {past : List (Call σ)} {c : Call σ} (h : ¬ StartedAfterInit past)
    (hc : c ≠ .start) : ¬ StartedAfterInit (past ++ [c]) := by
  rw [startedAfterInit_concat]
  rintro (hpast | ⟨rfl, -⟩)
  · exact h hpast
  · exact hc rfl

theorem stage_calls_step {past : List (Call σ)} {stage : Stage} (h : stage.Calls past) (c : Call σ) :
    (stage.step c).Calls (past ++ [c]) := by
  cases stage with
  | fresh =>
    obtain ⟨hevery, hnone⟩ := h
    have hstarted : ¬ StartedAfterInit past := fun hstarted => by
      obtain ⟨hooks, hmem⟩ := hstarted.init
      exact hnone hooks hmem
    have hreset : Every ResetAfterStart (past ++ [c]) :=
      every_concat.mpr ⟨hevery, fun _ _ _ ⟨hooks, hmem⟩ => absurd hmem (hnone hooks)⟩
    cases c with
    | init hooks =>
      exact ⟨hreset, ⟨hooks, by simp⟩, not_startedAfterInit_concat hstarted (by simp)⟩
    | start => exact ⟨hreset, by simpa using hnone⟩
    | reset d e => exact ⟨hreset, by simpa using hnone⟩
  | initializing =>
    obtain ⟨hevery, ⟨hooks, hmem⟩, hstarted⟩ := h
    have hinit : Call.init hooks ∈ past ++ [c] := List.mem_append_left _ hmem
    cases c with
    | init again =>
      have hreset : ResetAfterStart past (.init again) := fun _ _ hc => absurd hc (by simp)
      exact ⟨every_concat.mpr ⟨hevery, hreset⟩, ⟨hooks, hinit⟩,
        not_startedAfterInit_concat hstarted (by simp)⟩
    | start =>
      have hreset : ResetAfterStart past (.start : Call σ) := fun _ _ hc => absurd hc (by simp)
      exact ⟨every_concat.mpr ⟨hevery, hreset⟩,
        startedAfterInit_concat.mpr (.inr ⟨rfl, hooks, hmem⟩)⟩
    | reset d e =>
      intro hreset
      exact hstarted ((every_concat.mp hreset).2 d e rfl ⟨hooks, hmem⟩)
  | started =>
    obtain ⟨hevery, hstarted⟩ := h
    have hnext : Stage.started.step c = .started := by
      cases c <;> rfl
    rw [hnext]
    exact ⟨every_concat.mpr ⟨hevery, fun _ _ _ _ => hstarted⟩,
      startedAfterInit_concat.mpr (.inl hstarted)⟩
  | crashed =>
    intro hevery
    exact h (every_concat.mp hevery).1

theorem stage_calls_run (calls : List (Call σ)) : (run Stage.step .fresh calls).Calls calls := by
  apply run_invariant (I := fun past (stage : Stage) => stage.Calls past)
  · exact ⟨every_nil _, fun _ => List.not_mem_nil⟩
  · exact fun _ _ c h => stage_calls_step h c

/-! ## Null timers -/

/-- A `reset` that gets past its first state request finds its timers, and calls through none that is
null. -/
def Process.ResetFindsTimers (q : Process σ) (c : Call σ) : Prop :=
  q.crashed = false → ∀ d e, c = .reset d e →
    ((requestNodeStateChange .starting false q.node).1 = .returned true → HasTimers q.node) ∧
      (reset d e q.node).1 ≠ .threw .nullTimer

theorem Stage.Holds.alive {stage : Stage} {q : Process σ} (h : stage.Holds q)
    (halive : stage ≠ .crashed) : q.crashed = false := by
  rw [← Bool.not_eq_true, h.crashed]
  exact halive

/-- Only the `reset` of an initialized node that was not started finds no timers. -/
theorem resetFindsTimers_iff {stage : Stage} {q : Process σ} (h : stage.Holds q) (c : Call σ) :
    q.ResetFindsTimers c ↔ ∀ d e, c = .reset d e → stage ≠ .initializing := by
  constructor
  · rintro hfinds d e rfl rfl
    exact (hfinds (h.alive (by simp)) d e rfl).2 (reset_unfinished d e h.node).1
  · rintro hstage halive d e rfl
    have hnot := hstage d e rfl
    cases stage with
    | fresh =>
      obtain ⟨u, hnode⟩ := h.node
      rw [hnode]
      exact ⟨fun hrequest => absurd hrequest (by simp [requestNodeStateChange, stateChangeAllowed,
        Node.initial]), by simp [reset, runSteps, requestNodeStateChange, stateChangeAllowed,
        Node.initial]⟩
    | initializing => exact absurd rfl hnot
    | started =>
      have hoperational : Operational q.node := h.node
      refine ⟨fun _ => hoperational.timers, ?_⟩
      rw [(hoperational.reset d e).1]
      simp
    | crashed =>
      rw [h.crashed.mpr rfl] at halive
      exact absurd halive (by simp)

/-- **Timers of a reset.** In a run every `reset` that is not refused finds its timers if and only if
none comes between the first `init` and the first `start` after it. -/
theorem resets_find_timers_iff (p : Parameters) (user : σ) (calls : List (Call σ)) :
    Every (fun past c => (run (Process.step p) (.initial user) past).ResetFindsTimers c) calls ↔
      Every ResetAfterStart calls := by
  apply Iff.symm
  apply every_congr
  intro past c hpast
  have hcalls := stage_calls_run past
  rw [resetFindsTimers_iff (stage_run p user past)]
  cases hstage : run Stage.step .fresh past with
  | fresh =>
    rw [hstage] at hcalls
    refine iff_of_true ?_ (fun _ _ _ => by simp)
    rintro d e rfl ⟨hooks, hmem⟩
    exact absurd hmem (hcalls.2 hooks)
  | initializing =>
    rw [hstage] at hcalls
    obtain ⟨-, hinit, hstarted⟩ := hcalls
    constructor
    · intro h d e hc
      exact absurd (h d e hc hinit) hstarted
    · intro h d e hc
      exact absurd rfl (h d e hc)
  | started =>
    rw [hstage] at hcalls
    exact iff_of_true (fun _ _ _ _ => hcalls.2) (fun _ _ _ => by simp)
  | crashed =>
    rw [hstage] at hcalls
    exact absurd hpast hcalls

/-- A call of `init` in which everything succeeds. -/
def succeedingInit : InitHooks Unit where
  loggerInit := true
  baseInitPubSubs := true
  baseInitServices := true
  baseInitDiagnostics := true
  baseInitData := true
  loadConfig := .succeeding
  initPubSubs := .succeeding
  initServices := .succeeding
  initDiagnostics := .succeeding
  initData := .succeeding

/-- `reset` instead of `start` calls through a null timer. -/
theorem reset_before_start :
    ¬ Every (fun past c => (run (Process.step defaultParameters) (.initial ()) past).ResetFindsTimers c)
      [.init succeedingInit, .reset .succeeding .succeeding] := by
  intro h
  have hreset := h [.init succeedingInit] (.reset .succeeding .succeeding) [] rfl rfl
    .succeeding .succeeding rfl
  exact hreset.2 rfl

/-! ## Parameters -/

/-- No parameter that is declared is declared again. -/
def Process.DeclaresOnce (p : Parameters) (q : Process σ) (c : Call σ) : Prop :=
  q.crashed = false → (c.op p q.node).1 ≠ .threw .parameterAlreadyDeclared

/-- Unless a `reset` has come too early, no `init` between the first one and the first `start` after it,
and no second `start` after it. -/
def NotRepeated (past : List (Call σ)) (c : Call σ) : Prop :=
  Every ResetAfterStart past →
    (∀ hooks, c = .init hooks → (∃ hooks, .init hooks ∈ past) → StartedAfterInit past) ∧
      (c = .start → ¬ StartedAfterInit past)

theorem declaresOnce_iff (p : Parameters) {stage : Stage} {q : Process σ} (h : stage.Holds q)
    (c : Call σ) : q.DeclaresOnce p c ↔ stage.result p c ≠ .threw .parameterAlreadyDeclared := by
  unfold Process.DeclaresOnce
  by_cases hstage : stage = .crashed
  · subst hstage
    rw [h.crashed.mpr rfl]
    exact iff_of_true (fun halive => absurd halive (by simp)) (by cases c <;> simp [Stage.result])
  · rw [(op_refines p h.node c hstage).1]
    exact ⟨fun honce => honce (h.alive hstage), fun hresult _ => hresult⟩

/-- **Parameters are declared once.** In a run no parameter is declared a second time if and only if no
`init` or `start` is repeated. -/
theorem declared_once_iff (p : Parameters) (user : σ) (calls : List (Call σ)) :
    Every (fun past c => (run (Process.step p) (.initial user) past).DeclaresOnce p c) calls ↔
      Every NotRepeated calls := by
  apply every_congr
  intro past c _
  have hcalls := stage_calls_run past
  rw [declaresOnce_iff p (stage_run p user past)]
  unfold NotRepeated
  cases hstage : run Stage.step .fresh past with
  | fresh =>
    rw [hstage] at hcalls
    obtain ⟨hevery, hnone⟩ := hcalls
    refine iff_of_true (by cases c <;> simp [Stage.result]) fun _ => ⟨?_, ?_⟩
    · rintro hooks - ⟨first, hmem⟩
      exact absurd hmem (hnone first)
    · rintro - hstarted
      obtain ⟨first, hmem⟩ := hstarted.init
      exact hnone first hmem
  | initializing =>
    rw [hstage] at hcalls
    obtain ⟨hevery, hinit, hstarted⟩ := hcalls
    cases c with
    | init hooks =>
      exact iff_of_false (by simp [Stage.result]) fun h => hstarted ((h hevery).1 hooks rfl hinit)
    | start => exact iff_of_true (by simp [Stage.result]) fun _ => ⟨by simp, fun _ => hstarted⟩
    | reset d e => exact iff_of_true (by simp [Stage.result]) fun _ => ⟨by simp, by simp⟩
  | started =>
    rw [hstage] at hcalls
    obtain ⟨hevery, hstarted⟩ := hcalls
    cases c with
    | init hooks =>
      exact iff_of_true (by simp [Stage.result]) fun _ => ⟨fun _ _ _ => hstarted, by simp⟩
    | start => exact iff_of_false (by simp [Stage.result]) fun h => (h hevery).2 rfl hstarted
    | reset d e => exact iff_of_true (by simp [Stage.result]) fun _ => ⟨by simp, by simp⟩
  | crashed =>
    rw [hstage] at hcalls
    exact iff_of_true (by cases c <;> simp [Stage.result]) fun hevery => absurd hevery hcalls

/-- An `init` that is tried again after it has failed declares its first parameter again. -/
theorem retried_init_redeclares :
    ¬ Every (fun past c =>
        (run (Process.step defaultParameters) (.initial ()) past).DeclaresOnce defaultParameters c)
      [.init failingLoadConfig, .init succeedingInit] := by
  intro h
  exact h [.init failingLoadConfig] (.init succeedingInit) [] rfl rfl rfl

/-! ## Resets of a started node -/

/-- How a `reset` leaves the node: what it returns, the state, and all timers that have been created. -/
structure ResetLeaves (value : Bool) (state : NodeState) (timer : Timer) (r : Result) (s : Node σ) :
    Prop where
  returned : r = .returned value
  nodeState : s.nodeState = state
  timers (l : Loop) (t : Timer) : s.timers l = some t → t = timer

theorem Operational.reset_leaves {s : Node σ} (hs : Operational s) (d e : Hook σ) :
    (ResetLeaves true .running .active (BaseNode.reset d e s).1 (BaseNode.reset d e s).2 ∨
      ResetLeaves false .starting .cancelled (BaseNode.reset d e s).1 (BaseNode.reset d e s).2) ∧
    (d.succeeds = true → e.succeeds = true →
      ResetLeaves true .running .active (BaseNode.reset d e s).1 (BaseNode.reset d e s).2) ∧
    ∀ l, ((BaseNode.reset d e s).2.timers l).isSome = (s.timers l).isSome := by
  have hset (t : Timer) (l : Loop) (x : Timer) (h : ((s.timers l).map fun _ => t) = some x) : x = t := by
    obtain ⟨_, -, rfl⟩ := Option.map_eq_some_iff.mp h
    rfl
  rw [reset_eq d e hs.restartable hs.timers]
  cases hd : d.succeeds with
  | false =>
    exact ⟨.inr ⟨rfl, rfl, hset .cancelled⟩, fun h => Bool.noConfusion h, fun _ => Option.isSome_map⟩
  | true =>
    cases he : e.succeeds with
    | false =>
      exact ⟨.inr ⟨rfl, rfl, hset .cancelled⟩, fun _ h => Bool.noConfusion h, fun _ => Option.isSome_map⟩
    | true =>
      refine ⟨.inl ?_, fun _ _ => ?_, fun _ => Option.isSome_map⟩
      · exact ⟨rfl, rfl, hset .active⟩
      · exact ⟨rfl, rfl, hset .active⟩

theorem started_resets (p : Parameters) {q : Process σ} (h : Stage.started.Holds q)
    (resets : List (Hook σ × Hook σ)) :
    let after := run (Process.step p) q (resets.map fun h => .reset h.1 h.2)
    Stage.started.Holds after ∧ ∀ l, (after.node.timers l).isSome = (q.node.timers l).isSome := by
  induction resets generalizing q with
  | nil => exact ⟨h, fun _ => rfl⟩
  | cons hooks resets ih =>
    have hnode : Operational q.node := h.node
    have hstep : (q.step p (.reset hooks.1 hooks.2)).node = (reset hooks.1 hooks.2 q.node).2 := by
      rw [step_of_alive p (h.alive (by simp))]
      rfl
    obtain ⟨hafter, htimers⟩ := ih (stage_step p h (.reset hooks.1 hooks.2))
    refine ⟨hafter, fun l => (htimers l).trans ?_⟩
    rw [hstep]
    exact (hnode.reset_leaves hooks.1 hooks.2).2.2 l

/-- **Resets.** After every run in which `start` has returned `true` and any number of calls of `reset`, a
further `reset` is called and either returns `true` with the node running and all its timers active, or
returns `false` with the node starting and all its timers cancelled; the former if its hooks succeed. It
leaves no timer out and creates none. -/
theorem reset_recoverable (p : Parameters) (user : σ) (calls : List (Call σ))
    (hstart : (.start, .returned true) ∈ (run (Process.step p) (.initial user) calls).log)
    (resets : List (Hook σ × Hook σ)) (initDiagnostics initData : Hook σ) :
    let started := run (Process.step p) (.initial user) calls
    let before := run (Process.step p) started (resets.map fun h => .reset h.1 h.2)
    let after := before.step p (.reset initDiagnostics initData)
    ∃ r, after.log = before.log ++ [(.reset initDiagnostics initData, r)] ∧
      (ResetLeaves true .running .active r after.node ∨
        ResetLeaves false .starting .cancelled r after.node) ∧
      (initDiagnostics.succeeds = true → initData.succeeds = true →
        ResetLeaves true .running .active r after.node) ∧
      ∀ l, (after.node.timers l).isSome = (started.node.timers l).isSome := by
  intro started before after
  have hstarted : Stage.started.Holds started := by
    have hrun := stage_run p user calls
    rwa [hrun.started hstart] at hrun
  obtain ⟨hbefore, htimers⟩ := started_resets p hstarted resets
  have hnode : Operational before.node := hbefore.node
  obtain ⟨hleaves, hrestarts, hkept⟩ := hnode.reset_leaves initDiagnostics initData
  have hafter : after =
      { node := (reset initDiagnostics initData before.node).2
        log := before.log ++ [(_, (reset initDiagnostics initData before.node).1)] } :=
    step_of_alive p (hbefore.alive (by simp)) _
  rw [hafter]
  exact ⟨_, rfl, hleaves, hrestarts, fun l => (hkept l).trans (htimers l)⟩

/-- A node with one user loop. -/
def oneLoopParameters : Parameters := ⟨"NOTICE", [], [], ⟨2, -1, -1⟩⟩

/-- A `reset` whose `initDiagnostics` fails is made up for by the next one. -/
theorem failed_reset_recovers :
    ResetLeaves true .running .active (.returned true)
      (run (Process.step oneLoopParameters) (.initial ()) [.init succeedingInit, .start,
        .reset ⟨false, id⟩ .succeeding, .reset .succeeding .succeeding]).node := by
  have hlog : (run (Process.step oneLoopParameters) (.initial ()) [.init succeedingInit, .start]).log =
      [(.init succeedingInit, .returned true), (.start, .returned true)] := rfl
  obtain ⟨r, -, -, hrestarts, -⟩ := reset_recoverable oneLoopParameters () [.init succeedingInit, .start]
    (by rw [hlog]; simp) [(⟨false, id⟩, .succeeding)] .succeeding .succeeding
  have hleaves := hrestarts rfl rfl
  obtain rfl := hleaves.returned
  exact hleaves

end BaseNode
