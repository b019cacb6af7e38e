import RobotFramework.BaseNode.Lifecycle

/-!
# Running without initialization

A failing `init` leaves the node in `STATE_INITIALIZING`, which is all `start` looks at. `Phase` is
what a sequence of calls amounts to before the first successful `init`, and `Phase.Holds` says what
the node is in each phase; the run lemma `holds_run` connects the two.
-/

namespace BaseNode

open History

variable {σ : Type}

/-- Everything a first call of `init` tests succeeds. -/
def InitHooks.succeed (p : Parameters) (h : InitHooks σ) : Bool :=
  (verbosityLevel p.verbosity_level).isSome && h.loggerInit && h.baseInitPubSubs &&
    h.baseInitServices && h.baseInitDiagnostics && h.baseInitData && h.loadConfig.succeeds &&
    h.initPubSubs.succeeds && h.initServices.succeeds && h.initDiagnostics.succeeds &&
    h.initData.succeeds

/-- Some call of `init` has returned `true`. -/
def Process.Initialized (q : Process σ) : Prop :=
  ∃ hooks, (Call.init hooks, Result.returned true) ∈ q.log

/-! ## The calls that matter -/

/-- A node that has been through a failing `init` and nothing else. -/
structure Unfinished (s : Node σ) : Prop where
  nodeState : s.nodeState = .initializing
  verbosity : "verbosity_level" ∈ s.declared
  declared : ∀ name ∈ s.declared, name = "verbosity_level" ∨ name = "robot_namespace" ∨
    name = "node_namespace"
  timers : ∀ l, s.timers l = none

theorem baseLoadConfig_ok (p : Parameters) (loggerInit : Bool) {s : Node σ}
    (hstate : s.nodeState = .initializing) (hdeclared : s.declared = [])
    (htimers : ∀ l, s.timers l = none) :
    (baseLoadConfig p loggerInit s).1 =
        .returned ((verbosityLevel p.verbosity_level).isSome && loggerInit) ∧
      Unfinished (baseLoadConfig p loggerInit s).2 := by
  cases hv : (verbosityLevel p.verbosity_level).isSome with
  | false =>
    simp only [baseLoadConfig, runSteps, declareParameter, check, hdeclared, hv]
    exact ⟨rfl, hstate, by simp, by simp, htimers⟩
  | true =>
    cases loggerInit with
    | false =>
      simp only [baseLoadConfig, runSteps, declareParameter, check, hdeclared, hv]
      exact ⟨rfl, hstate, by simp, by simp, htimers⟩
    | true =>
      simp only [baseLoadConfig, runSteps, declareParameter, check, modify, hdeclared, hv]
      exact ⟨rfl, hstate, by simp, by simp, htimers⟩

theorem keeps_unfinished {op : Op σ} (h : ∀ s, (op s).2.nodeState = s.nodeState ∧
    (op s).2.declared = s.declared ∧ (op s).2.timers = s.timers) : Keeps Unfinished op := by
  intro s hs
  obtain ⟨hstate, hdeclared, htimers⟩ := h s
  exact ⟨hstate.trans hs.nodeState, hdeclared ▸ hs.verbosity, hdeclared ▸ hs.declared,
    htimers ▸ hs.timers⟩

theorem init_initial (p : Parameters) (h : InitHooks σ) (user : σ) :
    (init p h (.initial user)).1 = .returned (h.succeed p) ∧
      Unfinished (init p h (.initial user)).2 := by
  let tests : List (Op σ × Bool) :=
    [(check h.baseInitPubSubs, h.baseInitPubSubs), (check h.baseInitServices, h.baseInitServices),
     (check h.baseInitDiagnostics, h.baseInitDiagnostics), (check h.baseInitData, h.baseInitData),
     (h.loadConfig.call, h.loadConfig.succeeds), (h.initPubSubs.call, h.initPubSubs.succeeds),
     (h.initServices.call, h.initServices.succeeds),
     (h.initDiagnostics.call, h.initDiagnostics.succeeds), (h.initData.call, h.initData.succeeds)]
  have htests : ∀ o ∈ tests, Keeps Unfinished o.1 ∧ ∀ s, (o.1 s).1 = .returned o.2 := by
    intro o ho
    have hcheck : ∀ b, Keeps Unfinished (check b : Op σ) ∧ ∀ s : Node σ, (check b s).1 = .returned b :=
      fun b => ⟨keeps_unfinished fun _ => ⟨rfl, rfl, rfl⟩, fun _ => rfl⟩
    have hhook : ∀ k : Hook σ, Keeps Unfinished k.call ∧ ∀ s, (k.call s).1 = .returned k.succeeds :=
      fun k => ⟨keeps_unfinished fun _ => ⟨rfl, rfl, rfl⟩, fun _ => rfl⟩
    simp only [tests, List.mem_cons, List.not_mem_nil, or_false] at ho
    rcases ho with rfl | rfl | rfl | rfl | rfl | rfl | rfl | rfl | rfl
    · exact hcheck _
    · exact hcheck _
    · exact hcheck _
    · exact hcheck _
    · exact hhook _
    · exact hhook _
    · exact hhook _
    · exact hhook _
    · exact hhook _
  have hrequest : requestNodeStateChange .initializing false (.initial user) =
      (.returned true, { Node.initial user with nodeState := .initializing }) := rfl
  have hconfig := baseLoadConfig_ok p h.loggerInit (s := { Node.initial user with
    nodeState := .initializing }) rfl rfl (fun _ => rfl)
  have hsucceed : h.succeed p = (((verbosityLevel p.verbosity_level).isSome && h.loggerInit) &&
      tests.all Prod.snd) := by
    simp only [InitHooks.succeed, tests, List.all_cons, List.all_nil, Bool.and_true, Bool.and_assoc]
  have hinit : init p h = runSteps (requestNodeStateChange .initializing false ::
      baseLoadConfig p h.loggerInit :: tests.map Prod.fst) := rfl
  rw [hinit, runSteps_cons_of_true hrequest, hsucceed]
  cases hok : ((verbosityLevel p.verbosity_level).isSome && h.loggerInit) with
  | false =>
    rw [hok] at hconfig
    rw [runSteps_cons_of_stop (Prod.ext hconfig.1 rfl) (by simp), Bool.false_and]
    exact ⟨rfl, hconfig.2⟩
  | true =>
    rw [hok] at hconfig
    rw [runSteps_cons_of_true (Prod.ext hconfig.1 rfl), Bool.true_and]
    exact runSteps_outcomes htests _ hconfig.2

theorem baseLoadConfig_user (p : Parameters) (loggerInit : Bool) (s : Node σ) :
    (baseLoadConfig p loggerInit s).2.user = s.user := by
  have hkeeps : Keeps (fun t => t.user = s.user) (baseLoadConfig p loggerInit) := by
    have hdeclare : ∀ name, Keeps (fun t : Node σ => t.user = s.user) (declareParameter name) := by
      intro name t ht
      unfold declareParameter
      split_ifs <;> exact ht
    apply Keeps.runSteps
    simp only [List.forall_mem_cons, List.not_mem_nil, false_imp_iff, implies_true, and_true]
    exact ⟨hdeclare _, fun _ ht => ht, fun _ ht => ht, hdeclare _, fun _ ht => ht, hdeclare _,
      fun _ ht => ht⟩
  exact hkeeps s rfl

theorem init_user (p : Parameters) (h : InitHooks σ) (user : σ)
    (htrue : (init p h (.initial user)).1 = .returned true) :
    (init p h (.initial user)).2.user = h.initData.effect (h.initDiagnostics.effect
      (h.initServices.effect (h.initPubSubs.effect (h.loadConfig.effect user)))) := by
  have huser := baseLoadConfig_user p h.loggerInit
    (requestNodeStateChange .initializing false (.initial user)).2
  unfold init at htrue ⊢
  rw [runSteps_of_true htrue]
  show h.initData.effect (h.initDiagnostics.effect (h.initServices.effect (h.initPubSubs.effect
    (h.loadConfig.effect (baseLoadConfig p h.loggerInit _).2.user)))) = _
  rw [huser]
  rfl

theorem init_user_of_initData (p : Parameters) (h : InitHooks σ) (user : σ)
    (hbefore : { h with initData := ⟨true, h.initData.effect⟩ }.succeed p = true) :
    (init p h (.initial user)).2.user = h.initData.effect (h.initDiagnostics.effect
      (h.initServices.effect (h.initPubSubs.effect (h.loadConfig.effect user)))) := by
  have hsame : (init p h (.initial user)).2 =
      (init p { h with initData := ⟨true, h.initData.effect⟩ } (.initial user)).2 :=
    runSteps_last h.initData.call (Hook.call ⟨true, h.initData.effect⟩) (fun _ => rfl)
      [requestNodeStateChange .initializing false, baseLoadConfig p h.loggerInit,
       check h.baseInitPubSubs, check h.baseInitServices, check h.baseInitDiagnostics,
       check h.baseInitData, h.loadConfig.call, h.initPubSubs.call, h.initServices.call,
       h.initDiagnostics.call] _
  rw [hsame]
  refine init_user p { h with initData := ⟨true, h.initData.effect⟩ } user ?_
  rw [(init_initial p _ user).1, hbefore]

theorem init_user_of_not_loaded (p : Parameters) (h : InitHooks σ) (user : σ)
    (hfails : ((verbosityLevel p.verbosity_level).isSome && h.loggerInit) = false) :
    (init p h (.initial user)).2.user = user := by
  have hrequest : requestNodeStateChange .initializing false (.initial user) =
      (.returned true, { Node.initial user with nodeState := .initializing }) := rfl
  have hconfig := (baseLoadConfig_ok p h.loggerInit (s := { Node.initial user with
    nodeState := .initializing }) rfl rfl (fun _ => rfl)).1
  rw [hfails] at hconfig
  unfold init
  rw [runSteps_cons_of_true hrequest, runSteps_cons_of_stop (Prod.ext hconfig rfl) (by simp)]
  exact baseLoadConfig_user p h.loggerInit _

/-- A second `init` does not return `true`: its first parameter is declared. -/
theorem init_of_declared (p : Parameters) (h : InitHooks σ) {s : Node σ}
    (hs : "verbosity_level" ∈ s.declared) : (init p h s).1 ≠ .returned true := by
  unfold init
  by_cases hrequest : (requestNodeStateChange .initializing false s).1 = .returned true
  · have hdeclared : "verbosity_level" ∈ (requestNodeStateChange .initializing false s).2.declared := by
      rw [requestNodeStateChange_declared]
      exact hs
    have hconfig : baseLoadConfig p h.loggerInit (requestNodeStateChange .initializing false s).2 =
        (.threw .parameterAlreadyDeclared, (requestNodeStateChange .initializing false s).2) := by
      apply runSteps_cons_of_stop _ (by decide)
      unfold declareParameter
      rw [if_pos hdeclared]
    rw [runSteps_cons_of_true (Prod.ext hrequest rfl), runSteps_cons_of_stop hconfig (by decide)]
    simp
  · have hstop : requestNodeStateChange .initializing false s =
        ((requestNodeStateChange .initializing false s).1,
          (requestNodeStateChange .initializing false s).2) := rfl
    rw [runSteps_cons_of_stop hstop hrequest]
    exact hrequest

theorem init_unfinished (p : Parameters) (h : InitHooks σ) {s : Node σ} (hs : Unfinished s) :
    init p h s = (.threw .parameterAlreadyDeclared, s) := by
  have hstate : requestNodeStateChange .initializing false s = (.returned true, s) := by
    unfold requestNodeStateChange
    rw [if_pos hs.nodeState]
  have hconfig : baseLoadConfig p h.loggerInit s = (.threw .parameterAlreadyDeclared, s) := by
    apply runSteps_cons_of_stop _ (by decide)
    unfold declareParameter
    rw [if_pos hs.verbosity]
  unfold init
  rw [runSteps_cons_of_true hstate, runSteps_cons_of_stop hconfig (by decide)]

theorem start_unfinished (p : Parameters) {s : Node σ} (hs : Unfinished s) :
    (start p s).1 = .returned true ∧ (start p s).2.nodeState = .running ∧
      (start p s).2.user = s.user ∧ HasTimers (start p s).2 := by
  have h1 : "loop1_rate" ∉ s.declared := by
    intro h
    have := hs.declared _ h
    revert this
    decide
  have h2 : "loop2_rate" ∉ s.declared := by
    intro h
    have := hs.declared _ h
    revert this
    decide
  have h3 : "loop3_rate" ∉ s.declared := by
    intro h
    have := hs.declared _ h
    revert this
    decide
  simp [start, fixedLoops, HasTimers, runSteps, requestNodeStateChange, stateChangeAllowed,
    hs.nodeState, modify, createTimer, createUserTimer, declareParameter, h1, h2, h3]
  split_ifs <;> simp

/-- `reset` of an unfinished node calls through a null timer. -/
theorem reset_unfinished (d e : Hook σ) {s : Node σ} (hs : Unfinished s) :
    (reset d e s).1 = .threw .nullTimer ∧ (reset d e s).2.nodeState = .starting := by
  simp [reset, fixedLoops, runSteps, requestNodeStateChange, stateChangeAllowed, hs.nodeState,
    setTimer, hs.timers]

/-! ## Phases of a run -/

/-- What a sequence of calls amounts to. -/
inductive Phase where
  /-- No `init` yet. -/
  | fresh
  /-- The first `init` failed, and only calls of `init` followed. -/
  | failed
  /-- A failed `init`, then `reset`. -/
  | crashed
  /-- A failed `init`, then `start`. -/
  | premature
  /-- The first `init` succeeded. -/
  | initialized
  deriving DecidableEq

def Phase.step (p : Parameters) : Phase → Call σ → Phase
  | .fresh, .init h => if h.succeed p then .initialized else .failed
  | .failed, .start => .premature
  | .failed, .reset _ _ => .crashed
  | phase, _ => phase

/-- What a process is in each phase. -/
def Phase.Holds (q : Process σ) : Phase → Prop
  | .fresh => (∃ user, q.node = .initial user) ∧ q.crashed = false ∧ ¬ q.Initialized
  | .failed => Unfinished q.node ∧ q.crashed = false ∧ ¬ q.Initialized
  | .crashed => q.crashed = true ∧ q.node.nodeState = .starting ∧ ¬ q.Initialized
  | .premature => "verbosity_level" ∈ q.node.declared ∧ ¬ q.Initialized
  | .initialized => q.Initialized

theorem step_of_alive (p : Parameters) {q : Process σ} (h : q.crashed = false) (c : Call σ) :
    q.step p c = { node := (c.op p q.node).2, log := q.log ++ [(c, (c.op p q.node).1)] } := by
  unfold Process.step
  rw [if_neg (by simp [h])]

theorem crashed_concat (q : Process σ) (c : Call σ) (r : Result) (s : Node σ)
    (h : q.crashed = false) :
    Process.crashed { node := s, log := q.log ++ [(c, r)] } = decide (r = .threw .nullTimer) := by
  unfold Process.crashed at h ⊢
  rw [List.any_append, h]
  simp

theorem initialized_concat (q : Process σ) (c : Call σ) (r : Result) (s : Node σ)
    (h : ¬ q.Initialized) :
    Process.Initialized { node := s, log := q.log ++ [(c, r)] } ↔
      (∃ hooks, c = .init hooks) ∧ r = .returned true := by
  constructor
  · rintro ⟨hooks, hmem⟩
    rcases List.mem_append.mp hmem with hmem | hmem
    · exact absurd ⟨hooks, hmem⟩ h
    · rw [List.mem_singleton, Prod.mk.injEq] at hmem
      exact ⟨⟨hooks, hmem.1.symm⟩, hmem.2.symm⟩
  · rintro ⟨⟨hooks, rfl⟩, rfl⟩
    exact ⟨hooks, List.mem_append_right _ (List.mem_singleton.mpr rfl)⟩

theorem Initialized.step {p : Parameters} {q : Process σ} (h : q.Initialized) (c : Call σ) :
    (q.step p c).Initialized := by
  unfold Process.step
  split_ifs
  · exact h
  · obtain ⟨hooks, hmem⟩ := h
    exact ⟨hooks, List.mem_append_left _ hmem⟩

theorem refused_initial (p : Parameters) (c : Call σ) (hc : ∀ h, c ≠ .init h) (user : σ) :
    c.op p (.initial user) = (.returned false, .initial user) := by
  cases c with
  | init h => exact absurd rfl (hc h)
  | start => rfl
  | reset d e => rfl

theorem holds_fresh (p : Parameters) {q : Process σ} (c : Call σ)
    (h : Phase.fresh.Holds q) : (Phase.fresh.step p c).Holds (q.step p c) := by
  obtain ⟨⟨user, hnode⟩, halive, hnot⟩ := h
  rw [step_of_alive p halive, hnode]
  have hrefused : (∀ h, c ≠ .init h) → Phase.fresh.Holds
      { node := (c.op p (.initial user)).2, log := q.log ++ [(c, (c.op p (.initial user)).1)] } := by
    intro hc
    rw [refused_initial p c hc]
    refine ⟨⟨user, rfl⟩, ?_, ?_⟩
    · rw [crashed_concat _ _ _ _ halive]
      rfl
    · rw [initialized_concat _ _ _ _ hnot]
      rintro ⟨_, hfalse⟩
      exact absurd hfalse (by simp)
  cases c with
  | init hooks =>
    obtain ⟨hresult, hunfinished⟩ := init_initial p hooks user
    show Phase.Holds { node := (init p hooks _).2, log := q.log ++ [(_, (init p hooks _).1)] }
      (if hooks.succeed p then .initialized else .failed)
    rw [hresult]
    cases hs : hooks.succeed p with
    | true =>
      show Process.Initialized _
      rw [initialized_concat _ _ _ _ hnot]
      exact ⟨⟨hooks, rfl⟩, rfl⟩
    | false =>
      refine ⟨hunfinished, ?_, ?_⟩
      · rw [crashed_concat _ _ _ _ halive]
        rfl
      · rw [initialized_concat _ _ _ _ hnot]
        rintro ⟨_, hfalse⟩
        exact absurd hfalse (by decide)
  | start => exact hrefused (by simp)
  | reset d e => exact hrefused (by simp)

theorem holds_failed (p : Parameters) {q : Process σ} (c : Call σ)
    (h : Phase.failed.Holds q) : (Phase.failed.step p c).Holds (q.step p c) := by
  obtain ⟨hnode, halive, hnot⟩ := h
  rw [step_of_alive p halive]
  cases c with
  | init hooks =>
    show Phase.Holds { node := (init p hooks _).2, log := q.log ++ [(_, (init p hooks _).1)] } .failed
    rw [init_unfinished p hooks hnode]
    refine ⟨hnode, ?_, ?_⟩
    · rw [crashed_concat _ _ _ _ halive]
      rfl
    · rw [initialized_concat _ _ _ _ hnot]
      rintro ⟨_, hthrew⟩
      exact absurd hthrew (by simp)
  | start =>
    refine ⟨keeps_declared _ p .start _ hnode.verbosity, ?_⟩
    rw [initialized_concat _ _ _ _ hnot]
    rintro ⟨⟨hooks, hc⟩, _⟩
    cases hc
  | reset d e =>
    obtain ⟨hresult, hstate⟩ := reset_unfinished d e hnode
    refine ⟨?_, hstate, ?_⟩
    · rw [crashed_concat _ _ _ _ halive]
      exact decide_eq_true hresult
    · rw [initialized_concat _ _ _ _ hnot]
      rintro ⟨⟨hooks, hc⟩, _⟩
      cases hc

theorem holds_premature (p : Parameters) {q : Process σ} (c : Call σ)
    (h : Phase.premature.Holds q) : (Phase.premature.step p c).Holds (q.step p c) := by
  obtain ⟨hdeclared, hnot⟩ := h
  show Phase.premature.Holds (q.step p c)
  cases halive : q.crashed with
  | true =>
    unfold Process.step
    rw [if_pos halive]
    exact ⟨hdeclared, hnot⟩
  | false =>
    rw [step_of_alive p halive]
    refine ⟨keeps_declared _ p c _ hdeclared, ?_⟩
    rw [initialized_concat _ _ _ _ hnot]
    rintro ⟨⟨hooks, rfl⟩, htrue⟩
    exact init_of_declared p hooks hdeclared htrue

theorem holds_step (p : Parameters) (phase : Phase) (q : Process σ) (c : Call σ)
    (h : phase.Holds q) : (phase.step p c).Holds (q.step p c) := by
  cases phase with
  | fresh => exact holds_fresh p c h
  | failed => exact holds_failed p c h
  | crashed =>
    unfold Process.step
    rw [if_pos h.1]
    exact h
  | premature => exact holds_premature p c h
  | initialized => exact Initialized.step h c

theorem holds_run (p : Parameters) (user : σ) (calls : List (Call σ)) :
    (run (Phase.step p) .fresh calls).Holds (run (Process.step p) (.initial user) calls) := by
  apply run_invariant (I := fun past q => (run (Phase.step p) .fresh past).Holds q)
  · refine ⟨⟨user, rfl⟩, rfl, ?_⟩
    rintro ⟨hooks, hmem⟩
    cases hmem
  · intro past q c h
    rw [run_concat]
    exact holds_step p _ q c h

/-! ## The calls of each phase -/

/-- Where a phase has the first `init` and what follows it. -/
def Phase.Calls (p : Parameters) (calls : List (Call σ)) : Phase → Prop
  | .fresh => ∀ h, .init h ∉ calls
  | .failed => ∃ past hooks mid, calls = past ++ .init hooks :: mid ∧ (∀ h, .init h ∉ past) ∧
      hooks.succeed p = false ∧ ∀ c ∈ mid, ∃ h, c = .init h
  | .premature => ∃ past hooks mid future,
      calls = past ++ .init hooks :: (mid ++ .start :: future) ∧ (∀ h, .init h ∉ past) ∧
        hooks.succeed p = false ∧ ∀ c ∈ mid, ∃ h, c = .init h
  | _ => True

theorem calls_step (p : Parameters) (past : List (Call σ)) (phase : Phase) (c : Call σ)
    (h : phase.Calls p past) : (phase.step p c).Calls p (past ++ [c]) := by
  cases phase with
  | fresh =>
    have hother : (∀ k, c ≠ .init k) → Phase.fresh.Calls p (past ++ [c]) := by
      intro hc k hmem
      rcases List.mem_append.mp hmem with hmem | hmem
      · exact h k hmem
      · exact hc k (List.mem_singleton.mp hmem).symm
    cases c with
    | init hooks =>
      show Phase.Calls p _ (if hooks.succeed p then .initialized else .failed)
      cases hs : hooks.succeed p with
      | true => trivial
      | false => exact ⟨past, hooks, [], rfl, h, hs, by simp⟩
    | start => exact hother (by simp)
    | reset d e => exact hother (by simp)
  | failed =>
    obtain ⟨before, hooks, mid, rfl, hbefore, hfail, hmid⟩ := h
    cases c with
    | init k =>
      refine ⟨before, hooks, mid ++ [.init k], by simp, hbefore, hfail, fun c hc => ?_⟩
      rcases List.mem_append.mp hc with hc | hc
      · exact hmid c hc
      · exact ⟨k, List.mem_singleton.mp hc⟩
    | start => exact ⟨before, hooks, mid, [], by simp, hbefore, hfail, hmid⟩
    | reset d e => trivial
  | premature =>
    obtain ⟨before, hooks, mid, future, rfl, hbefore, hfail, hmid⟩ := h
    exact ⟨before, hooks, mid, future ++ [c], by simp, hbefore, hfail, hmid⟩
  | crashed => trivial
  | initialized => trivial

theorem calls_run (p : Parameters) (calls : List (Call σ)) :
    (run (Phase.step p) .fresh calls).Calls p calls := by
  apply run_invariant (I := fun past (phase : Phase) => phase.Calls p past)
  · exact fun h => List.not_mem_nil
  · exact fun past phase c h => calls_step p past phase c h

theorem phase_failed (p : Parameters) {past mid : List (Call σ)} {hooks : InitHooks σ}
    (hpast : ∀ h, .init h ∉ past) (hfail : hooks.succeed p = false)
    (hmid : ∀ c ∈ mid, ∃ h, c = .init h) :
    run (Phase.step p) .fresh (past ++ .init hooks :: mid) = .failed := by
  have hfresh : run (Phase.step p) .fresh past = .fresh := by
    induction past with
    | nil => rfl
    | cons c past ih =>
      have hc : Phase.fresh.step p c = .fresh := by
        cases c with
        | init h => exact absurd List.mem_cons_self (hpast h)
        | start => rfl
        | reset d e => rfl
      rw [run_cons, hc]
      exact ih fun h hmem => hpast h (List.mem_cons_of_mem _ hmem)
  have hstep : Phase.fresh.step p (.init hooks) = .failed := by
    show (if hooks.succeed p then Phase.initialized else .failed) = .failed
    rw [hfail]
    rfl
  rw [run_append, hfresh, run_cons, hstep]
  induction mid with
  | nil => rfl
  | cons c mid ih =>
    obtain ⟨h, rfl⟩ := hmid c List.mem_cons_self
    exact ih fun c hc => hmid c (List.mem_cons_of_mem _ hc)

/-! ## Running only after initialization -/

/-- In every state of a run that is `STATE_RUNNING` some `init` has returned `true`. -/
def RunningInitialized (p : Parameters) (user : σ) (calls : List (Call σ)) : Prop :=
  ∀ past, past <+: calls →
    (run (Process.step p) (.initial user) past).node.nodeState = .running →
    (run (Process.step p) (.initial user) past).Initialized

/-- No call of `start` follows a failing first `init` without a call of `reset` in between. -/
def NoPrematureStart (p : Parameters) (calls : List (Call σ)) : Prop :=
  ∀ past hooks mid future, calls = past ++ .init hooks :: (mid ++ .start :: future) →
    (∀ h, .init h ∉ past) → (∀ d e, .reset d e ∉ mid) → hooks.succeed p = true

theorem started_uninitialized (p : Parameters) (user : σ) {past mid : List (Call σ)}
    {hooks : InitHooks σ} (hpast : ∀ h, .init h ∉ past) (hfail : hooks.succeed p = false)
    (hmid : ∀ c ∈ mid, ∃ h, c = .init h) :
    (run (Process.step p) (.initial user) (past ++ .init hooks :: mid ++ [.start])).node.nodeState =
        .running ∧
      ¬ (run (Process.step p) (.initial user) (past ++ .init hooks :: mid ++ [.start])).Initialized := by
  have hholds := holds_run p user (past ++ .init hooks :: mid)
  rw [phase_failed p hpast hfail hmid] at hholds
  obtain ⟨hnode, halive, hnot⟩ := hholds
  rw [run_concat, step_of_alive p halive]
  refine ⟨(start_unfinished p hnode).2.1, ?_⟩
  rw [initialized_concat _ _ _ _ hnot]
  rintro ⟨⟨k, hk⟩, -⟩
  cases hk

/-- **Initialization.** A node runs only after a successful `init` exactly if nothing starts it after
a first `init` that fails. -/
theorem running_initialized_iff (p : Parameters) (user : σ) (calls : List (Call σ)) :
    RunningInitialized p user calls ↔ NoPrematureStart p calls := by
  constructor
  · intro h past hooks mid future hsplit hpast hmid
    cases hfail : hooks.succeed p with
    | true => rfl
    | false =>
      -- the first `start` after the failed `init`
      obtain ⟨mid', later, hfirst, hnot⟩ : ∃ mid' later,
          mid ++ [.start] = mid' ++ .start :: later ∧ .start ∉ mid' :=
        List.eq_append_cons_of_mem (List.mem_append_right _ (List.mem_singleton.mpr rfl))
      have hinits : ∀ c ∈ mid', ∃ h, c = .init h := by
        intro c hc
        have hmem : c ∈ mid ++ [.start] := by
          rw [hfirst]
          exact List.mem_append_left _ hc
        cases c with
        | init k => exact ⟨k, rfl⟩
        | start => exact absurd hc hnot
        | reset d e =>
          rcases List.mem_append.mp hmem with hmem | hmem
          · exact absurd hmem (hmid d e)
          · cases List.mem_singleton.mp hmem
      have hstarts : past ++ .init hooks :: mid' ++ [.start] <+: calls := by
        refine ⟨later ++ future, ?_⟩
        have hrest : mid ++ .start :: future = mid' ++ .start :: (later ++ future) := by
          have := congrArg (· ++ future) hfirst
          simpa using this
        rw [hsplit, hrest]
        simp
      obtain ⟨hrunning, hnotInit⟩ := started_uninitialized p user hpast hfail hinits
      exact absurd (h _ hstarts hrunning) hnotInit
  · intro h past hprefix hrunning
    have hholds := holds_run p user past
    have hphase := calls_run p past
    cases hph : run (Phase.step p) .fresh past with
    | fresh =>
      rw [hph] at hholds
      obtain ⟨⟨u, hnode⟩, _⟩ := hholds
      rw [hnode] at hrunning
      cases hrunning
    | failed =>
      rw [hph] at hholds
      rw [hholds.1.nodeState] at hrunning
      cases hrunning
    | crashed =>
      rw [hph] at hholds
      rw [hholds.2.1] at hrunning
      cases hrunning
    | initialized =>
      rw [hph] at hholds
      exact hholds
    | premature =>
      rw [hph] at hphase
      obtain ⟨before, hooks, mid, future, hsplit, hbefore, hfail, hmid⟩ := hphase
      obtain ⟨rest, rfl⟩ := hprefix
      have hreset : ∀ d e, .reset d e ∉ mid := by
        intro d e hmem
        obtain ⟨k, hk⟩ := hmid _ hmem
        cases hk
      have := h before hooks mid (future ++ rest) (by rw [hsplit]; simp) hbefore hreset
      rw [hfail] at this
      cases this

/-- A hook that succeeds and changes nothing. -/
def Hook.succeeding : Hook σ := ⟨true, id⟩

/-- A call of `init` in which the user's `loadConfig` fails. -/
def failingLoadConfig : InitHooks Unit where
  loggerInit := true
  baseInitPubSubs := true
  baseInitServices := true
  baseInitDiagnostics := true
  baseInitData := true
  loadConfig := ⟨false, id⟩
  initPubSubs := .succeeding
  initServices := .succeeding
  initDiagnostics := .succeeding
  initData := .succeeding

/-- The parameters of a node without configuration. -/
def defaultParameters : Parameters := ⟨"NOTICE", [], [], ⟨-1, -1, -1⟩⟩

/-- `init` fails, and `start` then takes the node to `STATE_RUNNING`. -/
theorem started_after_failed_init :
    ¬ RunningInitialized defaultParameters () [.init failingLoadConfig, .start] := by
  intro h
  obtain ⟨hooks, hmem⟩ := h _ (List.prefix_refl _) rfl
  have hlog : (run (Process.step defaultParameters) (.initial ())
      [.init failingLoadConfig, .start]).log =
        [(.init failingLoadConfig, .returned false), (.start, .returned true)] := rfl
  rw [hlog] at hmem
  simp at hmem

end BaseNode
