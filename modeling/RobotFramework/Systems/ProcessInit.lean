import RobotFramework.BaseNode.Initialization

/-!
# Process initialization in the system nodes

Six nodes initialize the process they drive in `initData`, on `init` and again on every `reset`. What a
process returns is given with each call; the calls a node makes on its process are kept in order.

Five nodes stop on a process that does not initialize. `InertialSensorFuserNode` logs the error and
goes on, so it runs whatever its process returns.
-/

namespace Systems

open History BaseNode

/-! ## The code -/

/-- A call a node makes on its process. -/
inductive ProcessCall where
  | init (result : Bool)
  | setConfig (expectedArmSignals : Nat) (result : Bool)
  | update
  | getReadyToArm
  deriving DecidableEq, Repr

/-- The data of a system node. -/
structure NodeData where
  processCalls : List ProcessCall
  nodesToMonitor : List String
  /-- The monitored nodes whose `ready_to_arm` topic is subscribed to. -/
  readyToArmSubs : List String

/-- A node as its constructor leaves it. -/
def NodeData.initial : NodeData := ⟨[], [], []⟩

/-- The calls on the process, in order. -/
def NodeData.call (calls : List ProcessCall) (d : NodeData) : NodeData :=
  { d with processCalls := d.processCalls ++ calls }

/-- `initData` of a node that returns `false` when its process does not initialize, and otherwise goes
on with some more calls. -/
def guardedInitData (initCall : NodeData → ProcessCall) (rest : List ProcessCall) (status : Bool) :
    Hook NodeData where
  succeeds := status
  effect d := d.call (initCall d :: if status then rest else [])

/-- `ServoHatNode::initData`. -/
def ServoHatNode.initData (status : Bool) : Hook NodeData :=
  guardedInitData (fun _ => .init status) [.update, .getReadyToArm] status

/-- `IMUNode::initData`. -/
def IMUNode.initData (status : Bool) : Hook NodeData :=
  guardedInitData (fun _ => .init status) [.update, .getReadyToArm] status

/-- `LocalPoseFuserNode::initData`. -/
def LocalPoseFuserNode.initData (status : Bool) : Hook NodeData :=
  guardedInitData (fun _ => .init status) [.update, .getReadyToArm] status

/-- `ArmedStateManagerNode::initData`. The number of signals is cast to `uint8_t`. -/
def ArmedStateManagerNode.initData (status : Bool) : Hook NodeData :=
  guardedInitData (fun d => .setConfig (d.nodesToMonitor.length % 2 ^ 8) status)
    [.update, .getReadyToArm] status

/-- `DepthCameraPipelineNode::initData`. The subsystem is not updated. -/
def DepthCameraPipelineNode.initData (status : Bool) : Hook NodeData :=
  guardedInitData (fun _ => .init status) [.getReadyToArm] status

/-- `InertialSensorFuserNode::initData`. The result of the process is only logged. -/
def InertialSensorFuserNode.initData (status : Bool) : Hook NodeData where
  succeeds := true
  effect d := d.call [.init status, .update, .getReadyToArm]

/-- `ArmedStateManagerNode::loadConfig`, for a `nodes_to_monitor` parameter. -/
def ArmedStateManagerNode.loadConfig (nodes_to_monitor : List String) : Hook NodeData where
  succeeds := true
  effect d := { d with nodesToMonitor := nodes_to_monitor }

/-- `ArmedStateManagerNode::initPubSubs`. -/
def ArmedStateManagerNode.initPubSubs : Hook NodeData where
  succeeds := true
  effect d := { d with readyToArmSubs := d.readyToArmSubs ++ d.nodesToMonitor }

/-- The nodes of `Systems/`. -/
inductive SystemNode where
  | servoHat
  | imu
  | inertialSensorFuser
  | localPoseFuser
  | armedStateManager (nodes_to_monitor : List String)
  | depthCameraPipeline
  deriving DecidableEq

/-- `initData` of a node, with the result of its process. -/
def SystemNode.initData (status : Bool) : SystemNode → Hook NodeData
  | .servoHat => ServoHatNode.initData status
  | .imu => IMUNode.initData status
  | .inertialSensorFuser => InertialSensorFuserNode.initData status
  | .localPoseFuser => LocalPoseFuserNode.initData status
  | .armedStateManager _ => ArmedStateManagerNode.initData status
  | .depthCameraPipeline => DepthCameraPipelineNode.initData status

/-- The hooks of a node in a call of `init`; the ones not given here return `true`. -/
def SystemNode.initHooks (node : SystemNode) (loggerInit status : Bool) : InitHooks NodeData where
  loggerInit := loggerInit
  baseInitPubSubs := true
  baseInitServices := true
  baseInitDiagnostics := true
  baseInitData := true
  loadConfig := match node with
    | .armedStateManager nodes_to_monitor => ArmedStateManagerNode.loadConfig nodes_to_monitor
    | _ => .succeeding
  initPubSubs := match node with
    | .armedStateManager _ => ArmedStateManagerNode.initPubSubs
    | _ => .succeeding
  initServices := .succeeding
  initDiagnostics := .succeeding
  initData := node.initData status

/-- A call of `reset`. -/
def SystemNode.resetCall (node : SystemNode) (status : Bool) : Call NodeData :=
  .reset .succeeding (node.initData status)

/-- The last call returned `true`. -/
def succeeded (q : Process NodeData) : Bool := q.log.getLast?.map (·.2) = some (.returned true)

/-- A process and what it is after each of some calls of `reset`. -/
def resetTrace (p : Parameters) (node : SystemNode) (q : Process NodeData) :
    List Bool → List (Process NodeData)
  | [] => [q]
  | status :: resets => q :: resetTrace p node (q.step p (node.resetCall status)) resets

/-- The order of `main`: `init`, then `start`, then any calls of `reset`, each with the result of the
process. The process after each call. -/
def mainTrace (p : Parameters) (node : SystemNode) (loggerInit first : Bool) (resets : List Bool) :
    List (Process NodeData) :=
  let initialized := Process.step p (.initial .initial) (.init (node.initHooks loggerInit first))
  if succeeded initialized then
    let started := initialized.step p .start
    if succeeded started then initialized :: resetTrace p node started resets
    else [initialized, started]
  else [initialized]

/-- What a call says of the initialization of the process. -/
def ProcessCall.initResult : ProcessCall → Option Bool
  | .init result => some result
  | .setConfig _ result => some result
  | _ => none

/-- What the process returned the last time it was initialized. -/
def lastProcessInit (d : NodeData) : Option Bool := lastSome ProcessCall.initResult d.processCalls

/-! ## One call -/

theorem initData_succeeds (node : SystemNode) (status : Bool) :
    (node.initData status).succeeds = (status || decide (node = .inertialSensorFuser)) := by
  cases node <;> simp [SystemNode.initData, ServoHatNode.initData, IMUNode.initData,
    LocalPoseFuserNode.initData, ArmedStateManagerNode.initData, DepthCameraPipelineNode.initData,
    InertialSensorFuserNode.initData, guardedInitData]

theorem initData_lastProcessInit (node : SystemNode) (status : Bool) (d : NodeData) :
    lastProcessInit ((node.initData status).effect d) = some status := by
  have hcall : ∀ calls, lastSome ProcessCall.initResult calls = some status →
      lastProcessInit (d.call calls) = some status := by
    intro calls h
    show lastSome _ (d.processCalls ++ calls) = _
    rw [lastSome_append, h]
    rfl
  cases node <;> cases status <;> exact hcall _ rfl

/-- A process that has been started and can be reset. -/
structure Started (q : Process NodeData) : Prop where
  alive : q.crashed = false
  restartable : Restartable q.node
  timers : HasTimers q.node

theorem Started.reset (p : Parameters) (node : SystemNode) {q : Process NodeData} (h : Started q)
    (status : Bool) :
    Started (q.step p (node.resetCall status)) ∧
      ((q.step p (node.resetCall status)).node.nodeState = .running ↔
        (node.initData status).succeeds = true) ∧
      lastProcessInit (q.step p (node.resetCall status)).node.user = some status := by
  rw [step_of_alive p h.alive]
  have hlast := initData_lastProcessInit node status q.node.user
  have heq : Call.op p (node.resetCall status) q.node = _ :=
    reset_eq .succeeding (node.initData status) h.restartable h.timers
  rw [heq, if_neg (by decide)]
  cases hs : (node.initData status).succeeds with
  | true =>
    rw [if_neg (by decide)]
    refine ⟨⟨?_, .inr (.inr rfl), fun l hl => ?_⟩, ⟨fun _ => rfl, fun _ => rfl⟩, hlast⟩
    · rw [crashed_concat _ _ _ _ h.alive]
      rfl
    · simpa using h.timers l hl
  | false =>
    rw [if_pos rfl]
    refine ⟨⟨?_, .inr (.inl rfl), fun l hl => ?_⟩, ⟨fun hrun => ?_, fun hfalse => ?_⟩, hlast⟩
    · rw [crashed_concat _ _ _ _ h.alive]
      rfl
    · simpa using h.timers l hl
    · cases hrun
    · cases hfalse

/-! ## Runs -/

/-- A node in `STATE_RUNNING` has a process whose last initialization succeeded. -/
def ProcessReady (q : Process NodeData) : Prop :=
  q.node.nodeState = .running → lastProcessInit q.node.user = some true

theorem resetTrace_ready (p : Parameters) (node : SystemNode) {resets : List Bool} :
    ∀ {q : Process NodeData}, Started q →
      ((∀ r ∈ resetTrace p node q resets, ProcessReady r) ↔ ProcessReady q ∧
        ∀ status ∈ resets, (node.initData status).succeeds = true → status = true) := by
  induction resets with
  | nil =>
    intro q _
    simp [resetTrace]
  | cons status resets ih =>
    intro q h
    obtain ⟨hstarted, hrunning, hlast⟩ := h.reset p node status
    have hready : ProcessReady (q.step p (node.resetCall status)) ↔
        ((node.initData status).succeeds = true → status = true) := by
      unfold ProcessReady
      rw [hrunning, hlast, Option.some.injEq]
    rw [resetTrace, List.forall_mem_cons, ih hstarted, hready, List.forall_mem_cons]

/-- The base configuration loads: the verbosity level is valid and the logger starts. -/
def baseConfigLoads (p : Parameters) (loggerInit : Bool) : Bool :=
  (verbosityLevel p.verbosity_level).isSome && loggerInit

/-- The first `init` of a node fails only in its base configuration or in `initData`. -/
theorem initHooks_succeed (p : Parameters) (node : SystemNode) (loggerInit status : Bool) :
    (node.initHooks loggerInit status).succeed p =
      (baseConfigLoads p loggerInit && (node.initData status).succeeds) := by
  unfold InitHooks.succeed baseConfigLoads
  cases node <;> simp [SystemNode.initHooks, Hook.succeeding, ArmedStateManagerNode.loadConfig,
    ArmedStateManagerNode.initPubSubs]

/-- What the processes of a run in the order of `main` are: the node as `init` leaves it, and if that
succeeded, the node `start` runs with the data of `init`, and what resets make of it. -/
theorem mainTrace_cases (p : Parameters) (node : SystemNode) (loggerInit first : Bool)
    (resets : List Bool) :
    ∃ initialized : Process NodeData,
      initialized.node = (init p (node.initHooks loggerInit first) (.initial .initial)).2 ∧
      Unfinished initialized.node ∧
      (((node.initHooks loggerInit first).succeed p = false ∧
          mainTrace p node loggerInit first resets = [initialized]) ∨
        ((node.initHooks loggerInit first).succeed p = true ∧
          ∃ started : Process NodeData, Started started ∧ started.node.nodeState = .running ∧
            started.node.user = initialized.node.user ∧
            mainTrace p node loggerInit first resets =
              initialized :: resetTrace p node started resets)) := by
  obtain ⟨hresult, hunfinished⟩ := init_initial p (node.initHooks loggerInit first) NodeData.initial
  have hinit : Process.step p (.initial .initial) (.init (node.initHooks loggerInit first)) =
      { node := (init p (node.initHooks loggerInit first) (.initial .initial)).2
        log := [(.init (node.initHooks loggerInit first),
          .returned ((node.initHooks loggerInit first).succeed p))] } := by
    rw [step_of_alive p rfl, ← hresult]
    rfl
  refine ⟨Process.step p (.initial .initial) (.init (node.initHooks loggerInit first)), by rw [hinit],
    hinit ▸ hunfinished, ?_⟩
  unfold mainTrace
  rw [hinit]
  cases hs : (node.initHooks loggerInit first).succeed p with
  | false =>
    refine .inl ⟨rfl, ?_⟩
    rw [if_neg (by simp [succeeded])]
  | true =>
    obtain ⟨hstart, hrunning, huser, htimers⟩ := start_unfinished p hunfinished
    have hstarted : Process.step p
        { node := (init p (node.initHooks loggerInit first) (.initial .initial)).2
          log := [(.init (node.initHooks loggerInit first), .returned true)] } .start =
        { node := (start p (init p (node.initHooks loggerInit first) (.initial .initial)).2).2
          log := [(.init (node.initHooks loggerInit first), .returned true)] ++
            [(.start, .returned true)] } := by
      rw [step_of_alive p rfl, ← hstart]
      rfl
    refine .inr ⟨rfl, _, ?_, ?_, ?_,
      by rw [if_pos (by simp [succeeded]), if_pos (by simp [succeeded, hstarted])]⟩
    · exact hstarted ▸ ⟨rfl, .inr (.inr hrunning), htimers⟩
    · exact hstarted ▸ hrunning
    · exact hstarted ▸ huser

theorem mainTrace_ready (p : Parameters) (node : SystemNode) (loggerInit first : Bool)
    (resets : List Bool) :
    (∀ q ∈ mainTrace p node loggerInit first resets, ProcessReady q) ↔
      ((node.initHooks loggerInit first).succeed p = true →
        first = true ∧ ∀ status ∈ resets, (node.initData status).succeeds = true → status = true) := by
  obtain ⟨initialized, hnode, hunfinished, hcases⟩ := mainTrace_cases p node loggerInit first resets
  have hnotRunning : ProcessReady initialized := by
    intro hrun
    rw [hunfinished.nodeState] at hrun
    cases hrun
  rcases hcases with ⟨hs, htrace⟩ | ⟨hs, started, hstarted, hrunning, huser, htrace⟩
  · rw [htrace, hs]
    simpa using hnotRunning
  · have hinit := init_user p (node.initHooks loggerInit first) NodeData.initial
      (by rw [(init_initial p _ _).1, hs])
    have hfirst : ProcessReady started ↔ first = true := by
      unfold ProcessReady
      rw [huser, hnode, hinit, hrunning]
      rw [show (node.initHooks loggerInit first).initData = node.initData first from rfl,
        initData_lastProcessInit, Option.some.injEq]
      exact ⟨fun h => h rfl, fun h _ => h⟩
    rw [htrace, List.forall_mem_cons, resetTrace_ready p node hstarted, hfirst]
    exact ⟨fun h _ => h.2, fun h => ⟨hnotRunning, h hs⟩⟩

/-- **Process initialization.** A system node runs only on a process whose last initialization
succeeded, except for the inertial sensor fuser, whose process has to succeed each time by itself. -/
theorem process_ready_iff (p : Parameters) (node : SystemNode) (loggerInit first : Bool)
    (resets : List Bool) :
    (∀ q ∈ mainTrace p node loggerInit first resets, ProcessReady q) ↔
      (node ≠ .inertialSensorFuser ∨ baseConfigLoads p loggerInit = false ∨
        (first = true ∧ ∀ status ∈ resets, status = true)) := by
  rw [mainTrace_ready, initHooks_succeed]
  simp only [initData_succeeds]
  by_cases hn : node = .inertialSensorFuser
  · cases hb : baseConfigLoads p loggerInit <;> simp [hn]
  · cases hb : baseConfigLoads p loggerInit <;> simp [hn]

/-- The fuser's process fails to initialize, and the node runs. -/
theorem fuser_runs_uninitialized :
    ¬ ∀ q ∈ mainTrace defaultParameters .inertialSensorFuser true false [], ProcessReady q := by
  intro h
  have hlast := h _ (List.mem_cons_of_mem _ List.mem_cons_self) rfl
  exact absurd hlast (by show ¬ some false = some true; decide)

end Systems
