import Mathlib.Data.Rat.Defs
import RobotFramework.BaseNode.Timing
import RobotFramework.BaseNode.Topics

/-!
# Life of a base node

`init`, `start` and `reset` of `BaseNode`, over the members they read and write. A member function
runs its statements in order and stops at the first one that fails or throws. What the hooks of the
derived node and the base class do is given with each call; `rclcpp` throws when a parameter is
declared a second time, and a call through a null timer ends the process. Log output is left out.
-/

namespace BaseNode

open History

/-! ## The members -/

/-- `robot_framework_ros2::msg::NodeState`. -/
inductive NodeState where
  | unknown
  | initializing
  | starting
  | running
  | paused
  | restart
  | finished
  | endOfList
  deriving DecidableEq, Repr

/-- An `rclcpp` timer. -/
inductive Timer where
  | active
  | cancelled
  deriving DecidableEq, Repr

/-- The values the ROS parameters of the base node have when they are declared. -/
structure Parameters where
  verbosity_level : String
  robot_namespace : List Char
  node_namespace : List Char
  loopRates : UserRates

/-- A base node with the data of the node derived from it. -/
structure Node (σ : Type) where
  nodeState : NodeState
  /-- The parameters declared so far. -/
  declared : List String
  robotNamespace : List Char
  nodeConfigNamespace : List Char
  loopRates : UserRates
  /-- The timers; `none` is a null pointer. -/
  timers : Loop → Option Timer
  user : σ

/-- What a member function does besides returning. -/
inductive Failure where
  | parameterAlreadyDeclared
  | nullTimer
  deriving DecidableEq, Repr

/-- How a call of a member function ends. -/
inductive Result where
  | returned (value : Bool)
  | threw (failure : Failure)
  deriving DecidableEq, Repr

abbrev Op (σ : Type) := Node σ → Result × Node σ

variable {σ : Type}

/-- Statements in order, `return false` at the first that is false. -/
def runSteps : List (Op σ) → Op σ
  | [], s => (.returned true, s)
  | op :: ops, s =>
      match op s with
      | (.returned true, s) => runSteps ops s
      | stopped => stopped

def modify (f : Node σ → Node σ) : Op σ := fun s => (.returned true, f s)

def check (ok : Bool) : Op σ := fun s => (.returned ok, s)

/-- One call of a hook: whether it succeeds, and what it does to the derived node. -/
structure Hook (σ : Type) where
  succeeds : Bool
  effect : σ → σ

def Hook.call (h : Hook σ) : Op σ := fun s => (.returned h.succeeds, { s with user := h.effect s.user })

/-! ## The code -/

/-- The table of `BaseNode::requestNodeStateChange`. -/
def stateChangeAllowed (override : Bool) (currentState newState : NodeState) : Bool :=
  if override = false then
    match currentState, newState with
    | .unknown, .initializing => true
    | .initializing, .starting => true
    | .starting, .running => true
    | .running, .starting => true
    | _, _ => false
  else false

/-- `BaseNode::requestNodeStateChange`. -/
def requestNodeStateChange (newState : NodeState) (override : Bool) : Op σ := fun s =>
  if s.nodeState = newState then (.returned true, s)
  else if stateChangeAllowed override s.nodeState newState then
    (.returned true, { s with nodeState := newState })
  else (.returned false, s)

/-- `declare_parameter`. -/
def declareParameter (name : String) : Op σ := fun s =>
  if name ∈ s.declared then (.threw .parameterAlreadyDeclared, s)
  else (.returned true, { s with declared := s.declared ++ [name] })

/-- The level a `verbosity_level` parameter names. -/
def verbosityLevel : String → Option Level
  | "DEBUG" => some .debug
  | "INFO" => some .info
  | "NOTICE" => some .notice
  | "WARN" => some .warn
  | "ERROR" => some .error
  | "FATAL" => some .fatal
  | _ => none

/-- `m_nodeConfigNamespace`, as `baseLoadConfig` leaves it for a `node_namespace` parameter. -/
def nodeConfigNamespace (parameter : List Char) : List Char :=
  (parameter.dropWhile (· = '/')).map fun c => if c = '/' then '.' else c

/-- What happens in one call of `init`, besides the code of the base node. -/
structure InitHooks (σ : Type) where
  /-- `Logger::init`. -/
  loggerInit : Bool
  baseInitPubSubs : Bool
  baseInitServices : Bool
  baseInitDiagnostics : Bool
  baseInitData : Bool
  loadConfig : Hook σ
  initPubSubs : Hook σ
  initServices : Hook σ
  initDiagnostics : Hook σ
  initData : Hook σ

/-- `BaseNode::baseLoadConfig`. -/
def baseLoadConfig (p : Parameters) (loggerInit : Bool) : Op σ :=
  runSteps
    [declareParameter "verbosity_level",
     check (verbosityLevel p.verbosity_level).isSome,
     check loggerInit,
     declareParameter "robot_namespace",
     modify fun s => { s with robotNamespace := BaseNode.robotNamespace p.robot_namespace },
     declareParameter "node_namespace",
     modify fun s => { s with nodeConfigNamespace := BaseNode.nodeConfigNamespace p.node_namespace }]

/-- `BaseNode::init`. -/
def init (p : Parameters) (h : InitHooks σ) : Op σ :=
  runSteps
    [requestNodeStateChange .initializing false,
     baseLoadConfig p h.loggerInit,
     check h.baseInitPubSubs,
     check h.baseInitServices,
     check h.baseInitDiagnostics,
     check h.baseInitData,
     h.loadConfig.call,
     h.initPubSubs.call,
     h.initServices.call,
     h.initDiagnostics.call,
     h.initData.call]

/-- The loops whose timers every started node has. -/
def fixedLoops : List Loop := [.loop100Hz, .loop10Hz, .loop1Hz, .loop01Hz, .loop001Hz]

/-- The loops whose timers depend on a rate. -/
def userLoops : List Loop := [.loop1, .loop2, .loop3]

/-- `m_timer = create_wall_timer(…)`. -/
def createTimer (l : Loop) : Op σ :=
  modify fun s => { s with timers := Function.update s.timers l (some .active) }

/-- The creation of the timer of a user loop, for a positive rate. -/
def createUserTimer (l : Loop) (rate : Rat) : Op σ :=
  modify fun s =>
    { s with timers := if rate ≤ 0 then s.timers else Function.update s.timers l (some .active) }

/-- `BaseNode::start`. The third rate is stored only where it is used. -/
def start (p : Parameters) : Op σ :=
  runSteps
    (requestNodeStateChange .starting false :: fixedLoops.map createTimer ++
    [declareParameter "loop1_rate",
     modify fun s => { s with loopRates := { s.loopRates with loop1 := p.loopRates.loop1 } },
     createUserTimer .loop1 p.loopRates.loop1,
     declareParameter "loop2_rate",
     modify fun s => { s with loopRates := { s.loopRates with loop2 := p.loopRates.loop2 } },
     createUserTimer .loop2 p.loopRates.loop2,
     declareParameter "loop3_rate",
     modify fun s => { s with loopRates := { s.loopRates with
       loop3 := if p.loopRates.loop3 ≤ 0 then s.loopRates.loop3 else p.loopRates.loop3 } },
     createUserTimer .loop3 p.loopRates.loop3,
     requestNodeStateChange .running false])

/-- `m_timer->cancel()` or `m_timer->reset()`. -/
def setTimer (t : Timer) (l : Loop) : Op σ := fun s =>
  match s.timers l with
  | none => (.threw .nullTimer, s)
  | some _ => (.returned true, { s with timers := Function.update s.timers l (some t) })

/-- The same behind `if (m_timer)`. -/
def setUserTimer (t : Timer) (l : Loop) : Op σ := fun s =>
  if (s.timers l).isSome then setTimer t l s else (.returned true, s)

/-- `BaseNode::reset`. -/
def reset (initDiagnostics initData : Hook σ) : Op σ :=
  runSteps
    (requestNodeStateChange .starting false ::
      fixedLoops.map (setTimer .cancelled) ++ userLoops.map (setUserTimer .cancelled) ++
      [initDiagnostics.call, initData.call, requestNodeStateChange .running false] ++
      fixedLoops.map (setTimer .active) ++ userLoops.map (setUserTimer .active))

/-- A node as its constructor leaves it. -/
def Node.initial (user : σ) : Node σ where
  nodeState := .unknown
  declared := []
  robotNamespace := []
  nodeConfigNamespace := []
  loopRates := ⟨-1, -1, -1⟩
  timers _ := none
  user := user

/-! ## Runs -/

/-- A call of a public operation. -/
inductive Call (σ : Type) where
  | init (hooks : InitHooks σ)
  | start
  | reset (initDiagnostics initData : Hook σ)

def Call.op (p : Parameters) : Call σ → Op σ
  | .init hooks => BaseNode.init p hooks
  | .start => BaseNode.start p
  | .reset initDiagnostics initData => BaseNode.reset initDiagnostics initData

/-- A node and the calls made on it so far, with their results. -/
structure Process (σ : Type) where
  node : Node σ
  log : List (Call σ × Result)

/-- A process that has called through a null timer has ended. -/
def Process.crashed (q : Process σ) : Bool := q.log.any (·.2 = .threw .nullTimer)

def Process.step (p : Parameters) (q : Process σ) (c : Call σ) : Process σ :=
  if q.crashed then q
  else { node := (c.op p q.node).2, log := q.log ++ [(c, (c.op p q.node).1)] }

/-- A process before its first call. -/
def Process.initial (user : σ) : Process σ := ⟨.initial user, []⟩

/-! ## What the steps of an operation keep -/

@[simp] theorem runSteps_nil (s : Node σ) : runSteps [] s = (.returned true, s) := rfl

theorem runSteps_cons_of_true {op : Op σ} {s t : Node σ} (h : op s = (.returned true, t))
    (ops : List (Op σ)) : runSteps (op :: ops) s = runSteps ops t := by
  rw [runSteps, h]

theorem runSteps_cons_of_stop {op : Op σ} {s t : Node σ} {r : Result} (h : op s = (r, t))
    (hr : r ≠ .returned true) (ops : List (Op σ)) : runSteps (op :: ops) s = (r, t) := by
  rw [runSteps, h]
  split
  · rename_i heq
    cases heq
    exact absurd rfl hr
  · rfl

theorem runSteps_append_of_true {ops : List (Op σ)} {t : Node σ} : ∀ {s : Node σ},
    runSteps ops s = (.returned true, t) → ∀ later, runSteps (ops ++ later) s = runSteps later t := by
  induction ops with
  | nil =>
    intro s h later
    rw [runSteps_nil, Prod.mk.injEq] at h
    rw [List.nil_append, h.2]
  | cons op ops ih =>
    intro s h later
    rw [List.cons_append, runSteps]
    rw [runSteps] at h
    split at h
    · exact ih h later
    · rename_i hstop
      exact absurd h (hstop t)

theorem runSteps_of_true {ops : List (Op σ)} : ∀ {s : Node σ},
    (runSteps ops s).1 = .returned true →
    (runSteps ops s).2 = ops.foldl (fun t op => (op t).2) s := by
  induction ops with
  | nil => intro s _; rfl
  | cons op ops ih =>
    intro s h
    rw [runSteps] at h ⊢
    rw [List.foldl_cons]
    split at h
    · rename_i t heq
      rw [heq]
      exact ih h
    · rename_i hstop
      exact (hstop (op s).2 (Prod.ext h rfl)).elim

def Keeps (P : Node σ → Prop) (op : Op σ) : Prop := ∀ s, P s → P (op s).2

theorem Keeps.runSteps {P : Node σ → Prop} {ops : List (Op σ)} (h : ∀ op ∈ ops, Keeps P op) :
    Keeps P (runSteps ops) := by
  induction ops with
  | nil => intro s hs; exact hs
  | cons op ops ih =>
    intro s hs
    have hop := h op List.mem_cons_self s hs
    rw [BaseNode.runSteps]
    split
    · rename_i t heq
      rw [heq] at hop
      exact ih (fun op' hop' => h op' (List.mem_cons_of_mem _ hop')) t hop
    · exact hop

theorem runSteps_establishes {P : Node σ → Prop} {op : Op σ} (hop : ∀ s, P (op s).2)
    {after : List (Op σ)} (hafter : ∀ op ∈ after, Keeps P op) (before : List (Op σ)) {s : Node σ}
    (htrue : (runSteps (before ++ op :: after) s).1 = .returned true) :
    P (runSteps (before ++ op :: after) s).2 := by
  rw [runSteps_of_true htrue, List.foldl_append, List.foldl_cons]
  exact List.foldlRecOn after _ (hop _) fun t ht next hmem => hafter next hmem t ht

/-- What the last statement returns does not matter for what it leaves. -/
theorem runSteps_last (op other : Op σ) (h : ∀ s, (op s).2 = (other s).2) (ops : List (Op σ)) :
    ∀ s, (runSteps (ops ++ [op]) s).2 = (runSteps (ops ++ [other]) s).2 := by
  have hlast : ∀ (o : Op σ) s, (runSteps [o] s).2 = (o s).2 := by
    intro o s
    unfold runSteps
    split
    · rename_i t heq
      rw [heq]
      rfl
    · rfl
  induction ops with
  | nil =>
    intro s
    rw [List.nil_append, List.nil_append, hlast, hlast, h]
  | cons first ops ih =>
    intro s
    rw [List.cons_append, List.cons_append, runSteps, runSteps]
    split
    · exact ih _
    · rfl

theorem runSteps_outcomes {P : Node σ → Prop} {ops : List (Op σ × Bool)}
    (h : ∀ o ∈ ops, Keeps P o.1 ∧ ∀ s, (o.1 s).1 = .returned o.2) :
    ∀ s, P s → (runSteps (ops.map Prod.fst) s).1 = .returned (ops.all Prod.snd) ∧
      P (runSteps (ops.map Prod.fst) s).2 := by
  induction ops with
  | nil => intro s hs; exact ⟨rfl, hs⟩
  | cons o ops ih =>
    intro s hs
    obtain ⟨op, b⟩ := o
    obtain ⟨hkeeps, hresult⟩ := h (op, b) List.mem_cons_self
    have hop := hkeeps s hs
    have hrest := ih (fun o' ho' => h o' (List.mem_cons_of_mem _ ho')) (op s).2 hop
    rw [List.map_cons, List.all_cons]
    cases b with
    | true =>
      rw [runSteps_cons_of_true (Prod.ext (hresult s) rfl)]
      simpa using hrest
    | false =>
      rw [runSteps_cons_of_stop (Prod.ext (hresult s) rfl) (by simp)]
      exact ⟨rfl, hop⟩

/-! ### Declared parameters -/

theorem requestNodeStateChange_declared (n : NodeState) (o : Bool) (s : Node σ) :
    (requestNodeStateChange n o s).2.declared = s.declared := by
  unfold requestNodeStateChange
  split_ifs <;> rfl

theorem setTimer_declared (t : Timer) (l : Loop) (s : Node σ) :
    (setTimer t l s).2.declared = s.declared := by
  unfold setTimer
  split <;> rfl

theorem setUserTimer_declared (t : Timer) (l : Loop) (s : Node σ) :
    (setUserTimer t l s).2.declared = s.declared := by
  unfold setUserTimer
  split_ifs
  · exact setTimer_declared t l s
  · rfl

theorem declareParameter_declares (name : String) (s : Node σ) :
    name ∈ (declareParameter name s).2.declared := by
  unfold declareParameter
  split_ifs with hdeclared
  · exact hdeclared
  · exact List.mem_append_right _ (List.mem_singleton.mpr rfl)

theorem declareParameter_keeps (name other : String) :
    Keeps (fun s : Node σ => name ∈ s.declared) (declareParameter other) := by
  intro s hs
  unfold declareParameter
  split_ifs
  · exact hs
  · exact List.mem_append_left _ hs

theorem keeps_of_declared_eq (name : String) {op : Op σ}
    (h : ∀ s, (op s).2.declared = s.declared) :
    Keeps (fun s : Node σ => name ∈ s.declared) op := by
  intro s hs
  show name ∈ (op s).2.declared
  rw [h s]
  exact hs

theorem keeps_declared (name : String) (p : Parameters) (c : Call σ) :
    Keeps (fun s => name ∈ s.declared) (c.op p) := by
  have hdeclare (other : String) := declareParameter_keeps (σ := σ) name other
  have hframe (op : Op σ) (hop : ∀ s, (op s).2.declared = s.declared) :=
    keeps_of_declared_eq name hop
  cases c with
  | init h =>
    apply Keeps.runSteps
    simp only [List.forall_mem_cons, List.not_mem_nil, false_imp_iff, implies_true, and_true]
    refine ⟨hframe _ (requestNodeStateChange_declared _ _), Keeps.runSteps ?_, ?_, ?_, ?_, ?_, ?_, ?_,
      ?_, ?_, ?_⟩
    · simp only [List.forall_mem_cons, List.not_mem_nil, false_imp_iff, implies_true, and_true]
      exact ⟨hdeclare _, hframe _ fun _ => rfl, hframe _ fun _ => rfl, hdeclare _,
        hframe _ fun _ => rfl, hdeclare _, hframe _ fun _ => rfl⟩
    all_goals exact hframe _ fun _ => rfl
  | start =>
    apply Keeps.runSteps
    simp only [fixedLoops, List.map_cons, List.map_nil, List.cons_append, List.nil_append,
      List.forall_mem_cons, List.not_mem_nil, false_imp_iff, implies_true, and_true]
    exact ⟨hframe _ (requestNodeStateChange_declared _ _), hframe _ fun _ => rfl,
      hframe _ fun _ => rfl, hframe _ fun _ => rfl, hframe _ fun _ => rfl, hframe _ fun _ => rfl,
      hdeclare _, hframe _ fun _ => rfl, hframe _ fun _ => rfl, hdeclare _, hframe _ fun _ => rfl,
      hframe _ fun _ => rfl, hdeclare _, hframe _ fun _ => rfl, hframe _ fun _ => rfl,
      hframe _ (requestNodeStateChange_declared _ _)⟩
  | reset d e =>
    apply Keeps.runSteps
    intro op hop
    apply hframe
    simp only [List.cons_append, List.mem_append, List.mem_cons, List.mem_map, List.not_mem_nil,
      or_false, or_assoc] at hop
    rcases hop with rfl | ⟨l, _, rfl⟩ | ⟨l, _, rfl⟩ | rfl | rfl | rfl | ⟨l, _, rfl⟩ | ⟨l, _, rfl⟩
    · exact requestNodeStateChange_declared _ _
    · exact setTimer_declared _ _
    · exact setUserTimer_declared _ _
    · exact fun _ => rfl
    · exact fun _ => rfl
    · exact requestNodeStateChange_declared _ _
    · exact setTimer_declared _ _
    · exact setUserTimer_declared _ _

/-! ### Cancelling and restarting timers -/

theorem runSteps_setTimer (t : Timer) {ls : List Loop} : ∀ {s : Node σ},
    (∀ l ∈ ls, (s.timers l).isSome) → runSteps (ls.map (setTimer t)) s =
      (.returned true, { s with timers := fun l => if l ∈ ls then some t else s.timers l }) := by
  induction ls with
  | nil =>
    intro s _
    simp
  | cons l ls ih =>
    intro s h
    obtain ⟨x, hx⟩ := Option.isSome_iff_exists.mp (h l List.mem_cons_self)
    have hstep : setTimer t l s =
        (.returned true, { s with timers := Function.update s.timers l (some t) }) := by
      unfold setTimer
      rw [hx]
    rw [List.map_cons, runSteps_cons_of_true hstep, ih]
    · congr 2
      funext k
      by_cases hk : k = l
      · subst hk
        simp
      · simp [hk]
    · intro k hk
      by_cases hkl : k = l
      · subst hkl
        simp
      · simpa [hkl] using h k (List.mem_cons_of_mem l hk)

theorem runSteps_setUserTimer (t : Timer) {ls : List Loop} : ∀ {s : Node σ},
    runSteps (ls.map (setUserTimer t)) s = (.returned true,
      { s with timers := fun l => if l ∈ ls then (s.timers l).map fun _ => t else s.timers l }) := by
  induction ls with
  | nil =>
    intro s
    simp
  | cons l ls ih =>
    intro s
    have hstep : setUserTimer t l s = (.returned true,
        { s with timers := Function.update s.timers l ((s.timers l).map fun _ => t) }) := by
      unfold setUserTimer setTimer
      cases hx : s.timers l with
      | none =>
        rw [if_neg (by simp), Option.map_none, ← hx, Function.update_eq_self]
      | some x => rfl
    rw [List.map_cons, runSteps_cons_of_true hstep, ih]
    congr 2
    funext k
    by_cases hk : k = l
    · subst hk
      simp [Function.comp_def]
    · simp [hk]

/-- The fixed timers of a node are not null. -/
def HasTimers (s : Node σ) : Prop := ∀ l ∈ fixedLoops, (s.timers l).isSome

theorem runSteps_setAll (t : Timer) {s : Node σ} (h : HasTimers s) :
    runSteps (fixedLoops.map (setTimer t) ++ userLoops.map (setUserTimer t)) s =
      (.returned true, { s with timers := fun l => (s.timers l).map fun _ => t }) := by
  rw [runSteps_append_of_true (runSteps_setTimer t h), runSteps_setUserTimer]
  congr 2
  funext l
  by_cases hl : l ∈ fixedLoops
  · obtain ⟨x, hx⟩ := Option.isSome_iff_exists.mp (h l hl)
    simp [hl, hx]
  · have huser : l ∈ userLoops := by
      revert hl
      cases l <;> decide
    simp [hl, huser]

/-- A node whose state can go to `STATE_STARTING`. -/
def Restartable (s : Node σ) : Prop :=
  s.nodeState = .initializing ∨ s.nodeState = .starting ∨ s.nodeState = .running

theorem requestNodeStateChange_starting {s : Node σ} (h : Restartable s) :
    requestNodeStateChange .starting false s = (.returned true, { s with nodeState := .starting }) := by
  obtain ⟨state, _⟩ := s
  rcases h with h | h | h
  all_goals
    change state = _ at h
    subst h
    rfl

theorem requestNodeStateChange_running {s : Node σ} (h : s.nodeState = .starting) :
    requestNodeStateChange .running false s = (.returned true, { s with nodeState := .running }) := by
  unfold requestNodeStateChange
  rw [h]
  rfl

/-- What `reset` does to a node with timers: the timers are cancelled, and restarted once both hooks
have succeeded. -/
theorem reset_eq (d e : Hook σ) {s : Node σ} (hs : Restartable s) (ht : HasTimers s) :
    reset d e s =
      if d.succeeds = false then
        (.returned false, { s with
          nodeState := .starting, timers := fun l => (s.timers l).map fun _ => .cancelled
          user := d.effect s.user })
      else if e.succeeds = false then
        (.returned false, { s with
          nodeState := .starting, timers := fun l => (s.timers l).map fun _ => .cancelled
          user := e.effect (d.effect s.user) })
      else (.returned true, { s with
          nodeState := .running, timers := fun l => (s.timers l).map fun _ => .active
          user := e.effect (d.effect s.user) }) := by
  have hsplit : reset d e = runSteps (requestNodeStateChange .starting false ::
      ((fixedLoops.map (setTimer .cancelled) ++ userLoops.map (setUserTimer .cancelled)) ++
        (d.call :: e.call :: requestNodeStateChange .running false ::
          (fixedLoops.map (setTimer .active) ++ userLoops.map (setUserTimer .active))))) := by
    unfold reset
    simp only [List.cons_append, List.append_assoc, List.nil_append]
  have hcancel := runSteps_setAll .cancelled (s := { s with nodeState := .starting }) ht
  rw [hsplit, runSteps_cons_of_true (requestNodeStateChange_starting hs),
    runSteps_append_of_true hcancel]
  by_cases hd : d.succeeds = false
  · rw [if_pos hd, runSteps_cons_of_stop (r := .returned false) (by rw [Hook.call, hd]) (by simp)]
  · rw [Bool.not_eq_false] at hd
    rw [if_neg (by simp [hd]), runSteps_cons_of_true (by rw [Hook.call, hd])]
    by_cases he : e.succeeds = false
    · rw [if_pos he, runSteps_cons_of_stop (r := .returned false) (by rw [Hook.call, he]) (by simp)]
    · rw [Bool.not_eq_false] at he
      rw [if_neg (by simp [he]), runSteps_cons_of_true (by rw [Hook.call, he]),
        runSteps_cons_of_true (requestNodeStateChange_running rfl), runSteps_setAll]
      · simp [Function.comp_def]
      · intro l hl
        simpa using ht l hl

end BaseNode
