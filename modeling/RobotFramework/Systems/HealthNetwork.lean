import Mathlib.Algebra.Order.Ring.Rat
import Mathlib.Tactic.Linarith
import RobotFramework.BaseNode.Spinning
import RobotFramework.LossyNetwork
import RobotFramework.SystemMonitor.HealthReports
import RobotFramework.SystemMonitor.StableRows

/-!
# Health over the network

Any number of base nodes publish heartbeats and ready-to-arm messages on their own topics, and the system
monitor files them under the names of the nodes. The messages are delayed, overtake each other and get
lost. Whatever happens in which order, a node is shown as running only if it has said so while it was
(`health_network_safe`), and one whose reset has failed is shown as unknown as soon as the monitor has not
heard of it for the timeout (`failed_reset_detected`).
-/

namespace Systems

open History LossyNetwork
open BaseNode (Program MainEvent Publication)
open SystemMonitor (NodeInfoWindow Heartbeat ReadyToArm commTimeoutThreshold)

/-! ## The code -/

/-- The numbers of `robot_framework_ros2::msg::NodeState`. -/
def stateNumber : BaseNode.NodeState → UInt8
  | .unknown => 0
  | .initializing => 1
  | .starting => 2
  | .running => 3
  | .paused => 4
  | .restart => 5
  | .finished => 6
  | .endOfList => 7

/-- What a node is deployed with, by its fully qualified name: its parameters, its host, the name it is
constructed with, and `get_name`. -/
structure Deployment where
  parameters : String → BaseNode.Parameters
  hostname : String → String
  baseNodeName : String → String
  getName : String → String

/-- A message on one of the two streams. -/
inductive HealthMessage where
  | heartbeat (msg : Heartbeat)
  | readyToArm (msg : ReadyToArm)
  deriving DecidableEq, Repr

/-- `m_heartbeat` and `m_readyToArm` as they are published; diagnostics go elsewhere. -/
def healthMessage (d : Deployment) (n : String) : Publication → Option HealthMessage
  | .heartbeat nodeState => some (.heartbeat
      { hostname := d.hostname n
        baseNodename := d.baseNodeName n
        nodename := d.getName n
        nodeState := ⟨stateNumber nodeState⟩ })
  | .message (.readyToArm systemID subsystemID _ ready) => some (.readyToArm
      { nodename := d.getName n
        systemId := .ofNat systemID
        subsystemId := .ofNat subsystemID
        readyToArm := ready })
  | .message (.diagnostic _) => none

/-- What the monitor gets, with the topic the message comes on. -/
def HealthMessage.event (n : String) : HealthMessage → SystemMonitor.MonitorEvent
  | .heartbeat msg => .heartbeat n msg
  | .readyToArm msg => .readyToArm n msg

/-- The nodes and the node window of the monitor. -/
def healthNetwork (d : Deployment) : System String Program MainEvent HealthMessage NodeInfoWindow Rat where
  act n q e :=
    let (q, published) := q.step (d.parameters n) e
    (q, published.filterMap (healthMessage d n))
  receive w n message := SystemMonitor.monitorStep w (message.event n)
  observe w currentTimeSec := (w.update currentTimeSec).1

/-- What has happened since the nodes and the monitor were constructed. -/
def healthRun (d : Deployment) (t₀ : Rat) (hasWindow : Bool) (actions : List (Action String MainEvent Rat)) :
    World String Program HealthMessage NodeInfoWindow :=
  run (LossyNetwork.step (healthNetwork d)) (.initial (fun _ => .initial) (.initial t₀ hasWindow)) actions

/-! ## What the rows say -/

/-- What a row says of its node, by what the node has sent. -/
structure Shown (sent : List HealthMessage) (row : SystemMonitor.NodeData) : Prop where
  heard : sent ≠ []
  state : row.state = .unknown ∨ row.state = .starting ∨
    row.state = .running ∧ ∃ msg, .heartbeat msg ∈ sent ∧ msg.nodeState = .running
  readyToArm : row.readyToArm = "UNKNOWN" ∨ ∃ msg, .readyToArm msg ∈ sent ∧ row.readyToArm = msg.text

/-- A heartbeat reports `STATE_RUNNING`. -/
def HealthMessage.Running : HealthMessage → Prop
  | .heartbeat msg => msg.nodeState = .running
  | .readyToArm _ => True

theorem Shown.grows {sent sent' : List HealthMessage} (h : sent ⊆ sent') {row : SystemMonitor.NodeData}
    (hrow : Shown sent row) : Shown sent' row := by
  refine ⟨fun hnone => hrow.heard (List.subset_nil.mp (hnone ▸ h)), ?_, ?_⟩
  · refine hrow.state.imp_right (Or.imp_right fun ⟨hrunning, msg, hmem, hstate⟩ => ?_)
    exact ⟨hrunning, msg, h hmem, hstate⟩
  · exact hrow.readyToArm.imp_right fun ⟨msg, hmem, htext⟩ => ⟨msg, h hmem, htext⟩

theorem Shown.update {sent : List HealthMessage} {row : SystemMonitor.NodeData} (h : Shown sent row)
    (t : Rat) : Shown sent (row.update t) := by
  unfold SystemMonitor.NodeData.update
  dsimp only
  split_ifs
  · exact ⟨h.heard, Or.inl rfl, Or.inl rfl⟩
  · exact ⟨h.heard, h.state, h.readyToArm⟩

theorem row_receive (w : NodeInfoWindow) (n k : String) (m : HealthMessage) :
    (SystemMonitor.monitorStep w (m.event k)).row n =
      SystemMonitor.rowStep n (UInt16.ofNat w.nodes.entries.length) w.currentTimeSec (w.row n)
        (m.event k).toEvent := by
  rw [SystemMonitor.monitorStep_eq, SystemMonitor.row_step]

theorem row_receive_of_ne (w : NodeInfoWindow) {n k : String} (h : k ≠ n) (m : HealthMessage) :
    (SystemMonitor.monitorStep w (m.event k)).row n = w.row n := by
  rw [row_receive]
  cases m <;> exact if_neg h

theorem Shown.receive {sent : List HealthMessage} {n : String} {id : UInt16} {now : Rat}
    {old : Option SystemMonitor.NodeData} (h : ∀ row, old = some row → Shown sent row) {m : HealthMessage}
    (hm : m ∈ sent) (hrunning : m.Running) {row : SystemMonitor.NodeData}
    (hrow : SystemMonitor.rowStep n id now old (m.event n).toEvent = some row) : Shown sent row := by
  have hheard : sent ≠ [] := List.ne_nil_of_mem hm
  cases m with
  | heartbeat msg =>
    have hreceived := (SystemMonitor.received_self n _ _ old).symm.trans hrow
    cases old with
    | none =>
      rw [← Option.some.inj hreceived]
      exact ⟨hheard, Or.inr (Or.inl rfl), Or.inl rfl⟩
    | some before =>
      rw [← Option.some.inj hreceived]
      exact ⟨hheard, Or.inr (Or.inr ⟨hrunning, msg, hm, hrunning⟩), (h before rfl).readyToArm⟩
  | readyToArm msg =>
    have hreceived := (SystemMonitor.received_self n _ _ old).symm.trans hrow
    cases old with
    | none =>
      rw [← Option.some.inj hreceived]
      exact ⟨hheard, Or.inr (Or.inl rfl), Or.inl rfl⟩
    | some before =>
      rw [← Option.some.inj hreceived]
      exact ⟨hheard, (h before rfl).state, Or.inr ⟨msg, hm, rfl⟩⟩

theorem health_rule (d : Deployment) :
    Rule (healthNetwork d) (fun _ q => q.Valid) (fun _ m => m.Running)
      fun sent w => ∀ n row, w.row n = some row → Shown (sent n) row where
  act n q e hq := by
    obtain ⟨hvalid, hreports⟩ := hq.step (d.parameters n) e
    refine ⟨hvalid, fun m hm => ?_⟩
    obtain ⟨published, hpublished, hmessage⟩ := List.mem_filterMap.mp hm
    cases published with
    | heartbeat nodeState =>
      obtain rfl := Option.some.inj hmessage
      have hstate := hreports _ hpublished nodeState rfl
      show SystemMonitor.NodeState.mk (stateNumber nodeState) = .running
      rw [hstate]
      rfl
    | message published =>
      cases published with
      | diagnostic _ => cases hmessage
      | readyToArm _ _ _ _ =>
        obtain rfl := Option.some.inj hmessage
        exact trivial
  grows sent sent' w hgrows h n row hrow := (h n row hrow).grows (hgrows n)
  receive sent w k m h hm hrunning n row hrow := by
    by_cases hn : k = n
    · subst hn
      exact Shown.receive (h k) hm hrunning ((row_receive w k k m).symm.trans hrow)
    · exact h n row ((row_receive_of_ne w hn m).symm.trans hrow)
  observe sent w t h n row hrow := by
    obtain ⟨before, hbefore, rfl⟩ := Option.map_eq_some_iff.mp
      ((SystemMonitor.Nodes.lookup_update t w.nodes n).symm.trans hrow)
    exact (h n before hbefore).update t

theorem health_holds (d : Deployment) (t₀ : Rat) (hasWindow : Bool)
    (actions : List (Action String MainEvent Rat)) :
    Holds (fun _ q => q.Valid) (fun _ m => m.Running)
      (fun sent w => ∀ n row, w.row n = some row → Shown (sent n) row)
      (healthRun d t₀ hasWindow actions) := by
  have hobserver : ∀ n row, (NodeInfoWindow.initial t₀ hasWindow).row n = some row → Shown [] row := by
    intro n row hrow
    simp [NodeInfoWindow.row, NodeInfoWindow.initial] at hrow
  exact (health_rule d).holds_run (fun _ => BaseNode.valid_initial) hobserver actions

theorem Shown.ready {sent : List HealthMessage} {row : SystemMonitor.NodeData} (h : Shown sent row)
    (htrue : row.readyToArm = "TRUE") : ∃ msg, .readyToArm msg ∈ sent ∧
      msg.readyToArm = true ∧ msg.systemId ≠ 0 ∧ msg.subsystemId ≠ 0 := by
  rcases h.readyToArm with hunknown | ⟨msg, hmem, htext⟩
  · rw [hunknown] at htrue
    exact absurd htrue (by decide)
  · rw [htext] at htrue
    unfold ReadyToArm.text at htrue
    split_ifs at htrue with hids hready
    · exact absurd htrue (by decide)
    · exact ⟨msg, hmem, hready, fun h => hids (Or.inl h), fun h => hids (Or.inr h)⟩
    · exact absurd htrue (by decide)

/-- **Shown health is what was said.** After every interleaving of any number of nodes with the monitor,
whatever is lost or late: a spinning node runs with all its timers, or waits without any of them; every
heartbeat that was ever sent reports that its node was running; and the monitor has a row only for a node
that has sent something, which shows unknown, starting (before the second message), or running if the node
has sent a heartbeat, and which says that the node is ready to arm only if the node has said so with the
ids of its system and subsystem. -/
theorem health_network_safe (d : Deployment) (t₀ : Rat) (hasWindow : Bool)
    (actions : List (Action String MainEvent Rat)) :
    let w := healthRun d t₀ hasWindow actions
    (∀ n, (w.parties n).stage = .spinning →
        ((w.parties n).node.nodeState = .running ∧ BaseNode.AllTimers .active (w.parties n).node) ∨
          ((w.parties n).node.nodeState = .starting ∧ BaseNode.AllTimers .cancelled (w.parties n).node)) ∧
      (∀ n msg, .heartbeat msg ∈ w.sent n → msg.nodeState = .running) ∧
      ∀ n row, w.observer.row n = some row → Shown (w.sent n) row ∧
        (row.readyToArm = "TRUE" → ∃ msg, .readyToArm msg ∈ w.sent n ∧
          msg.readyToArm = true ∧ msg.systemId ≠ 0 ∧ msg.subsystemId ≠ 0) := by
  have hholds := health_holds d t₀ hasWindow actions
  exact ⟨fun n hstage => ((hholds.parties n).spins hstage).state, fun n msg hmem => hholds.sent n _ hmem,
    fun n row hrow => ⟨hholds.observer n row hrow, (hholds.observer n row hrow).ready⟩⟩

/-! ## A node whose reset has failed -/

/-- The times of the updates of the monitor. -/
def monitorTimes (actions : List (Action String MainEvent Rat)) : List Rat :=
  actions.filterMap fun
    | .observe t => some t
    | _ => none

theorem monitorTimes_concat (actions : List (Action String MainEvent Rat)) (a : Action String MainEvent Rat) :
    monitorTimes (actions ++ [a]) = monitorTimes actions ++ monitorTimes [a] := by
  unfold monitorTimes
  rw [List.filterMap_append]

/-- The row of a node is not dated later than a time. -/
def Dated (n : String) (T : Rat) (w : NodeInfoWindow) : Prop :=
  ∀ row, w.row n = some row → row.lastHeartbeat ≤ T

theorem Dated.update {n : String} {T : Rat} {w : NodeInfoWindow} (h : Dated n T w) (t : Rat) :
    Dated n T (w.update t).1 := by
  intro row hrow
  obtain ⟨before, hbefore, rfl⟩ := Option.map_eq_some_iff.mp
    ((SystemMonitor.Nodes.lookup_update t w.nodes n).symm.trans hrow)
  rw [(SystemMonitor.update_fields before t).1]
  exact h before hbefore

theorem Dated.receive_of_ne {n k : String} {T : Rat} {w : NodeInfoWindow} (h : Dated n T w) (hk : k ≠ n)
    (m : HealthMessage) : Dated n T (SystemMonitor.monitorStep w (m.event k)) := by
  intro row hrow
  rw [row_receive_of_ne w hk m] at hrow
  exact h row hrow

/-- A message is dated with the time of the window, and the first one with 0. -/
theorem Dated.receive {n : String} {T : Rat} {w : NodeInfoWindow} (h : Dated n T w) (hT : 0 ≤ T)
    (hw : w.currentTimeSec ≤ T) (k : String) (m : HealthMessage) :
    Dated n T (SystemMonitor.monitorStep w (m.event k)) := by
  by_cases hk : k = n
  · subst hk
    intro row hrow
    rw [row_receive] at hrow
    cases m with
    | heartbeat msg | readyToArm msg =>
      have hreceived := (SystemMonitor.received_self k _ _ (w.row k)).symm.trans hrow
      cases hold : w.row k with
      | none =>
        rw [hold] at hreceived
        rw [← Option.some.inj hreceived]
        exact hT
      | some before =>
        rw [hold] at hreceived
        rw [← Option.some.inj hreceived]
        exact hw
  · exact h.receive_of_ne hk m

theorem currentTimeSec_receive (w : NodeInfoWindow) (k : String) (m : HealthMessage) :
    (SystemMonitor.monitorStep w (m.event k)).currentTimeSec = w.currentTimeSec := by
  rw [SystemMonitor.monitorStep_eq, SystemMonitor.currentTimeSec_step]
  cases m <;> rfl

/-- With a clock that is not set back from a time that is not negative, no row is dated later than now. -/
theorem dated_run (d : Deployment) {t₀ : Rat} (ht₀ : 0 ≤ t₀) (hasWindow : Bool)
    (actions : List (Action String MainEvent Rat)) (hmono : (t₀ :: monitorTimes actions).Pairwise (· ≤ ·)) :
    let w := (healthRun d t₀ hasWindow actions).observer
    w.currentTimeSec ∈ t₀ :: monitorTimes actions ∧ 0 ≤ w.currentTimeSec ∧ ∀ n, Dated n w.currentTimeSec w := by
  dsimp only
  refine run_invariant
    (I := fun actions (w : World String Program HealthMessage NodeInfoWindow) =>
      (t₀ :: monitorTimes actions).Pairwise (· ≤ ·) →
      w.observer.currentTimeSec ∈ t₀ :: monitorTimes actions ∧ 0 ≤ w.observer.currentTimeSec ∧
        ∀ n, Dated n w.observer.currentTimeSec w.observer) ?_ ?_ actions hmono
  · exact fun _ => ⟨List.mem_cons_self, ht₀, fun n row hrow => by
      simp [World.initial, NodeInfoWindow.row, NodeInfoWindow.initial] at hrow⟩
  intro past w a h hpast
  rw [monitorTimes_concat, ← List.cons_append] at hpast ⊢
  obtain ⟨hbefore, -, hlater⟩ := List.pairwise_append.mp hpast
  obtain ⟨hmem, hnonneg, hdated⟩ := h hbefore
  have hmem' : w.observer.currentTimeSec ∈ t₀ :: monitorTimes past ++ monitorTimes [a] :=
    List.mem_append_left _ hmem
  cases a with
  | act n e => exact ⟨hmem', hnonneg, hdated⟩
  | lose n k => exact ⟨hmem', hnonneg, hdated⟩
  | deliver n k =>
    cases hmessage : (w.inFlight n)[k]? with
    | none =>
      rw [step_deliver_none hmessage]
      exact ⟨hmem', hnonneg, hdated⟩
    | some m =>
      have htime := currentTimeSec_receive w.observer n m
      rw [step_deliver_some hmessage]
      show (SystemMonitor.monitorStep w.observer (m.event n)).currentTimeSec ∈ _ ∧
        0 ≤ (SystemMonitor.monitorStep w.observer (m.event n)).currentTimeSec ∧
        ∀ k, Dated k (SystemMonitor.monitorStep w.observer (m.event n)).currentTimeSec
          (SystemMonitor.monitorStep w.observer (m.event n))
      rw [htime]
      exact ⟨hmem', hnonneg, fun k => (hdated k).receive hnonneg le_rfl n m⟩
  | observe t =>
    have hlate : w.observer.currentTimeSec ≤ t := hlater _ hmem t (List.mem_singleton_self t)
    refine ⟨List.mem_append_right _ (List.mem_singleton_self t), hnonneg.trans hlate, fun n row hrow => ?_⟩
    exact ((hdated n).update t row hrow).trans hlate

/-- **Failed resets are detected.** Take any run of the network, with a clock of the monitor that is not set
back, that leaves a node waiting after a failed reset and none of its messages in flight. Whatever happens
then except for another reset of the node, the first update of the monitor that is more than the timeout
after its last one shows the node as unknown, and not ready to arm. -/
theorem failed_reset_detected (d : Deployment) (t₀ : Rat) (ht₀ : 0 ≤ t₀) (hasWindow : Bool)
    (past later : List (Action String MainEvent Rat)) (n : String) (t : Rat)
    (hmono : (t₀ :: monitorTimes past).Pairwise (· ≤ ·))
    (hspinning : ((healthRun d t₀ hasWindow past).parties n).stage = .spinning)
    (hfailed : ((healthRun d t₀ hasWindow past).parties n).node.nodeState ≠ .running)
    (hflight : (healthRun d t₀ hasWindow past).inFlight n = [])
    (hlater : ∀ e, .act n e ∈ later → e.isReset = false)
    (ht : commTimeoutThreshold < t - (healthRun d t₀ hasWindow past).observer.currentTimeSec) :
    let w := healthRun d t₀ hasWindow (past ++ later ++ [.observe t])
    w.sent n = (healthRun d t₀ hasWindow past).sent n ∧
      ∀ row, w.observer.row n = some row → row.state = .unknown ∧ row.readyToArm = "UNKNOWN" := by
  have hholds := health_holds d t₀ hasWindow past
  have hstopped := (hholds.parties n).stopped hspinning hfailed
  obtain ⟨-, -, hdated⟩ := dated_run d ht₀ hasWindow past hmono
  have hsilent : Silent (healthNetwork d) n Program.Stopped fun e => e.isReset = false := by
    refine ⟨fun q e hq he => ?_⟩
    have hnothing := hq.step (d.parameters n) he
    show Program.Stopped (q.step (d.parameters n) e).1 ∧
      List.filterMap _ (q.step (d.parameters n) e).2 = []
    rw [hnothing]
    exact ⟨hq, rfl⟩
  obtain ⟨hsent, hafter⟩ := hsilent.run (V := Dated n (healthRun d t₀ hasWindow past).observer.currentTimeSec)
    (fun w k m hk h => h.receive_of_ne hk m) (fun w u h => h.update u) hlater hstopped hflight (hdated n)
  have hrun : healthRun d t₀ hasWindow (past ++ later ++ [.observe t]) =
      LossyNetwork.step (healthNetwork d)
        (run (LossyNetwork.step (healthNetwork d)) (healthRun d t₀ hasWindow past) later) (.observe t) := by
    unfold healthRun
    rw [run_concat, run_append]
  dsimp only
  rw [hrun]
  refine ⟨hsent, fun row hrow => ?_⟩
  obtain ⟨before, hbefore, rfl⟩ := Option.map_eq_some_iff.mp
    ((SystemMonitor.Nodes.lookup_update t _ n).symm.trans hrow)
  have hlast := hafter before hbefore
  have htimeout : t - before.lastHeartbeat > commTimeoutThreshold := by linarith
  unfold SystemMonitor.NodeData.update
  dsimp only
  rw [if_pos htimeout]
  exact ⟨rfl, rfl⟩

/-- A robot whose nodes all have one user loop. -/
def oneLoopDeployment : Deployment where
  parameters _ := ⟨"NOTICE", [], [], ⟨2, -1, -1⟩⟩
  hostname _ := "pi"
  baseNodeName _ := "base"
  getName n := n

/-- A call of `init` in which everything succeeds. -/
def successfulInit : BaseNode.InitHooks BaseNode.UserData where
  loggerInit := true
  baseInitPubSubs := true
  baseInitServices := true
  baseInitDiagnostics := true
  baseInitData := true
  loadConfig := .succeeding
  initPubSubs := .succeeding
  initServices := .succeeding
  initDiagnostics := .succeeding
  initData := .succeeding

/-- The node starts, its second heartbeat reaches the monitor before the first one, and its reset fails. -/
def failedReset : List (Action String MainEvent Rat) :=
  let heartbeat : Action String MainEvent Rat := .act "/imu" (.fire ⟨.loop10Hz, 0, id⟩)
  [.act "/imu" (.init successfulInit), .act "/imu" .start, heartbeat, heartbeat, .observe 1,
    .deliver "/imu" 1, .deliver "/imu" 0, .act "/imu" (.reset ⟨false, id⟩ .succeeding)]

theorem failedReset_detected :
    let w := healthRun oneLoopDeployment 0 true
      (failedReset ++ [.act "/imu" (.fire ⟨.loop10Hz, 0, id⟩)] ++ [.observe 7])
    w.sent "/imu" = (healthRun oneLoopDeployment 0 true failedReset).sent "/imu" ∧
      ∀ row, w.observer.row "/imu" = some row → row.state = .unknown ∧ row.readyToArm = "UNKNOWN" :=
  failed_reset_detected oneLoopDeployment 0 le_rfl true failedReset _ "/imu" 7 (by decide +kernel)
    (by decide +kernel) (by decide +kernel) (by decide +kernel) (by simp [MainEvent.isReset])
    (by decide +kernel)

end Systems
