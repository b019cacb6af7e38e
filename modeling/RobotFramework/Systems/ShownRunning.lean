import RobotFramework.Systems.MonitoredRobot

/-!
# A node that is heard is shown

A heartbeat that reaches the monitor when a rescan has found its topic, and the node is listed already, shows the node
as running on its host. Nothing that happens then can change that before the timeout: not the other nodes, not what
the rescans find, not the keys, and not the node itself, since whatever it sends says the same
(`heard_node_shown`).
-/

namespace Systems

open History LossyNetwork
open BaseNode (Program Publication)
open SystemMonitor (Desk Drawing Found Graph Heartbeat Identity ListsTopics MonitorProcess NodeInfoWindow OneTopicType
  StreamMessage Terminal TopicQuery commTimeoutThreshold privateTopic rescans)

/-- The heartbeat of a running node. -/
def Deployment.heartbeat (d : Deployment) (n : String) : Heartbeat where
  hostname := d.hostname n
  baseNodename := d.baseNodeName n
  nodename := d.getName n
  nodeState := .running

def Observation.snapshot : Observation → Option Graph
  | .rescan snapshot => some snapshot
  | _ => none

/-- The snapshots of the rescans in a run. -/
def rescanned (actions : List (Action String ClockedEvent Observation)) : List Graph :=
  (actions.filterMap Action.observation).filterMap Observation.snapshot

/-- The clock of the node window at the turns of a run. -/
def turnTimes (actions : List (Action String ClockedEvent Observation)) : List Rat :=
  (actions.filterMap Action.observation).filterMap (Observation.turnTime "node_info_window")

/-- From a time on a node is shown as running, on its host and under its base name. -/
structure ShownRunning (d : Deployment) (n : String) (s : Rat) (w : NodeInfoWindow) : Prop where
  clock : s ≤ w.currentTimeSec
  row : ∃ row, w.row n = some row ∧ row.state = .running ∧ row.hostDevice = d.hostname n ∧
    row.baseNodeName = d.baseNodeName n ∧ s ≤ row.lastHeartbeat

section Window

variable {d : Deployment} {n : String} {s : Rat} {w : NodeInfoWindow}

theorem ShownRunning.update (h : ShownRunning d n s w) {t : Rat} (ht : s ≤ t)
    (hfresh : t - s ≤ commTimeoutThreshold) : ShownRunning d n s (w.update t).1 := by
  obtain ⟨row, hrow, hstate, hhost, hbase, hstamp⟩ := h.row
  obtain ⟨hstamp', hhost', hbase'⟩ := SystemMonitor.update_fields row t
  have hnot : ¬ commTimeoutThreshold < t - row.lastHeartbeat := by linarith
  refine ⟨ht, row.update t, ?_, ?_, hhost'.trans hhost, hbase'.trans hbase, hstamp'.symm ▸ hstamp⟩
  · refine (SystemMonitor.Nodes.lookup_update t w.nodes n).trans ?_
    exact congrArg (Option.map (·.update t)) hrow
  · rw [SystemMonitor.update_state, if_neg hnot]
    exact hstate

theorem shownRunning_of_heartbeat {row : SystemMonitor.NodeData} (hrow : w.row n = some row)
    (hclock : s ≤ w.currentTimeSec) :
    ShownRunning d n s (SystemMonitor.monitorStep w ((HealthMessage.heartbeat (d.heartbeat n)).event n)) := by
  refine ⟨?_, row.newHeartbeatMsg w.currentTimeSec { d.heartbeat n with nodename := n }, ?_, rfl, rfl, rfl, hclock⟩
  · rw [currentTimeSec_receive]
    exact hclock
  · rw [row_receive, hrow]
    exact SystemMonitor.received_self n _ _ _

theorem ShownRunning.receive (h : ShownRunning d n s w) (k : String) {m : HealthMessage}
    (hm : ∀ msg, m = .heartbeat msg → msg = d.heartbeat k) :
    ShownRunning d n s (SystemMonitor.monitorStep w (m.event k)) := by
  obtain ⟨row, hrow, hstate, hhost, hbase, hstamp⟩ := h.row
  by_cases hk : k = n
  · subst hk
    cases m with
    | heartbeat msg =>
      rw [hm msg rfl]
      exact shownRunning_of_heartbeat hrow h.clock
    | readyToArm msg =>
      refine ⟨?_, row.newReadyToArmMsg w.currentTimeSec { msg with nodename := k }, ?_, hstate, hhost, hbase,
        h.clock⟩
      · rw [currentTimeSec_receive]
        exact h.clock
      · rw [row_receive, hrow]
        exact SystemMonitor.received_self k _ _ _
  · refine ⟨?_, row, ?_, hstate, hhost, hbase, hstamp⟩
    · rw [currentTimeSec_receive]
      exact h.clock
    · rw [row_receive_of_ne w hk]
      exact hrow

end Window

variable (d : Deployment) (numbers : DiagnosticNumbers) (drawing : Drawing) (me : Identity)
  (getTopicNamesAndTypes : TopicQuery) (terminal : Terminal)

theorem robot_rule : Rule (robotNetwork d numbers drawing me getTopicNamesAndTypes) (fun _ q => q.Valid)
    (fun n m => ∀ msg, m = .heartbeat msg → msg = d.heartbeat n) (fun _ _ => True) where
  act n q e hq := by
    obtain ⟨hvalid, hreports⟩ := hq.step (d.parameters n) e.event
    refine ⟨hvalid, fun m hm msg hmsg => ?_⟩
    subst hmsg
    rcases List.mem_append.mp hm with hm | hm
    · obtain ⟨x, -, hx⟩ := List.mem_map.mp hm
      cases hx
    · obtain ⟨m, hm, hstream⟩ := List.mem_map.mp hm
      obtain ⟨published, hpublished, hmessage⟩ := List.mem_filterMap.mp hm
      cases m with
      | readyToArm x => cases hstream
      | heartbeat x =>
        obtain rfl := StreamMessage.heartbeat.inj hstream
        cases published with
        | message y => cases y <;> cases hmessage
        | heartbeat nodeState =>
          have hstate := hreports _ hpublished nodeState rfl
          rw [← HealthMessage.heartbeat.inj (Option.some.inj hmessage), hstate]
          rfl
  grows _ _ _ _ _ := trivial
  receive _ _ _ _ _ _ _ := trivial
  observe _ _ _ _ := trivial

theorem monitor_robotRun (actions : List (Action String ClockedEvent Observation)) :
    (robotRun d numbers drawing me getTopicNamesAndTypes terminal actions).observer.monitor =
      rescans me getTopicNamesAndTypes (rescanned actions) := by
  refine run_invariant (I := fun actions (w : World String Program StreamMessage MonitorProcess) =>
    w.observer.monitor = rescans me getTopicNamesAndTypes (rescanned actions)) rfl ?_ actions
  intro past w a h
  unfold rescanned rescans
  rw [List.filterMap_append, List.filterMap_append, run_append]
  cases a with
  | act n e | lose n k => exact h
  | deliver n k =>
    cases hmessage : (w.inFlight n)[k]? with
    | none =>
      rw [step_deliver_none hmessage]
      exact h
    | some m =>
      rw [step_deliver_some hmessage]
      exact h
  | observe o =>
    cases o with
    | rescan snapshot => exact congrArg (SystemMonitor.rescanROSNetwork me getTopicNamesAndTypes · snapshot) h
    | armCommand msg | run10Hz key available now => exact h

theorem shownRunning_step {n : String} {s : Rat} {w : World String Program StreamMessage MonitorProcess}
    (hmessages : ∀ k, ∀ m ∈ w.inFlight k, ∀ msg, m = .heartbeat msg → msg = d.heartbeat k)
    {window : NodeInfoWindow} (hview : Displays (fun desk => desk.nodeInfo.toNodeInfoWindow) w.observer window)
    (hshown : ShownRunning d n s window) (a : Action String ClockedEvent Observation)
    (hturns : ∀ t ∈ turnTimes [a], s ≤ t ∧ t - s ≤ commTimeoutThreshold) :
    ∃ window', Displays (fun desk => desk.nodeInfo.toNodeInfoWindow)
        (step (robotNetwork d numbers drawing me getTopicNamesAndTypes) w a).observer window' ∧
      ShownRunning d n s window' := by
  cases a with
  | act k e | lose k j => exact ⟨window, hview, hshown⟩
  | deliver k j =>
    cases hmessage : (w.inFlight k)[j]? with
    | none =>
      rw [step_deliver_none hmessage]
      exact ⟨window, hview, hshown⟩
    | some m =>
      rw [step_deliver_some hmessage]
      have hcontent := hmessages k m (List.mem_of_getElem? hmessage)
      rcases (healthSimulation d numbers drawing me getTopicNamesAndTypes).receive w.observer window k m hview with
        hignored | ⟨m', hpart, htaken⟩
      · exact ⟨window, hignored, hshown⟩
      · refine ⟨_, htaken, hshown.receive k fun msg hmsg => hcontent msg ?_⟩
        subst hmsg
        cases m with
        | heartbeat x => rw [HealthMessage.heartbeat.inj (Option.some.inj hpart)]
        | diagnostic x | readyToArm x => cases hpart
  | observe o =>
    have hobserved := (healthSimulation d numbers drawing me getTopicNamesAndTypes).observe w.observer window o hview
    cases o with
    | rescan snapshot | armCommand msg => exact ⟨window, hobserved, hshown⟩
    | run10Hz key available now =>
      obtain ⟨ht, hfresh⟩ := hturns (now "node_info_window") (List.mem_singleton_self _)
      exact ⟨_, hobserved, hshown.update ht hfresh⟩

theorem shownRunning_run {n : String} {s : Rat} {w : World String Program StreamMessage MonitorProcess}
    (hholds : Holds (fun _ q => q.Valid) (fun n m => ∀ msg, m = .heartbeat msg → msg = d.heartbeat n)
      (fun _ _ => True) w)
    {window : NodeInfoWindow} (hview : Displays (fun desk => desk.nodeInfo.toNodeInfoWindow) w.observer window)
    (hshown : ShownRunning d n s window) (later : List (Action String ClockedEvent Observation))
    (hturns : ∀ t ∈ turnTimes later, s ≤ t ∧ t - s ≤ commTimeoutThreshold) :
    ∃ window', Displays (fun desk => desk.nodeInfo.toNodeInfoWindow)
        (run (step (robotNetwork d numbers drawing me getTopicNamesAndTypes)) w later).observer window' ∧
      ShownRunning d n s window' := by
  induction later generalizing w window with
  | nil => exact ⟨window, hview, hshown⟩
  | cons a later ih =>
    have hsplit : turnTimes (a :: later) = turnTimes [a] ++ turnTimes later := by
      unfold turnTimes
      rw [← List.singleton_append, List.filterMap_append, List.filterMap_append]
    rw [hsplit] at hturns
    obtain ⟨window', hview', hshown'⟩ := shownRunning_step d numbers drawing me getTopicNamesAndTypes
      (fun k m hm => hholds.sent k m (hholds.inFlight k hm)) hview hshown a
      fun t ht => hturns t (List.mem_append_left _ ht)
    exact ih ((robot_rule d numbers drawing me getTopicNamesAndTypes).holds_step hholds a) hview' hshown'
      fun t ht => hturns t (List.mem_append_right _ ht)

/-- **A node that is heard is shown.** Take any run of the robot after which a heartbeat of a node is in flight, a
rescan has found its topic, and the node is listed. If the heartbeat arrives now, then whatever happens later, the
node is shown as running, on the host and under the base name that it is deployed with, as long as the turns of the
monitor come within the timeout after the time that the window has now. -/
theorem heard_node_shown (hquery : ListsTopics getTopicNamesAndTypes)
    (past later : List (Action String ClockedEvent Observation)) (n : String) (k : Nat) {msg : Heartbeat}
    {list : SystemMonitor.KeyedWindow} :
    let w := robotRun d numbers drawing me getTopicNamesAndTypes terminal past
    OneTopicType (rescanned past) → Found me (rescanned past) (privateTopic n "heartbeat") .heartbeat →
    (w.inFlight n)[k]? = some (.heartbeat msg) → w.observer.node.nodeInfoWindow = some list →
    (list.row n).isSome = true →
    (∀ t ∈ turnTimes later, list.currentTimeSec ≤ t ∧ t - list.currentTimeSec ≤ commTimeoutThreshold) →
    ∃ list' row,
      (robotRun d numbers drawing me getTopicNamesAndTypes terminal
        (past ++ .deliver n k :: later)).observer.node.nodeInfoWindow = some list' ∧
      list'.row n = some row ∧ row.state = .running ∧ row.hostDevice = d.hostname n ∧
      row.baseNodeName = d.baseNodeName n := by
  intro w hone hfound hmessage hlist hlisted hturns
  have hholds : Holds (fun _ q => q.Valid) (fun n m => ∀ msg, m = .heartbeat msg → msg = d.heartbeat n)
      (fun _ _ => True) w :=
    (robot_rule d numbers drawing me getTopicNamesAndTypes).holds_run (fun _ => BaseNode.valid_initial) trivial past
  obtain rfl : msg = d.heartbeat n :=
    hholds.sent n _ (hholds.inFlight n (List.mem_of_getElem? hmessage)) msg rfl
  obtain ⟨row, hrow⟩ := Option.isSome_iff_exists.mp hlisted
  obtain ⟨shown, healthActions, hshown, hwindow, hrelated, -⟩ :=
    nodeInfoWindow_run d numbers drawing me getTopicNamesAndTypes terminal past
  obtain rfl := Option.some.inj (hlist.symm.trans hshown)
  have hdisplays : Displays (fun desk => desk.nodeInfo.toNodeInfoWindow) w.observer list.toNodeInfoWindow :=
    hwindow ▸ hrelated.observer
  -- the heartbeat runs its callback, which shows the node as running
  have hcallback : w.observer.callbacks (.message (privateTopic n "heartbeat") (.heartbeat (d.heartbeat n))) =
      [(StreamMessage.heartbeat (d.heartbeat n)).callback (privateTopic n "heartbeat")] :=
    (SystemMonitor.MonitorProcess.callbacks_message hquery
      (monitor_robotRun d numbers drawing me getTopicNamesAndTypes terminal past) hone _ _).1 hfound
  have hevents : ((StreamMessage.heartbeat (d.heartbeat n)).callback (privateTopic n "heartbeat")).windowEvents =
      [((HealthMessage.heartbeat (d.heartbeat n)).event n).toEvent] :=
    windowEvents_stream n (.heartbeat (d.heartbeat n))
  have hview := hdisplays.step drawing me getTopicNamesAndTypes (Desk.row_run drawing)
    (.message (privateTopic n "heartbeat") (.heartbeat (d.heartbeat n)))
  rw [hcallback, List.flatMap_singleton, hevents] at hview
  have hstarts : ShownRunning d n list.currentTimeSec
      (SystemMonitor.step list.toNodeInfoWindow ((HealthMessage.heartbeat (d.heartbeat n)).event n).toEvent) := by
    rw [← SystemMonitor.monitorStep_eq]
    exact shownRunning_of_heartbeat hrow le_rfl
  -- and the rest of the run keeps it so
  have hdelivered : step (robotNetwork d numbers drawing me getTopicNamesAndTypes) w (.deliver n k) = _ :=
    step_deliver_some hmessage
  have hnext := (robot_rule d numbers drawing me getTopicNamesAndTypes).holds_step hholds (.deliver n k)
  rw [hdelivered] at hnext
  obtain ⟨window, ⟨desk, -, hnode, rfl⟩, hend⟩ :=
    shownRunning_run d numbers drawing me getTopicNamesAndTypes hnext hview hstarts later hturns
  obtain ⟨row', hrow', hstate, hhost, hbase, -⟩ := hend.row
  refine ⟨desk.nodeInfo, row', ?_, hrow', hstate, hhost, hbase⟩
  have hrun : robotRun d numbers drawing me getTopicNamesAndTypes terminal (past ++ .deliver n k :: later) =
      run (step (robotNetwork d numbers drawing me getTopicNamesAndTypes))
        (step (robotNetwork d numbers drawing me getTopicNamesAndTypes) w (.deliver n k)) later := by
    unfold robotRun
    rw [run_append, run_cons]
    rfl
  rw [hrun, hdelivered]
  exact congrArg SystemMonitor.MonitorNode.nodeInfoWindow hnode

/-- A node starts, and is found; its first heartbeat has come, and the second one is on its way. -/
def imuRuns : List (Action String ClockedEvent Observation) :=
  let call (e : BaseNode.MainEvent) : Action String ClockedEvent Observation :=
    .act "/imu_node1" ⟨e, fun _ => ⟨0, 0⟩⟩
  [call (.init successfulInit), call .start, call (.fire ⟨.loop10Hz, 0, id⟩), call (.fire ⟨.loop10Hz, 0, id⟩),
    .observe (.rescan ⟨[SystemMonitor.imuHeartbeat], []⟩), .observe (.run10Hz (-1) (fun _ => false) fun _ => 1),
    .deliver "/imu_node1" 0]

theorem imuRuns_found :
    Found SystemMonitor.systemMonitor (rescanned imuRuns) (privateTopic "/imu_node1" "heartbeat") .heartbeat := by
  refine ⟨[], ⟨[SystemMonitor.imuHeartbeat], []⟩, [], rfl, ?_, fun g hg => ?_⟩
  · exact ⟨SystemMonitor.imuHeartbeat, List.mem_singleton_self _, by decide, rfl⟩
  · rw [List.mem_singleton.mp hg]
    decide

def imuRobot (actions : List (Action String ClockedEvent Observation)) :
    World String Program StreamMessage MonitorProcess :=
  robotRun oneLoopDeployment someNumbers SystemMonitor.screen SystemMonitor.systemMonitor
    Graph.getTopicNamesAndTypes SystemMonitor.terminal actions

/-- Its reset fails, and it is still shown three seconds later. -/
theorem imuRuns_shown : ∃ list row,
    (imuRobot (imuRuns ++ .deliver "/imu_node1" 0 ::
      [.act "/imu_node1" ⟨.reset ⟨false, id⟩ .succeeding, fun _ => ⟨0, 0⟩⟩,
        .observe (.run10Hz (-1) (fun _ => false) fun _ => 4)])).observer.node.nodeInfoWindow = some list ∧
    list.row "/imu_node1" = some row ∧ row.state = .running ∧ row.hostDevice = "pi" ∧
    row.baseNodeName = "base" := by
  have hmessage : ((imuRobot imuRuns).inFlight "/imu_node1")[0]? =
      some (.heartbeat (oneLoopDeployment.heartbeat "/imu_node1")) := by decide +kernel
  have hview : (imuRobot imuRuns).observer.node.nodeInfoWindow.map
      (fun list => ((list.row "/imu_node1").isSome, list.currentTimeSec)) = some (true, 1) := by decide +kernel
  obtain ⟨list, hlist, hrow⟩ := Option.map_eq_some_iff.mp hview
  obtain ⟨hlisted, hclock⟩ := Prod.mk.inj hrow
  refine heard_node_shown oneLoopDeployment someNumbers SystemMonitor.screen SystemMonitor.systemMonitor
    Graph.getTopicNamesAndTypes SystemMonitor.terminal SystemMonitor.listsTopics_getTopicNamesAndTypes imuRuns _
    "/imu_node1" 0 ?_ imuRuns_found hmessage hlist hlisted fun t ht => ?_
  · simp [imuRuns, rescanned, Action.observation, Observation.snapshot, OneTopicType, Graph.endpoints]
  · rw [hclock]
    obtain rfl := List.mem_singleton.mp ht
    decide +kernel

end Systems
