import RobotFramework.SystemMonitor.Discovery
import RobotFramework.Systems.DiagnosticNetwork

/-!
# A robot and its monitor

The base nodes publish on their own topics, and the system monitor is the whole node, which rescans the network,
hears the topics it has found, and turns. For its node window this is the network of heartbeats and ready-to-arm
messages, and for its diagnostics window that of diagnostics: a message on a topic that is not found is one that
gets lost (`robot_refines`). So what holds of these networks holds of the robot, whatever is found when
(`robot_shown_safe`).
-/

namespace Systems

open History LossyNetwork
open BaseNode (Program)
open SystemMonitor (Desk DiagnosticWindow Drawing Graph Identity MonitorNode MonitorProcess StreamMessage Terminal
  TopicQuery privateTopic cutSuffix)

/-! ## The code -/

/-- The topic of a node that a message is published on. -/
def streamName : StreamMessage → String
  | .heartbeat _ => "heartbeat"
  | .diagnostic _ => "diagnostic"
  | .readyToArm _ => "ready_to_arm"

/-- A message on one of the two health streams as a message of its type. -/
def HealthMessage.toStream : HealthMessage → StreamMessage
  | .heartbeat msg => .heartbeat msg
  | .readyToArm msg => .readyToArm msg

/-- What the monitor does besides hearing the nodes. -/
inductive Observation where
  | rescan (snapshot : Graph)
  | armCommand (msg : SystemMonitor.ArmCommand)
  | run10Hz (keyPressed : Int) (available : String → Bool) (now : String → Rat)

def Observation.event : Observation → MonitorProcess.Event
  | .rescan snapshot => .rescan snapshot
  | .armCommand msg => .armCommand msg
  | .run10Hz keyPressed available now => .run10Hz keyPressed available now

/-- The nodes and the monitor. A 1 Hz callback publishes the diagnostics before the ready-to-arm message. -/
def robotNetwork (d : Deployment) (numbers : DiagnosticNumbers) (drawing : Drawing) (me : Identity)
    (getTopicNamesAndTypes : TopicQuery) :
    System String Program ClockedEvent StreamMessage MonitorProcess Observation where
  act n q e :=
    let (q, published) := q.step (d.parameters n) e.event
    let diagnostics := (BaseNode.diagnosticsOf published).mapIdx fun k => numbers.convert (e.now k) (d.getName n)
    (q, diagnostics.map .diagnostic ++ (published.filterMap (healthMessage d n)).map HealthMessage.toStream)
  receive p n msg := p.step drawing me getTopicNamesAndTypes (.message (privateTopic n (streamName msg)) msg)
  observe p o := p.step drawing me getTopicNamesAndTypes o.event

/-- What has happened since the nodes and the monitor were constructed. -/
def robotRun (d : Deployment) (numbers : DiagnosticNumbers) (drawing : Drawing) (me : Identity)
    (getTopicNamesAndTypes : TopicQuery) (terminal : Terminal)
    (actions : List (Action String ClockedEvent Observation)) : World String Program StreamMessage MonitorProcess :=
  run (step (robotNetwork d numbers drawing me getTopicNamesAndTypes))
    (.initial (fun _ => .initial) (.initial terminal)) actions

/-! ## The windows of the monitor -/

/-- A view of the windows of the monitor has a value; the focus is where it was put first. -/
def Displays {τ : Type} (view : Desk → τ) (p : MonitorProcess) (w : τ) : Prop :=
  ∃ desk : Desk, desk.Focus ∧ p.node = desk.node ∧ view desk = w

section Displays

variable {τ κ : Type} {view : Desk → τ} {takes : MonitorNode.Event → List κ} {step' : τ → κ → τ}
  {w : τ}

theorem node_run (drawing : Drawing) {desk : Desk} (h : desk.Focus) (callbacks : List MonitorNode.Event) :
    run (MonitorNode.step drawing) desk.node callbacks = (run (Desk.step drawing) desk callbacks).node ∧
      (run (Desk.step drawing) desk callbacks).Focus := by
  induction callbacks generalizing desk with
  | nil => exact ⟨rfl, h⟩
  | cons c callbacks ih =>
    rw [run_cons, run_cons, Desk.step_node drawing h c]
    exact ih (Desk.focus_step drawing h c)

theorem Displays.step (drawing : Drawing) (me : Identity) (getTopicNamesAndTypes : TopicQuery) {p : MonitorProcess}
    (hview : ∀ desk callbacks, view (run (Desk.step drawing) desk callbacks) =
      run step' (view desk) (callbacks.flatMap takes))
    (h : Displays view p w) (e : MonitorProcess.Event) :
    Displays view (p.step drawing me getTopicNamesAndTypes e) (run step' w ((p.callbacks e).flatMap takes)) := by
  obtain ⟨desk, hfocus, hnode, rfl⟩ := h
  obtain ⟨hrun, hfocus'⟩ := node_run drawing hfocus (p.callbacks e)
  refine ⟨_, hfocus', ?_, hview desk _⟩
  show run (MonitorNode.step drawing) p.node (p.callbacks e) = _
  rw [hnode]
  exact hrun

/-- A message that runs no callback changes no window, and another one runs its own. -/
theorem Displays.message (drawing : Drawing) (me : Identity) (getTopicNamesAndTypes : TopicQuery) {p : MonitorProcess}
    (hview : ∀ desk callbacks, view (run (Desk.step drawing) desk callbacks) =
      run step' (view desk) (callbacks.flatMap takes))
    (h : Displays view p w) (topicName : String) (msg : StreamMessage) :
    Displays view (p.step drawing me getTopicNamesAndTypes (.message topicName msg)) w ∨
      Displays view (p.step drawing me getTopicNamesAndTypes (.message topicName msg))
        (run step' w (takes (msg.callback topicName))) := by
  have hstep := h.step drawing me getTopicNamesAndTypes hview (.message topicName msg)
  rcases MonitorProcess.callbacks_message_cases p topicName msg with hnone | hown
  · rw [hnone] at hstep
    exact Or.inl hstep
  · rw [hown, List.flatMap_singleton] at hstep
    exact Or.inr hstep

theorem displays_initial (view : Desk → τ) (terminal : Terminal) :
    Displays view (.initial terminal) (view (.initial terminal)) :=
  ⟨.initial terminal, Desk.focus_initial terminal, Desk.initial_node terminal, rfl⟩

end Displays

/-! ## The two networks -/

variable (d : Deployment) (numbers : DiagnosticNumbers) (drawing : Drawing) (me : Identity)
  (getTopicNamesAndTypes : TopicQuery)

/-- What a message is to the node window. -/
def healthPart : StreamMessage → Option HealthMessage
  | .heartbeat msg => some (.heartbeat msg)
  | .readyToArm msg => some (.readyToArm msg)
  | .diagnostic _ => none

/-- What a message is to the diagnostics window: it gets the name of the topic. -/
def diagnosticPart (n : String) : StreamMessage → Option SystemMonitor.Diagnostic
  | .diagnostic msg => some { msg with nodeName := n }
  | _ => none

/-- The clock of a window at a turn. -/
def Observation.turnTime (window : String) : Observation → Option Rat
  | .run10Hz _ _ now => some (now window)
  | _ => none

/-- The nodes by their fully qualified names. -/
def Deployment.qualified (d : Deployment) : Deployment := { d with getName := id }

theorem filterMap_healthPart (diagnostics : List SystemMonitor.Diagnostic) (messages : List HealthMessage) :
    (diagnostics.map StreamMessage.diagnostic ++ messages.map HealthMessage.toStream).filterMap healthPart =
      messages := by
  have hnone : (diagnostics.map StreamMessage.diagnostic).filterMap healthPart = [] := by
    rw [List.filterMap_map, List.filterMap_eq_nil_iff]
    intro msg hmsg
    rfl
  have hall : healthPart ∘ HealthMessage.toStream = some := by
    funext msg
    cases msg <;> rfl
  rw [List.filterMap_append, hnone, List.filterMap_map, hall, List.filterMap_some]
  rfl

theorem filterMap_diagnosticPart (n : String) (diagnostics : List SystemMonitor.Diagnostic)
    (messages : List HealthMessage) :
    (diagnostics.map StreamMessage.diagnostic ++ messages.map HealthMessage.toStream).filterMap (diagnosticPart n) =
      diagnostics.map fun msg => { msg with nodeName := n } := by
  have hnone : (messages.map HealthMessage.toStream).filterMap (diagnosticPart n) = [] := by
    rw [List.filterMap_map, List.filterMap_eq_nil_iff]
    intro msg hmsg
    cases msg <;> rfl
  rw [List.filterMap_append, hnone, List.append_nil, List.filterMap_map, ← List.filterMap_eq_map]
  rfl

theorem map_convert (now : Nat → SystemMonitor.Time) (name n : String) (published : List BaseNode.Diagnostic) :
    (published.mapIdx fun k => numbers.convert (now k) name).map (fun msg => { msg with nodeName := n }) =
      published.mapIdx fun k => numbers.convert (now k) n := by
  apply List.ext_getElem?
  intro k
  rw [List.getElem?_map, List.getElem?_mapIdx, List.getElem?_mapIdx, Option.map_map]
  rfl

theorem windowEvents_stream (n : String) (msg : StreamMessage) :
    (msg.callback (privateTopic n (streamName msg))).windowEvents =
      ((healthPart msg).map fun m => (m.event n).toEvent).toList := by
  cases msg with
  | heartbeat msg =>
    have hnode : cutSuffix 10 (privateTopic n "heartbeat") = n := MonitorProcess.cutSuffix_topic n "heartbeat"
    show [SystemMonitor.Event.heartbeat { msg with nodename := cutSuffix 10 (privateTopic n "heartbeat") }] = _
    rw [hnode]
    rfl
  | readyToArm msg =>
    have hnode : cutSuffix 13 (privateTopic n "ready_to_arm") = n := MonitorProcess.cutSuffix_topic n "ready_to_arm"
    show [SystemMonitor.Event.readyToArm { msg with nodename := cutSuffix 13 (privateTopic n "ready_to_arm") }] = _
    rw [hnode]
    rfl
  | diagnostic msg => rfl

theorem diagnosticEvents_stream (n : String) (msg : StreamMessage) :
    (msg.callback (privateTopic n (streamName msg))).diagnosticEvents =
      ((diagnosticPart n msg).map .diagnostic).toList := by
  cases msg with
  | heartbeat msg | readyToArm msg => rfl
  | diagnostic msg =>
    have hnode : cutSuffix 11 (privateTopic n "diagnostic") = n := MonitorProcess.cutSuffix_topic n "diagnostic"
    show [DiagnosticWindow.Event.diagnostic { msg with nodeName := cutSuffix 11 (privateTopic n "diagnostic") }] = _
    rw [hnode]
    rfl

/-- For the node window the robot is the network of heartbeats and ready-to-arm messages. -/
def healthSimulation : Simulation (robotNetwork d numbers drawing me getTopicNamesAndTypes) (healthNetwork d) where
  party _ q := q
  event _ e := e.event
  message _ := healthPart
  observation := Observation.turnTime "node_info_window"
  related := Displays fun desk => desk.nodeInfo.toNodeInfoWindow
  act n q e := Prod.ext rfl (filterMap_healthPart _ _).symm
  receive p w n msg h := by
    rcases h.message drawing me getTopicNamesAndTypes (Desk.row_run drawing) (privateTopic n (streamName msg)) msg
      with hignored | htaken
    · exact Or.inl hignored
    · rw [windowEvents_stream] at htaken
      cases hpart : healthPart msg with
      | none =>
        rw [hpart] at htaken
        exact Or.inl htaken
      | some m =>
        rw [hpart] at htaken
        refine Or.inr ⟨m, rfl, ?_⟩
        show Displays _ _ (SystemMonitor.monitorStep w (m.event n))
        rw [SystemMonitor.monitorStep_eq]
        exact htaken
  observe p w o h := by
    have hstep := h.step drawing me getTopicNamesAndTypes (Desk.row_run drawing) o.event
    cases o <;> exact hstep

/-- For the diagnostics window it is the network of diagnostics, under the fully qualified names. -/
def diagnosticSimulation : Simulation (robotNetwork d numbers drawing me getTopicNamesAndTypes)
    (diagnosticNetwork d.qualified numbers drawing.levels) where
  party _ q := q
  event _ e := e
  message := diagnosticPart
  observation := Observation.turnTime "diagnostic_window"
  related := Displays fun desk => desk.diagnostic.toDiagnosticWindow
  act n q e := by
    refine Prod.ext rfl ?_
    rw [robotNetwork, filterMap_diagnosticPart, map_convert]
    rfl
  receive p w n msg h := by
    rcases h.message drawing me getTopicNamesAndTypes (Desk.diagnostic_run drawing)
      (privateTopic n (streamName msg)) msg with hignored | htaken
    · exact Or.inl hignored
    · rw [diagnosticEvents_stream] at htaken
      cases hpart : diagnosticPart n msg with
      | none =>
        rw [hpart] at htaken
        exact Or.inl htaken
      | some m =>
        rw [hpart] at htaken
        exact Or.inr ⟨m, rfl, htaken⟩
  observe p w o h := by
    have hstep := h.step drawing me getTopicNamesAndTypes (Desk.diagnostic_run drawing) o.event
    cases o <;> exact hstep

variable (terminal : Terminal)

theorem nodeInfoWindow_run (actions : List (Action String ClockedEvent Observation)) :
    let w := robotRun d numbers drawing me getTopicNamesAndTypes terminal actions
    let S := healthSimulation d numbers drawing me getTopicNamesAndTypes
    ∃ list healthActions,
      let w' := healthRun d (terminal.currentTimeSec "node_info_window") (terminal.hasWindow "node_info_window")
        healthActions
      w.observer.node.nodeInfoWindow = some list ∧ list.toNodeInfoWindow = w'.observer ∧ S.Related w w' ∧
        S.Answers actions healthActions := by
  obtain ⟨healthActions, hrelated, hanswers⟩ :=
    (healthSimulation d numbers drawing me getTopicNamesAndTypes).run (fun _ => Program.initial)
      (displays_initial (fun desk => desk.nodeInfo.toNodeInfoWindow) terminal) actions
  obtain ⟨desk, -, hnode, hwindow⟩ := hrelated.observer
  exact ⟨desk.nodeInfo, healthActions, congrArg MonitorNode.nodeInfoWindow hnode, hwindow, hrelated, hanswers⟩

theorem diagnosticWindow_run (actions : List (Action String ClockedEvent Observation)) :
    let w := robotRun d numbers drawing me getTopicNamesAndTypes terminal actions
    let S := diagnosticSimulation d numbers drawing me getTopicNamesAndTypes
    ∃ panel diagnosticActions,
      let w' := diagnosticRun d.qualified numbers drawing.levels (terminal.currentTimeSec "diagnostic_window")
        (terminal.hasWindow "diagnostic_window") diagnosticActions
      w.observer.node.diagnosticWindow = some panel ∧ panel.toDiagnosticWindow = w'.observer ∧ S.Related w w' ∧
        S.Answers actions diagnosticActions := by
  obtain ⟨diagnosticActions, hrelated, hanswers⟩ :=
    (diagnosticSimulation d numbers drawing me getTopicNamesAndTypes).run (fun _ => Program.initial)
      (displays_initial (fun desk => desk.diagnostic.toDiagnosticWindow) terminal) actions
  obtain ⟨desk, -, hnode, hwindow⟩ := hrelated.observer
  exact ⟨desk.diagnostic, diagnosticActions, congrArg MonitorNode.diagnosticWindow hnode, hwindow, hrelated,
    hanswers⟩

/-- **A monitor that discovers is a network that loses messages.** Every run of the robot with its monitor is, for the
node window, a run of the network of heartbeats and ready-to-arm messages, and for the diagnostics window a run of
that of diagnostics, under the names that the topics give: with the same events of the nodes, the same programs, the
same messages sent and in flight, and the updates of the window at the turns of the monitor. -/
theorem robot_refines (actions : List (Action String ClockedEvent Observation)) :
    let w := robotRun d numbers drawing me getTopicNamesAndTypes terminal actions
    (∃ list healthActions,
      let w' := healthRun d (terminal.currentTimeSec "node_info_window") (terminal.hasWindow "node_info_window")
        healthActions
      w.observer.node.nodeInfoWindow = some list ∧ list.toNodeInfoWindow = w'.observer ∧
      (∀ n, w'.parties n = w.parties n ∧ w'.sent n = (w.sent n).filterMap healthPart ∧
        w'.inFlight n = (w.inFlight n).filterMap healthPart ∧
        eventsOf n healthActions = (eventsOf n actions).map (·.event)) ∧
      healthActions.filterMap Action.observation =
        (actions.filterMap Action.observation).filterMap (Observation.turnTime "node_info_window")) ∧
    ∃ panel diagnosticActions,
      let w' := diagnosticRun d.qualified numbers drawing.levels (terminal.currentTimeSec "diagnostic_window")
        (terminal.hasWindow "diagnostic_window") diagnosticActions
      w.observer.node.diagnosticWindow = some panel ∧ panel.toDiagnosticWindow = w'.observer ∧
      (∀ n, w'.parties n = w.parties n ∧ w'.sent n = (w.sent n).filterMap (diagnosticPart n) ∧
        w'.inFlight n = (w.inFlight n).filterMap (diagnosticPart n) ∧
        eventsOf n diagnosticActions = eventsOf n actions) ∧
      diagnosticActions.filterMap Action.observation =
        (actions.filterMap Action.observation).filterMap (Observation.turnTime "diagnostic_window") := by
  intro w
  constructor
  · obtain ⟨list, healthActions, hlist, hwindow, hrelated, hanswers⟩ :=
      nodeInfoWindow_run d numbers drawing me getTopicNamesAndTypes terminal actions
    refine ⟨list, healthActions, hlist, hwindow, fun n => ?_, hanswers.observations⟩
    exact ⟨hrelated.parties n, hrelated.sent n, hrelated.inFlight n, hanswers.events n⟩
  · obtain ⟨panel, diagnosticActions, hpanel, hwindow, hrelated, hanswers⟩ :=
      diagnosticWindow_run d numbers drawing me getTopicNamesAndTypes terminal actions
    refine ⟨panel, diagnosticActions, hpanel, hwindow, fun n => ?_, hanswers.observations⟩
    exact ⟨hrelated.parties n, hrelated.sent n, hrelated.inFlight n, (hanswers.events n).trans (List.map_id _)⟩

/-- **The monitor shows what the nodes said.** After every interleaving of any number of nodes with the whole
monitor, whatever its rescans find, whatever keys are pressed and whatever is lost or late: the node list has a row
for a node only if that node has published something, with a state and a ready-to-arm text that its own messages
justify; and what the diagnostics window keeps for a node and a type was published, but for its level if that is
unknown, by a 1 Hz callback of that very node while it was running, as a diagnostic of its user code or as a timing
diagnostic that was true then. -/
theorem robot_shown_safe (actions : List (Action String ClockedEvent Observation)) :
    let w := robotRun d numbers drawing me getTopicNamesAndTypes terminal actions
    ∃ list panel, w.observer.node.nodeInfoWindow = some list ∧ w.observer.node.diagnosticWindow = some panel ∧
      (∀ n row, list.row n = some row → Shown ((w.sent n).filterMap healthPart) row ∧
        (row.readyToArm = "TRUE" → ∃ msg, .readyToArm msg ∈ w.sent n ∧
          msg.readyToArm = true ∧ msg.systemId ≠ 0 ∧ msg.subsystemId ≠ 0)) ∧
      ∀ n diagnosticType m, panel.entry n diagnosticType = some m →
        ∃ past c now later x k, numbers.diagnosticType x.diagnosticType = diagnosticType ∧
          eventsOf n actions = past ++ ⟨.fire c, now⟩ :: later ∧
          (programOf d n past).Publishes c ∧ (programOf d n past).node.nodeState = .running ∧
          Truthful d n past x ∧
          (m.nodeDiagnostic = numbers.convert (now k) n x ∨
            m.nodeDiagnostic =
              { numbers.convert (now k) n x with level := UInt8.ofNat drawing.levels.unknown }) := by
  intro w
  obtain ⟨list, healthActions, hlist, hnodes, hhealth, -⟩ :=
    nodeInfoWindow_run d numbers drawing me getTopicNamesAndTypes terminal actions
  obtain ⟨panel, diagnosticActions, hpanel, hmonitors, -, hanswers⟩ :=
    diagnosticWindow_run d numbers drawing me getTopicNamesAndTypes terminal actions
  refine ⟨list, panel, hlist, hpanel, fun n row hrow => ?_, fun n diagnosticType m hm => ?_⟩
  · have hholds := health_holds d (terminal.currentTimeSec "node_info_window")
      (terminal.hasWindow "node_info_window") healthActions
    have hshown : Shown ((w.sent n).filterMap healthPart) row := by
      have hrow' := hholds.observer n row (hnodes ▸ hrow)
      rw [hhealth.sent n] at hrow'
      exact hrow'
    refine ⟨hshown, fun htrue => ?_⟩
    obtain ⟨msg, hmem, hready⟩ := hshown.ready htrue
    obtain ⟨m, hm, hpart⟩ := List.mem_filterMap.mp hmem
    cases m with
    | heartbeat x => cases hpart
    | diagnostic x => cases hpart
    | readyToArm x =>
      obtain rfl := HealthMessage.readyToArm.inj (Option.some.inj hpart)
      exact ⟨x, hm, hready⟩
  · have hholds := diagnostic_holds d.qualified numbers drawing.levels (terminal.currentTimeSec "diagnostic_window")
      (terminal.hasWindow "diagnostic_window") diagnosticActions
    obtain ⟨k, msg, hmem, hname, htype, hkept⟩ := hholds.observer n diagnosticType m (hmonitors ▸ hm)
    have hevents : eventsOf k diagnosticActions = eventsOf k actions := (hanswers.events k).trans (List.map_id _)
    rw [sent_eq, hevents] at hmem
    obtain ⟨past, c, now, later, x, j, hsplit, hpublishes, hrunning, htruthful, rfl⟩ :=
      published_of_mem_sentBy hmem
    obtain rfl : k = n := hname
    exact ⟨past, c, now, later, x, j, htype, hsplit, hpublishes, hrunning, htruthful, hkept⟩

end Systems
