import RobotFramework.SystemMonitor.MonitorNode
import RobotFramework.SystemMonitor.Selection

/-!
# Runs of the system monitor node

What each window shows after a run of the node, from what the node received. Each window is a machine of
its own that takes its share of the events and the commands of `run10Hz` (`windows_independent`). The panel
follows the mark of the node window at a distance (`panel_follows_mark`); it shows the last diagnostic of each type of the
node it monitors (`panel_shows`); and the message line shows what the last key had to say
(`message_shown`).
-/

namespace SystemMonitor

open History ElapsedTime

/-! ## What a window takes of the events of the node -/

/-- What happens to the diagnostics window: a command of `run10Hz`, or an event. -/
inductive DiagnosticPanel.Input where
  | monitor (nodeName : String)
  | event (e : DiagnosticWindow.Event)

def DiagnosticPanel.step (defs : DiagnosticDefinition) (width : PanelWidth) (w : DiagnosticPanel) :
    Input → DiagnosticPanel
  | .monitor nodeName => w.setNodeToMonitor nodeName
  | .event (.diagnostic msg) => w.newDiagnosticMsg msg
  | .event (.update t) => (w.update defs width t).1

/-- What happens to the header window. -/
inductive HeaderWindow.Event where
  | armCommand (msg : ArmCommand)
  | update (currentTimeSec : Rat)

def HeaderWindow.step (w : HeaderWindow) : Event → HeaderWindow
  | .armCommand msg => { w with latestArmCommand := some msg }
  | .update t => { w with toBaseWindow := w.toBaseWindow.update t }

namespace MonitorNode

def nodeInfoWindow (n : MonitorNode) : Option KeyedWindow :=
  n.windows.findSome? fun
    | (_, .nodeInfo w) => some w
    | _ => none

def diagnosticWindow (n : MonitorNode) : Option DiagnosticPanel :=
  n.windows.findSome? fun
    | (_, .diagnostic w) => some w
    | _ => none

def messageWindow (n : MonitorNode) : Option MessageWindow :=
  n.windows.findSome? fun
    | (_, .message w) => some w
    | _ => none

def headerWindow (n : MonitorNode) : Option HeaderWindow :=
  n.windows.findSome? fun
    | (_, .header w) => some w
    | _ => none

/-- What the node window takes of an event. -/
def Event.nodeInputs : Event → List Input
  | .heartbeat msg topicName => [.event (.heartbeat { msg with nodename := cutSuffix 10 topicName })]
  | .readyToArm msg topicName => [.event (.readyToArm { msg with nodename := cutSuffix 13 topicName })]
  | .run10Hz keyPressed available now =>
    [.key keyPressed available, .event (.update (now "node_info_window"))]
  | _ => []

/-- What the diagnostics window takes of an event. -/
def Event.diagnosticEvents : Event → List DiagnosticWindow.Event
  | .diagnostic msg topicName => [.diagnostic { msg with nodeName := cutSuffix 11 topicName }]
  | .run10Hz _ _ now => [.update (now "diagnostic_window")]
  | _ => []

/-- The arm command of an event. -/
def Event.armCommand? : Event → Option ArmCommand
  | .armCommand msg => some msg
  | _ => none

/-- What the header window takes of an event. -/
def Event.headerEvents : Event → List HeaderWindow.Event
  | .armCommand msg => [.armCommand msg]
  | .run10Hz _ _ now => [.update (now "header_window")]
  | _ => []

/-- The clock that a window reads at an event. -/
def Event.clock (name : String) : Event → List Rat
  | .run10Hz _ _ now => [now name]
  | _ => []

/-- What the diagnostics window takes of an event: the node it is to monitor is the one selected before. -/
def panelInputs (n : MonitorNode) (e : Event) : List DiagnosticPanel.Input :=
  match e with
  | .run10Hz _ _ now => [.monitor n.selectedNode, .event (.update (now "diagnostic_window"))]
  | e => e.diagnosticEvents.map .event

/-- What the message window takes of an event: the messages are those of the key. -/
def messageInputs (levels : LevelNames) (n : MonitorNode) : Event → List MessageWindow.Event
  | .run10Hz keyPressed available now =>
    [.messages (n.poll levels keyPressed available).messages, .update (now "message_window")]
  | _ => []

end MonitorNode

namespace Desk

variable (drawing : Drawing) (d : Desk)

/-- What the message window takes of an event. -/
def messageEvents (d : Desk) : MonitorNode.Event → List MessageWindow.Event
  | .run10Hz keyPressed available now =>
    [.messages (messages (d.nodeInfo.newKeyEvent drawing.levels available keyPressed).message),
      .update (now "message_window")]
  | _ => []

theorem nodeInfo_run (events : List MonitorNode.Event) :
    (run (step drawing) d events).nodeInfo =
      run (KeyedWindow.step drawing.sort drawing.levels) d.nodeInfo
        (events.flatMap MonitorNode.Event.nodeInputs) := by
  rw [← emitted_const (step drawing) _ d]
  refine run_emitted nodeInfo (fun s e => ?_) d events
  cases e <;> rfl

theorem diagnostic_run (events : List MonitorNode.Event) :
    (run (step drawing) d events).diagnostic.toDiagnosticWindow =
      run (DiagnosticWindow.step drawing.levels) d.diagnostic.toDiagnosticWindow
        (events.flatMap MonitorNode.Event.diagnosticEvents) := by
  rw [← emitted_const (step drawing) _ d]
  refine run_emitted (fun d => d.diagnostic.toDiagnosticWindow) (fun s e => ?_) d events
  cases e with
  | armCommand msg | heartbeat msg topicName | readyToArm msg topicName => rfl
  | diagnostic msg topicName => rfl
  | run10Hz key available now => exact DiagnosticPanel.toDiagnosticWindow_update _ _ _ _

theorem message_run (events : List MonitorNode.Event) :
    (run (step drawing) d events).message =
      run MessageWindow.step d.message (emitted (step drawing) (messageEvents drawing) d events) := by
  refine run_emitted message (fun s e => ?_) d events
  cases e <;> rfl

theorem armCommand_run (events : List MonitorNode.Event) :
    (run (step drawing) d events).header.latestArmCommand =
      (lastSome MonitorNode.Event.armCommand? events).or d.header.latestArmCommand := by
  induction events using List.reverseRecOn with
  | nil => rfl
  | append_singleton events e ih =>
    rw [run_concat, lastSome_concat, Option.or_assoc, ← ih]
    cases e <;> rfl

theorem panel_run (events : List MonitorNode.Event) :
    (run (step drawing) d events).diagnostic =
      run (DiagnosticPanel.step drawing.defs drawing.width) d.diagnostic
        (emitted (step drawing) (fun d => d.node.panelInputs) d events) := by
  refine run_emitted diagnostic (fun s e => ?_) d events
  cases e <;> rfl

theorem header_run (events : List MonitorNode.Event) :
    (run (step drawing) d events).header =
      run HeaderWindow.step d.header (events.flatMap MonitorNode.Event.headerEvents) := by
  rw [← emitted_const (step drawing) _ d]
  refine run_emitted header (fun s e => ?_) d events
  cases e <;> rfl

theorem base_run (name : String) (window : Desk → BaseWindow)
    (h : ∀ d e, window (step drawing d e) = run BaseWindow.update (window d) (e.clock name))
    (events : List MonitorNode.Event) :
    window (run (step drawing) d events) =
      run BaseWindow.update (window d) (events.flatMap (MonitorNode.Event.clock name)) := by
  rw [← emitted_const (step drawing) _ d]
  exact run_emitted window h d events

theorem emitted_node {α : Type} {emit : MonitorNode → MonitorNode.Event → List α}
    {emit' : Desk → MonitorNode.Event → List α} (h : ∀ d e, d.Focus → emit d.node e = emit' d e)
    (terminal : Terminal) (events : List MonitorNode.Event) :
    emitted (MonitorNode.step drawing) emit (.initial terminal) events =
      emitted (step drawing) emit' (initial terminal) events := by
  induction events using List.reverseRecOn with
  | nil => rfl
  | append_singleton events e ih =>
    obtain ⟨hnode, hfocus⟩ := run_node drawing terminal events
    rw [emitted_concat, emitted_concat, ih, hnode, h _ _ hfocus]

theorem messageInputs_node {d : Desk} (h : d.Focus) (e : MonitorNode.Event) :
    d.node.messageInputs drawing.levels e = messageEvents drawing d e := by
  cases e with
  | armCommand msg | heartbeat msg topicName | diagnostic msg topicName | readyToArm msg topicName => rfl
  | run10Hz key available now =>
    unfold MonitorNode.messageInputs messageEvents
    dsimp only
    rw [poll_node drawing.levels available key h]

end Desk

/-- **Every window of the node is a window of its own.** After any run of the node, each window is as a run
of its own leaves it, on what it takes of the events and on the commands of `run10Hz`: the node that the
diagnostics window is to monitor, and the messages for the message window. On the diagnostics themselves
and on the last arm command no command has any influence. -/
theorem windows_independent (drawing : Drawing) (terminal : Terminal) (events : List MonitorNode.Event) :
    let n := run (MonitorNode.step drawing) (.initial terminal) events
    let base (name : String) : BaseWindow :=
      ⟨terminal.currentTimeSec name, terminal.hasWindow name, false⟩
    n.windows =
        [("diagnostic_window", .diagnostic (run (DiagnosticPanel.step drawing.defs drawing.width)
            (.initial (terminal.currentTimeSec "diagnostic_window") (terminal.hasWindow "diagnostic_window"))
            (emitted (MonitorNode.step drawing) MonitorNode.panelInputs (.initial terminal) events))),
          ("header_window", .header (run HeaderWindow.step ⟨base "header_window", none⟩
            (events.flatMap MonitorNode.Event.headerEvents))),
          ("menu_window", .menu (run BaseWindow.update (base "menu_window")
            (events.flatMap (MonitorNode.Event.clock "menu_window")))),
          ("message_window", .message (run MessageWindow.step
            (.initial (terminal.currentTimeSec "message_window") (terminal.hasWindow "message_window"))
            (emitted (MonitorNode.step drawing) (MonitorNode.messageInputs drawing.levels)
              (.initial terminal) events))),
          ("node_info_window", .nodeInfo (run (KeyedWindow.step drawing.sort drawing.levels)
            (.initial (terminal.currentTimeSec "node_info_window") (terminal.hasWindow "node_info_window")
              true)
            (events.flatMap MonitorNode.Event.nodeInputs))),
          ("status_window", .status (run BaseWindow.update (base "status_window")
            (events.flatMap (MonitorNode.Event.clock "status_window"))))] ∧
      n.diagnosticWindow.map DiagnosticPanel.toDiagnosticWindow =
        some (run (DiagnosticWindow.step drawing.levels)
          (.initial (terminal.currentTimeSec "diagnostic_window") (terminal.hasWindow "diagnostic_window"))
          (events.flatMap MonitorNode.Event.diagnosticEvents)) ∧
      n.headerWindow.map HeaderWindow.latestArmCommand =
        some (lastSome MonitorNode.Event.armCommand? events) := by
  dsimp only
  have hmenu := Desk.base_run drawing (.initial terminal) "menu_window" Desk.menu
    (fun d e => by cases e <;> rfl) events
  have hstatus := Desk.base_run drawing (.initial terminal) "status_window" Desk.status
    (fun d e => by cases e <;> rfl) events
  rw [(Desk.run_node drawing terminal events).1,
    Desk.emitted_node drawing (fun _ _ _ => rfl) terminal events,
    Desk.emitted_node drawing (fun _ e h => Desk.messageInputs_node drawing h e) terminal events]
  refine ⟨?_, ?_, ?_⟩
  · unfold Desk.node
    rw [Desk.panel_run, Desk.header_run, hmenu, Desk.message_run, Desk.nodeInfo_run, hstatus]
    rfl
  · exact congrArg some (Desk.diagnostic_run drawing (.initial terminal) events)
  · refine congrArg some ((Desk.armCommand_run drawing (.initial terminal) events).trans ?_)
    exact Option.or_none

/-! ## The node that is monitored -/

/-- The node that is marked when a turn is over. -/
def MonitorNode.marks (drawing : Drawing) (n : MonitorNode) : MonitorNode.Event → List String
  | .run10Hz keyPressed available now =>
    ((n.run10Hz drawing keyPressed available now).nodeInfoWindow.map KeyedWindow.selectedNode).toList
  | _ => []

/-- The nodes that were marked when the turns of a run were over, the last one first. -/
def lastMarks (drawing : Drawing) (terminal : Terminal) (events : List MonitorNode.Event) : List String :=
  (emitted (MonitorNode.step drawing) (MonitorNode.marks drawing) (.initial terminal) events).reverse

theorem lastMarks_concat (drawing : Drawing) (terminal : Terminal) (events : List MonitorNode.Event)
    (e : MonitorNode.Event) :
    lastMarks drawing terminal (events ++ [e]) =
      (MonitorNode.marks drawing (run (MonitorNode.step drawing) (.initial terminal) events) e).reverse ++
        lastMarks drawing terminal events := by
  unfold lastMarks
  rw [emitted_concat, List.reverse_append]

/-- Between two turns nothing is marked and nothing is passed on. -/
theorem Desk.marks_step (drawing : Drawing) {d : Desk} (h : d.Focus) (e : MonitorNode.Event) :
    (d.node.marks drawing e = [] ∧ (d.step drawing e).nodeInfo.selectedNode = d.nodeInfo.selectedNode ∧
        (d.step drawing e).selectedNode = d.selectedNode ∧
        (d.step drawing e).diagnostic.nodeToMonitor = d.diagnostic.nodeToMonitor) ∨
      (d.node.marks drawing e = [(d.step drawing e).nodeInfo.selectedNode] ∧
        (d.step drawing e).selectedNode = d.nodeInfo.selectedNode ∧
        (d.step drawing e).diagnostic.nodeToMonitor = d.selectedNode) := by
  cases e with
  | armCommand msg | heartbeat msg topicName | diagnostic msg topicName | readyToArm msg topicName =>
    exact Or.inl ⟨rfl, rfl, rfl, rfl⟩
  | run10Hz key available now =>
    refine Or.inr ⟨?_, ?_, DiagnosticPanel.nodeToMonitor_update _ _ _ _⟩
    · have hnode := step_node drawing h (.run10Hz key available now)
      exact congrArg (fun n : MonitorNode => (n.nodeInfoWindow.map KeyedWindow.selectedNode).toList) hnode
    · exact selectedNode_key drawing.sort drawing.levels d.nodeInfo key available

theorem Desk.marks_run (drawing : Drawing) (terminal : Terminal) (events : List MonitorNode.Event) :
    (run (Desk.step drawing) (.initial terminal) events).nodeInfo.selectedNode =
        (lastMarks drawing terminal events)[0]?.getD "" ∧
      (run (Desk.step drawing) (.initial terminal) events).selectedNode =
        (lastMarks drawing terminal events)[1]?.getD "" ∧
      (run (Desk.step drawing) (.initial terminal) events).diagnostic.nodeToMonitor =
        (lastMarks drawing terminal events)[2]?.getD "" := by
  induction events using List.reverseRecOn with
  | nil => exact ⟨rfl, rfl, rfl⟩
  | append_singleton events e ih =>
    obtain ⟨hmarked, hselected, hmonitored⟩ := ih
    obtain ⟨hnode, hfocus⟩ := Desk.run_node drawing terminal events
    rw [run_concat, lastMarks_concat, hnode]
    rcases Desk.marks_step drawing hfocus e with ⟨hmarks, hsame, hkept, hold⟩ | ⟨hmarks, hpassed, hnew⟩
    · rw [hmarks, hsame, hkept, hold]
      exact ⟨hmarked, hselected, hmonitored⟩
    · rw [hmarks, hpassed, hnew]
      exact ⟨rfl, hmarked, hselected⟩

/-- **The panel follows the mark two turns behind.** After any run of the node, the node that the
diagnostics window monitors is the one that was marked at the end of the turn before the last but one; and
it is no node as long as there were less than three turns. -/
theorem panel_follows_mark (drawing : Drawing) (terminal : Terminal) (events : List MonitorNode.Event) :
    let n := run (MonitorNode.step drawing) (.initial terminal) events
    let marks := lastMarks drawing terminal events
    n.nodeInfoWindow.map KeyedWindow.selectedNode = some (marks[0]?.getD "") ∧
      n.selectedNode = marks[1]?.getD "" ∧
      n.diagnosticWindow.map DiagnosticPanel.nodeToMonitor = some (marks[2]?.getD "") := by
  obtain ⟨hmarked, hselected, hmonitored⟩ := Desk.marks_run drawing terminal events
  dsimp only
  rw [(Desk.run_node drawing terminal events).1]
  exact ⟨congrArg some hmarked, hselected, congrArg some hmonitored⟩

/-! ## What the panel shows -/

/-- The event is a diagnostic of a node and a type. -/
def MonitorNode.Event.isOf (nodeName : String) (type : UInt8) : MonitorNode.Event → Bool
  | .diagnostic msg topicName => cutSuffix 11 topicName = nodeName ∧ msg.diagnosticType = type
  | _ => false

/-- The clock of the diagnostics window: what it read last. -/
def diagnosticClock (past : List MonitorNode.Event) : Option Rat :=
  DiagnosticWindow.monitorTime (past.flatMap MonitorNode.Event.diagnosticEvents)

/-- The line for a node and a type at a time: none was received, or the last one that was, in red if it
came too long ago. -/
structure LineShown (drawing : Drawing) (start now : Rat) (past : List MonitorNode.Event)
    (nodeName : String) (type : UInt8) (line : Line) : Prop where
  never : (∀ e ∈ past, e.isOf nodeName type = false) → line = DiagnosticPanel.emptyLine drawing.defs type
  last : ∀ before msg topicName after, past = before ++ .diagnostic msg topicName :: after →
    (MonitorNode.Event.diagnostic msg topicName).isOf nodeName type = true →
    (∀ e ∈ after, e.isOf nodeName type = false) →
    line = { DiagnosticPanel.diagnosticLine drawing.defs drawing.width type msg with
      color := if commTimeoutThreshold < now - (diagnosticClock before).getD start then .redColor
        else DiagnosticPanel.color (drawing.defs.level msg.level) }

theorem isOf_diagnosticEvents {nodeName : String} {type : UInt8} {events : List MonitorNode.Event} :
    (∀ e ∈ events.flatMap MonitorNode.Event.diagnosticEvents, e.isOf nodeName type = false) ↔
      ∀ e ∈ events, e.isOf nodeName type = false := by
  have hone (e : MonitorNode.Event) :
      (∀ x ∈ e.diagnosticEvents, x.isOf nodeName type = false) ↔ e.isOf nodeName type = false := by
    cases e <;>
      simp [MonitorNode.Event.diagnosticEvents, MonitorNode.Event.isOf, DiagnosticWindow.Event.isOf]
  constructor
  · intro h e he
    exact (hone e).mp fun x hx => h x (List.mem_flatMap.mpr ⟨e, he, hx⟩)
  · intro h x hx
    obtain ⟨e, he, hxe⟩ := List.mem_flatMap.mp hx
    exact (hone e).mpr (h e he) x hxe

theorem known_iff {levels : LevelNames} {t₀ t : Rat} {hasWindow : Bool} {past : List MonitorNode.Event}
    {nodeName : String} :
    ((run (DiagnosticWindow.step levels) (.initial t₀ hasWindow)
      (past.flatMap MonitorNode.Event.diagnosticEvents ++ [.update t])).nodeDiagnosticMonitors.lookup
        nodeName).isSome = true ↔ ∃ e ∈ past, ∃ type, e.isOf nodeName type = true := by
  rw [DiagnosticPanel.isSome_lookup_run]
  have hone (e : MonitorNode.Event) :
      (∃ x ∈ e.diagnosticEvents, DiagnosticPanel.ofNode nodeName x = true) ↔
        ∃ type, e.isOf nodeName type = true := by
    cases e <;>
      simp [MonitorNode.Event.diagnosticEvents, MonitorNode.Event.isOf, DiagnosticPanel.ofNode]
  constructor
  · rintro ⟨x, hx, hof⟩
    rcases List.mem_append.mp hx with hx | hx
    · obtain ⟨e, he, hxe⟩ := List.mem_flatMap.mp hx
      exact ⟨e, he, (hone e).mp ⟨x, hxe, hof⟩⟩
    · rw [List.mem_singleton.mp hx] at hof
      cases hof
  · rintro ⟨e, he, hof⟩
    obtain ⟨x, hx, hnode⟩ := (hone e).mpr hof
    exact ⟨x, List.mem_append_left _ (List.mem_flatMap.mpr ⟨e, he, hx⟩), hnode⟩

theorem lineShown_run (drawing : Drawing) (t₀ : Rat) (hasWindow : Bool) (past : List MonitorNode.Event)
    (t : Rat)
    (hmono : DiagnosticWindow.Nondecreasing
      (past.flatMap MonitorNode.Event.diagnosticEvents ++ [.update t])) (nodeName : String) (type : UInt8) :
    LineShown drawing t₀ t past nodeName type (DiagnosticPanel.lineOf drawing.defs drawing.width
      (run (DiagnosticWindow.step drawing.levels) (.initial t₀ hasWindow)
        (past.flatMap MonitorNode.Event.diagnosticEvents ++ [.update t])) nodeName type) := by
  constructor
  · intro hnever
    have hnone := (DiagnosticWindow.entry_isSome_run drawing.levels t₀ hasWindow
      (past.flatMap MonitorNode.Event.diagnosticEvents ++ [.update t]) nodeName type).not.mpr (by
        rintro ⟨e, he, hof⟩
        rcases List.mem_append.mp he with he | he
        · rw [isOf_diagnosticEvents.mpr hnever e he] at hof
          cases hof
        · rw [List.mem_singleton.mp he] at hof
          cases hof)
    rw [Option.not_isSome_iff_eq_none] at hnone
    unfold DiagnosticPanel.lineOf
    rw [hnone]
  · rintro before msg topicName after rfl hpair hafter
    rw [List.flatMap_append, List.flatMap_cons] at hmono ⊢
    have hmono' : DiagnosticWindow.Nondecreasing
        (after.flatMap MonitorNode.Event.diagnosticEvents ++ [.update t]) := by
      unfold DiagnosticWindow.Nondecreasing at hmono ⊢
      simp only [List.filterMap_append, List.append_assoc] at hmono ⊢
      exact (List.pairwise_append.mp (List.pairwise_append.mp hmono).2.1).2.1
    obtain ⟨m, hm, hmessage⟩ := DiagnosticPanel.entry_last drawing.levels t₀ hasWindow
      (before.flatMap MonitorNode.Event.diagnosticEvents)
      { msg with nodeName := cutSuffix 11 topicName } hmono' hpair
      (isOf_diagnosticEvents.mpr hafter)
    unfold DiagnosticPanel.lineOf
    rw [show MonitorNode.Event.diagnosticEvents (.diagnostic msg topicName) ++
        after.flatMap MonitorNode.Event.diagnosticEvents =
          .diagnostic { msg with nodeName := cutSuffix 11 topicName } ::
            after.flatMap MonitorNode.Event.diagnosticEvents from rfl, hm]
    dsimp only
    rw [hmessage, DiagnosticPanel.diagnosticLine_timedOut]
    simp only [decide_eq_true_eq]
    rfl

/-- **The panel shows the last diagnostics of the node it monitors.** After a turn of `run10Hz`, with a
clock that is not set back, the panel has a line for each type of diagnostic of the node that was marked
two turns before: the last one of this type that was received, in red if it came more than five seconds
ago. If the node has sent none, the screen shows what it showed before the turn. -/
theorem panel_shows (drawing : Drawing) (terminal : Terminal) (past : List MonitorNode.Event) (key : Int)
    (available : String → Bool) (now : String → Rat) (hwindow : terminal.hasWindow "diagnostic_window" = true)
    (hmono : DiagnosticWindow.Nondecreasing
      ((past ++ [MonitorNode.Event.run10Hz key available now]).flatMap
        MonitorNode.Event.diagnosticEvents)) :
    let before := run (MonitorNode.step drawing) (.initial terminal) past
    let after := run (MonitorNode.step drawing) (.initial terminal) (past ++ [.run10Hz key available now])
    let node := (lastMarks drawing terminal past)[1]?.getD ""
    ∃ panel panel', before.diagnosticWindow = some panel ∧ after.diagnosticWindow = some panel' ∧
      panel'.nodeToMonitor = node ∧
      ((∀ e ∈ past, ∀ type, e.isOf node type = false) → panel'.screen = panel.screen) ∧
      ((∃ e ∈ past, ∃ type, e.isOf node type = true) →
        ∃ line, panel'.screen = (DiagnosticPanel.lineTypes drawing.defs).map line ∧
          ∀ type, LineShown drawing (terminal.currentTimeSec "diagnostic_window") (now "diagnostic_window")
            past node type (line type)) := by
  dsimp only
  have hselected := (Desk.marks_run drawing terminal past).2.1
  have hdesk := Desk.diagnostic_run drawing (.initial terminal) past
  have hpanel := DiagnosticPanel.hasWindow_run drawing.levels (Desk.initial terminal).diagnostic.toDiagnosticWindow
    (past.flatMap MonitorNode.Event.diagnosticEvents)
  rw [← hdesk] at hpanel
  rw [(Desk.run_node drawing terminal past).1, (Desk.run_node drawing terminal _).1, run_concat]
  rw [List.flatMap_append, List.flatMap_singleton] at hmono
  generalize run (Desk.step drawing) (.initial terminal) past = d at hselected hdesk hpanel
  -- the entries are those after the update, the node is the one from before the turn
  have hafter : (d.diagnostic.toDiagnosticWindow.update drawing.levels (now "diagnostic_window")).1 =
      run (DiagnosticWindow.step drawing.levels) (Desk.initial terminal).diagnostic.toDiagnosticWindow
        (past.flatMap MonitorNode.Event.diagnosticEvents ++ [.update (now "diagnostic_window")]) := by
    rw [run_concat, ← hdesk]
    rfl
  have hscreen : (d.tick drawing key available now).diagnostic.screen =
      DiagnosticPanel.drawn drawing.defs drawing.width d.diagnostic.screen
        (run (DiagnosticWindow.step drawing.levels) (Desk.initial terminal).diagnostic.toDiagnosticWindow
          (past.flatMap MonitorNode.Event.diagnosticEvents ++ [.update (now "diagnostic_window")]))
        d.selectedNode := by
    rw [← hafter]
    exact congrArg DiagnosticPanel.screen (DiagnosticPanel.update_eq drawing.defs drawing.width
      (d.diagnostic.setNodeToMonitor d.selectedNode) (hpanel.trans hwindow) (now "diagnostic_window"))
  rw [← hselected]
  refine ⟨d.diagnostic, (d.tick drawing key available now).diagnostic, rfl, rfl,
    DiagnosticPanel.nodeToMonitor_update _ _ _ _, fun hnone => ?_, fun hsome => ?_⟩
  · rw [hscreen]
    refine DiagnosticPanel.drawn_of_unknown (known_iff.not.mpr ?_)
    rintro ⟨e, he, type, hof⟩
    rw [hnone e he type] at hof
    cases hof
  · rw [hscreen]
    exact ⟨_, DiagnosticPanel.drawn_of_known (known_iff.mpr hsome), fun type => lineShown_run drawing _ _ past
      (now "diagnostic_window") hmono d.selectedNode type⟩

/-! ## What the message line shows -/

/-- What an event has to say: the message of its key, unless it is empty. -/
def MonitorNode.announces (levels : LevelNames) (n : MonitorNode) : MonitorNode.Event → Option MessageText
  | .run10Hz keyPressed available _ => n.nodeInfoWindow.bind fun w =>
    let message := (w.newKeyEvent levels available keyPressed).message
    if message.text = "" then none else some message
  | _ => none

/-- The clock of the message window in the turns of a run. -/
def messageTimes (events : List MonitorNode.Event) : List Rat :=
  events.filterMap fun
    | .run10Hz _ _ now => some (now "message_window")
    | _ => none

theorem messageTimes_cons (e : MonitorNode.Event) (events : List MonitorNode.Event) :
    messageTimes (e :: events) = messageTimes [e] ++ messageTimes events := by
  unfold messageTimes
  rw [← List.filterMap_append]
  rfl

theorem shows_of_silent {drawing : Drawing} {d : Desk} {e : MonitorNode.Event}
    (h : d.node.announces drawing.levels e = none) :
    ∀ x ∈ d.messageEvents drawing e, x.shows = none := by
  cases e with
  | armCommand msg | heartbeat msg topicName | diagnostic msg topicName | readyToArm msg topicName =>
    exact fun x hx => absurd hx List.not_mem_nil
  | run10Hz key available now =>
    have htext : (d.nodeInfo.newKeyEvent drawing.levels available key).message.text = "" := by
      by_contra htext
      have hannounced : d.node.announces drawing.levels (.run10Hz key available now) = some _ := if_neg htext
      rw [hannounced] at h
      cases h
    have hevents : d.messageEvents drawing (.run10Hz key available now) =
        [.messages [], .update (now "message_window")] := by
      unfold Desk.messageEvents Desk.messages
      dsimp only
      rw [if_pos htext]
    intro x hx
    rw [hevents] at hx
    rcases List.mem_cons.mp hx with rfl | hx
    · rfl
    · rw [List.mem_singleton.mp hx]
      rfl

theorem times_messageEvents (drawing : Drawing) (d : Desk) (e : MonitorNode.Event) :
    MessageWindow.times (d.messageEvents drawing e) = messageTimes [e] := by
  cases e <;> rfl

theorem times_emitted (drawing : Drawing) (d : Desk) (events : List MonitorNode.Event) :
    MessageWindow.times (emitted (Desk.step drawing) (Desk.messageEvents drawing) d events) =
      messageTimes events := by
  induction events generalizing d with
  | nil => rfl
  | cons e events ih =>
    rw [emitted, messageTimes_cons, ← ih (d.step drawing e), ← times_messageEvents drawing d e]
    exact List.filterMap_append

theorem shows_emitted {drawing : Drawing} {terminal : Terminal} (before : List MonitorNode.Event)
    {later : List MonitorNode.Event} (h : Every (fun past e => MonitorNode.announces drawing.levels
      (run (MonitorNode.step drawing) (.initial terminal) (before ++ past)) e = none) later) :
    ∀ x ∈ emitted (Desk.step drawing) (Desk.messageEvents drawing)
      (run (Desk.step drawing) (.initial terminal) before) later, x.shows = none := by
  intro x hx
  obtain ⟨past, e, rest, hsplit, hxe⟩ := mem_emitted hx
  have hsilent : MonitorNode.announces _ _ e = none := h past e rest hsplit
  rw [(Desk.run_node drawing terminal (before ++ past)).1, run_append] at hsilent
  exact shows_of_silent hsilent x hxe

theorem messageEvents_of_announces {drawing : Drawing} {d : Desk} {e : MonitorNode.Event} {m : MessageText}
    (h : d.node.announces drawing.levels e = some m) :
    m.text ≠ "" ∧ ∃ key available now, e = .run10Hz key available now ∧
      d.messageEvents drawing e = [.messages [m], .update (now "message_window")] := by
  cases e with
  | armCommand msg | heartbeat msg topicName | diagnostic msg topicName | readyToArm msg topicName =>
    cases h
  | run10Hz key available now =>
    have hannounced : (if (d.nodeInfo.newKeyEvent drawing.levels available key).message.text = "" then none
        else some (d.nodeInfo.newKeyEvent drawing.levels available key).message) = some m := h
    split_ifs at hannounced with htext
    rw [← Option.some.inj hannounced]
    refine ⟨htext, key, available, now, rfl, ?_⟩
    unfold Desk.messageEvents Desk.messages
    dsimp only
    rw [if_neg htext]

/-- Each turn has at most one message. -/
theorem Desk.poll_messages (levels : LevelNames) {d : Desk} (h : d.Focus) (key : Int)
    (available : String → Bool) : (d.node.poll levels key available).messages.length ≤ 1 := by
  rw [Desk.poll_node levels available key h]
  dsimp only
  unfold Desk.messages
  split_ifs <;> simp

/-- **The message line shows the last thing that was said, for ten seconds.** After any run of the node the
message window shows the last message a key had, unless its timer has counted more than ten seconds since
the update before that key; and nothing if there was no message. The timer never counts less than what has
passed on its clock, and just that if the clock was not set back. No turn ever has more than the one
message that the window supports. -/
theorem message_shown (drawing : Drawing) (terminal : Terminal) (events : List MonitorNode.Event)
    (hwindow : terminal.hasWindow "message_window" = true) :
    let runOf := run (MonitorNode.step drawing) (.initial terminal)
    let silent before later := Every (fun past e =>
      (runOf (before ++ past)).announces drawing.levels e = none) later
    (∀ key available, ((runOf events).poll drawing.levels key available).messages.length ≤ 1) ∧ ∃ w, (runOf events).messageWindow = some w ∧ (silent [] events → w.messageText = "") ∧
      ∀ before e later m, events = before ++ e :: later → (runOf before).announces drawing.levels e = some m →
        silent (before ++ [e]) later →
        let start := reading (terminal.currentTimeSec "message_window") (messageTimes before)
        let counted := elapsed start (messageTimes (e :: later))
        let passed := reading start (messageTimes (e :: later)) - start
        (w.messageText = if MessageWindow.timeToShowMessages < counted then "" else m.text) ∧
          (w.messageTextColor =
            if MessageWindow.timeToShowMessages < counted then .noColor else MessageWindow.color m.level) ∧
          passed ≤ counted ∧
          ((start :: messageTimes (e :: later)).IsChain (· ≤ ·) → counted = passed) := by
  dsimp only
  obtain ⟨hnode, hfocus⟩ := Desk.run_node drawing terminal events
  refine ⟨fun key available => ?_, (run (Desk.step drawing) (.initial terminal) events).message, ?_, ?_, ?_⟩
  · rw [hnode]
    exact Desk.poll_messages drawing.levels hfocus key available
  · rw [hnode]
    rfl
  · intro hsilent
    have hquiet := MessageWindow.quiet_run (w := (Desk.initial terminal).message) hwindow rfl _
      (shows_emitted [] hsilent)
    rw [Desk.message_run]
    refine hquiet.2.1.trans ?_
    split_ifs <;> rfl
  · rintro before e later m rfl hannounced hsilent
    rw [(Desk.run_node drawing terminal before).1] at hannounced
    have hlater := shows_emitted (before ++ [e]) hsilent
    rw [run_concat] at hlater
    have htimes := times_emitted drawing (run (Desk.step drawing) (.initial terminal) before) (e :: later)
    obtain ⟨htext, key, available, now, rfl, hevents⟩ := messageEvents_of_announces hannounced
    rw [run_append, Desk.message_run, ← htimes]
    -- the window as the message finds it
    obtain ⟨hclock, hdrawn⟩ :
        (run (Desk.step drawing) (.initial terminal) before).message.currentTimeSec =
            reading (terminal.currentTimeSec "message_window") (messageTimes before) ∧
          (run (Desk.step drawing) (.initial terminal) before).message.hasWindow = true := by
      rw [Desk.message_run, MessageWindow.currentTimeSec_run, times_emitted, MessageWindow.hasWindow_run]
      exact ⟨rfl, hwindow⟩
    rw [← hclock, emitted, hevents]
    generalize (run (Desk.step drawing) (.initial terminal) before).message = w at hdrawn
    generalize emitted (Desk.step drawing) (Desk.messageEvents drawing) _ later = rest at hlater
    have hstart : MessageWindow.step w (.messages [m]) =
        { w with
          messageText := m.text
          messageTextColor := MessageWindow.color m.level
          timerShowingMessageInWindowSec := 0 } := by
      show (w.new_MessageTextList [m]).1 = _
      rw [MessageWindow.messages_eq, MessageWindow.Event.shows, if_neg htext]
      rfl
    have hquiet := MessageWindow.quiet_run (w := MessageWindow.step w (.messages [m]))
      (by rw [hstart]; exact hdrawn) (by rw [hstart]) (.update (now "message_window") :: rest)
      (List.forall_mem_cons.mpr ⟨rfl, hlater⟩)
    rw [hstart] at hquiet
    rw [List.cons_append, List.singleton_append, run_cons, hstart]
    exact ⟨hquiet.2.1, hquiet.2.2, sub_le_elapsed _ _, elapsed_of_nondecreasing⟩

/-! ## A session -/

/-- Numbers and names of the diagnostics, cut down to three types. -/
def threeTypes : DiagnosticDefinition where
  levels := loggerLevels
  level n := [BaseNode.Level.unknown, .debug, .info, .notice, .warn, .error, .fatal][n.toNat]?
  level_unknown := by decide
  unknown := 0
  unknownType := 1
  endOfList := 5
  prettyType type := if type = 4 then "SENSORS" else "SOFTWARE"
  prettyMessage _ := "NOERROR"
  seconds stamp := toString stamp.sec ++ ".000000"

def screen : Drawing := ⟨insertionById, threeTypes, ⟨40, by decide⟩⟩

def terminal : Terminal := ⟨fun _ => 0, fun _ => true⟩

def idle (t : Rat) : MonitorNode.Event := .run10Hz (-1) (fun _ => false) fun _ => t

/-- A node sends a heartbeat and a warning, and two turns pass. -/
def imuWarns : List MonitorNode.Event :=
  [.heartbeat ⟨"host", "imu", "", .running⟩ "/imu_node1/heartbeat",
    .diagnostic DiagnosticWindow.warning "/imu_node1/diagnostic", idle 1, idle 2]

theorem imuWarns_shown : ∃ panel,
    (run (MonitorNode.step screen) (.initial terminal) (imuWarns ++ [idle 3])).diagnosticWindow =
        some panel ∧ panel.nodeToMonitor = "/imu_node1" ∧
      panel.screen.map Line.color = [.noColor, .noColor, .yellowColor] := by
  obtain ⟨_, panel, -, hpanel, hnode, -, hlines⟩ := panel_shows screen terminal imuWarns (-1)
    (fun _ => false) (fun _ => 3) rfl (by decide +kernel)
  have hmark : (lastMarks screen terminal imuWarns)[1]?.getD "" = "/imu_node1" := by decide +kernel
  have htypes : DiagnosticPanel.lineTypes screen.defs = [2, 3, 4] := by decide +kernel
  rw [hmark] at hnode hlines
  obtain ⟨line, hscreen, hline⟩ := hlines ⟨_, .tail _ (.head _), 4, by decide +kernel⟩
  have hnone (type : UInt8) (h : type ≠ 4) : line type = DiagnosticPanel.emptyLine screen.defs type := by
    refine (hline type).never ?_
    simp [imuWarns, idle, MonitorNode.Event.isOf, DiagnosticWindow.warning, Ne.symm h]
  have hwarning := (hline 4).last [imuWarns.head (by decide)] DiagnosticWindow.warning _ [idle 1, idle 2] rfl
    (by decide +kernel) (by decide +kernel)
  refine ⟨panel, hpanel, hnode, ?_⟩
  have hlines : [2, 3, 4].map line = [line 2, line 3, line 4] := rfl
  rw [hscreen, htypes, hlines, hnone 2 (by decide), hnone 3 (by decide), hwarning]
  decide +kernel

/-- The key `l` and a turn without a key eight seconds later. -/
def askLevel : List MonitorNode.Event := [.run10Hz (charKey 'l') (fun _ => false) fun _ => 1, idle 9]

theorem askLevel_shown : ∃ w,
    (run (MonitorNode.step screen) (.initial terminal) askLevel).messageWindow = some w ∧
      w.messageText = levelPrompt loggerLevels := by
  obtain ⟨-, w, hw, -, hlast⟩ := message_shown screen terminal askLevel rfl
  obtain ⟨htext, -⟩ := hlast [] _ [idle 9] ⟨levelPrompt loggerLevels, .notice⟩ rfl (by decide +kernel)
    (every_concat.mpr ⟨every_nil _, by decide +kernel⟩)
  exact ⟨w, hw, htext.trans (by decide +kernel)⟩

end SystemMonitor
