import RobotFramework.SystemMonitor.DiagnosticPanel
import RobotFramework.SystemMonitor.StableRows

/-!
# The system monitor node

`SystemMonitorNode` keeps its windows in a map by name. A message goes to all of them; `run10Hz` hands
the key that was read to the window with the focus, passes the node that the node window has selected on
to the diagnostics window, and updates them all. Each loop is in the order of the names.

The windows never share anything else: `step_desk` says that the node is its six windows side by side
(`Desk`), and what one of them does in a run of the node is a run of its own.
-/

namespace SystemMonitor

open History

/-! ## The code -/

/-- `robot_framework_ros2::msg::ArmCommand`. -/
structure ArmCommand where
  armedState : UInt8
  deriving DecidableEq, Repr

/-- The header window; the arm command is none as constructed. -/
structure HeaderWindow extends BaseWindow where
  latestArmCommand : Option ArmCommand
  deriving DecidableEq, Repr

/-- `IWindow` with the classes that implement it. -/
inductive Window where
  | header (w : HeaderWindow)
  | nodeInfo (w : KeyedWindow)
  | status (w : BaseWindow)
  | diagnostic (w : DiagnosticPanel)
  | message (w : MessageWindow)
  | menu (w : BaseWindow)

/-- What the windows are drawn with. -/
structure Drawing where
  sort : SortById
  defs : DiagnosticDefinition
  width : PanelWidth

/-- The names and numbers of the levels. -/
abbrev Drawing.levels (drawing : Drawing) : LevelNames := drawing.defs.levels

namespace Window

/-- `getName`. -/
def getName : Window → String
  | .header _ => "header_window"
  | .nodeInfo _ => "node_info_window"
  | .status _ => "status_window"
  | .diagnostic _ => "diagnostic_window"
  | .message _ => "message_window"
  | .menu _ => "menu_window"

/-- `hasFocus`. -/
def hasFocus : Window → Bool
  | .header w => w.focused
  | .nodeInfo w => w.focused
  | .status w => w.focused
  | .diagnostic w => w.focused
  | .message w => w.focused
  | .menu w => w.focused

/-- `newKeyEvent`: the window, its message, and the request it has sent. -/
def newKeyEvent (levels : LevelNames) (available : String → Bool) (key : Int) :
    Window → Window × MessageText × Option ChangeLoggerLevelRequest
  | .nodeInfo w =>
    let output := w.newKeyEvent levels available key
    (.nodeInfo output.window, output.message, output.request)
  | window => (window, {}, none)

/-- `newArmCommandMsg`. -/
def newArmCommandMsg (msg : ArmCommand) : Window → Window
  | .header w => .header { w with latestArmCommand := some msg }
  | window => window

/-- `newHeartbeatMsg`. -/
def newHeartbeatMsg (msg : Heartbeat) : Window → Window
  | .nodeInfo w => .nodeInfo { w with toNodeInfoWindow := w.toNodeInfoWindow.newHeartbeatMsg msg }
  | window => window

/-- `newReadyToArmMsg`. -/
def newReadyToArmMsg (msg : ReadyToArm) : Window → Window
  | .nodeInfo w => .nodeInfo { w with toNodeInfoWindow := w.toNodeInfoWindow.newReadyToArmMsg msg }
  | window => window

/-- `newDiagnosticMsg`. -/
def newDiagnosticMsg (msg : Diagnostic) : Window → Window
  | .diagnostic w => .diagnostic (w.newDiagnosticMsg msg)
  | window => window

/-- `update`. -/
def update (drawing : Drawing) (currentTimeSec : Rat) : Window → Window
  | .header w => .header { w with toBaseWindow := w.toBaseWindow.update currentTimeSec }
  | .nodeInfo w => .nodeInfo (w.update drawing.sort currentTimeSec)
  | .status w => .status (w.update currentTimeSec)
  | .diagnostic w => .diagnostic (w.update drawing.defs drawing.width currentTimeSec).1
  | .message w => .message (w.update currentTimeSec).1
  | .menu w => .menu (w.update currentTimeSec)

end Window

/-- `m_windows`: the windows in the order of their names. -/
abbrev Windows := List (String × Window)

/-- `m_windows[name] = window`. -/
def Windows.assign (name : String) (window : Window) : Windows → Windows
  | [] => [(name, window)]
  | (k, v) :: rest =>
    if name < k then (name, window) :: (k, v) :: rest
    else if k = name then (k, window) :: rest
    else (k, v) :: Windows.assign name window rest

/-- The members of the node, and the requests that were sent. -/
structure MonitorNode where
  windows : Windows
  selectedNode : String
  requests : List ChangeLoggerLevelRequest
  shutdown : Bool

/-- What the windows are constructed with: the time that nothing has set, and whether `newwin` succeeds. -/
structure Terminal where
  currentTimeSec : String → Rat
  hasWindow : String → Bool

namespace MonitorNode

/-- `SystemMonitorNode::initWindows`. -/
def initWindows (terminal : Terminal) : Windows :=
  let base (name : String) : BaseWindow :=
    ⟨terminal.currentTimeSec name, terminal.hasWindow name, false⟩
  let constructed : List Window :=
    [.header { toBaseWindow := base "header_window", latestArmCommand := none },
      .nodeInfo (.initial (terminal.currentTimeSec "node_info_window")
        (terminal.hasWindow "node_info_window") true),
      .status (base "status_window"),
      .diagnostic (.initial (terminal.currentTimeSec "diagnostic_window")
        (terminal.hasWindow "diagnostic_window")),
      .message (.initial (terminal.currentTimeSec "message_window")
        (terminal.hasWindow "message_window")),
      .menu (base "menu_window")]
  constructed.foldl (fun windows window => Windows.assign window.getName window windows) []

/-- The node as `initData` leaves it. -/
def initial (terminal : Terminal) : MonitorNode where
  windows := initWindows terminal
  selectedNode := ""
  requests := []
  shutdown := false

/-- A loop that does the same with every window. -/
def forWindows (f : Window → Window) (n : MonitorNode) : MonitorNode :=
  { n with windows := n.windows.map fun entry => (entry.1, f entry.2) }

/-- `SystemMonitorNode::armCommandCallback`. -/
def armCommandCallback (n : MonitorNode) (msg : ArmCommand) : MonitorNode :=
  n.forWindows (Window.newArmCommandMsg msg)

/-- `SystemMonitorNode::heartbeatCallback`. -/
def heartbeatCallback (n : MonitorNode) (msg : Heartbeat) (topicName : String) : MonitorNode :=
  let fullNodeName := cutSuffix 10 topicName
  n.forWindows (Window.newHeartbeatMsg { msg with nodename := fullNodeName })

/-- `SystemMonitorNode::diagnosticCallback`. -/
def diagnosticCallback (n : MonitorNode) (msg : Diagnostic) (topicName : String) : MonitorNode :=
  let fullNodeName := cutSuffix 11 topicName
  n.forWindows (Window.newDiagnosticMsg { msg with nodeName := fullNodeName })

/-- `SystemMonitorNode::readyToArmCallback`. -/
def readyToArmCallback (n : MonitorNode) (msg : ReadyToArm) (topicName : String) : MonitorNode :=
  let fullNodeName := cutSuffix 13 topicName
  n.forWindows (Window.newReadyToArmMsg { msg with nodename := fullNodeName })

/-- What the first loop of `run10Hz` has: the windows visited so far, `m_selectedNode`, the messages and the
requests. -/
structure Poll where
  visited : Windows
  selectedNode : String
  messages : List MessageText
  requests : List ChangeLoggerLevelRequest

/-- The body of the first loop of `run10Hz`. -/
def pollWindow (levels : LevelNames) (available : String → Bool) (keyPressed : Int) (p : Poll)
    (entry : String × Window) : Poll :=
  let (window, messages, requests) :=
    if entry.2.hasFocus then
      let (window, message, request) := entry.2.newKeyEvent levels available keyPressed
      (window, if message.text ≠ "" then p.messages ++ [message] else p.messages,
        p.requests ++ request.toList)
    else (entry.2, p.messages, p.requests)
  let selectedNode :=
    if window.getName = "node_info_window" then
      match window with
      | .nodeInfo w => w.selectedNode
      | _ => p.selectedNode
    else p.selectedNode
  let window :=
    if window.getName = "diagnostic_window" then
      match window with
      | .diagnostic w => .diagnostic (w.setNodeToMonitor selectedNode)
      | window => window
    else window
  ⟨p.visited ++ [(entry.1, window)], selectedNode, messages, requests⟩

/-- The first loop of `run10Hz`. -/
def poll (levels : LevelNames) (n : MonitorNode) (keyPressed : Int) (available : String → Bool) : Poll :=
  n.windows.foldl (pollWindow levels available keyPressed) ⟨[], n.selectedNode, [], n.requests⟩

/-- The second loop of `run10Hz`. -/
def showMessages (messages : List MessageText) : Window → Window
  | .message w => .message (w.new_MessageTextList messages).1
  | window => window

/-- `Key::KEY_q` and `Key::KEY_Q`. -/
def quitKeys : List Int := [113, 81]

/-- `SystemMonitorNode::run10Hz`. Each window reads the clock when it is its turn. -/
def run10Hz (drawing : Drawing) (n : MonitorNode) (keyPressed : Int) (available : String → Bool)
    (now : String → Rat) : MonitorNode :=
  let p := n.poll drawing.levels keyPressed available
  let windows := if p.messages.length > 0 then
      p.visited.map fun entry => (entry.1, showMessages p.messages entry.2)
    else p.visited
  { windows := windows.map fun entry => (entry.1, entry.2.update drawing (now entry.1))
    selectedNode := p.selectedNode
    requests := p.requests
    shutdown := n.shutdown || decide (keyPressed ∈ quitKeys) }

/-- What happens to the node: a message on a topic, or a turn of `run10Hz` with the key that was read,
what `wait_for_service` would find, and the clock of each window. -/
inductive Event where
  | armCommand (msg : ArmCommand)
  | heartbeat (msg : Heartbeat) (topicName : String)
  | diagnostic (msg : Diagnostic) (topicName : String)
  | readyToArm (msg : ReadyToArm) (topicName : String)
  | run10Hz (keyPressed : Int) (available : String → Bool) (now : String → Rat)

def step (drawing : Drawing) (n : MonitorNode) : Event → MonitorNode
  | .armCommand msg => n.armCommandCallback msg
  | .heartbeat msg topicName => n.heartbeatCallback msg topicName
  | .diagnostic msg topicName => n.diagnosticCallback msg topicName
  | .readyToArm msg topicName => n.readyToArmCallback msg topicName
  | .run10Hz keyPressed available now => n.run10Hz drawing keyPressed available now

end MonitorNode

/-! ## The windows side by side -/

/-- The node as a record of its windows. -/
structure Desk where
  diagnostic : DiagnosticPanel
  header : HeaderWindow
  menu : BaseWindow
  message : MessageWindow
  nodeInfo : KeyedWindow
  status : BaseWindow
  selectedNode : String
  requests : List ChangeLoggerLevelRequest
  shutdown : Bool

namespace Desk

def node (d : Desk) : MonitorNode where
  windows :=
    [("diagnostic_window", .diagnostic d.diagnostic), ("header_window", .header d.header),
      ("menu_window", .menu d.menu), ("message_window", .message d.message),
      ("node_info_window", .nodeInfo d.nodeInfo), ("status_window", .status d.status)]
  selectedNode := d.selectedNode
  requests := d.requests
  shutdown := d.shutdown

def initial (terminal : Terminal) : Desk :=
  let base (name : String) : BaseWindow :=
    ⟨terminal.currentTimeSec name, terminal.hasWindow name, false⟩
  { diagnostic := .initial (terminal.currentTimeSec "diagnostic_window")
      (terminal.hasWindow "diagnostic_window")
    header := { toBaseWindow := base "header_window", latestArmCommand := none }
    menu := base "menu_window"
    message := .initial (terminal.currentTimeSec "message_window") (terminal.hasWindow "message_window")
    nodeInfo := .initial (terminal.currentTimeSec "node_info_window")
      (terminal.hasWindow "node_info_window") true
    status := base "status_window"
    selectedNode := ""
    requests := []
    shutdown := false }

/-- The node window has the focus, and no other window has. -/
structure Focus (d : Desk) : Prop where
  nodeInfo : d.nodeInfo.focused = true
  diagnostic : d.diagnostic.focused = false
  header : d.header.focused = false
  menu : d.menu.focused = false
  message : d.message.focused = false
  status : d.status.focused = false

/-- The messages of a turn: that of the key, unless it is empty. -/
def messages (message : MessageText) : List MessageText := if message.text = "" then [] else [message]

/-- A turn of `run10Hz`. -/
def tick (drawing : Drawing) (d : Desk) (keyPressed : Int) (available : String → Bool)
    (now : String → Rat) : Desk :=
  let output := d.nodeInfo.newKeyEvent drawing.levels available keyPressed
  { diagnostic := ((d.diagnostic.setNodeToMonitor d.selectedNode).update drawing.defs drawing.width
      (now "diagnostic_window")).1
    header := { d.header with toBaseWindow := d.header.toBaseWindow.update (now "header_window") }
    menu := d.menu.update (now "menu_window")
    message := ((d.message.new_MessageTextList (messages output.message)).1.update
      (now "message_window")).1
    nodeInfo := output.window.update drawing.sort (now "node_info_window")
    status := d.status.update (now "status_window")
    selectedNode := output.window.selectedNode
    requests := d.requests ++ output.request.toList
    shutdown := d.shutdown || decide (keyPressed ∈ MonitorNode.quitKeys) }

def step (drawing : Drawing) (d : Desk) : MonitorNode.Event → Desk
  | .armCommand msg => { d with header := { d.header with latestArmCommand := some msg } }
  | .heartbeat msg topicName =>
    let msg := { msg with nodename := cutSuffix 10 topicName }
    { d with nodeInfo := d.nodeInfo.step drawing.sort drawing.levels (.event (.heartbeat msg)) }
  | .diagnostic msg topicName =>
    let msg := { msg with nodeName := cutSuffix 11 topicName }
    { d with diagnostic := d.diagnostic.newDiagnosticMsg msg }
  | .readyToArm msg topicName =>
    let msg := { msg with nodename := cutSuffix 13 topicName }
    { d with nodeInfo := d.nodeInfo.step drawing.sort drawing.levels (.event (.readyToArm msg)) }
  | .run10Hz keyPressed available now => d.tick drawing keyPressed available now

theorem focus_initial (terminal : Terminal) : (initial terminal).Focus :=
  ⟨rfl, rfl, rfl, rfl, rfl, rfl⟩

theorem assign_of_lt {name k : String} (h : name < k) (w v : Window) (rest : Windows) :
    Windows.assign name w ((k, v) :: rest) = (name, w) :: (k, v) :: rest := if_pos h

theorem assign_of_not_lt {name k : String} (h : ¬ name < k) (hne : k ≠ name) (w v : Window)
    (rest : Windows) : Windows.assign name w ((k, v) :: rest) = (k, v) :: Windows.assign name w rest := by
  rw [Windows.assign, if_neg h, if_neg hne]

theorem assign_windows (header nodeInfo status diagnostic message menu : Window) :
    ([("header_window", header), ("node_info_window", nodeInfo), ("status_window", status),
        ("diagnostic_window", diagnostic), ("message_window", message), ("menu_window", menu)].foldl
      (fun windows window => Windows.assign window.1 window.2 windows) []) =
      [("diagnostic_window", diagnostic), ("header_window", header), ("menu_window", menu),
        ("message_window", message), ("node_info_window", nodeInfo), ("status_window", status)] := by
  have hnil (name : String) (w : Window) : Windows.assign name w [] = [(name, w)] := rfl
  simp (disch := decide) only [List.foldl_cons, List.foldl_nil, hnil, assign_of_lt, assign_of_not_lt]

theorem initial_node (terminal : Terminal) : MonitorNode.initial terminal = (initial terminal).node :=
  congrArg (fun windows : Windows => (⟨windows, "", [], false⟩ : MonitorNode)) (assign_windows _ _ _ _ _ _)

theorem poll_node (levels : LevelNames) (available : String → Bool) (key : Int) {d : Desk} (h : d.Focus) :
    let output := d.nodeInfo.newKeyEvent levels available key
    d.node.poll levels key available =
      { visited := { d with
          diagnostic := d.diagnostic.setNodeToMonitor d.selectedNode
          nodeInfo := output.window }.node.windows
        selectedNode := output.window.selectedNode
        messages := messages output.message
        requests := d.requests ++ output.request.toList } := by
  unfold MonitorNode.poll node messages
  by_cases htext : (d.nodeInfo.newKeyEvent levels available key).message.text = ""
  all_goals
    simp [MonitorNode.pollWindow, Window.hasFocus, h.nodeInfo, h.diagnostic, h.header, h.menu, h.message,
      h.status, Window.getName, Window.newKeyEvent, htext]

theorem step_node (drawing : Drawing) {d : Desk} (h : d.Focus) (e : MonitorNode.Event) :
    d.node.step drawing e = (d.step drawing e).node := by
  cases e with
  | armCommand msg | heartbeat msg topicName | diagnostic msg topicName | readyToArm msg topicName => rfl
  | run10Hz key available now =>
    have hmessage (w : MessageWindow) (message : MessageText) :
        messages message = [] → (w.new_MessageTextList (messages message)).1 = w := by
      intro hnone
      rw [hnone]
      rfl
    show MonitorNode.run10Hz drawing d.node key available now = _
    unfold MonitorNode.run10Hz
    rw [poll_node drawing.levels available key h]
    dsimp only
    split_ifs with hsome
    · rfl
    · have hnone := List.length_eq_zero_iff.mp (Nat.eq_zero_of_not_pos hsome)
      show _ = (d.tick drawing key available now).node
      unfold tick
      dsimp only
      rw [hmessage d.message _ hnone]
      rfl

theorem nodeInfo_tick (drawing : Drawing) (d : Desk) (key : Int) (available : String → Bool)
    (now : String → Rat) :
    (d.tick drawing key available now).nodeInfo =
      run (KeyedWindow.step drawing.sort drawing.levels) d.nodeInfo
        [.key key available, .event (.update (now "node_info_window"))] := rfl

theorem focus_step (drawing : Drawing) {d : Desk} (h : d.Focus) (e : MonitorNode.Event) :
    (d.step drawing e).Focus := by
  cases e with
  | armCommand msg =>
    exact ⟨h.nodeInfo, h.diagnostic, h.header, h.menu, h.message, h.status⟩
  | heartbeat msg topicName | readyToArm msg topicName =>
    exact ⟨(focused_step _ _ _ _).trans h.nodeInfo, h.diagnostic, h.header, h.menu, h.message, h.status⟩
  | diagnostic msg topicName =>
    exact ⟨h.nodeInfo, h.diagnostic, h.header, h.menu, h.message, h.status⟩
  | run10Hz key available now =>
    refine ⟨?_, ?_, h.header, h.menu, ?_, h.status⟩
    · show (d.tick drawing key available now).nodeInfo.focused = true
      rw [nodeInfo_tick, focused_run]
      exact h.nodeInfo
    · exact (DiagnosticPanel.focused_update _ _ _ _).trans h.diagnostic
    · show (MessageWindow.step (MessageWindow.step d.message (.messages _)) (.update _)).focused = false
      rw [MessageWindow.focused_step, MessageWindow.focused_step]
      exact h.message

/-- A run of the node is a run of its windows side by side. -/
theorem run_node (drawing : Drawing) (terminal : Terminal) (events : List MonitorNode.Event) :
    run (MonitorNode.step drawing) (.initial terminal) events =
        (run (step drawing) (initial terminal) events).node ∧
      (run (step drawing) (initial terminal) events).Focus := by
  induction events using List.reverseRecOn with
  | nil => exact ⟨initial_node terminal, focus_initial terminal⟩
  | append_singleton events e ih =>
    obtain ⟨hnode, hfocus⟩ := ih
    rw [run_concat, run_concat, hnode]
    exact ⟨step_node drawing hfocus e, focus_step drawing hfocus e⟩

end Desk

end SystemMonitor
