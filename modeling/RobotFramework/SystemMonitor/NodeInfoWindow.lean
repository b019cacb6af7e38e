import Mathlib.Data.List.AList
import Mathlib.Data.Rat.Defs
import RobotFramework.History

/-!
# The node list of the system monitor

`NodeInfoWindow` keeps one record for each node it has heard of. Heartbeats and ready-to-arm messages
write the record of their node, and the periodic update times out the ones it has not heard of for a
while. Times are exact, and the drawing of the window is left out.
-/

namespace SystemMonitor

open History

/-! ## The code -/

/-- `COMMTIMEOUT_THRESHOLD`. -/
def commTimeoutThreshold : Rat := 5

/-- `robot_framework_ros2::msg::NodeState`. -/
structure NodeState where
  state : UInt8
  deriving DecidableEq, Repr

/-- `STATE_UNKNOWN`. -/
def NodeState.unknown : NodeState := ⟨0⟩

/-- `STATE_STARTING`. -/
def NodeState.starting : NodeState := ⟨2⟩

/-- `STATE_RUNNING`. -/
def NodeState.running : NodeState := ⟨3⟩

/-- `NodeInfoWindow::NodeType`. -/
inductive NodeType where
  | unknown
  | fast
  | nonFast
  deriving DecidableEq, Repr

/-- `robot_framework_ros2::msg::Heartbeat`. -/
structure Heartbeat where
  hostname : String
  baseNodename : String
  nodename : String
  nodeState : NodeState
  deriving DecidableEq, Repr

/-- `robot_framework_ros2::msg::ReadyToArm`. -/
structure ReadyToArm where
  nodename : String
  systemId : UInt8
  subsystemId : UInt8
  readyToArm : Bool
  deriving DecidableEq, Repr

/-- `NodeInfoWindow::NodeData`. -/
structure NodeData where
  id : UInt16
  state : NodeState
  type : NodeType
  hostDevice : String
  baseNodeName : String
  nodeName : String
  readyToArm : String
  lastHeartbeat : Rat
  lastHeartbeatDelta : Rat
  deriving DecidableEq, Repr

/-- The constructor of `NodeData`. -/
def NodeData.new (id : UInt16) (type : NodeType) (hostDevice baseNodeName nodeName : String) :
    NodeData where
  id := id
  state := .starting
  type := type
  hostDevice := hostDevice
  baseNodeName := baseNodeName
  nodeName := nodeName
  readyToArm := "UNKNOWN"
  lastHeartbeat := 0
  lastHeartbeatDelta := 0

/-- What a heartbeat writes to the record of its node. -/
def NodeData.newHeartbeatMsg (currentTimeSec : Rat) (msg : Heartbeat) (d : NodeData) : NodeData :=
  { d with
    hostDevice := msg.hostname
    baseNodeName := msg.baseNodename
    state := msg.nodeState
    lastHeartbeatDelta := 0
    lastHeartbeat := currentTimeSec }

/-- The text shown for a ready-to-arm message. -/
def ReadyToArm.text (msg : ReadyToArm) : String :=
  if msg.systemId = 0 ∨ msg.subsystemId = 0 then "INVALID"
  else if msg.readyToArm then "TRUE"
  else "FALSE"

/-- What a ready-to-arm message writes to the record of its node. -/
def NodeData.newReadyToArmMsg (currentTimeSec : Rat) (msg : ReadyToArm) (d : NodeData) : NodeData :=
  { d with
    readyToArm := msg.text
    lastHeartbeatDelta := 0
    lastHeartbeat := currentTimeSec }

/-- The body of the loop of `NodeInfoWindow::update`. -/
def NodeData.update (currentTimeSec : Rat) (d : NodeData) : NodeData :=
  let d := { d with lastHeartbeatDelta := currentTimeSec - d.lastHeartbeat }
  if d.lastHeartbeatDelta > commTimeoutThreshold then
    { d with state := .unknown, readyToArm := "UNKNOWN" }
  else d

/-- `m_nodes`. -/
abbrev Nodes := AList fun _ : String => NodeData

/-- The members of the window that its messages and updates use; `hasWindow` is `m_win != nullptr`. -/
structure NodeInfoWindow where
  currentTimeSec : Rat
  recordCount : UInt16
  hasWindow : Bool
  nodes : Nodes

/-- The window as constructed; nothing sets its time before the first update. -/
def NodeInfoWindow.initial (currentTimeSec : Rat) (hasWindow : Bool) : NodeInfoWindow where
  currentTimeSec := currentTimeSec
  recordCount := 0
  hasWindow := hasWindow
  nodes := ∅

/-- The loop of `NodeInfoWindow::update`. -/
def Nodes.update (currentTimeSec : Rat) (nodes : Nodes) : Nodes where
  entries := nodes.entries.map fun e => ⟨e.1, e.2.update currentTimeSec⟩
  nodupKeys := nodes.nodupKeys.map₂ fun _ => NodeData.update currentTimeSec

namespace NodeInfoWindow

/-- `NodeInfoWindow::insertNode`: the window and whether it has a new record. -/
def insertNode (w : NodeInfoWindow) (nodeType : NodeType) (device baseNodeName nodeName : String) :
    NodeInfoWindow × Bool :=
  let before := w.nodes.entries.length
  let newNode := NodeData.new (UInt16.ofNat before) nodeType device baseNodeName nodeName
  let nodes := w.nodes.insert newNode.nodeName newNode
  let after := nodes.entries.length
  ({ w with nodes := nodes, recordCount := UInt16.ofNat after }, after > before)

/-- `NodeInfoWindow::newHeartbeatMsg`. -/
def newHeartbeatMsg (w : NodeInfoWindow) (msg : Heartbeat) : NodeInfoWindow :=
  match w.nodes.lookup msg.nodename with
  | some d => { w with nodes := w.nodes.insert msg.nodename (d.newHeartbeatMsg w.currentTimeSec msg) }
  | none => (w.insertNode .fast msg.hostname msg.baseNodename msg.nodename).1

/-- `NodeInfoWindow::newReadyToArmMsg`. -/
def newReadyToArmMsg (w : NodeInfoWindow) (msg : ReadyToArm) : NodeInfoWindow :=
  match w.nodes.lookup msg.nodename with
  | some d => { w with nodes := w.nodes.insert msg.nodename (d.newReadyToArmMsg w.currentTimeSec msg) }
  | none => (w.insertNode .fast "" "" msg.nodename).1

/-- `NodeInfoWindow::update`: the window, and whether it could be drawn. -/
def update (w : NodeInfoWindow) (currentTimeSec : Rat) : NodeInfoWindow × Bool :=
  ({ w with currentTimeSec := currentTimeSec, nodes := w.nodes.update currentTimeSec }, w.hasWindow)

end NodeInfoWindow

/-- What happens to the window. -/
inductive Event where
  | heartbeat (msg : Heartbeat)
  | readyToArm (msg : ReadyToArm)
  | update (currentTimeSec : Rat)
  deriving DecidableEq, Repr

def step (w : NodeInfoWindow) : Event → NodeInfoWindow
  | .heartbeat msg => w.newHeartbeatMsg msg
  | .readyToArm msg => w.newReadyToArmMsg msg
  | .update currentTimeSec => (w.update currentTimeSec).1

/-! ## The record of one node -/

def NodeInfoWindow.row (w : NodeInfoWindow) (n : String) : Option NodeData := w.nodes.lookup n

/-- The record of a node after a message of node `k`, which is written to it or starts a new one. -/
def received (k n : String) (write : NodeData → NodeData) (new : NodeData) (row : Option NodeData) :
    Option NodeData :=
  if k = n then some ((row.map write).getD new) else row

/-- The record of a node after an event, from its record before; `id` is the one of a new record. -/
def rowStep (n : String) (id : UInt16) (now : Rat) (row : Option NodeData) : Event → Option NodeData
  | .heartbeat msg =>
    received msg.nodename n (·.newHeartbeatMsg now msg)
      (.new id .fast msg.hostname msg.baseNodename msg.nodename) row
  | .readyToArm msg =>
    received msg.nodename n (·.newReadyToArmMsg now msg) (.new id .fast "" "" msg.nodename) row
  | .update t => row.map (·.update t)

theorem received_self (n : String) (write : NodeData → NodeData) (new : NodeData)
    (row : Option NodeData) : received n n write new row = some ((row.map write).getD new) := if_pos rfl

theorem Nodes.lookup_update (t : Rat) (nodes : Nodes) (n : String) :
    AList.lookup n (nodes.update t) = (AList.lookup n nodes).map (·.update t) :=
  List.dlookup_map₂ n (f := fun _ => NodeData.update t)

theorem lookup_receive (nodes : Nodes) (k n : String) (write : NodeData → NodeData) (new : NodeData) :
    (match AList.lookup k nodes with
      | some d => AList.lookup n (nodes.insert k (write d))
      | none => AList.lookup n (nodes.insert k new)) =
      received k n write new (AList.lookup n nodes) := by
  unfold received
  by_cases hn : k = n
  · subst hn
    rw [if_pos rfl]
    cases AList.lookup k nodes with
    | some d => exact AList.lookup_insert nodes
    | none => exact AList.lookup_insert nodes
  · rw [if_neg hn]
    cases AList.lookup k nodes with
    | some d => exact AList.lookup_insert_ne (Ne.symm hn)
    | none => exact AList.lookup_insert_ne (Ne.symm hn)

theorem row_step (w : NodeInfoWindow) (n : String) (e : Event) :
    (step w e).row n =
      rowStep n (UInt16.ofNat w.nodes.entries.length) w.currentTimeSec (w.row n) e := by
  cases e with
  | heartbeat msg =>
    refine Eq.trans ?_ (lookup_receive w.nodes msg.nodename n _ _)
    show (w.newHeartbeatMsg msg).row n = _
    unfold NodeInfoWindow.newHeartbeatMsg
    cases w.nodes.lookup msg.nodename <;> rfl
  | readyToArm msg =>
    refine Eq.trans ?_ (lookup_receive w.nodes msg.nodename n _ _)
    show (w.newReadyToArmMsg msg).row n = _
    unfold NodeInfoWindow.newReadyToArmMsg
    cases w.nodes.lookup msg.nodename <;> rfl
  | update t => exact Nodes.lookup_update t w.nodes n

/-! ## Monitor time -/

/-- The event is a message of a node. -/
def Event.ofNode (n : String) : Event → Bool
  | .heartbeat msg => msg.nodename = n
  | .readyToArm msg => msg.nodename = n
  | .update _ => false

def Event.time : Event → Option Rat
  | .update t => some t
  | _ => none

/-- The argument of the last update, if there was one. -/
def monitorTime (past : List Event) : Option Rat := lastSome Event.time past

/-- The arguments of the updates do not decrease. -/
def Nondecreasing (events : List Event) : Prop := (events.filterMap Event.time).Pairwise (· ≤ ·)

instance (events : List Event) : Decidable (Nondecreasing events) :=
  inferInstanceAs (Decidable (List.Pairwise _ _))

theorem monitorTime_concat (past : List Event) (e : Event) :
    monitorTime (past ++ [e]) = e.time.or (monitorTime past) := lastSome_concat Event.time past e

theorem currentTimeSec_step (w : NodeInfoWindow) (e : Event) :
    (step w e).currentTimeSec = e.time.getD w.currentTimeSec := by
  cases e with
  | heartbeat msg =>
    show (w.newHeartbeatMsg msg).currentTimeSec = w.currentTimeSec
    unfold NodeInfoWindow.newHeartbeatMsg
    cases w.nodes.lookup msg.nodename <;> rfl
  | readyToArm msg =>
    show (w.newReadyToArmMsg msg).currentTimeSec = w.currentTimeSec
    unfold NodeInfoWindow.newReadyToArmMsg
    cases w.nodes.lookup msg.nodename <;> rfl
  | update t => rfl

theorem currentTimeSec_run (w : NodeInfoWindow) (past : List Event) :
    (run step w past).currentTimeSec = (monitorTime past).getD w.currentTimeSec :=
  run_lastSome NodeInfoWindow.currentTimeSec Event.time currentTimeSec_step w past

theorem mem_of_monitorTime {past : List Event} {t : Rat} (h : monitorTime past = some t) :
    .update t ∈ past := by
  obtain ⟨e, he, htime⟩ := exists_of_lastSome h
  cases e with
  | update u => exact Option.some.inj htime ▸ he
  | heartbeat msg | readyToArm msg => simp [Event.time] at htime

/-- The record of a node changes only by its messages and by updates. -/
theorem rowStep_of_not_ofNode {n : String} {e : Event} (h : e.ofNode n = false) (id : UInt16)
    (now : Rat) (row : Option NodeData) :
    rowStep n id now row e = e.time.elim row fun t => row.map (·.update t) := by
  cases e with
  | heartbeat msg => exact if_neg (by simpa [Event.ofNode] using h)
  | readyToArm msg => exact if_neg (by simpa [Event.ofNode] using h)
  | update t => rfl

end SystemMonitor
