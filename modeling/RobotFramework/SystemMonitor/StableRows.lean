import Mathlib.Data.Finset.Card
import RobotFramework.SystemMonitor.NodeInfoWindow

/-!
# One row for each node

The callbacks of the system monitor cut the name of the stream off the topic and pass the message on
under the name of its node. What identifies a record is its node and its id; no message and no update
writes either (`identity_step`), so a record keeps the number of nodes that were known when its node was
first heard of.
-/

namespace SystemMonitor

open History

/-! ## The code -/

/-- `topicName.substr(0, topicName.length() - suffix)`. Below zero the unsigned difference is beyond the
end, and the whole name is taken. -/
def cutSuffix (suffix : Nat) (topicName : String) : String :=
  if suffix ≤ topicName.toList.length then
    String.ofList (topicName.toList.take (topicName.toList.length - suffix))
  else topicName

/-- `SystemMonitorNode::heartbeatCallback`, for the node window. -/
def heartbeatCallback (w : NodeInfoWindow) (msg : Heartbeat) (topicName : String) : NodeInfoWindow :=
  let fullNodeName := cutSuffix 10 topicName
  w.newHeartbeatMsg { msg with nodename := fullNodeName }

/-- `SystemMonitorNode::readyToArmCallback`, for the node window. -/
def readyToArmCallback (w : NodeInfoWindow) (msg : ReadyToArm) (topicName : String) : NodeInfoWindow :=
  let fullNodeName := cutSuffix 13 topicName
  w.newReadyToArmMsg { msg with nodename := fullNodeName }

/-- The topic a node with a fully qualified name publishes a private name on, as `~/heartbeat`. -/
def privateTopic (nodeName name : String) : String := nodeName ++ "/" ++ name

/-- What reaches the monitor: a message of a node on one of its two streams, or an update. -/
inductive MonitorEvent where
  | heartbeat (nodeName : String) (msg : Heartbeat)
  | readyToArm (nodeName : String) (msg : ReadyToArm)
  | update (currentTimeSec : Rat)
  deriving DecidableEq, Repr

/-- The node window after an event. -/
def monitorStep (w : NodeInfoWindow) : MonitorEvent → NodeInfoWindow
  | .heartbeat nodeName msg => heartbeatCallback w msg (privateTopic nodeName "heartbeat")
  | .readyToArm nodeName msg => readyToArmCallback w msg (privateTopic nodeName "ready_to_arm")
  | .update currentTimeSec => (w.update currentTimeSec).1

/-- The node a message is from. -/
def MonitorEvent.node : MonitorEvent → Option String
  | .heartbeat nodeName _ => some nodeName
  | .readyToArm nodeName _ => some nodeName
  | .update _ => none

/-! ## The key of a record -/

theorem cutSuffix_append (name suffix : String) :
    cutSuffix suffix.toList.length (name ++ suffix) = name := by
  unfold cutSuffix
  rw [String.toList_append, List.length_append, if_pos (Nat.le_add_left _ _), Nat.add_sub_cancel,
    List.take_left', String.ofList_toList]
  rfl

/-- The window event that an event of the monitor amounts to. -/
def MonitorEvent.toEvent : MonitorEvent → Event
  | .heartbeat nodeName msg => .heartbeat { msg with nodename := nodeName }
  | .readyToArm nodeName msg => .readyToArm { msg with nodename := nodeName }
  | .update currentTimeSec => .update currentTimeSec

/-- Whichever stream a message is on, it is filed under the name of its node. -/
theorem monitorStep_eq (w : NodeInfoWindow) (e : MonitorEvent) : monitorStep w e = step w e.toEvent := by
  cases e with
  | heartbeat nodeName msg =>
    have hcut : cutSuffix 10 (privateTopic nodeName "heartbeat") = nodeName := by
      unfold privateTopic
      rw [String.append_assoc]
      exact cutSuffix_append nodeName "/heartbeat"
    show w.newHeartbeatMsg { msg with nodename := cutSuffix 10 (privateTopic nodeName "heartbeat") } =
      w.newHeartbeatMsg { msg with nodename := nodeName }
    rw [hcut]
  | readyToArm nodeName msg =>
    have hcut : cutSuffix 13 (privateTopic nodeName "ready_to_arm") = nodeName := by
      unfold privateTopic
      rw [String.append_assoc]
      exact cutSuffix_append nodeName "/ready_to_arm"
    show w.newReadyToArmMsg
        { msg with nodename := cutSuffix 13 (privateTopic nodeName "ready_to_arm") } =
      w.newReadyToArmMsg { msg with nodename := nodeName }
    rw [hcut]
  | update t => rfl

/-- The node a window event is a message of. -/
def Event.node : Event → Option String
  | .heartbeat msg => some msg.nodename
  | .readyToArm msg => some msg.nodename
  | .update _ => none

theorem node_toEvent (e : MonitorEvent) : e.toEvent.node = e.node := by
  cases e <;> rfl

/-! ## What identifies a record -/

/-- The node and the id of a record. -/
def NodeData.identity (d : NodeData) : String × UInt16 := (d.nodeName, d.id)

theorem identity_update (t : Rat) (d : NodeData) : (d.update t).identity = d.identity := by
  unfold NodeData.update
  dsimp only
  split_ifs <;> rfl

theorem identity_received {k n : String} {id : UInt16} {write : NodeData → NodeData} {new : NodeData}
    (row : Option NodeData) (hwrite : ∀ d, (write d).identity = d.identity)
    (hnew : new.identity = (k, id)) :
    (received k n write new row).map NodeData.identity =
      (row.map NodeData.identity).or (if some k = some n then some (n, id) else none) := by
  unfold received
  by_cases hn : k = n
  · subst hn
    rw [if_pos rfl, if_pos rfl]
    cases row with
    | none => exact congrArg some hnew
    | some d => exact congrArg some (hwrite d)
  · rw [if_neg hn, if_neg (fun h => hn (Option.some.inj h)), Option.or_none]

/-- Only the first message of a node gives its row an identity: the node and the number of nodes known
before. -/
theorem identity_step (w : NodeInfoWindow) (n : String) (e : Event) :
    ((step w e).row n).map NodeData.identity = ((w.row n).map NodeData.identity).or
      (if e.node = some n then some (n, UInt16.ofNat w.nodes.entries.length) else none) := by
  rw [row_step]
  cases e with
  | heartbeat msg =>
    have hwrite : ∀ d : NodeData, (d.newHeartbeatMsg w.currentTimeSec msg).identity = d.identity :=
      fun d => rfl
    exact identity_received (w.row n) hwrite rfl
  | readyToArm msg =>
    have hwrite : ∀ d : NodeData, (d.newReadyToArmMsg w.currentTimeSec msg).identity = d.identity :=
      fun d => rfl
    exact identity_received (w.row n) hwrite rfl
  | update t =>
    have hnode : (Event.update t).node ≠ some n := nofun
    rw [if_neg hnode, Option.or_none]
    show ((w.row n).map _).map _ = _
    rw [Option.map_map]
    congr 1
    funext d
    exact identity_update t d

/-! ## The number of records -/

/-- The message of a node that has no row yet. -/
def Event.isNew (w : NodeInfoWindow) (e : Event) : Prop := ∃ n, e.node = some n ∧ w.row n = none

theorem Event.isNew_iff {w : NodeInfoWindow} {e : Event} {n : String} (h : e.node = some n) :
    e.isNew w ↔ w.row n = none := by
  constructor
  · rintro ⟨m, hm, hrow⟩
    rw [h] at hm
    rwa [Option.some.inj hm]
  · exact fun hrow => ⟨n, h, hrow⟩

theorem length_insert_of_some {nodes : Nodes} {n : String} {d : NodeData} (new : NodeData)
    (h : nodes.lookup n = some d) : (nodes.insert n new).entries.length = nodes.entries.length := by
  have hmem : n ∈ nodes.keys := by
    by_contra hnot
    rw [AList.lookup_eq_none.mpr hnot] at h
    cases h
  have hpos := List.length_pos_of_mem hmem
  have hlen : (nodes.insert n new).keys.length = nodes.keys.length := by
    rw [AList.keys_insert, List.length_cons, List.length_erase_of_mem hmem]
    omega
  simpa [AList.keys, List.keys] using hlen

theorem length_insert_of_none {nodes : Nodes} {n : String} (new : NodeData)
    (h : nodes.lookup n = none) : (nodes.insert n new).entries.length = nodes.entries.length + 1 := by
  rw [AList.entries_insert_of_notMem (AList.lookup_eq_none.mp h), List.length_cons]

theorem length_step_of_new {w : NodeInfoWindow} {e : Event} (h : e.isNew w) :
    (step w e).nodes.entries.length = w.nodes.entries.length + 1 ∧
      (step w e).recordCount = UInt16.ofNat (w.nodes.entries.length + 1) := by
  obtain ⟨n, hnode, hrow⟩ := h
  cases e with
  | heartbeat msg =>
    obtain rfl := Option.some.inj hnode
    have hlen := length_insert_of_none (.new (UInt16.ofNat w.nodes.entries.length) .fast msg.hostname
      msg.baseNodename msg.nodename) hrow
    have hstep : step w (.heartbeat msg) =
        (w.insertNode .fast msg.hostname msg.baseNodename msg.nodename).1 := by
      show w.newHeartbeatMsg msg = _
      unfold NodeInfoWindow.newHeartbeatMsg
      rw [show w.nodes.lookup msg.nodename = none from hrow]
    rw [hstep]
    exact ⟨hlen, congrArg UInt16.ofNat hlen⟩
  | readyToArm msg =>
    obtain rfl := Option.some.inj hnode
    have hlen := length_insert_of_none (.new (UInt16.ofNat w.nodes.entries.length) .fast "" ""
      msg.nodename) hrow
    have hstep : step w (.readyToArm msg) = (w.insertNode .fast "" "" msg.nodename).1 := by
      show w.newReadyToArmMsg msg = _
      unfold NodeInfoWindow.newReadyToArmMsg
      rw [show w.nodes.lookup msg.nodename = none from hrow]
    rw [hstep]
    exact ⟨hlen, congrArg UInt16.ofNat hlen⟩
  | update t => cases hnode

theorem length_step_of_known {w : NodeInfoWindow} {e : Event} (h : ¬ e.isNew w) :
    (step w e).nodes.entries.length = w.nodes.entries.length ∧
      (step w e).recordCount = w.recordCount := by
  cases e with
  | heartbeat msg =>
    cases hrow : w.nodes.lookup msg.nodename with
    | none => exact absurd ⟨msg.nodename, rfl, hrow⟩ h
    | some d =>
      have hstep : step w (.heartbeat msg) = { w with
          nodes := w.nodes.insert msg.nodename (d.newHeartbeatMsg w.currentTimeSec msg) } := by
        show w.newHeartbeatMsg msg = _
        unfold NodeInfoWindow.newHeartbeatMsg
        rw [hrow]
      rw [hstep]
      exact ⟨length_insert_of_some _ hrow, rfl⟩
  | readyToArm msg =>
    cases hrow : w.nodes.lookup msg.nodename with
    | none => exact absurd ⟨msg.nodename, rfl, hrow⟩ h
    | some d =>
      have hstep : step w (.readyToArm msg) = { w with
          nodes := w.nodes.insert msg.nodename (d.newReadyToArmMsg w.currentTimeSec msg) } := by
        show w.newReadyToArmMsg msg = _
        unfold NodeInfoWindow.newReadyToArmMsg
        rw [hrow]
      rw [hstep]
      exact ⟨length_insert_of_some _ hrow, rfl⟩
  | update t => exact ⟨List.length_map _, rfl⟩

/-! ## Records in the order of the first messages -/

/-- The records are those of the given nodes, numbered in their order. -/
structure Numbered (order : List String) (w : NodeInfoWindow) : Prop where
  known : ∀ {i n}, order[i]? = some n → (w.row n).map NodeData.identity = some (n, UInt16.ofNat i)
  unknown : ∀ {n}, n ∉ order → w.row n = none
  length : w.nodes.entries.length = order.length
  count : w.recordCount = UInt16.ofNat order.length

theorem numbered_initial (t : Rat) (hasWindow : Bool) : Numbered [] (.initial t hasWindow) where
  known h := by cases h
  unknown _ := rfl
  length := rfl
  count := rfl

namespace Numbered

variable {order : List String} {w : NodeInfoWindow}

theorem row_eq_none_iff (h : Numbered order w) {n : String} : w.row n = none ↔ n ∉ order := by
  refine ⟨fun hrow hmem => ?_, h.unknown⟩
  obtain ⟨i, hi⟩ := List.mem_iff_getElem?.mp hmem
  have hknown := h.known hi
  rw [hrow] at hknown
  cases hknown

theorem step_of_new (h : Numbered order w) {e : Event} {n : String} (hnode : e.node = some n)
    (hn : n ∉ order) : Numbered (order ++ [n]) (step w e) := by
  have hnew : e.isNew w := ⟨n, hnode, h.unknown hn⟩
  obtain ⟨hlength, hcount⟩ := length_step_of_new hnew
  constructor
  · intro i m hi
    rw [identity_step, hnode]
    rcases Nat.lt_or_ge i order.length with hlt | hge
    · rw [List.getElem?_append_left hlt] at hi
      rw [h.known hi, Option.some_or]
    · rw [List.getElem?_append_right hge, List.getElem?_singleton] at hi
      split_ifs at hi with hzero
      obtain rfl := Option.some.inj hi
      rw [h.unknown hn, if_pos rfl, h.length]
      have heq : i = order.length := by omega
      rw [heq]
      rfl
  · intro m hm
    rw [List.mem_append, List.mem_singleton, not_or] at hm
    have hrow := identity_step w m e
    rw [hnode, h.unknown hm.1, if_neg (fun heq => hm.2 (Option.some.inj heq).symm)] at hrow
    exact Option.map_eq_none_iff.mp hrow
  · rw [hlength, h.length, List.length_append, List.length_singleton]
  · rw [hcount, h.length, List.length_append, List.length_singleton]

theorem step_of_known (h : Numbered order w) {e : Event} (hnode : ∀ n, e.node = some n → n ∈ order) :
    Numbered order (step w e) := by
  have hknown : ¬ e.isNew w := by
    rintro ⟨n, hn, hrow⟩
    exact h.row_eq_none_iff.mp hrow (hnode n hn)
  obtain ⟨hlength, hcount⟩ := length_step_of_known hknown
  constructor
  · intro i n hi
    rw [identity_step, h.known hi, Option.some_or]
  · intro n hn
    have hrow := identity_step w n e
    rw [h.unknown hn, if_neg (fun heq => hn (hnode n heq))] at hrow
    exact Option.map_eq_none_iff.mp hrow
  · rw [hlength, h.length]
  · rw [hcount, h.count]

theorem step (h : Numbered order w) (e : Event) :
    Numbered (join order e.node) (SystemMonitor.step w e) := by
  unfold join
  cases hnode : e.node with
  | none => exact h.step_of_known (by simp [hnode])
  | some n =>
    dsimp only
    split_ifs with hn
    · refine h.step_of_known fun m hm => ?_
      rw [hnode] at hm
      exact Option.some.inj hm ▸ hn
    · exact h.step_of_new hnode hn

end Numbered

theorem numbered_run (t : Rat) (hasWindow : Bool) (events : List MonitorEvent) :
    Numbered (firstSeen MonitorEvent.node events) (run monitorStep (.initial t hasWindow) events) := by
  refine run_invariant (I := fun past w => Numbered (firstSeen MonitorEvent.node past) w) ?_ ?_ events
  · exact numbered_initial t hasWindow
  · intro past w e h
    rw [firstSeen_concat, monitorStep_eq, ← node_toEvent]
    exact h.step e.toEvent

/-! ## The node list -/

/-- What the node window holds after some events: one record for each node that sent a message, under its
name, numbered from 0 in the order of the first messages. -/
structure StableRows (start : NodeInfoWindow) (events : List MonitorEvent) : Prop where
  rows : ∀ n, ((run monitorStep start events).row n).isSome ↔ ∃ e ∈ events, e.node = some n
  length : (run monitorStep start events).nodes.entries.length =
    (firstSeen MonitorEvent.node events).length
  ids : ∀ i n, (firstSeen MonitorEvent.node events)[i]? = some n →
    ∃ d, (run monitorStep start events).row n = some d ∧ d.nodeName = n ∧ d.id.toNat = i
  count : (run monitorStep start events).recordCount.toNat =
    (firstSeen MonitorEvent.node events).length
  /-- An id never changes. -/
  fixed : ∀ earlier later n d d', events = earlier ++ later →
    (run monitorStep start earlier).row n = some d →
    (run monitorStep start events).row n = some d' → d'.id = d.id

/-- **Stable rows.** Whatever fewer than 65536 nodes send, each that has sent something has one record,
and the records are numbered in the order of the first messages for good. -/
theorem stable_rows (nodes : Finset String) (hnodes : nodes.card < 65536) (t : Rat) (hasWindow : Bool)
    (events : List MonitorEvent) (hfrom : ∀ e ∈ events, ∀ n, e.node = some n → n ∈ nodes) :
    StableRows (.initial t hasWindow) events := by
  have h := numbered_run t hasWindow events
  have hlength : (firstSeen MonitorEvent.node events).length < 65536 := by
    refine Nat.lt_of_le_of_lt ?_ hnodes
    rw [← List.toFinset_card_of_nodup nodup_firstSeen]
    refine Finset.card_le_card fun n hn => ?_
    obtain ⟨e, he, hnode⟩ := mem_firstSeen.mp (List.mem_toFinset.mp hn)
    exact hfrom e he n hnode
  constructor
  · intro n
    rw [← mem_firstSeen, Option.isSome_iff_ne_none, ne_eq, h.row_eq_none_iff, not_not]
  · exact h.length
  · intro i n hi
    obtain ⟨d, hrow, hd⟩ := Option.map_eq_some_iff.mp (h.known hi)
    obtain ⟨hname, hid⟩ := Prod.mk.inj hd
    refine ⟨d, hrow, hname, ?_⟩
    have hlt := (List.getElem?_eq_some_iff.mp hi).1
    rw [hid, UInt16.toNat_ofNat_of_lt' (by simpa using hlt.trans hlength)]
  · rw [h.count, UInt16.toNat_ofNat_of_lt' (by simpa using hlength)]
  · intro earlier later n d d' hsplit hd hd'
    have hearlier := numbered_run t hasWindow earlier
    have hmem : n ∈ firstSeen MonitorEvent.node earlier := by
      by_contra hnot
      rw [hearlier.unknown hnot] at hd
      cases hd
    obtain ⟨i, hi⟩ := List.mem_iff_getElem?.mp hmem
    have hfirst := firstSeen_prefix_append MonitorEvent.node earlier later
    rw [← hsplit] at hfirst
    have hi' : (firstSeen MonitorEvent.node events)[i]? = some n := by
      obtain ⟨rest, hrest⟩ := hfirst
      rw [← hrest, List.getElem?_append_left (List.getElem?_eq_some_iff.mp hi).1, hi]
    have hold := hearlier.known hi
    have hnew := h.known hi'
    rw [hd] at hold
    rw [hd'] at hnew
    have hident := Option.some.inj (hnew.trans hold.symm)
    exact congrArg Prod.snd hident

/-- A ready-to-arm message of the servo hat, then heartbeats of the IMU and the servo hat. -/
def twoNodes : List MonitorEvent :=
  [.readyToArm "/robot/servo_hat_node" ⟨"", 1, 1, true⟩,
   .heartbeat "/robot/imu_node1" ⟨"DevComputer2", "imu_node", "", .running⟩,
   .update 1,
   .heartbeat "/robot/servo_hat_node" ⟨"DevComputer2", "servo_hat_node", "", .running⟩]

/-- The servo hat has id 0 and the IMU id 1. -/
theorem twoNodes_stable :
    firstSeen MonitorEvent.node twoNodes = ["/robot/servo_hat_node", "/robot/imu_node1"] ∧
      StableRows (.initial 0 true) twoNodes := by
  refine ⟨by decide, stable_rows {"/robot/servo_hat_node", "/robot/imu_node1"} (by decide) 0 true
    twoNodes ?_⟩
  intro e he n hn
  simp only [twoNodes, List.mem_cons, List.not_mem_nil, or_false] at he
  rcases he with rfl | rfl | rfl | rfl
  all_goals
    cases hn <;> decide

end SystemMonitor
