import RobotFramework.SystemMonitor.AutoSubscriptions
import RobotFramework.SystemMonitor.HealthReports
import RobotFramework.SystemMonitor.MonitorRuns

/-!
# Discovery

The monitor hears a node only on the topics that its rescans have found. Between rescans messages come on any
topic, and keys are pressed. Of all that, the node list shows the nodes that were heard on a topic found with
the type of the message (`listed_iff_heard`); and from the second heartbeat after the discovery on, a node is
shown as its heartbeats say (`discovered_shown`).
-/

namespace SystemMonitor

open History

/-! ## The code -/

/-- A message of one of the types that are scanned for. -/
inductive StreamMessage where
  | heartbeat (msg : Heartbeat)
  | diagnostic (msg : Diagnostic)
  | readyToArm (msg : ReadyToArm)
  deriving DecidableEq, Repr

def StreamMessage.type : StreamMessage → MessageType
  | .heartbeat _ => .heartbeat
  | .diagnostic _ => .diagnostic
  | .readyToArm _ => .readyToArm

/-- The callback that `subscribeToTopic` creates a subscription with. -/
def StreamMessage.callback (name : String) : StreamMessage → MonitorNode.Event
  | .heartbeat msg => .heartbeat msg name
  | .diagnostic msg => .diagnostic msg name
  | .readyToArm msg => .readyToArm msg name

/-- The node with its automatic subscriptions. -/
structure MonitorProcess where
  monitor : Monitor
  node : MonitorNode

namespace MonitorProcess

/-- What happens: `run01Hz` rescans a snapshot of the network, a message is published on a topic, an arm
command comes, or it is the turn of `run10Hz`. -/
inductive Event where
  | rescan (snapshot : Graph)
  | message (topicName : String) (msg : StreamMessage)
  | armCommand (msg : ArmCommand)
  | run10Hz (keyPressed : Int) (available : String → Bool) (now : String → Rat)

/-- The callbacks that an event runs. A message reaches the subscription to its topic, if that has its type. -/
def callbacks (p : MonitorProcess) : Event → List MonitorNode.Event
  | .rescan _ => []
  | .message topicName msg =>
    match p.monitor.autoSubs.lookup topicName with
    | some sub => if sub.type = msg.type then [msg.callback topicName] else []
    | none => []
  | .armCommand msg => [.armCommand msg]
  | .run10Hz keyPressed available now => [.run10Hz keyPressed available now]

def Event.snapshots : Event → List Graph
  | .rescan snapshot => [snapshot]
  | _ => []

section Process

variable (drawing : Drawing) (me : Identity) (getTopicNamesAndTypes : TopicQuery)

def step (p : MonitorProcess) (e : Event) : MonitorProcess where
  monitor := run (rescanROSNetwork me getTopicNamesAndTypes) p.monitor e.snapshots
  node := run (MonitorNode.step drawing) p.node (p.callbacks e)

/-- The process as `initData` leaves it. -/
def initial (terminal : Terminal) : MonitorProcess where
  monitor := .initial
  node := .initial terminal

def heard (terminal : Terminal) (events : List Event) : List MonitorNode.Event :=
  emitted (step drawing me getTopicNamesAndTypes) callbacks (initial terminal) events

end Process

end MonitorProcess

def snapshots (events : List MonitorProcess.Event) : List Graph :=
  events.flatMap MonitorProcess.Event.snapshots

/-! ## What a rescan finds -/

/-- A topic has a message type in a graph. -/
def Graph.Carries (g : Graph) (topic : String) (type : MessageType) : Prop :=
  ∃ e ∈ g.endpoints, e.topic = topic ∧ e.type = type.name

/-- A rescan has found the topic with the type, and since then none has found that the monitor publishes it. -/
def Found (me : Identity) (snapshots : List Graph) (topic : String) (type : MessageType) : Prop :=
  ∃ before g after, snapshots = before ++ g :: after ∧ g.Carries topic type ∧
    ∀ g' ∈ g :: after, ¬ g'.PublishedBy me topic

/-- All endpoints of a topic have one type. -/
def OneTopicType (snapshots : List Graph) : Prop :=
  ∀ g ∈ snapshots, ∀ e ∈ g.endpoints, ∀ g' ∈ snapshots, ∀ e' ∈ g'.endpoints,
    e.topic = e'.topic → e.type = e'.type

theorem MessageType.name_injective {type type' : MessageType} (h : type.name = type'.name) : type = type' := by
  cases type <;> cases type' <;> first | rfl | exact absurd h (by decide)

theorem subscribeToTopic_name (m : Monitor) (topic : String) (type : MessageType) :
    subscribeToTopic m topic type.name = m.createSubscription topic type := by
  cases type <;> simp [subscribeToTopic, MessageType.name]

theorem exists_name {type : String} (h : type ∈ autoScanTopicTypes) : ∃ t : MessageType, type = t.name := by
  simp only [autoScanTopicTypes, List.mem_cons, List.not_mem_nil, or_false] at h
  rcases h with rfl | rfl | rfl
  · exact ⟨.heartbeat, rfl⟩
  · exact ⟨.diagnostic, rfl⟩
  · exact ⟨.readyToArm, rfl⟩

theorem hasMonitoredType_iff {g : Graph} {topic : String} :
    g.HasMonitoredType topic ↔ ∃ type, g.Carries topic type := by
  constructor
  · rintro ⟨e, he, htopic, htype⟩
    obtain ⟨type, hname⟩ := exists_name htype
    exact ⟨type, e, he, htopic, hname⟩
  · rintro ⟨type, e, he, htopic, hname⟩
    exact ⟨e, he, htopic, hname ▸ name_mem_autoScanTopicTypes type⟩

section Scan

variable {me : Identity} {g : Graph} {topic : String} {sub : Subscription}

theorem Scan.lookup_discover {scan : Scan} {t type : String} (htype : type ∈ autoScanTopicTypes)
    (h : (scan.discover topic type).monitor.autoSubs.lookup t = some sub) :
    scan.monitor.autoSubs.lookup t = some sub ∨ t = topic ∧ sub.type.name = type := by
  obtain ⟨messageType, rfl⟩ := exists_name htype
  unfold Scan.discover at h
  dsimp only at h
  rw [subscribeToTopic_name] at h
  split_ifs at h with hknown
  · exact Or.inl h
  · by_cases ht : t = topic
    · subst ht
      have hnew : (⟨messageType, scan.monitor.created⟩ : Subscription) = sub := by
        simpa [Monitor.createSubscription] using h
      rw [← hnew]
      exact Or.inr ⟨rfl, rfl⟩
    · left
      rw [← h]
      exact (AList.lookup_insert_ne ht).symm

theorem lookup_scanTypes {t : String} {types : List String} {scan : Scan}
    (h : (scanTypes me g topic types scan).monitor.autoSubs.lookup t = some sub) :
    scan.monitor.autoSubs.lookup t = some sub ∨ t = topic ∧ sub.type.name ∈ types := by
  induction types with
  | nil => exact Or.inl h
  | cons type types ih =>
    unfold scanTypes at h
    have hrest (h : (scanTypes me g topic types scan).monitor.autoSubs.lookup t = some sub) :
        scan.monitor.autoSubs.lookup t = some sub ∨ t = topic ∧ sub.type.name ∈ type :: types :=
      (ih h).imp_right (And.imp_right (List.mem_cons_of_mem type))
    split_ifs at h with htype hself
    · exact hrest h
    · refine (Scan.lookup_discover htype h).imp_right (And.imp_right ?_)
      rintro rfl
      exact List.mem_cons_self
    · exact hrest h

theorem lookup_scanTopics {t : String} {topicInfo : List (String × List String)} {scan : Scan}
    (h : (scanTopics me g topicInfo scan).monitor.autoSubs.lookup t = some sub) :
    scan.monitor.autoSubs.lookup t = some sub ∨ ∃ types, (t, types) ∈ topicInfo ∧ sub.type.name ∈ types := by
  induction topicInfo generalizing scan with
  | nil => exact Or.inl h
  | cons info topicInfo ih =>
    rcases ih h with h | ⟨types, hmem, htype⟩
    · rcases lookup_scanTypes h with h | ⟨rfl, htype⟩
      · exact Or.inl h
      · exact Or.inr ⟨info.2, List.mem_cons_self, htype⟩
    · exact Or.inr ⟨types, List.mem_cons_of_mem info hmem, htype⟩

end Scan

section Rescans

variable {me : Identity} {getTopicNamesAndTypes : TopicQuery}

theorem lookup_rescanned (hquery : ListsTopics getTopicNamesAndTypes) {m : Monitor} {snapshot : Graph}
    {topic : String} {sub : Subscription}
    (h : (rescanROSNetwork me getTopicNamesAndTypes m snapshot).autoSubs.lookup topic = some sub) :
    ¬ snapshot.PublishedBy me topic ∧
      (m.autoSubs.lookup topic = some sub ∨ snapshot.Carries topic sub.type) := by
  have hmem : topic ∈ (rescanROSNetwork me getTopicNamesAndTypes m snapshot).autoSubs :=
    AList.lookup_isSome.mp (h ▸ rfl)
  have hself := ((mem_rescan hquery m snapshot topic).mp hmem).2
  refine ⟨hself, ?_⟩
  by_cases hknown : topic ∈ m.autoSubs
  · rw [lookup_rescan hquery hknown hself] at h
    exact Or.inl h
  · right
    have hscan : (scanTopics me (m.graph me snapshot) (getTopicNamesAndTypes (m.graph me snapshot))
        ⟨m, []⟩).monitor.autoSubs.lookup topic = some sub := by
      have herase := lookup_eraseOthers (scanTopics me (m.graph me snapshot)
        (getTopicNamesAndTypes (m.graph me snapshot)) ⟨m, []⟩).discoveredTargetTopics
        (scanTopics me (m.graph me snapshot) (getTopicNamesAndTypes (m.graph me snapshot))
          ⟨m, []⟩).monitor.autoSubs topic
      have hsome := herase.symm.trans h
      split_ifs at hsome with hdiscovered
      exact hsome
    rcases lookup_scanTopics hscan with hold | hlisted
    · exact absurd (AList.lookup_isSome.mp (hold ▸ rfl)) hknown
    · obtain ⟨e, he, htopic, htype⟩ := (hquery _ _ _).mp hlisted
      rcases List.mem_append.mp he with he | he
      · exact ⟨e, List.mem_append_left _ he, htopic, htype⟩
      · rcases List.mem_append.mp he with he | he
        · exact ⟨e, List.mem_append_right _ he, htopic, htype⟩
        · obtain ⟨own, hown, rfl⟩ := List.mem_map.mp he
          exact absurd (List.mem_map.mpr ⟨own, hown, htopic⟩) hknown

theorem Found.concat {snapshots : List Graph} {topic : String} {type : MessageType}
    (h : Found me snapshots topic type) {g : Graph} (hself : ¬ g.PublishedBy me topic) :
    Found me (snapshots ++ [g]) topic type := by
  obtain ⟨before, first, after, rfl, hcarries, hsince⟩ := h
  refine ⟨before, first, after ++ [g], by simp, hcarries, fun g' hg' => ?_⟩
  rw [← List.cons_append] at hg'
  rcases List.mem_append.mp hg' with hg' | hg'
  · exact hsince g' hg'
  · rw [List.mem_singleton.mp hg']
    exact hself

theorem mem_rescans_of_found (hquery : ListsTopics getTopicNamesAndTypes) {snapshots : List Graph} {topic : String}
    {type : MessageType} (h : Found me snapshots topic type) :
    topic ∈ (rescans me getTopicNamesAndTypes snapshots).autoSubs := by
  obtain ⟨before, g, after, rfl, hcarries, hsince⟩ := h
  unfold rescans
  rw [run_append, run_cons]
  have hfirst : topic ∈ (rescanROSNetwork me getTopicNamesAndTypes
      (run (rescanROSNetwork me getTopicNamesAndTypes) Monitor.initial before) g).autoSubs :=
    (mem_rescan hquery _ _ _).mpr
      ⟨Or.inl (hasMonitoredType_iff.mpr ⟨type, hcarries⟩), hsince g List.mem_cons_self⟩
  revert hfirst
  generalize rescanROSNetwork me getTopicNamesAndTypes
    (run (rescanROSNetwork me getTopicNamesAndTypes) Monitor.initial before) g = m
  intro hfirst
  have hlater : ∀ g' ∈ after, ¬ g'.PublishedBy me topic := fun g' hg' => hsince g' (List.mem_cons_of_mem g hg')
  clear hsince
  induction after generalizing m with
  | nil => exact hfirst
  | cons g' after ih =>
    obtain ⟨hself, hrest⟩ := List.forall_mem_cons.mp hlater
    exact ih _ ((mem_rescan hquery m g' topic).mpr ⟨Or.inr hfirst, hself⟩) hrest

theorem found_of_lookup (hquery : ListsTopics getTopicNamesAndTypes) {snapshots : List Graph} {topic : String}
    {sub : Subscription} (h : (rescans me getTopicNamesAndTypes snapshots).autoSubs.lookup topic = some sub) :
    Found me snapshots topic sub.type := by
  induction snapshots using List.reverseRecOn with
  | nil => simp [rescans, Monitor.initial] at h
  | append_singleton snapshots g ih =>
    unfold rescans at h ih
    rw [run_concat] at h
    obtain ⟨hself, hold | hcarries⟩ := lookup_rescanned hquery h
    · exact (ih hold).concat hself
    · refine ⟨snapshots, g, [], rfl, hcarries, fun g' hg' => ?_⟩
      rw [List.mem_singleton.mp hg']
      exact hself

theorem Found.type_unique {snapshots : List Graph} (hone : OneTopicType snapshots) {topic : String}
    {type type' : MessageType} (h : Found me snapshots topic type) (h' : Found me snapshots topic type') :
    type = type' := by
  obtain ⟨before, g, after, rfl, ⟨e, he, htopic, htype⟩, -⟩ := h
  obtain ⟨before', g', after', hsplit, ⟨e', he', htopic', htype'⟩, -⟩ := h'
  have hg : g ∈ before ++ g :: after := List.mem_append_right _ List.mem_cons_self
  have hg' : g' ∈ before ++ g :: after := hsplit ▸ List.mem_append_right _ List.mem_cons_self
  apply MessageType.name_injective
  rw [← htype, ← htype']
  exact hone g hg e he g' hg' e' he' (htopic.trans htopic'.symm)

/-- If topics have one type, the subscriptions are to the topics that were found, with their types. -/
theorem exists_lookup_iff (hquery : ListsTopics getTopicNamesAndTypes) {snapshots : List Graph}
    (hone : OneTopicType snapshots) (topic : String) (type : MessageType) :
    (∃ sub, (rescans me getTopicNamesAndTypes snapshots).autoSubs.lookup topic = some sub ∧ sub.type = type) ↔
      Found me snapshots topic type := by
  constructor
  · rintro ⟨sub, hsub, rfl⟩
    exact found_of_lookup hquery hsub
  · intro h
    obtain ⟨sub, hsub⟩ := Option.isSome_iff_exists.mp
      (AList.lookup_isSome.mpr (mem_rescans_of_found hquery h))
    exact ⟨sub, hsub, (found_of_lookup hquery hsub).type_unique hone h⟩

end Rescans

/-! ## What the node window takes -/

/-- What the node window takes of a callback, without the keys. -/
def MonitorNode.Event.windowEvents : MonitorNode.Event → List SystemMonitor.Event
  | .heartbeat msg topicName => [.heartbeat { msg with nodename := cutSuffix 10 topicName }]
  | .readyToArm msg topicName => [.readyToArm { msg with nodename := cutSuffix 13 topicName }]
  | .run10Hz _ _ now => [.update (now "node_info_window")]
  | _ => []

/-- The node that a message is filed under in the node window. -/
def StreamMessage.node (topicName : String) : StreamMessage → Option String
  | .heartbeat _ => some (cutSuffix 10 topicName)
  | .readyToArm _ => some (cutSuffix 13 topicName)
  | .diagnostic _ => none

/-- The clock of the node window at a turn. -/
def MonitorProcess.Event.turnTime : MonitorProcess.Event → Option Rat
  | .run10Hz _ _ now => some (now "node_info_window")
  | _ => none

theorem Desk.row_run (drawing : Drawing) (d : Desk) (events : List MonitorNode.Event) :
    (run (Desk.step drawing) d events).nodeInfo.toNodeInfoWindow =
      run SystemMonitor.step d.nodeInfo.toNodeInfoWindow (events.flatMap MonitorNode.Event.windowEvents) := by
  rw [← emitted_const (Desk.step drawing) _ d]
  refine run_emitted (fun d => d.nodeInfo.toNodeInfoWindow) (fun d e => ?_) d events
  cases e with
  | armCommand msg | heartbeat msg topicName | diagnostic msg topicName | readyToArm msg topicName => rfl
  | run10Hz key available now =>
    have hkey := toNodeInfoWindow_step drawing.sort drawing.levels d.nodeInfo (.key key available)
    have hupdate := toNodeInfoWindow_step drawing.sort drawing.levels
      (d.nodeInfo.newKeyEvent drawing.levels available key).window (.event (.update (now "node_info_window")))
    exact hupdate.trans (congrArg (fun w => SystemMonitor.step w (.update (now "node_info_window"))) hkey)

namespace MonitorProcess

variable (drawing : Drawing) (me : Identity) (getTopicNamesAndTypes : TopicQuery) (terminal : Terminal)

/-- The subscriptions depend on the rescans only, and the windows on the callbacks. -/
theorem run_process (events : List Event) :
    let p := run (step drawing me getTopicNamesAndTypes) (initial terminal) events
    p.monitor = rescans me getTopicNamesAndTypes (snapshots events) ∧
      p.node = run (MonitorNode.step drawing) (.initial terminal)
        (heard drawing me getTopicNamesAndTypes terminal events) := by
  refine ⟨?_, run_emitted MonitorProcess.node (fun _ _ => rfl) _ events⟩
  unfold snapshots
  rw [← emitted_const (step drawing me getTopicNamesAndTypes) _ (initial terminal)]
  exact run_emitted MonitorProcess.monitor (fun _ _ => rfl) _ events

theorem run_nodeInfoWindow (events : List Event) :
    ∃ w, (run (step drawing me getTopicNamesAndTypes) (initial terminal) events).node.nodeInfoWindow = some w ∧
      w.toNodeInfoWindow = run SystemMonitor.step
        (.initial (terminal.currentTimeSec "node_info_window") (terminal.hasWindow "node_info_window"))
        ((heard drawing me getTopicNamesAndTypes terminal events).flatMap MonitorNode.Event.windowEvents) := by
  rw [(run_process drawing me getTopicNamesAndTypes terminal events).2, (Desk.run_node drawing terminal _).1]
  exact ⟨_, rfl, Desk.row_run drawing (.initial terminal) _⟩

/-- A message runs its callback exactly once if its topic was found with its type, and no callback otherwise. -/
theorem callbacks_message {me : Identity} {getTopicNamesAndTypes : TopicQuery}
    (hquery : ListsTopics getTopicNamesAndTypes) {seen : List Graph} {p : MonitorProcess}
    (hmonitor : p.monitor = rescans me getTopicNamesAndTypes seen) (hone : OneTopicType seen) (topicName : String)
    (msg : StreamMessage) :
    (Found me seen topicName msg.type → p.callbacks (.message topicName msg) = [msg.callback topicName]) ∧
      (¬ Found me seen topicName msg.type → p.callbacks (.message topicName msg) = []) := by
  have hfound : (∃ sub, (rescans me getTopicNamesAndTypes seen).autoSubs.lookup topicName = some sub ∧
      sub.type = msg.type) ↔ Found me seen topicName msg.type :=
    exists_lookup_iff hquery hone topicName msg.type
  rw [← hfound, ← hmonitor]
  unfold callbacks
  dsimp only
  constructor
  · rintro ⟨sub, hsub, htype⟩
    rw [hsub]
    exact if_pos htype
  · intro hnone
    cases hsub : p.monitor.autoSubs.lookup topicName with
    | none => rfl
    | some sub => exact if_neg fun htype => hnone ⟨sub, hsub, htype⟩

theorem callbacks_message_cases (p : MonitorProcess) (topicName : String) (msg : StreamMessage) :
    p.callbacks (.message topicName msg) = [] ∨
      p.callbacks (.message topicName msg) = [msg.callback topicName] := by
  unfold callbacks
  dsimp only
  cases p.monitor.autoSubs.lookup topicName with
  | none => exact Or.inl rfl
  | some sub =>
    dsimp only
    split_ifs
    · exact Or.inr rfl
    · exact Or.inl rfl

theorem times_heard (events : List Event) :
    ((heard drawing me getTopicNamesAndTypes terminal events).flatMap
      MonitorNode.Event.windowEvents).filterMap SystemMonitor.Event.time = events.filterMap Event.turnTime := by
  induction events using List.reverseRecOn with
  | nil => rfl
  | append_singleton events e ih =>
    unfold heard at ih ⊢
    rw [emitted_concat, List.flatMap_append, List.filterMap_append, List.filterMap_append, ih]
    congr 1
    cases e with
    | rescan snapshot | armCommand msg | run10Hz key available now => rfl
    | message topicName msg =>
      rcases callbacks_message_cases (run (step drawing me getTopicNamesAndTypes) (initial terminal) events)
        topicName msg with h | h
      · rw [h]
        rfl
      · rw [h]
        cases msg <;> rfl

/-- A message that names a node was heard: its topic was found with its type. -/
def Heard (me : Identity) (n : String) (events : List Event) : Prop :=
  ∃ past topicName msg later, events = past ++ .message topicName msg :: later ∧
    msg.node topicName = some n ∧ Found me (snapshots past) topicName msg.type

theorem ofNode_callback (topicName n : String) (msg : StreamMessage) :
    (∃ e ∈ (msg.callback topicName).windowEvents, e.ofNode n = true) ↔ msg.node topicName = some n := by
  cases msg <;> simp [StreamMessage.callback, MonitorNode.Event.windowEvents, StreamMessage.node,
    SystemMonitor.Event.ofNode]

theorem mem_windowEvents {p : MonitorProcess} {e : Event} {c : MonitorNode.Event} (hc : c ∈ p.callbacks e)
    {x : SystemMonitor.Event} (hx : x ∈ c.windowEvents) :
    (∃ t, x = .update t) ∨ ∃ topicName msg, e = .message topicName msg ∧ c = msg.callback topicName := by
  cases e with
  | rescan snapshot => cases hc
  | armCommand msg =>
    rw [List.mem_singleton.mp hc] at hx
    cases hx
  | run10Hz key available now =>
    rw [List.mem_singleton.mp hc] at hx
    exact Or.inl ⟨_, List.mem_singleton.mp hx⟩
  | message topicName msg =>
    right
    rcases callbacks_message_cases p topicName msg with h | h
    · rw [h] at hc
      cases hc
    · rw [h] at hc
      exact ⟨topicName, msg, rfl, List.mem_singleton.mp hc⟩

theorem any_heard (hquery : ListsTopics getTopicNamesAndTypes) {events : List Event}
    (hone : OneTopicType (snapshots events)) (n : String) :
    ((heard drawing me getTopicNamesAndTypes terminal events).flatMap
      MonitorNode.Event.windowEvents).any (·.ofNode n) = true ↔ Heard me n events := by
  have hpast {past later : List Event} (h : events = past ++ later) : OneTopicType (snapshots past) := by
    have hsubset : snapshots past ⊆ snapshots events := by
      rw [h]
      unfold snapshots
      rw [List.flatMap_append]
      exact List.subset_append_left _ _
    exact fun g hg e he g' hg' e' he' => hone g (hsubset hg) e he g' (hsubset hg') e' he'
  rw [List.any_eq_true]
  constructor
  · rintro ⟨x, hx, hnode⟩
    obtain ⟨c, hc, hxc⟩ := List.mem_flatMap.mp hx
    obtain ⟨past, e, later, hsplit, hce⟩ := mem_emitted hc
    rcases mem_windowEvents hce hxc with ⟨t, rfl⟩ | ⟨topicName, msg, rfl, rfl⟩
    · cases hnode
    · refine ⟨past, topicName, msg, later, hsplit, (ofNode_callback ..).mp ⟨x, hxc, hnode⟩, ?_⟩
      by_contra hnot
      rw [(callbacks_message hquery (run_process drawing me getTopicNamesAndTypes terminal past).1 (hpast hsplit)
        topicName msg).2 hnot] at hce
      cases hce
  · rintro ⟨past, topicName, msg, later, hsplit, hnode, hfound⟩
    obtain ⟨x, hx, hof⟩ := (ofNode_callback ..).mpr hnode
    refine ⟨x, List.mem_flatMap.mpr ⟨msg.callback topicName, ?_, hx⟩, hof⟩
    unfold heard
    rw [hsplit]
    apply emitted_of_mem
    rw [(callbacks_message hquery (run_process drawing me getTopicNamesAndTypes terminal past).1 (hpast hsplit)
      topicName msg).1 hfound]
    exact List.mem_singleton_self _

/-- **Who is listed.** After every history of rescans, messages and turns, the node window has a row for exactly
the nodes of which a heartbeat or a ready-to-arm message came on a topic that a rescan had found with its type, and
that no rescan has found the monitor to publish since. -/
theorem listed_iff_heard (hquery : ListsTopics getTopicNamesAndTypes) (events : List Event)
    (hone : OneTopicType (snapshots events)) (n : String) :
    (∃ w d, (run (step drawing me getTopicNamesAndTypes) (initial terminal) events).node.nodeInfoWindow = some w ∧
      w.row n = some d) ↔ Heard me n events := by
  obtain ⟨w, hwindow, hw⟩ := run_nodeInfoWindow drawing me getTopicNamesAndTypes terminal events
  rw [← any_heard drawing me getTopicNamesAndTypes terminal hquery hone n, ← row_isSome_run, ← hw,
    Option.isSome_iff_exists]
  constructor
  · rintro ⟨w', d, hw', hrow⟩
    obtain rfl := Option.some.inj (hwindow.symm.trans hw')
    exact ⟨d, hrow⟩
  · rintro ⟨d, hrow⟩
    exact ⟨w, d, hwindow, hrow⟩

/-! ## How soon a node is shown -/

theorem heard_append (events later : List Event) :
    heard drawing me getTopicNamesAndTypes terminal (events ++ later) =
      heard drawing me getTopicNamesAndTypes terminal events ++
        emitted (step drawing me getTopicNamesAndTypes) callbacks
          (run (step drawing me getTopicNamesAndTypes) (initial terminal) events) later :=
  emitted_append _ _ _ _ _

theorem cutSuffix_topic (n name : String) :
    cutSuffix ("/" ++ name).toList.length (privateTopic n name) = n := by
  unfold privateTopic
  rw [String.append_assoc]
  exact cutSuffix_append n ("/" ++ name)

theorem heartbeat_later {p : MonitorProcess} {after : List Event} {later : Heartbeat}
    (h : .heartbeat later ∈ (emitted (step drawing me getTopicNamesAndTypes) callbacks p after).flatMap
      MonitorNode.Event.windowEvents) :
    ∃ topicName msg, .message topicName (.heartbeat msg) ∈ after ∧ later.nodename = cutSuffix 10 topicName := by
  obtain ⟨c, hc, hx⟩ := List.mem_flatMap.mp h
  obtain ⟨past, e, rest, rfl, hce⟩ := mem_emitted hc
  rcases mem_windowEvents hce hx with ⟨t, ht⟩ | ⟨topicName, msg, rfl, rfl⟩
  · cases ht
  · cases msg with
    | heartbeat msg =>
      refine ⟨topicName, msg, by simp, ?_⟩
      rw [SystemMonitor.Event.heartbeat.inj (List.mem_singleton.mp hx)]
    | diagnostic msg => cases hx
    | readyToArm msg => cases List.mem_singleton.mp hx

/-- What the node window takes of a run with a heartbeat that is heard, after which no other of the node comes, and
with a turn at the end. -/
theorem windowEvents_heartbeat (hquery : ListsTopics getTopicNamesAndTypes) {past after : List Event} {n : String}
    (msg : Heartbeat) (key : Int) (available : String → Bool) (now : String → Rat)
    (hone : OneTopicType (snapshots past)) (hfound : Found me (snapshots past) (privateTopic n "heartbeat") .heartbeat)
    (hlast : ∀ topicName later, .message topicName (.heartbeat later) ∈ after → cutSuffix 10 topicName ≠ n) :
    ∃ between : List SystemMonitor.Event, (∀ later, .heartbeat later ∈ between → later.nodename ≠ n) ∧
      (heard drawing me getTopicNamesAndTypes terminal
        (past ++ .message (privateTopic n "heartbeat") (.heartbeat msg) ::
          (after ++ [.run10Hz key available now]))).flatMap MonitorNode.Event.windowEvents =
        (heard drawing me getTopicNamesAndTypes terminal past).flatMap MonitorNode.Event.windowEvents ++
          .heartbeat { msg with nodename := n } :: (between ++ [.update (now "node_info_window")]) := by
  have hcallback := (callbacks_message hquery (run_process drawing me getTopicNamesAndTypes terminal past).1 hone
    (privateTopic n "heartbeat") (.heartbeat msg)).1 hfound
  refine ⟨(emitted (step drawing me getTopicNamesAndTypes) callbacks
    (step drawing me getTopicNamesAndTypes (run (step drawing me getTopicNamesAndTypes) (initial terminal) past)
      (.message (privateTopic n "heartbeat") (.heartbeat msg))) after).flatMap
    MonitorNode.Event.windowEvents, fun later hlater => ?_, ?_⟩
  · obtain ⟨topicName, m, hm, hname⟩ := heartbeat_later _ _ _ hlater
    rw [hname]
    exact hlast topicName m hm
  · have hnode : cutSuffix 10 (privateTopic n "heartbeat") = n := cutSuffix_topic n "heartbeat"
    rw [heard_append, emitted, hcallback, emitted_concat, List.flatMap_append, List.flatMap_append,
      List.flatMap_append]
    congr 1
    show [SystemMonitor.Event.heartbeat { msg with nodename := cutSuffix 10 (privateTopic n "heartbeat") }] ++ _ = _
    rw [hnode]
    rfl

/-- **A node that was found is shown.** Let a rescan have found the heartbeats of a node, and let the node have been
heard before. From then on each of its heartbeats is shown at every turn, as long as none comes later and it is
fresh: whatever other messages, rescans and keys there are in between. -/
theorem discovered_shown (hquery : ListsTopics getTopicNamesAndTypes) (past after : List Event) (n : String)
    (msg : Heartbeat) (key : Int) (available : String → Bool) (now : String → Rat) {s : Rat} :
    let events := past ++ .message (privateTopic n "heartbeat") (.heartbeat msg) ::
      (after ++ [.run10Hz key available now])
    OneTopicType (snapshots past) → Heard me n past →
    Found me (snapshots past) (privateTopic n "heartbeat") .heartbeat →
    (∀ topicName later, .message topicName (.heartbeat later) ∈ after → cutSuffix 10 topicName ≠ n) →
    (events.filterMap Event.turnTime).Pairwise (· ≤ ·) → (past.filterMap Event.turnTime).getLast? = some s →
    now "node_info_window" - s ≤ commTimeoutThreshold →
    ∃ w d, (run (step drawing me getTopicNamesAndTypes) (initial terminal) events).node.nodeInfoWindow = some w ∧
      w.row n = some d ∧ d.state = msg.nodeState ∧ d.hostDevice = msg.hostname ∧
      d.baseNodeName = msg.baseNodename := by
  intro events hone hheard hfound hlast hmono hclock hfresh
  obtain ⟨w, hwindow, hw⟩ := run_nodeInfoWindow drawing me getTopicNamesAndTypes terminal events
  -- what the node window takes of the run, with the heartbeat in the middle and the turn at the end
  obtain ⟨between, hbetween, hsplit⟩ :=
    windowEvents_heartbeat drawing me getTopicNamesAndTypes terminal hquery msg key available now hone hfound hlast
  generalize hbefore : (heard drawing me getTopicNamesAndTypes terminal past).flatMap
    MonitorNode.Event.windowEvents = before at hsplit
  have htimes := times_heard drawing me getTopicNamesAndTypes terminal events
  have hs : monitorTime before = some s := by
    rw [← hclock, ← times_heard drawing me getTopicNamesAndTypes terminal past, hbefore, getLast?_filterMap]
    rfl
  have hnondecreasing : Nondecreasing (before ++ .heartbeat { msg with nodename := n } ::
      (between ++ .update (now "node_info_window") :: [])) := by
    unfold Nondecreasing
    rw [← hsplit, htimes]
    exact hmono
  have hseen : before.any (·.ofNode n) = true := by
    rw [← hbefore]
    exact (any_heard drawing me getTopicNamesAndTypes terminal hquery hone n).mpr hheard
  have hother : ∀ later, .heartbeat later ∈ between →
      later.nodename ≠ ({ msg with nodename := n } : Heartbeat).nodename := hbetween
  obtain ⟨d, hrow, hview⟩ := heartbeat_row (terminal.currentTimeSec "node_info_window")
    (terminal.hasWindow "node_info_window") hs (hnondecreasing.between hs) hother hfresh
  rw [hseen, if_pos rfl] at hview
  obtain ⟨hstate, hnames⟩ := Prod.mk.inj hview
  obtain ⟨hhost, hbase⟩ := Prod.mk.inj hnames
  refine ⟨w, d, hwindow, ?_, hstate, hhost, hbase⟩
  show w.toNodeInfoWindow.row n = some d
  rw [hw, hsplit]
  exact hrow

end MonitorProcess

open MonitorProcess

/-- A node is found, and sends a heartbeat after a turn. -/
def imuFound : List MonitorProcess.Event :=
  [.rescan ⟨[imuHeartbeat], []⟩, .run10Hz (-1) (fun _ => false) (fun _ => 1),
    .message "/imu_node1/heartbeat" (.heartbeat ⟨"pi", "imu_node", "", .running⟩)]

theorem imuFound_oneType : OneTopicType (snapshots imuFound) := by
  simp [imuFound, snapshots, MonitorProcess.Event.snapshots, OneTopicType, Graph.endpoints]

theorem imuFound_found :
    Found systemMonitor (snapshots imuFound) (privateTopic "/imu_node1" "heartbeat") .heartbeat := by
  refine ⟨[], ⟨[imuHeartbeat], []⟩, [], rfl, ⟨imuHeartbeat, List.mem_singleton_self _, by decide, rfl⟩, ?_⟩
  intro g hg
  rw [List.mem_singleton.mp hg]
  decide

theorem imuFound_heard : Heard systemMonitor "/imu_node1" imuFound :=
  ⟨imuFound.take 2, _, _, [], rfl, by decide, imuFound_found⟩

theorem imuFound_listed : ∃ w d,
    (run (MonitorProcess.step screen systemMonitor Graph.getTopicNamesAndTypes) (.initial terminal)
      imuFound).node.nodeInfoWindow = some w ∧ w.row "/imu_node1" = some d :=
  (listed_iff_heard screen systemMonitor Graph.getTopicNamesAndTypes terminal listsTopics_getTopicNamesAndTypes
    imuFound imuFound_oneType "/imu_node1").mpr imuFound_heard

/-- Its second heartbeat is shown in the next turn. -/
theorem imuFound_shown : ∃ w d,
    (run (MonitorProcess.step screen systemMonitor Graph.getTopicNamesAndTypes) (.initial terminal)
      (imuFound ++ [.message "/imu_node1/heartbeat" (.heartbeat ⟨"pi", "imu_node", "", .running⟩),
        .run10Hz (-1) (fun _ => false) fun _ => 2])).node.nodeInfoWindow = some w ∧
      w.row "/imu_node1" = some d ∧ d.state = .running ∧ d.hostDevice = "pi" ∧ d.baseNodeName = "imu_node" :=
  discovered_shown screen systemMonitor Graph.getTopicNamesAndTypes terminal listsTopics_getTopicNamesAndTypes
    imuFound [] "/imu_node1" ⟨"pi", "imu_node", "", .running⟩ (-1) (fun _ => false) (fun _ => 2) imuFound_oneType
    imuFound_heard imuFound_found (fun _ _ h => absurd h List.not_mem_nil) (by decide +kernel) rfl
    (by decide +kernel)

end SystemMonitor
