import Mathlib.Data.List.AList
import Mathlib.Data.List.Dedup
import RobotFramework.History

/-!
# The automatic subscriptions

A rescan subscribes to the topics of the ROS graph that carry a monitored type and that the monitor does
not publish itself, and drops the subscriptions to all others. The monitor's own subscriptions are part of
the graph: a topic it has subscribed to is listed with its type even when nobody publishes it any more
(`mem_rescan`). So the subscriptions follow the publishers only while every topic keeps one
(`autoSubs_track_iff`).
-/

namespace SystemMonitor

open History

/-! ## The ROS graph -/

/-- A publisher or a subscription. -/
structure Endpoint where
  topic : String
  type : String
  nodeName : String
  nodeNamespace : String

structure Graph where
  publishers : List Endpoint
  subscriptions : List Endpoint

def Graph.endpoints (g : Graph) : List Endpoint := g.publishers ++ g.subscriptions

def Graph.getPublishersInfoByTopic (g : Graph) (topic : String) : List Endpoint :=
  g.publishers.filter (·.topic = topic)

/-- What `get_topic_names_and_types` returns. -/
abbrev TopicQuery := Graph → List (String × List String)

/-- The query lists every topic of the graph with the types of its publishers and subscriptions. -/
def ListsTopics (getTopicNamesAndTypes : TopicQuery) : Prop :=
  ∀ g topic type, (∃ types, (topic, types) ∈ getTopicNamesAndTypes g ∧ type ∈ types) ↔
    ∃ e ∈ g.endpoints, e.topic = topic ∧ e.type = type

/-! ## The monitor -/

/-- The types of the messages the monitor has a callback for. -/
inductive MessageType where
  | heartbeat
  | diagnostic
  | readyToArm
  deriving DecidableEq

def MessageType.name : MessageType → String
  | .heartbeat => "robot_framework_ros2/msg/Heartbeat"
  | .diagnostic => "robot_framework_ros2/msg/Diagnostic"
  | .readyToArm => "robot_framework_ros2/msg/ReadyToArm"

/-- A subscription object; each one that is created gets another id. -/
structure Subscription where
  type : MessageType
  id : Nat
  deriving DecidableEq

structure Identity where
  name : String
  namespaceName : String

structure Monitor where
  autoSubs : AList fun _ : String => Subscription
  created : Nat

def Monitor.initial : Monitor := ⟨∅, 0⟩

def autoScanTopicTypes : List String :=
  ["robot_framework_ros2/msg/Heartbeat", "robot_framework_ros2/msg/Diagnostic",
    "robot_framework_ros2/msg/ReadyToArm"]

def Monitor.createSubscription (m : Monitor) (name : String) (type : MessageType) : Monitor where
  autoSubs := m.autoSubs.insert name ⟨type, m.created⟩
  created := m.created + 1

def subscribeToTopic (m : Monitor) (name type : String) : Monitor :=
  if type = "robot_framework_ros2/msg/Heartbeat" then m.createSubscription name .heartbeat
  else if type = "robot_framework_ros2/msg/Diagnostic" then m.createSubscription name .diagnostic
  else if type = "robot_framework_ros2/msg/ReadyToArm" then m.createSubscription name .readyToArm
  else m

section Rescan

variable (me : Identity) (getTopicNamesAndTypes : TopicQuery)

/-- The graph with the automatic subscriptions of the monitor. -/
def Monitor.graph (m : Monitor) (snapshot : Graph) : Graph where
  publishers := snapshot.publishers
  subscriptions := snapshot.subscriptions ++
    m.autoSubs.entries.map fun sub => ⟨sub.1, sub.2.type.name, me.name, me.namespaceName⟩

def publishedBySelf (g : Graph) (topicName : String) : Bool :=
  (g.getPublishersInfoByTopic topicName).any fun pub =>
    pub.nodeName = me.name && pub.nodeNamespace = me.namespaceName

/-- Where the loop over the topics is. -/
structure Scan where
  monitor : Monitor
  discoveredTargetTopics : List String

/-- A topic to be monitored: it is noted, and subscribed to if it is not yet. -/
def Scan.discover (scan : Scan) (topicName type : String) : Scan where
  monitor :=
    if topicName ∈ scan.monitor.autoSubs then scan.monitor
    else subscribeToTopic scan.monitor topicName type
  discoveredTargetTopics := topicName :: scan.discoveredTargetTopics

/-- The loop over the types of a topic. -/
def scanTypes (g : Graph) (topicName : String) : List String → Scan → Scan
  | [], scan => scan
  | type :: topicTypes, scan =>
    if type ∈ autoScanTopicTypes then
      if publishedBySelf me g topicName then scanTypes g topicName topicTypes scan
      else scan.discover topicName type
    else scanTypes g topicName topicTypes scan

def scanTopics (g : Graph) (topicInfo : List (String × List String)) (scan : Scan) : Scan :=
  topicInfo.foldl (fun scan topic => scanTypes me g topic.1 topic.2 scan) scan

def eraseOthers (discoveredTargetTopics : List String) (autoSubs : AList fun _ : String => Subscription) :
    AList fun _ : String => Subscription :=
  autoSubs.keys.foldl
    (fun subs topic => if topic ∈ discoveredTargetTopics then subs else subs.erase topic) autoSubs

/-- A rescan; the snapshot is the graph without the automatic subscriptions. -/
def rescanROSNetwork (m : Monitor) (snapshot : Graph) : Monitor :=
  let g := m.graph me snapshot
  let scan := scanTopics me g (getTopicNamesAndTypes g) ⟨m, []⟩
  { scan.monitor with autoSubs := eraseOthers scan.discoveredTargetTopics scan.monitor.autoSubs }

end Rescan

/-! ## What should be subscribed to -/

namespace Graph

variable (g : Graph) (me : Identity) (topic : String)

def HasMonitoredType : Prop := ∃ e ∈ g.endpoints, e.topic = topic ∧ e.type ∈ autoScanTopicTypes

def Published : Prop := ∃ e ∈ g.publishers, e.topic = topic

def PublishedBy : Prop :=
  ∃ e ∈ g.publishers, e.topic = topic ∧ e.nodeName = me.name ∧ e.nodeNamespace = me.namespaceName

/-- A topic with a monitored type that has a publisher and that the monitor does not publish. -/
def Eligible : Prop := g.HasMonitoredType topic ∧ g.Published topic ∧ ¬ g.PublishedBy me topic

instance : Decidable (g.HasMonitoredType topic) :=
  inferInstanceAs (Decidable (∃ e ∈ g.endpoints, e.topic = topic ∧ e.type ∈ autoScanTopicTypes))

instance : Decidable (g.Published topic) :=
  inferInstanceAs (Decidable (∃ e ∈ g.publishers, e.topic = topic))

instance : Decidable (g.PublishedBy me topic) :=
  inferInstanceAs (Decidable (∃ e ∈ g.publishers,
    e.topic = topic ∧ e.nodeName = me.name ∧ e.nodeNamespace = me.namespaceName))

instance : Decidable (g.Eligible me topic) :=
  inferInstanceAs (Decidable (_ ∧ _ ∧ ¬ _))

end Graph

/-! ## The two loops -/

section Loops

variable {me : Identity} {g : Graph}

theorem publishedBySelf_iff {topic : String} :
    publishedBySelf me g topic = true ↔ g.PublishedBy me topic := by
  unfold publishedBySelf Graph.getPublishersInfoByTopic Graph.PublishedBy
  simp [List.any_eq_true]

theorem name_mem_autoScanTopicTypes (type : MessageType) : type.name ∈ autoScanTopicTypes := by
  cases type <;> decide

theorem subscribeToTopic_of_mem (m : Monitor) (name : String) {type : String}
    (h : type ∈ autoScanTopicTypes) : ∃ t, subscribeToTopic m name type = m.createSubscription name t := by
  unfold subscribeToTopic
  simp only [autoScanTopicTypes, List.mem_cons, List.not_mem_nil, or_false] at h
  rcases h with rfl | rfl | rfl
  · exact ⟨.heartbeat, rfl⟩
  · exact ⟨.diagnostic, rfl⟩
  · exact ⟨.readyToArm, rfl⟩

/-- What a part of the scan finds: the topics are noted and have a subscription; the subscriptions that
were there are left. -/
structure Scan.Finds (scan scan' : Scan) (found : String → Prop) : Prop where
  discovered (t : String) :
    t ∈ scan'.discoveredTargetTopics ↔ t ∈ scan.discoveredTargetTopics ∨ found t
  subscribed (t : String) : t ∈ scan'.monitor.autoSubs ↔ t ∈ scan.monitor.autoSubs ∨ found t
  kept (t : String) : t ∈ scan.monitor.autoSubs →
    scan'.monitor.autoSubs.lookup t = scan.monitor.autoSubs.lookup t

theorem Scan.Finds.nothing (scan : Scan) {found : String → Prop} (h : ∀ t, ¬ found t) :
    scan.Finds scan found where
  discovered t := (or_iff_left (h t)).symm
  subscribed t := (or_iff_left (h t)).symm
  kept _ _ := rfl

theorem Scan.Finds.trans {scan scan' scan'' : Scan} {found found' : String → Prop}
    (h : scan.Finds scan' found) (h' : scan'.Finds scan'' found') :
    scan.Finds scan'' fun t => found t ∨ found' t where
  discovered t := by rw [h'.discovered, h.discovered, or_assoc]
  subscribed t := by rw [h'.subscribed, h.subscribed, or_assoc]
  kept t ht := (h'.kept t ((h.subscribed t).mpr (.inl ht))).trans (h.kept t ht)

theorem Scan.Finds.congr {scan scan' : Scan} {found found' : String → Prop} (h : scan.Finds scan' found)
    (hfound : ∀ t, found t ↔ found' t) : scan.Finds scan' found' where
  discovered t := by rw [h.discovered, hfound]
  subscribed t := by rw [h.subscribed, hfound]
  kept := h.kept

theorem Scan.Finds.discover (scan : Scan) (topic : String) {type : String}
    (htype : type ∈ autoScanTopicTypes) : scan.Finds (scan.discover topic type) (· = topic) := by
  obtain ⟨messageType, hsubscribe⟩ := subscribeToTopic_of_mem scan.monitor topic htype
  have hmonitor : (scan.discover topic type).monitor =
      if topic ∈ scan.monitor.autoSubs then scan.monitor
      else scan.monitor.createSubscription topic messageType := by
    rw [← hsubscribe]
    rfl
  constructor
  · intro t
    show t ∈ topic :: scan.discoveredTargetTopics ↔ _
    rw [List.mem_cons, or_comm]
  · intro t
    rw [hmonitor]
    split_ifs with htopic
    · refine (or_iff_left_of_imp ?_).symm
      rintro rfl
      exact htopic
    · rw [or_comm]
      exact AList.mem_insert _
  · intro t ht
    rw [hmonitor]
    split_ifs with htopic
    · rfl
    · apply AList.lookup_insert_ne
      rintro rfl
      exact htopic ht

theorem scanTypes_finds (topic : String) (types : List String) (scan : Scan) :
    scan.Finds (scanTypes me g topic types scan) fun t =>
      t = topic ∧ (∃ type ∈ types, type ∈ autoScanTopicTypes) ∧ ¬ g.PublishedBy me topic := by
  induction types with
  | nil => exact .nothing scan (by simp)
  | cons type types ih =>
    unfold scanTypes
    simp only [List.exists_mem_cons_iff]
    by_cases htype : type ∈ autoScanTopicTypes
    · rw [if_pos htype]
      by_cases hself : publishedBySelf me g topic = true
      · rw [if_pos hself]
        simpa [publishedBySelf_iff.mp hself] using ih
      · rw [if_neg hself]
        simpa [htype, mt publishedBySelf_iff.mpr hself] using Scan.Finds.discover scan topic htype
    · rw [if_neg htype]
      simpa [htype] using ih

theorem scanTopics_finds (topicInfo : List (String × List String)) (scan : Scan) :
    scan.Finds (scanTopics me g topicInfo scan) fun t =>
      (∃ types, (t, types) ∈ topicInfo ∧ ∃ type ∈ types, type ∈ autoScanTopicTypes) ∧
        ¬ g.PublishedBy me t := by
  induction topicInfo generalizing scan with
  | nil => exact .nothing scan (by simp)
  | cons topic topicInfo ih =>
    have hfinds := (scanTypes_finds topic.1 topic.2 scan).trans (ih (scanTypes me g topic.1 topic.2 scan))
    apply hfinds.congr
    intro t
    constructor
    · rintro (⟨rfl, htype, hself⟩ | ⟨⟨types, hmem, htype⟩, hself⟩)
      · exact ⟨⟨topic.2, List.mem_cons_self, htype⟩, hself⟩
      · exact ⟨⟨types, List.mem_cons_of_mem _ hmem, htype⟩, hself⟩
    · rintro ⟨⟨types, hmem, htype⟩, hself⟩
      rcases List.mem_cons.mp hmem with rfl | hmem
      · exact .inl ⟨rfl, htype, hself⟩
      · exact .inr ⟨⟨types, hmem, htype⟩, hself⟩

theorem lookup_eraseOthers (discovered : List String) (subs : AList fun _ : String => Subscription)
    (t : String) :
    (eraseOthers discovered subs).lookup t = if t ∈ discovered then subs.lookup t else none := by
  have hfold (keys : List String) (subs : AList fun _ : String => Subscription) :
      (keys.foldl (fun subs topic => if topic ∈ discovered then subs else subs.erase topic) subs).lookup t =
        if t ∈ keys ∧ t ∉ discovered then none else subs.lookup t := by
    induction keys generalizing subs with
    | nil => simp
    | cons key keys ih =>
      rw [List.foldl_cons, ih]
      by_cases ht : t = key
      · subst ht
        by_cases hkey : t ∈ discovered <;> simp [hkey]
      · have hlookup : (if key ∈ discovered then subs else subs.erase key).lookup t = subs.lookup t := by
          split_ifs
          · rfl
          · exact AList.lookup_erase_ne ht
        rw [hlookup]
        simp [ht]
  unfold eraseOthers
  rw [hfold]
  by_cases ht : t ∈ discovered
  · simp [ht]
  · by_cases hkey : t ∈ subs.keys
    · simp [ht, hkey]
    · simp [ht, AList.lookup_eq_none.mpr hkey]

end Loops

/-! ## Every history -/

section Histories

variable {me : Identity} {getTopicNamesAndTypes : TopicQuery}

theorem graph_hasMonitoredType (m : Monitor) (snapshot : Graph) (t : String) :
    (m.graph me snapshot).HasMonitoredType t ↔ snapshot.HasMonitoredType t ∨ t ∈ m.autoSubs := by
  have hsubs : t ∈ m.autoSubs ↔ ∃ sub ∈ m.autoSubs.entries, sub.1 = t := List.mem_map
  unfold Graph.HasMonitoredType Graph.endpoints Monitor.graph
  dsimp only
  rw [hsubs, ← List.append_assoc]
  simp [or_and_right, exists_or, or_assoc, name_mem_autoScanTopicTypes]

theorem listed_iff (hquery : ListsTopics getTopicNamesAndTypes) (g : Graph) (t : String) :
    (∃ types, (t, types) ∈ getTopicNamesAndTypes g ∧ ∃ type ∈ types, type ∈ autoScanTopicTypes) ↔
      g.HasMonitoredType t := by
  constructor
  · rintro ⟨types, hmem, type, htype, hmonitored⟩
    obtain ⟨e, he, htopic, rfl⟩ := (hquery g t type).mp ⟨types, hmem, htype⟩
    exact ⟨e, he, htopic, hmonitored⟩
  · rintro ⟨e, he, htopic, hmonitored⟩
    obtain ⟨types, hmem, htype⟩ := (hquery g t e.type).mpr ⟨e, he, htopic, rfl⟩
    exact ⟨types, hmem, e.type, htype, hmonitored⟩

theorem rescan_finds (me : Identity) (hquery : ListsTopics getTopicNamesAndTypes) (m : Monitor)
    (snapshot : Graph) :
    ∃ scan, Scan.Finds ⟨m, []⟩ scan
        (fun t => (snapshot.HasMonitoredType t ∨ t ∈ m.autoSubs) ∧ ¬ snapshot.PublishedBy me t) ∧
      ∀ t, (rescanROSNetwork me getTopicNamesAndTypes m snapshot).autoSubs.lookup t =
        if t ∈ scan.discoveredTargetTopics then scan.monitor.autoSubs.lookup t else none := by
  refine ⟨_, (scanTopics_finds (g := m.graph me snapshot) _ _).congr ?_, lookup_eraseOthers _ _⟩
  intro t
  rw [listed_iff hquery, graph_hasMonitoredType]
  rfl

/-- A rescan does not ask whether anybody publishes a topic it has subscribed to. -/
theorem mem_rescan (hquery : ListsTopics getTopicNamesAndTypes) (m : Monitor) (snapshot : Graph)
    (t : String) :
    t ∈ (rescanROSNetwork me getTopicNamesAndTypes m snapshot).autoSubs ↔
      (snapshot.HasMonitoredType t ∨ t ∈ m.autoSubs) ∧ ¬ snapshot.PublishedBy me t := by
  obtain ⟨scan, hfinds, hlookup⟩ := rescan_finds me hquery m snapshot
  have hdiscovered := hfinds.discovered t
  rw [or_iff_right List.not_mem_nil] at hdiscovered
  rw [← AList.lookup_isSome, hlookup, ← hdiscovered]
  by_cases ht : t ∈ scan.discoveredTargetTopics
  · rw [if_pos ht, AList.lookup_isSome, hfinds.subscribed]
    exact iff_of_true (.inr (hdiscovered.mp ht)) ht
  · rw [if_neg ht]
    exact iff_of_false Bool.noConfusion ht

/-- A subscription to a topic that the monitor does not publish is never recreated. -/
theorem lookup_rescan (hquery : ListsTopics getTopicNamesAndTypes) {m : Monitor} {snapshot : Graph}
    {t : String} (ht : t ∈ m.autoSubs) (hself : ¬ snapshot.PublishedBy me t) :
    (rescanROSNetwork me getTopicNamesAndTypes m snapshot).autoSubs.lookup t = m.autoSubs.lookup t := by
  obtain ⟨scan, hfinds, hlookup⟩ := rescan_finds me hquery m snapshot
  rw [hlookup, if_pos ((hfinds.discovered t).mpr (.inr ⟨.inr ht, hself⟩)), hfinds.kept t ht]

/-- The monitor after a history of rescans. -/
def rescans (me : Identity) (getTopicNamesAndTypes : TopicQuery) (snapshots : List Graph) : Monitor :=
  run (rescanROSNetwork me getTopicNamesAndTypes) Monitor.initial snapshots

/-- After the rescan of a snapshot the monitor subscribes to the eligible topics, and subscriptions to
topics that stay eligible are still the same objects. -/
def TracksPublishers (me : Identity) (getTopicNamesAndTypes : TopicQuery) (past : List Graph)
    (snapshot : Graph) : Prop :=
  (∀ t, t ∈ (rescans me getTopicNamesAndTypes (past ++ [snapshot])).autoSubs ↔
    snapshot.Eligible me t) ∧
  ∀ t ∈ (rescans me getTopicNamesAndTypes past).autoSubs, snapshot.Eligible me t →
    (rescans me getTopicNamesAndTypes (past ++ [snapshot])).autoSubs.lookup t =
      (rescans me getTopicNamesAndTypes past).autoSubs.lookup t

/-- No topic is left without a publisher, and none that had a monitored type loses it: a topic that others
give a monitored type, or that was eligible in the last snapshot, has both. -/
def NoneDeserted (me : Identity) (past : List Graph) (snapshot : Graph) : Prop :=
  ∀ t, ¬ snapshot.PublishedBy me t →
    (snapshot.HasMonitoredType t ∨ ∃ last ∈ past.getLast?, last.Eligible me t) →
    snapshot.HasMonitoredType t ∧ snapshot.Published t

theorem tracks_iff (hquery : ListsTopics getTopicNamesAndTypes) {past : List Graph}
    (hpast : Every (TracksPublishers me getTopicNamesAndTypes) past) (snapshot : Graph) :
    TracksPublishers me getTopicNamesAndTypes past snapshot ↔ NoneDeserted me past snapshot := by
  have hbefore (t : String) : t ∈ (rescans me getTopicNamesAndTypes past).autoSubs ↔
      ∃ last ∈ past.getLast?, last.Eligible me t := by
    rcases List.eq_nil_or_concat' past with rfl | ⟨past, last, rfl⟩
    · simp [rescans, Monitor.initial]
    · rw [(every_concat.mp hpast).2.1 t, List.getLast?_concat]
      simp
  have hmem (t : String) : t ∈ (rescans me getTopicNamesAndTypes (past ++ [snapshot])).autoSubs ↔
      (snapshot.HasMonitoredType t ∨ ∃ last ∈ past.getLast?, last.Eligible me t) ∧
        ¬ snapshot.PublishedBy me t := by
    unfold rescans at hbefore ⊢
    rw [run_concat, mem_rescan hquery, hbefore]
  constructor
  · rintro ⟨hkeys, -⟩ t hself ht
    have heligible := (hkeys t).mp ((hmem t).mpr ⟨ht, hself⟩)
    exact ⟨heligible.1, heligible.2.1⟩
  · intro h
    refine ⟨fun t => ?_, fun t ht heligible => ?_⟩
    · rw [hmem]
      constructor
      · rintro ⟨ht, hself⟩
        obtain ⟨htype, hpublished⟩ := h t hself ht
        exact ⟨htype, hpublished, hself⟩
      · rintro ⟨htype, -, hself⟩
        exact ⟨.inl htype, hself⟩
    · unfold rescans
      rw [run_concat]
      exact lookup_rescan hquery ht heligible.2.2

/-- **When the automatic subscriptions follow the publishers.** In a history of ROS graphs, every rescan
leaves exactly the subscriptions to the eligible topics, and the old ones among them untouched, if and only
if no topic is deserted by its publishers. -/
theorem autoSubs_track_iff (me : Identity) (getTopicNamesAndTypes : TopicQuery)
    (hquery : ListsTopics getTopicNamesAndTypes) (snapshots : List Graph) :
    Every (TracksPublishers me getTopicNamesAndTypes) snapshots ↔ Every (NoneDeserted me) snapshots :=
  every_congr (fun _ snapshot hpast => tracks_iff hquery hpast snapshot) snapshots

end Histories

/-! ## A node that goes away -/

/-- The topics of a graph in the order of their first endpoint, with their types. -/
def Graph.getTopicNamesAndTypes (g : Graph) : List (String × List String) :=
  (g.endpoints.map Endpoint.topic).dedup.map fun topic =>
    (topic, ((g.endpoints.filter (·.topic = topic)).map Endpoint.type).dedup)

theorem listsTopics_getTopicNamesAndTypes : ListsTopics Graph.getTopicNamesAndTypes := by
  intro g topic type
  unfold Graph.getTopicNamesAndTypes
  constructor
  · rintro ⟨types, hmem, htype⟩
    obtain ⟨listed, -, heq⟩ := List.mem_map.mp hmem
    obtain ⟨rfl, rfl⟩ := Prod.mk.inj heq
    obtain ⟨e, he, rfl⟩ := List.mem_map.mp (List.mem_dedup.mp htype)
    obtain ⟨he, htopic⟩ := List.mem_filter.mp he
    exact ⟨e, he, of_decide_eq_true htopic, rfl⟩
  · rintro ⟨e, he, rfl, rfl⟩
    refine ⟨_, List.mem_map.mpr ⟨e.topic, ?_, rfl⟩, ?_⟩
    · exact List.mem_dedup.mpr (List.mem_map_of_mem he)
    · exact List.mem_dedup.mpr (List.mem_map_of_mem (List.mem_filter.mpr ⟨he, decide_eq_true rfl⟩))

def systemMonitor : Identity := ⟨"system_monitor", "/"⟩

def imuHeartbeat : Endpoint :=
  ⟨"/imu_node1/heartbeat", "robot_framework_ros2/msg/Heartbeat", "imu_node1", "/"⟩

/-- The node sends heartbeats, and then it is gone. -/
def imuStops : List Graph := [⟨[imuHeartbeat], []⟩, ⟨[], []⟩]

/-- A node that keeps sending heartbeats. -/
def imuStays : List Graph := [⟨[imuHeartbeat], []⟩, ⟨[imuHeartbeat], []⟩]

/-- The monitor's own subscription keeps the topic of a node that is gone alive. -/
theorem imu_subscription_stays :
    ListsTopics Graph.getTopicNamesAndTypes ∧
      ¬ Every (TracksPublishers systemMonitor Graph.getTopicNamesAndTypes) imuStops := by
  refine ⟨listsTopics_getTopicNamesAndTypes, fun h => ?_⟩
  have hkeys := (h [⟨[imuHeartbeat], []⟩] ⟨[], []⟩ [] rfl).1 "/imu_node1/heartbeat"
  exact absurd hkeys (by decide)

theorem imu_subscription_tracked :
    Every (TracksPublishers systemMonitor Graph.getTopicNamesAndTypes) imuStays := by
  apply (autoSubs_track_iff systemMonitor Graph.getTopicNamesAndTypes listsTopics_getTopicNamesAndTypes
    imuStays).mpr
  have hpublished (t : String) (ht : Graph.HasMonitoredType ⟨[imuHeartbeat], []⟩ t) :
      Graph.Published ⟨[imuHeartbeat], []⟩ t := by
    obtain ⟨e, he, htopic, -⟩ := ht
    exact ⟨e, he, htopic⟩
  show Every (NoneDeserted systemMonitor) (([] ++ [_]) ++ [_])
  rw [every_concat, every_concat]
  refine ⟨⟨every_nil _, ?_⟩, ?_⟩
  · rintro t - (ht | ⟨last, hlast, -⟩)
    · exact ⟨ht, hpublished t ht⟩
    · exact absurd hlast (by simp)
  · rintro t - (ht | ⟨last, hlast, hold⟩)
    · exact ⟨ht, hpublished t ht⟩
    · obtain rfl : _ = last := Option.some.inj hlast
      exact ⟨hold.1, hold.2.1⟩

end SystemMonitor
