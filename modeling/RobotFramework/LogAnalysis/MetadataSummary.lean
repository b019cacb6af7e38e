import RobotFramework.LogAnalysis.RosoutText
import RobotFramework.Python.Value

/-!
# The summary of a bag

`generate_metadata_summary` sorts the topics that the metadata of a bag list into the tables of their systems
and datatypes, and writes a Markdown document with the reports of the plugins, these tables and a table of
contents. The tables say what was listed: each topic of a known type once, with what was listed last
(`summary_tables`), and every entry of the table of contents that names a system leads to its section.
-/

namespace LogAnalysis

open History Python

namespace Summary

/-! ## The code -/

/-- What the summary reads of an entry of `topics_with_message_count`; what is missing is none. -/
structure Listing where
  name : Option String
  type : Option String
  messageCount : Option Nat
  serializationFormat : Option String

/-- The entry of a topic in `systemMap`. -/
structure TopicEntry where
  count : Nat
  serialization : String
  deriving DecidableEq, Repr

/-- `t_name`. -/
def Listing.topicName (topic : Listing) : String := topic.name.getD "Unknown"

/-- `t_type`. -/
def Listing.topicType (topic : Listing) : String := topic.type.getD "Unknown"

def Listing.entry (topic : Listing) : TopicEntry where
  count := topic.messageCount.getD 0
  serialization := topic.serializationFormat.getD "Unknown"

/-- The topics of each datatype of a system. -/
abbrev Subsections := List (String × Dict TopicEntry)

/-- `systemMap`. -/
abbrev SystemMap := List (String × Subsections)

def systemTypes : List (String × List String) :=
  [("Infrastructure", ["robot_framework_ros2/msg/Heartbeat", "robot_framework_ros2/msg/ReadyToArm"]),
    ("Diagnostics", ["robot_framework_ros2/msg/Diagnostic"]),
    ("Pose", ["sensor_msgs/msg/Imu", "geometry_msgs/msg/AccelStamped", "sensor_msgs/msg/MagneticField",
      "geometry_msgs/msg/AccelWithCovarianceStamped", "nav_msgs/msg/Odometry", "tf2_msgs/msg/TFMessage"]),
    ("Perception", ["sensor_msgs/msg/CameraInfo", "sensor_msgs/msg/Image", "sensor_msgs/msg/PointCloud2"]),
    ("ROS2", ["rosbag2_interfaces/msg/WriteSplitEvent", "rcl_interfaces/msg/Log",
      "rcl_interfaces/msg/ParameterEvent"])]

/-- `systemMap`, as it is defined. -/
def emptyMap (systems : List (String × List String)) : SystemMap :=
  systems.map fun s => (s.1, s.2.map fun type => (type, []))

/-- `subsections[t_type][t_name] = ...`. -/
def put (topic : Listing) (subsections : Subsections) : Subsections :=
  subsections.map fun s =>
    if s.1 = topic.topicType then (s.1, s.2.set (.str topic.topicName) topic.entry) else s

/-- The loop over the containers, which ends at the first that has the type; `none` if `found` stays false. -/
def categorize (topic : Listing) : SystemMap → Option SystemMap
  | [] => none
  | (container, subsections) :: rest =>
      if topic.topicType ∈ subsections.map Prod.fst then some ((container, put topic subsections) :: rest)
      else (categorize topic rest).map ((container, subsections) :: ·)

/-- The line that is printed for a topic of another type; it leaves the type out. -/
def uncategorizedLine (topic : Listing) : String :=
  "Topic: " ++ topic.topicName ++ " Type: " ++ " Uncategorized!"

/-- `systemMap`, with what has been printed. -/
structure Categories where
  systemMap : SystemMap
  printed : List String

def Categories.initial (systems : List (String × List String)) : Categories := ⟨emptyMap systems, []⟩

/-- The body of the loop over `topics_and_types`. -/
def Categories.addTopic (s : Categories) (topic : Listing) : Categories :=
  match categorize topic s.systemMap with
  | some systemMap => { s with systemMap := systemMap }
  | none => { s with printed := s.printed ++ [uncategorizedLine topic] }

/-- A piece of the document. -/
inductive Piece where
  | text (s : String)
  | link (indent title target : String)
  | anchor (id : String)
  | systemHeading (container : String)
  | typeHeading (type : String)
  | row (topicName : String) (entry : TopicEntry)

/-- What `md.write` is given. -/
def Piece.render : Piece → String
  | .text s => s
  | .link indent title target => indent ++ "* [" ++ title ++ "](#" ++ target ++ ")\n"
  | .anchor id => "<a id=\"" ++ id ++ "\"></a>\n"
  | .systemHeading container => "### 🏢 System: " ++ container ++ "\n\n"
  | .typeHeading type => "#### 🔹 Datatype: `" ++ type ++ "`\n\n"
  | .row topicName entry => "| `" ++ topicName ++ "` | " ++ String.ofList (Rosout.grouped entry.count) ++
      " | `" ++ entry.serialization ++ "` |\n"

/-- What the head of the document tells of the bag. -/
structure Header where
  analysisStart : String
  bagPath : String
  storageIdentifier : String
  startTime : String
  durationSecs : String
  totalMessages : Nat

/-- An entry of `plugin_reports`: a plugin's report, and its `report_toc_entry`. -/
structure PluginReport where
  report : String
  tocEntry : Option (String × String)

/-- `has_data`. -/
def hasData (subsections : Subsections) : Bool := subsections.any fun s => !s.2.isEmpty

/-- `clean_anchor`. -/
def cleanAnchor (container : String) : String :=
  "system-" ++ container.map fun c => if c = ' ' then '-' else c.toLower

def Header.pieces (header : Header) : List Piece :=
  [.text "# ROS2 Bag Metadata Summary\n\n",
    .text ("📅 **Analysis Generated:** " ++ header.analysisStart ++ "  \n"),
    .text ("📁 **Bag Path:** `" ++ header.bagPath ++ "`  \n"),
    .text ("⚙️ **Storage Plugin:** `" ++ header.storageIdentifier ++ "`  \n"),
    .text ("📅 **Log Start Time:** " ++ header.startTime ++ "  \n"),
    .text ("⏳ **Duration:** " ++ header.durationSecs ++ " seconds  \n"),
    .text ("🔢 **Total Messages:** " ++ String.ofList (Rosout.grouped header.totalMessages) ++ "  \n\n"),
    .text "---\n\n"]

def reportLinks (reports : List PluginReport) : List Piece :=
  if reports = [] then []
  else .link "" "Analyzer Reports" "analyzer-reports" ::
    reports.filterMap fun plugin => plugin.tocEntry.map fun entry => .link "  " entry.1 entry.2

def systemLinks (systemMap : SystemMap) : List Piece :=
  systemMap.flatMap fun s => if hasData s.2 then [.link "  " s.1 (cleanAnchor s.1)] else []

def tableOfContents (reports : List PluginReport) (systemMap : SystemMap) : List Piece :=
  .text "## 🗂️ Table of Contents\n\n" :: (reportLinks reports ++
    .link "" "Message Statistics" "message-statistics" :: (systemLinks systemMap ++ [.text "\n---\n\n"]))

def reportSection (reports : List PluginReport) : List Piece :=
  if reports = [] then []
  else .text "## Analyzer Reports\n\n" ::
    (reports.map (fun plugin => .text (plugin.report ++ "\n\n")) ++ [.text "---\n\n"])

def typeTable (s : String × Dict TopicEntry) : List Piece :=
  if s.2 = [] then []
  else .typeHeading s.1 :: .text "| Topic Name | Message Count | Serialization Format |\n" ::
    .text "| :--- | :---: | :---: |\n" :: (s.2.map (fun e => .row e.1.toStr e.2) ++ [.text "\n"])

def systemSection (s : String × Subsections) : List Piece :=
  if hasData s.2 then .anchor (cleanAnchor s.1) :: .systemHeading s.1 :: s.2.flatMap typeTable else []

def document (header : Header) (reports : List PluginReport) (systemMap : SystemMap) : List Piece :=
  header.pieces ++ (tableOfContents reports systemMap ++ (reportSection reports ++
    .text "## 📈 Message Statistics\n\n" ::
    .text "This section breaks down recorded data categories grouped by functional system modules and ROS2 datatypes.\n\n" ::
    systemMap.flatMap systemSection))

/-! ## Reading the document -/

/-- A row as a reader takes it, under the headings above it. -/
structure Row where
  container : String
  type : String
  topicName : String
  entry : TopicEntry

/-- The headings that a reader has passed last, and the rows so far. -/
structure Reader where
  container : String
  type : String
  rows : List Row

def Reader.step (r : Reader) : Piece → Reader
  | .systemHeading container => { r with container := container }
  | .typeHeading type => { r with type := type }
  | .row topicName entry => { r with rows := r.rows ++ [⟨r.container, r.type, topicName, entry⟩] }
  | _ => r

def readRows (pieces : List Piece) : List Row := (run Reader.step ⟨"", "", []⟩ pieces).rows

def Piece.target? : Piece → Option String
  | .link _ _ target => some target
  | _ => none

def Piece.anchor? : Piece → Option String
  | .anchor id => some id
  | _ => none

/-! ## What was listed -/

/-- The name of a topic that is listed with a type. -/
def Listing.nameOf (type : String) (topic : Listing) : Option String :=
  if topic.topicType = type then some topic.topicName else none

/-- The entry of a topic that is listed with a type under a name. -/
def Listing.entryOf (type name : String) (topic : Listing) : Option TopicEntry :=
  if topic.topicType = type ∧ topic.topicName = name then some topic.entry else none

def HasType (systems : List (String × List String)) (container type : String) : Prop :=
  ∃ types, (container, types) ∈ systems ∧ type ∈ types

/-! ## Each table by itself -/

/-- The table of a datatype, on its own. -/
def addToTable (type : String) (table : Dict TopicEntry) (topic : Listing) : Dict TopicEntry :=
  if topic.topicType = type then table.set (.str topic.topicName) topic.entry else table

def table (type : String) (listings : List Listing) : Dict TopicEntry := run (addToTable type) [] listings

/-- The systems with the given tables. -/
def tablesOf (systems : List (String × List String)) (tables : String → Dict TopicEntry) : SystemMap :=
  systems.map fun s => (s.1, s.2.map fun type => (type, tables type))

section Tables

variable {systems : List (String × List String)} {listings : List Listing}

theorem table_concat (type : String) (listings : List Listing) (topic : Listing) :
    table type (listings ++ [topic]) = addToTable type (table type listings) topic := run_concat ..

theorem keys_table (type : String) (listings : List Listing) :
    (table type listings).keys = (firstSeen (Listing.nameOf type) listings).map Key.str := by
  induction listings using List.reverseRecOn with
  | nil => rfl
  | append_singleton listings topic ih =>
    rw [table_concat, firstSeen_concat, addToTable, Listing.nameOf]
    by_cases htype : topic.topicType = type
    · rw [if_pos htype, if_pos htype, Dict.keys_set, ih, join]
      by_cases hseen : topic.topicName ∈ firstSeen (Listing.nameOf type) listings <;> simp [hseen]
    · rw [if_neg htype, if_neg htype, join, ih]

theorem get_table (type name : String) (listings : List Listing) :
    (table type listings).get (.str name) = lastSome (Listing.entryOf type name) listings := by
  induction listings using List.reverseRecOn with
  | nil => rfl
  | append_singleton listings topic ih =>
    rw [table_concat, lastSome_concat, ← ih, addToTable, Listing.entryOf]
    by_cases htype : topic.topicType = type
    · rw [if_pos htype, Dict.get_set]
      by_cases hname : topic.topicName = name <;> simp [htype, hname]
    · simp [htype]

theorem str_of_mem_table {type : String} {e : Scalar × TopicEntry} (h : e ∈ table type listings) :
    ∃ name, e.1 = .str name := by
  have hkey : e.1.key ∈ (table type listings).keys := List.mem_map_of_mem h
  rw [keys_table] at hkey
  obtain ⟨name, -, hname⟩ := List.mem_map.mp hkey
  exact ⟨name, Scalar.key_eq_str.mp hname.symm⟩

theorem nodup_table (type : String) (listings : List Listing) : (table type listings).keys.Nodup := by
  rw [keys_table]
  exact nodup_firstSeen.map fun a b h => Key.str.inj h

theorem categorize_tablesOf (hdistinct : (systems.flatMap Prod.snd).Nodup) (topic : Listing)
    (tables : String → Dict TopicEntry) :
    categorize topic (tablesOf systems tables) =
      if topic.topicType ∈ systems.flatMap Prod.snd then
        some (tablesOf systems fun type => addToTable type (tables type) topic)
      else none := by
  have hput (types : List String) : put topic (types.map fun type => (type, tables type)) =
      types.map fun type => (type, addToTable type (tables type) topic) := by
    unfold put
    rw [List.map_map]
    apply List.map_congr_left
    intro type _
    by_cases htype : topic.topicType = type
    · simp [addToTable, htype]
    · simp [addToTable, htype, Ne.symm htype]
  have hkeep (types : List String) (h : topic.topicType ∉ types) :
      (types.map fun type => (type, addToTable type (tables type) topic)) =
        types.map fun type => (type, tables type) := by
    apply List.map_congr_left
    intro type htype
    rw [addToTable, if_neg]
    rintro rfl
    exact h htype
  induction systems with
  | nil => rfl
  | cons s systems ih =>
    obtain ⟨container, types⟩ := s
    rw [List.flatMap_cons, List.nodup_append] at hdistinct
    obtain ⟨-, hrest, hdisjoint⟩ := hdistinct
    have hkeys : (types.map fun type => (type, tables type)).map Prod.fst = types := by
      rw [List.map_map]
      exact List.map_id types
    show categorize topic ((container, types.map fun type => (type, tables type)) :: tablesOf systems tables) = _
    rw [categorize, hkeys, List.flatMap_cons]
    by_cases hhere : topic.topicType ∈ types
    · have hnot : topic.topicType ∉ systems.flatMap Prod.snd := fun h => hdisjoint _ hhere _ h rfl
      have hothers : tablesOf systems (fun type => addToTable type (tables type) topic) =
          tablesOf systems tables := by
        apply List.map_congr_left
        intro s hs
        rw [hkeep s.2 fun h => hnot (List.mem_flatMap.mpr ⟨s, hs, h⟩)]
      rw [if_pos hhere, if_pos (List.mem_append_left _ hhere), hput, ← hothers]
      rfl
    · rw [if_neg hhere, ih hrest]
      by_cases hlater : topic.topicType ∈ systems.flatMap Prod.snd
      · rw [if_pos hlater, if_pos (List.mem_append_right _ hlater), Option.map_some, ← hkeep types hhere]
        rfl
      · rw [if_neg hlater, if_neg (by simp [hhere, hlater])]
        rfl

theorem run_addTopic (hdistinct : (systems.flatMap Prod.snd).Nodup) (listings : List Listing) :
    run Categories.addTopic (.initial systems) listings =
      { systemMap := tablesOf systems fun type => table type listings
        printed := (listings.filter fun topic => topic.topicType ∉ systems.flatMap Prod.snd).map
          uncategorizedLine } := by
  induction listings using List.reverseRecOn with
  | nil => rfl
  | append_singleton listings topic ih =>
    have htable : (fun type => table type (listings ++ [topic])) =
        fun type => addToTable type (table type listings) topic := by
      funext type
      exact table_concat ..
    rw [run_concat, ih, htable, List.filter_append, List.map_append]
    unfold Categories.addTopic
    simp only [categorize_tablesOf hdistinct]
    by_cases hknown : topic.topicType ∈ systems.flatMap Prod.snd
    · rw [if_pos hknown, List.filter_cons_of_neg (by simpa using hknown)]
      simp
    · have hkeep : tablesOf systems (fun type => addToTable type (table type listings) topic) =
          tablesOf systems fun type => table type listings := by
        apply List.map_congr_left
        intro s hs
        have hmap : (s.2.map fun type => (type, addToTable type (table type listings) topic)) =
            s.2.map fun type => (type, table type listings) := by
          apply List.map_congr_left
          intro type htype
          rw [addToTable, if_neg]
          rintro rfl
          exact hknown (List.mem_flatMap.mpr ⟨s, hs, htype⟩)
        rw [hmap]
      rw [if_neg hknown, List.filter_cons_of_pos (by simpa using hknown), hkeep]
      rfl

end Tables

/-! ## Reading back the tables -/

/-- The rows of the table of a datatype. -/
def tableRows (container : String) (s : String × Dict TopicEntry) : List Row :=
  s.2.map fun e => ⟨container, s.1, e.1.toStr, e.2⟩

/-- A reader passes over the piece. -/
def Piece.isPlain : Piece → Bool
  | .text _ | .link .. | .anchor _ => true
  | _ => false

theorem Reader.run_plain {pieces : List Piece} (h : ∀ p ∈ pieces, p.isPlain = true) (r : Reader) :
    run Reader.step r pieces = r := by
  induction pieces with
  | nil => rfl
  | cons p pieces ih =>
    obtain ⟨hp, hpieces⟩ := List.forall_mem_cons.mp h
    have hstep : r.step p = r := by
      cases p <;> first | rfl | cases hp
    rw [run_cons, hstep, ih hpieces]

theorem Reader.run_rows (r : Reader) (d : Dict TopicEntry) :
    run Reader.step r (d.map fun e => .row e.1.toStr e.2) =
      { r with rows := r.rows ++ tableRows r.container (r.type, d) } := by
  induction d generalizing r with
  | nil => simp [tableRows]
  | cons e d ih =>
    rw [List.map_cons, run_cons, ih]
    simp [Reader.step, tableRows]

theorem Reader.run_typeTable (r : Reader) (s : String × Dict TopicEntry) :
    (run Reader.step r (typeTable s)).container = r.container ∧
      (run Reader.step r (typeTable s)).rows = r.rows ++ tableRows r.container s := by
  unfold typeTable
  split_ifs with hempty
  · simp [tableRows, hempty]
  · simp [run_cons, run_append, Reader.step, Reader.run_rows]

theorem Reader.run_typeTables (r : Reader) (subsections : Subsections) :
    (run Reader.step r (subsections.flatMap typeTable)).rows =
      r.rows ++ subsections.flatMap (tableRows r.container) := by
  induction subsections generalizing r with
  | nil => simp
  | cons s subsections ih =>
    obtain ⟨hcontainer, hrows⟩ := r.run_typeTable s
    rw [List.flatMap_cons, run_append, ih, hcontainer, hrows, List.flatMap_cons, List.append_assoc]

theorem hasData_eq_false_iff {subsections : Subsections} :
    hasData subsections = false ↔ ∀ s ∈ subsections, s.2 = [] := by
  simp [hasData]

theorem Reader.run_systemSection (r : Reader) (s : String × Subsections) :
    (run Reader.step r (systemSection s)).rows = r.rows ++ s.2.flatMap (tableRows s.1) := by
  unfold systemSection
  split_ifs with hdata
  · rw [run_cons, run_cons, Reader.run_typeTables]
    rfl
  · rw [Bool.not_eq_true, hasData_eq_false_iff] at hdata
    have hnone : s.2.flatMap (tableRows s.1) = [] := by
      rw [List.flatMap_eq_nil_iff]
      intro t ht
      rw [tableRows, hdata t ht, List.map_nil]
    rw [run_nil, hnone, List.append_nil]

theorem Reader.run_systemSections (r : Reader) (systemMap : SystemMap) :
    (run Reader.step r (systemMap.flatMap systemSection)).rows =
      r.rows ++ systemMap.flatMap fun s => s.2.flatMap (tableRows s.1) := by
  induction systemMap generalizing r with
  | nil => simp
  | cons s systemMap ih =>
    rw [List.flatMap_cons, run_append, ih, r.run_systemSection, List.flatMap_cons, List.append_assoc]

theorem reportLinks_link {reports : List PluginReport} {p : Piece} (h : p ∈ reportLinks reports) :
    ∃ indent title target, p = .link indent title target := by
  unfold reportLinks at h
  split_ifs at h with hreports
  · cases h
  · rcases List.mem_cons.mp h with rfl | h
    · exact ⟨_, _, _, rfl⟩
    · obtain ⟨plugin, -, hentry⟩ := List.mem_filterMap.mp h
      obtain ⟨entry, -, rfl⟩ := Option.map_eq_some_iff.mp hentry
      exact ⟨_, _, _, rfl⟩

theorem systemLinks_link {systemMap : SystemMap} {p : Piece} (h : p ∈ systemLinks systemMap) :
    ∃ indent title target, p = .link indent title target := by
  obtain ⟨s, -, hp⟩ := List.mem_flatMap.mp h
  split_ifs at hp
  · exact ⟨_, _, _, List.mem_singleton.mp hp⟩
  · cases hp

theorem reportSection_text {reports : List PluginReport} {p : Piece} (h : p ∈ reportSection reports) :
    ∃ text, p = .text text := by
  unfold reportSection at h
  split_ifs at h with hreports
  · cases h
  · simp only [List.mem_cons, List.mem_append, List.mem_map, List.not_mem_nil, or_false] at h
    rcases h with rfl | ⟨plugin, -, rfl⟩ | rfl <;> exact ⟨_, rfl⟩

theorem Header.pieces_text {header : Header} {p : Piece} (h : p ∈ header.pieces) : ∃ text, p = .text text := by
  simp only [Header.pieces, List.mem_cons, List.not_mem_nil, or_false] at h
  rcases h with rfl | rfl | rfl | rfl | rfl | rfl | rfl | rfl <;> exact ⟨_, rfl⟩

theorem tableOfContents_piece {reports : List PluginReport} {systemMap : SystemMap} {p : Piece}
    (h : p ∈ tableOfContents reports systemMap) :
    (∃ text, p = .text text) ∨ ∃ indent title target, p = .link indent title target := by
  simp only [tableOfContents, List.mem_cons, List.mem_append, List.not_mem_nil, or_false] at h
  rcases h with rfl | hp | rfl | hp | rfl
  · exact Or.inl ⟨_, rfl⟩
  · exact Or.inr (reportLinks_link hp)
  · exact Or.inr ⟨_, _, _, rfl⟩
  · exact Or.inr (systemLinks_link hp)
  · exact Or.inl ⟨_, rfl⟩

theorem readRows_document (header : Header) (reports : List PluginReport) (systemMap : SystemMap) :
    readRows (document header reports systemMap) = systemMap.flatMap fun s => s.2.flatMap (tableRows s.1) := by
  have hheader : ∀ p ∈ header.pieces, p.isPlain = true := by
    intro p hp
    obtain ⟨text, rfl⟩ := Header.pieces_text hp
    rfl
  have hcontents : ∀ p ∈ tableOfContents reports systemMap, p.isPlain = true := by
    intro p hp
    rcases tableOfContents_piece hp with ⟨text, rfl⟩ | ⟨indent, title, target, rfl⟩ <;> rfl
  have hreports : ∀ p ∈ reportSection reports, p.isPlain = true := by
    intro p hp
    obtain ⟨text, rfl⟩ := reportSection_text hp
    rfl
  unfold readRows document
  rw [run_append, Reader.run_plain hheader, run_append, Reader.run_plain hcontents, run_append,
    Reader.run_plain hreports, run_cons, run_cons, Reader.run_systemSections]
  rfl

/-! ## What the summary tells -/

section Tells

variable {systems : List (String × List String)} {listings : List Listing}

/-- The systems with one datatype each. -/
def typePairs (systems : List (String × List String)) : List (String × String) :=
  systems.flatMap fun s => s.2.map fun type => (s.1, type)

theorem mem_typePairs {p : String × String} : p ∈ typePairs systems ↔ HasType systems p.1 p.2 := by
  unfold typePairs HasType
  simp only [List.mem_flatMap, List.mem_map]
  constructor
  · rintro ⟨s, hs, type, htype, rfl⟩
    exact ⟨s.2, hs, htype⟩
  · rintro ⟨types, hs, htype⟩
    exact ⟨_, hs, p.2, htype, rfl⟩

theorem map_snd_typePairs : (typePairs systems).map Prod.snd = systems.flatMap Prod.snd := by
  unfold typePairs
  rw [List.map_flatMap]
  apply congrArg (List.flatMap · systems)
  funext s
  simp

def listedRows (systems : List (String × List String)) (listings : List Listing) : List Row :=
  (typePairs systems).flatMap fun p => tableRows p.1 (p.2, table p.2 listings)

theorem flatMap_tablesOf :
    ((tablesOf systems fun type => table type listings).flatMap fun s => s.2.flatMap (tableRows s.1)) =
      listedRows systems listings := by
  unfold tablesOf listedRows typePairs
  rw [List.flatMap_map, List.flatMap_assoc]
  apply congrArg (List.flatMap · systems)
  funext s
  rw [List.flatMap_map, List.flatMap_map]

theorem map_name_tableRows (container type : String) :
    (tableRows container (type, table type listings)).map Row.topicName =
      firstSeen (Listing.nameOf type) listings := by
  have hstr (name : String) : (Key.str name) = (Scalar.str name).key := rfl
  have hkeys := keys_table type listings
  have hnames : (table type listings).map (fun e => e.1.key) =
      ((table type listings).map fun e => e.1.toStr).map Key.str := by
    rw [List.map_map]
    apply List.map_congr_left
    intro e he
    obtain ⟨name, hname⟩ := str_of_mem_table he
    rw [Function.comp, hname]
    rfl
  unfold Dict.keys at hkeys
  rw [hnames] at hkeys
  have hinj := List.map_injective_iff.mpr (fun a b h => Key.str.inj h : Function.Injective Key.str)
  rw [← hinj hkeys, tableRows, List.map_map]
  rfl

theorem mem_listedRows {r : Row} : r ∈ listedRows systems listings ↔
    HasType systems r.container r.type ∧
      lastSome (Listing.entryOf r.type r.topicName) listings = some r.entry := by
  unfold listedRows tableRows
  simp only [List.mem_flatMap, List.mem_map, mem_typePairs, ← get_table]
  constructor
  · rintro ⟨p, hp, e, he, rfl⟩
    obtain ⟨name, hname⟩ := str_of_mem_table he
    have hget := Dict.get_of_mem (nodup_table p.2 listings) he
    rw [hname] at hget
    dsimp only
    rw [hname]
    exact ⟨hp, hget⟩
  · rintro ⟨hp, hget⟩
    obtain ⟨k, hk, hmem⟩ := Dict.mem_of_get hget
    rw [Scalar.key_eq_str] at hk
    subst hk
    exact ⟨(r.container, r.type), hp, _, hmem, rfl⟩

theorem filter_listedRows (hdistinct : (systems.flatMap Prod.snd).Nodup) {container type : String}
    (h : HasType systems container type) :
    (listedRows systems listings).filter (·.type = type) =
      tableRows container (type, table type listings) := by
  have hdistinct' : ((typePairs systems).map Prod.snd).Nodup := map_snd_typePairs ▸ hdistinct
  obtain ⟨before, after, hpairs⟩ := List.append_of_mem (mem_typePairs.mpr h : (container, type) ∈ _)
  have hother {pairs : List (String × String)} (hne : ∀ p ∈ pairs, p.2 ≠ type) :
      (pairs.flatMap fun p => tableRows p.1 (p.2, table p.2 listings)).filter (·.type = type) = [] := by
    rw [List.filter_eq_nil_iff]
    intro r hr
    obtain ⟨p, hp, hr⟩ := List.mem_flatMap.mp hr
    obtain ⟨e, -, rfl⟩ := List.mem_map.mp hr
    simpa using hne p hp
  have hown : (tableRows container (type, table type listings)).filter (·.type = type) =
      tableRows container (type, table type listings) := by
    rw [List.filter_eq_self]
    intro r hr
    obtain ⟨e, -, rfl⟩ := List.mem_map.mp hr
    simp
  rw [hpairs, List.map_append, List.map_cons, List.nodup_middle, List.nodup_cons, List.mem_append,
    not_or] at hdistinct'
  obtain ⟨⟨hbefore, hafter⟩, -⟩ := hdistinct'
  unfold listedRows
  rw [hpairs, List.flatMap_append, List.flatMap_cons, List.filter_append, List.filter_append, hown,
    hother fun p hp he => hbefore (List.mem_map.mpr ⟨p, hp, he⟩),
    hother fun p hp he => hafter (List.mem_map.mpr ⟨p, hp, he⟩), List.nil_append, List.append_nil]

theorem nodup_listedRows (hdistinct : (systems.flatMap Prod.snd).Nodup) :
    ((listedRows systems listings).map fun r => (r.type, r.topicName)).Nodup := by
  have hdistinct' : ((typePairs systems).map Prod.snd).Nodup := map_snd_typePairs ▸ hdistinct
  unfold listedRows
  rw [List.map_flatMap, List.nodup_flatMap]
  constructor
  · intro p _
    have hnames : (tableRows p.1 (p.2, table p.2 listings)).map (fun r => (r.type, r.topicName)) =
        (firstSeen (Listing.nameOf p.2) listings).map fun name => (p.2, name) := by
      rw [← map_name_tableRows p.1, tableRows, List.map_map, List.map_map, List.map_map]
      rfl
    rw [hnames]
    exact nodup_firstSeen.map fun a b h => (Prod.mk.inj h).2
  · refine List.Pairwise.imp ?_ (List.pairwise_map.mp hdistinct')
    intro p q hne
    refine List.disjoint_left.mpr fun x hx hy => ?_
    obtain ⟨r, hr, rfl⟩ := List.mem_map.mp hx
    obtain ⟨r', hr', heq⟩ := List.mem_map.mp hy
    obtain ⟨e, -, rfl⟩ := List.mem_map.mp hr
    obtain ⟨e', -, rfl⟩ := List.mem_map.mp hr'
    exact hne (Prod.mk.inj heq).1.symm

end Tells

/-! ## The table of contents -/

/-- The targets of the table of contents that the reports of the plugins have. -/
def reportTargets (reports : List PluginReport) : List String :=
  if reports = [] then []
  else "analyzer-reports" :: reports.filterMap fun plugin => plugin.tocEntry.map Prod.snd

section Contents

variable {systems : List (String × List String)} {listings : List Listing}

/-- The anchors of the systems with data. -/
def systemAnchors (systemMap : SystemMap) : List String :=
  (systemMap.filter fun s => hasData s.2).map fun s => cleanAnchor s.1

theorem targets_reportLinks (reports : List PluginReport) :
    (reportLinks reports).filterMap Piece.target? = reportTargets reports := by
  unfold reportLinks reportTargets
  split_ifs
  · rfl
  · rw [List.filterMap_cons_some (f := Piece.target?) rfl, List.filterMap_filterMap]
    congr 2
    funext plugin
    cases plugin.tocEntry <;> rfl

theorem targets_systemLinks (systemMap : SystemMap) :
    (systemLinks systemMap).filterMap Piece.target? = systemAnchors systemMap := by
  unfold systemLinks systemAnchors
  induction systemMap with
  | nil => rfl
  | cons s systemMap ih =>
    rw [List.flatMap_cons, List.filterMap_append, ih, List.filter_cons]
    split_ifs <;> rfl

theorem typeTable_piece {s : String × Dict TopicEntry} {p : Piece} (h : p ∈ typeTable s) :
    p.target? = none ∧ p.anchor? = none := by
  unfold typeTable at h
  split_ifs at h with hempty
  · cases h
  · simp only [List.mem_cons, List.mem_append, List.mem_map, List.not_mem_nil, or_false] at h
    rcases h with rfl | rfl | rfl | ⟨e, -, rfl⟩ | rfl <;> exact ⟨rfl, rfl⟩

theorem anchors_systemSections (systemMap : SystemMap) :
    (systemMap.flatMap systemSection).filterMap Piece.anchor? = systemAnchors systemMap := by
  unfold systemAnchors
  induction systemMap with
  | nil => rfl
  | cons s systemMap ih =>
    have hnone : (s.2.flatMap typeTable).filterMap Piece.anchor? = [] := by
      rw [List.filterMap_eq_nil_iff]
      intro p hp
      obtain ⟨t, -, hp⟩ := List.mem_flatMap.mp hp
      exact (typeTable_piece hp).2
    rw [List.flatMap_cons, List.filterMap_append, ih, List.filter_cons]
    unfold systemSection
    split_ifs
    · rw [List.filterMap_cons_some (f := Piece.anchor?) rfl, List.filterMap_cons_none (f := Piece.anchor?) rfl, hnone]
      rfl
    · rfl

theorem targets_systemSections (systemMap : SystemMap) :
    (systemMap.flatMap systemSection).filterMap Piece.target? = [] := by
  rw [List.filterMap_eq_nil_iff]
  intro p hp
  obtain ⟨s, -, hp⟩ := List.mem_flatMap.mp hp
  unfold systemSection at hp
  split_ifs at hp
  · rcases List.mem_cons.mp hp with rfl | hp
    · rfl
    rcases List.mem_cons.mp hp with rfl | hp
    · rfl
    obtain ⟨t, -, hp⟩ := List.mem_flatMap.mp hp
    exact (typeTable_piece hp).1
  · cases hp

theorem anchors_document (header : Header) (reports : List PluginReport) (systemMap : SystemMap) :
    (document header reports systemMap).filterMap Piece.anchor? = systemAnchors systemMap := by
  have hheader : header.pieces.filterMap Piece.anchor? = [] := by
    rw [List.filterMap_eq_nil_iff]
    intro p hp
    obtain ⟨text, rfl⟩ := Header.pieces_text hp
    rfl
  have hcontents : (tableOfContents reports systemMap).filterMap Piece.anchor? = [] := by
    rw [List.filterMap_eq_nil_iff]
    intro p hp
    rcases tableOfContents_piece hp with ⟨text, rfl⟩ | ⟨indent, title, target, rfl⟩ <;> rfl
  have hreports : (reportSection reports).filterMap Piece.anchor? = [] := by
    rw [List.filterMap_eq_nil_iff]
    intro p hp
    obtain ⟨text, rfl⟩ := reportSection_text hp
    rfl
  unfold document
  rw [List.filterMap_append, hheader, List.filterMap_append, hcontents, List.filterMap_append, hreports,
    List.filterMap_cons_none (f := Piece.anchor?) rfl, List.filterMap_cons_none (f := Piece.anchor?) rfl,
    anchors_systemSections]
  rfl

theorem targets_document (header : Header) (reports : List PluginReport) (systemMap : SystemMap) :
    (document header reports systemMap).filterMap Piece.target? =
      reportTargets reports ++ "message-statistics" :: systemAnchors systemMap := by
  have hheader : header.pieces.filterMap Piece.target? = [] := by
    rw [List.filterMap_eq_nil_iff]
    intro p hp
    obtain ⟨text, rfl⟩ := Header.pieces_text hp
    rfl
  have hreports : (reportSection reports).filterMap Piece.target? = [] := by
    rw [List.filterMap_eq_nil_iff]
    intro p hp
    obtain ⟨text, rfl⟩ := reportSection_text hp
    rfl
  have hcontents : (tableOfContents reports systemMap).filterMap Piece.target? =
      reportTargets reports ++ "message-statistics" :: systemAnchors systemMap := by
    unfold tableOfContents
    rw [List.filterMap_cons_none (f := Piece.target?) rfl, List.filterMap_append, targets_reportLinks,
      List.filterMap_cons_some (f := Piece.target?) rfl, List.filterMap_append, targets_systemLinks]
    simp [Piece.target?]
  unfold document
  rw [List.filterMap_append, hheader, List.filterMap_append, hcontents, List.filterMap_append, hreports,
    List.filterMap_cons_none (f := Piece.target?) rfl]
  rw [List.filterMap_cons_none (f := Piece.target?) rfl, targets_systemSections]
  simp

theorem systemAnchors_eq (hcontainers : (systems.map Prod.fst).Nodup) :
    systemAnchors (tablesOf systems fun type => table type listings) =
      (systems.filter fun s => (listedRows systems listings).any (·.container = s.1)).map
        fun s => cleanAnchor s.1 := by
  unfold systemAnchors tablesOf
  rw [List.filter_map, List.map_map]
  show (systems.filter _).map (fun s => cleanAnchor s.1) = _
  apply congrArg (List.map _)
  apply List.filter_congr
  intro s hs
  rw [Bool.eq_iff_iff, List.any_eq_true]
  simp only [Function.comp, hasData, List.any_map, List.any_eq_true]
  constructor
  · rintro ⟨type, htype, hdata⟩
    obtain ⟨e, he⟩ := List.exists_mem_of_ne_nil (table type listings) (by simpa using hdata)
    obtain ⟨name, hname⟩ := str_of_mem_table he
    have hget := Dict.get_of_mem (nodup_table type listings) he
    rw [hname, Scalar.key_str, get_table] at hget
    exact ⟨⟨s.1, type, name, e.2⟩, mem_listedRows.mpr ⟨⟨s.2, hs, htype⟩, hget⟩, by simp⟩
  · rintro ⟨r, hr, hcontainer⟩
    obtain ⟨⟨types, hmem, htype⟩, hlast⟩ := mem_listedRows.mp hr
    have hsame : (r.container, types) = s :=
      List.inj_on_of_nodup_map hcontainers hmem hs (by simpa using hcontainer)
    subst hsame
    refine ⟨r.type, htype, ?_⟩
    rw [← get_table] at hlast
    obtain ⟨k, -, hmem⟩ := Dict.mem_of_get hlast
    simpa using List.ne_nil_of_mem hmem

end Contents

end Summary

end LogAnalysis
