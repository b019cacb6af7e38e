import RobotFramework.LogAnalysis.PluginIsolation
import RobotFramework.LogAnalysis.RosoutText
import RobotFramework.LogAnalysis.TimestampCsv

/-!
# The analysis of a bag

`run_analyzer_plugins` with the two plugins that the repository has, `RosoutTextAnalyzer` and
`TimestampRateAnalyzer`. What stands in `rosout.txt`, in the CSV files and in the statistics is what the
messages of the bag say (`bag_analyzed`), whatever else is in the bag.
-/

namespace LogAnalysis

open History

/-! ## The code -/

/-- `ANALYZER_PLUGINS`. -/
inductive AnalyzerPlugin where
  | rosoutTextAnalyzer
  | timestampRateAnalyzer
  deriving DecidableEq, Repr

/-- The plugins of `generate_metadata_summary`; `ANALYZER_PLUGIN_CONFIG` enables both. -/
def analyzerPlugins : List AnalyzerPlugin := [.rosoutTextAnalyzer, .timestampRateAnalyzer]

/-- What the plugins read of a message: what `RosoutTextAnalyzer.process` gets with `getattr`, and
`_timestamp_seconds`. -/
structure MessageFields (Message : Type) where
  log : Message → Rosout.Log
  timestampSeconds : Message → Option Rat

/-- The plugins, on a machine on which they can write their files; both only read the message. -/
def analyzerCode (Message : Type) (selectedTopics : List String) : PluginCode AnalyzerPlugin Message where
  matchesTopic
    | .rosoutTextAnalyzer, topicName, messageType =>
      messageType.any fun type => Rosout.matchesTopic topicName.toList type.toList
    | .timestampRateAnalyzer, topicName, _ => topicName ∈ selectedTopics
  configureFails _ _ _ := false
  process _ _ m := (m.2, .returned)

section Bag

variable {Message Data MessageClass : Type} (fields : MessageFields Message)

/-- What a call does to the `TimestampRateAnalyzer`. -/
def rateEvent? : AnalyzerPlugin × PluginCall Message → Option (RateEvent Message)
  | (.timestampRateAnalyzer, .configureTopic topicName messageType) =>
    some (.configureTopic topicName (messageType.getD "None"))
  | (.timestampRateAnalyzer, .process topicName message) => some (.process topicName message)
  | _ => none

/-- The `RosoutTextAnalyzer` after some calls. -/
def rosoutAfter (calls : List (AnalyzerPlugin × PluginCall Message)) : Rosout.Analyzer :=
  run Rosout.Analyzer.process .new
    ((processed .rosoutTextAnalyzer calls).map fun m => (m.1.toList, fields.log m.2))

/-- The `TimestampRateAnalyzer` after some calls. -/
def ratesAfter (calls : List (AnalyzerPlugin × PluginCall Message)) : CsvAnalyzer :=
  csvRun fields.timestampSeconds (calls.filterMap rateEvent?)

/-! ## What a bag says -/

variable (ros : Ros2 Message Data MessageClass)

/-- The topic is listed with the type of log messages, and is a rosout topic. -/
def isRosout (topicsAndTypes : List TopicInfo) (topicName : String) : Bool :=
  topicName ≠ "" && topicsAndTypes.any fun info => info.name = some topicName &&
    info.type.any fun type => Rosout.matchesTopic topicName.toList type.toList

/-- The log messages of a bag. -/
def logMessages (topicsAndTypes : List TopicInfo) (bag : List (String × Data)) : List Rosout.Message :=
  ((bag.filter fun m => isRosout topicsAndTypes m.1).filterMap (deserialized ros topicsAndTypes)).map
    fun m => (m.1.toList, fields.log m.2)

/-- The messages of a bag on a topic. -/
def messagesOn (topicsAndTypes : List TopicInfo) (bag : List (String × Data)) (topicName : String) :
    List Message :=
  ((bag.filter fun m => m.1 = topicName).filterMap (deserialized ros topicsAndTypes)).map Prod.snd

/-! ## What the plugins get -/

theorem upToFailure_false {ε : Type} (past events : List ε) :
    upToFailure (fun _ _ => false) past events = events := by
  induction events generalizing past with
  | nil => rfl
  | cons e events ih =>
    rw [upToFailure_cons, if_neg Bool.false_ne_true, ih]

variable {ros} {topicsAndTypes : List TopicInfo} {bag : List (String × Data)} {selectedTopics : List String}

theorem processed_analyzers (h : WellBehaved (analyzerCode Message selectedTopics) ros topicsAndTypes bag)
    (honeType : OneType topicsAndTypes) {plugin : AnalyzerPlugin} (hplugin : plugin ∈ analyzerPlugins) :
    processed plugin (runAnalyzerPlugins (analyzerCode Message selectedTopics) ros topicsAndTypes
        analyzerPlugins).calls =
      messagesFor (analyzerCode Message selectedTopics) ros topicsAndTypes bag plugin := by
  rw [processed_run h (by decide) plugin]
  unfold messagesFor
  rw [List.filterMap_filter]
  refine (upToFailure_false [] _).trans (List.filterMap_congr fun m _ => ?_)
  exact received_eq honeType h.types h.configures hplugin m

theorem topicMessages_calls (topicName : String) (calls : List (AnalyzerPlugin × PluginCall Message)) :
    topicMessages topicName (calls.filterMap rateEvent?) =
      ((processed .timestampRateAnalyzer calls).filter (·.1 = topicName)).map Prod.snd := by
  unfold topicMessages processed
  rw [List.filterMap_filterMap, List.filter_filterMap, List.map_filterMap]
  apply List.filterMap_congr
  intro c _
  obtain ⟨plugin, call⟩ := c
  cases plugin with
  | rosoutTextAnalyzer => cases call <;> rfl
  | timestampRateAnalyzer =>
    cases call with
    | process name message =>
      by_cases hname : name = topicName
      · simp [rateEvent?, RateEvent.message?, hname]
      · simp [rateEvent?, RateEvent.message?, hname]
    | configureTopic name type => rfl
    | close => rfl

theorem messages_timestampRate
    (h : WellBehaved (analyzerCode Message selectedTopics) ros topicsAndTypes bag)
    (honeType : OneType topicsAndTypes) {topicName : String} (htopic : FullyQualified topicName)
    (hselected : topicName ∈ selectedTopics) (hlisted : ∃ info ∈ topicsAndTypes, info.name = some topicName) :
    topicMessages topicName ((runAnalyzerPlugins (analyzerCode Message selectedTopics) ros topicsAndTypes
        analyzerPlugins).calls.filterMap rateEvent?) =
      messagesOn ros topicsAndTypes bag topicName := by
  have hmatched : matchedTopic (analyzerCode Message selectedTopics) topicsAndTypes .timestampRateAnalyzer
      topicName = true := by
    obtain ⟨info, hinfo, hname⟩ := hlisted
    have hne : topicName ≠ "" := by
      rintro rfl
      obtain ⟨rest, htext, -⟩ := htopic
      cases htext
    exact matchedTopic_iff.mpr ⟨hne, info, hinfo, hname, decide_eq_true hselected⟩
  have hkeeps (m : String × Data) (p : String × Message)
      (hp : deserialized ros topicsAndTypes m = some p) : p.1 = m.1 := by
    obtain ⟨info, -, hinfo⟩ := Option.bind_eq_some_iff.mp hp
    obtain ⟨messageClass, -, hclass⟩ := Option.bind_eq_some_iff.mp hinfo
    obtain ⟨message, -, rfl⟩ := Option.map_eq_some_iff.mp hclass
    rfl
  rw [topicMessages_calls, processed_analyzers h honeType (by decide)]
  unfold messagesFor messagesOn
  rw [List.filterMap_filter, List.filterMap_filter, List.filter_filterMap]
  congr 1
  apply List.filterMap_congr
  intro m _
  by_cases hm : m.1 = topicName
  · rw [hm, hmatched]
    cases hd : deserialized ros topicsAndTypes m with
    | none => simp
    | some p => simp [(hkeeps m p hd).trans hm]
  · cases hd : deserialized ros topicsAndTypes m with
    | none => simp
    | some p => simp [hm, hkeeps m p hd]

theorem qualified_calls (h : WellBehaved (analyzerCode Message selectedTopics) ros topicsAndTypes bag)
    (honeType : OneType topicsAndTypes) (hqualified : ∀ m ∈ bag, FullyQualified m.1) :
    QualifiedTopics ((runAnalyzerPlugins (analyzerCode Message selectedTopics) ros topicsAndTypes
      analyzerPlugins).calls.filterMap rateEvent?) := by
  intro name message hm
  have hmem : message ∈ topicMessages name ((runAnalyzerPlugins (analyzerCode Message selectedTopics) ros
      topicsAndTypes analyzerPlugins).calls.filterMap rateEvent?) :=
    List.mem_filterMap.mpr ⟨_, hm, if_pos rfl⟩
  rw [topicMessages_calls, processed_analyzers h honeType (by decide)] at hmem
  obtain ⟨p, hp, -⟩ := List.mem_map.mp hmem
  obtain ⟨hp, hname⟩ := List.mem_filter.mp hp
  obtain ⟨m, hmbag, hd⟩ := List.mem_filterMap.mp hp
  obtain ⟨info, -, hinfo⟩ := Option.bind_eq_some_iff.mp hd
  obtain ⟨messageClass, -, hclass⟩ := Option.bind_eq_some_iff.mp hinfo
  obtain ⟨_, -, rfl⟩ := Option.map_eq_some_iff.mp hclass
  rw [← of_decide_eq_true hname]
  exact hqualified m (List.mem_filter.mp hmbag).1

theorem analyzer_csvRun (timestampSeconds : Message → Option Rat) (events : List (RateEvent Message)) :
    (csvRun timestampSeconds events).analyzer = analyzed timestampSeconds events :=
  run_map CsvAnalyzer.analyzer (fun _ _ => rfl) .new events

theorem timestamps_eq (timestampSeconds : Message → Option Rat) (topicName : String)
    (events : List (RateEvent Message)) :
    timestamps timestampSeconds topicName events = (topicMessages topicName events).filterMap timestampSeconds := by
  unfold timestamps topicMessages
  rw [List.filterMap_filterMap]
  apply List.filterMap_congr
  intro e _
  cases e with
  | configureTopic name type => rfl
  | process name message =>
    by_cases hname : name = topicName
    · simp [RateEvent.timestamp?, RateEvent.message?, hname]
    · simp [RateEvent.timestamp?, RateEvent.message?, hname]

theorem exact_topicStats (timestampSeconds : Message → Option Rat) {topicName : String}
    {events : List (RateEvent Message)} {stats : TopicStats}
    (h : (analyzed timestampSeconds events).topicStats topicName = some stats) :
    stats.Exact (rates ((topicMessages topicName events).filterMap timestampSeconds)) := by
  have hcurrent : ((analyzed timestampSeconds events).entry topicName).currentStats = stats := by
    show ((analyzed timestampSeconds events).topicStats topicName).getD _ = stats
    rw [h]
    rfl
  rw [← timestamps_eq]
  exact exact_of_moments (hcurrent ▸ (inv_analyzed timestampSeconds topicName events).moments)

/-- **The analysis says what is in the bag.** For a bag that can be read, on fully qualified topics with one
type each: `rosout.txt` has a line for each log message on a rosout topic, in the order of the bag, and each of
them is counted under its severity; and for each topic that is selected for timestamps and listed, the CSV
file holds the timestamps of its messages with their numbers, and the statistics are those of the rates
between them, whatever messages of other topics stand between. -/
theorem bag_analyzed (h : WellBehaved (analyzerCode Message selectedTopics) ros topicsAndTypes bag)
    (honeType : OneType topicsAndTypes) (hqualified : ∀ m ∈ bag, FullyQualified m.1) :
    let calls := (runAnalyzerPlugins (analyzerCode Message selectedTopics) ros topicsAndTypes
      analyzerPlugins).calls
    let logs := logMessages fields ros topicsAndTypes bag
    (rosoutAfter fields calls).outputFile =
        (if logs = [] then none else some (logs.flatMap fun m => m.2.entry m.1 ++ ['\n'])) ∧
      (∀ severity, (rosoutAfter fields calls).severityCounts severity = logs.countP (·.2.severity = severity)) ∧
      ∀ topicName ∈ selectedTopics, FullyQualified topicName →
        (∃ info ∈ topicsAndTypes, info.name = some topicName) →
        let messages := messagesOn ros topicsAndTypes bag topicName
        (indexed fields.timestampSeconds messages ≠ [] →
          (ratesAfter fields calls).files (csvName topicName) = some (.header ::
            (indexed fields.timestampSeconds messages).map fun r => .timestamp r.1 r.2)) ∧
        ∀ stats, (ratesAfter fields calls).analyzer.topicStats topicName = some stats →
          stats.Exact (rates (messages.filterMap fields.timestampSeconds)) := by
  have hlogs : (processed .rosoutTextAnalyzer (runAnalyzerPlugins (analyzerCode Message selectedTopics) ros
      topicsAndTypes analyzerPlugins).calls).map (fun m => (m.1.toList, fields.log m.2)) =
      logMessages fields ros topicsAndTypes bag := by
    rw [processed_analyzers h honeType (by decide)]
    rfl
  refine ⟨?_, fun severity => ?_, fun topicName hselected htopic hlisted => ?_⟩
  · unfold rosoutAfter
    rw [hlogs]
    exact Rosout.run_outputFile _
  · unfold rosoutAfter
    rw [hlogs]
    exact Rosout.run_severityCounts _ severity
  · have hmessages := messages_timestampRate h honeType htopic hselected hlisted
    have hwritten := written_run fields.timestampSeconds _ (qualified_calls h honeType hqualified) htopic
    refine ⟨fun hrows => ?_, fun stats hstats => ?_⟩
    · have hfile := hwritten.rows
      unfold topicRows at hfile
      rw [hmessages] at hfile
      exact hfile hrows
    · unfold ratesAfter at hstats
      rw [analyzer_csvRun] at hstats
      rw [← hmessages]
      exact exact_topicStats fields.timestampSeconds hstats

end Bag

/-! ## A bag with a camera and a log -/

/-- The messages of the bag: a log message, or one with a timestamp only. -/
def recordedFields : MessageFields (Rosout.Log ⊕ Rat) where
  log := Sum.elim id fun _ => ⟨none, 0, none, [], [], [], [], 0⟩
  timestampSeconds := Sum.elim (fun _ => none) some

/-- ROS 2 with a bag whose messages need no deserialization. -/
def recordedBag (bag : List (String × (Rosout.Log ⊕ Rat))) :
    Ros2 (Rosout.Log ⊕ Rat) (Rosout.Log ⊕ Rat) Unit where
  importFails := false
  getMessage _ := some ()
  deserializeMessage data _ := some data
  read topics := bag.filter (·.1 ∈ topics)

def warningBetween : List (String × (Rosout.Log ⊕ Rat)) :=
  [("/cam", .inr 1), ("/rosout", .inl ⟨some 1, 5, some 30, "imu".toList, "hot".toList, [], [], 7⟩),
    ("/cam", .inr 3)]

def warningTopics : List TopicInfo :=
  [listed "/rosout" "rcl_interfaces/msg/Log", listed "/cam" "sensor_msgs/msg/Image"]

theorem wellBehaved_recordedBag (selectedTopics : List String) (bag : List (String × (Rosout.Log ⊕ Rat))) :
    WellBehaved (analyzerCode (Rosout.Log ⊕ Rat) selectedTopics) (recordedBag bag) warningTopics bag where
  imports := rfl
  types _ _ := rfl
  configures _ _ _ := rfl
  confined := ⟨fun _ _ _ => rfl, fun _ _ _ => nofun⟩
  counts := by decide
  messages _ _ _ _ _ _ _ := rfl
  reads topics := by
    show (bag.filter _).filter _ = _
    rw [List.filter_filter]
    simp

theorem warningBetween_analyzed :
    let calls := (runAnalyzerPlugins (analyzerCode (Rosout.Log ⊕ Rat) ["/cam"]) (recordedBag warningBetween)
      warningTopics analyzerPlugins).calls
    (rosoutAfter recordedFields calls).outputFile =
        some "[1.000000005] [WARNING] [/rosout] imu: hot\n".toList ∧
      (ratesAfter recordedFields calls).files (csvName "/cam") =
        some [.header, .timestamp 1 1, .timestamp 2 3] := by
  have honeType : OneType warningTopics := by
    intro info hinfo info' hinfo' topicName hname hname'
    simp only [warningTopics, List.mem_cons, List.not_mem_nil, or_false] at hinfo hinfo'
    have hsame : info.name = info'.name := hname.trans hname'.symm
    rcases hinfo with rfl | rfl <;> rcases hinfo' with rfl | rfl
    · rfl
    · exact absurd hsame (by decide)
    · exact absurd hsame (by decide)
    · rfl
  have hcam : FullyQualified "/cam" := ⟨"cam".toList, rfl, by decide, by decide, by decide⟩
  have hqualified : ∀ m ∈ warningBetween, FullyQualified m.1 := by
    simp only [warningBetween, List.forall_mem_cons, List.not_mem_nil, false_imp_iff, implies_true, and_true]
    exact ⟨hcam, ⟨"rosout".toList, rfl, by decide, by decide, by decide⟩, hcam⟩
  obtain ⟨hrosout, -, htopics⟩ := bag_analyzed recordedFields (wellBehaved_recordedBag ["/cam"] warningBetween)
    honeType hqualified
  have hrows : indexed recordedFields.timestampSeconds
      (messagesOn (recordedBag warningBetween) warningTopics warningBetween "/cam") = [(1, 1), (2, 3)] := by
    decide +kernel
  have hfile := (htopics "/cam" (by decide) hcam ⟨_, List.mem_cons_of_mem _ List.mem_cons_self, rfl⟩).1
  rw [hrows] at hfile
  refine ⟨hrosout.trans ?_, hfile (List.cons_ne_nil _ _)⟩
  decide +kernel

end LogAnalysis
