import Mathlib.Data.List.Sort
import Mathlib.Data.String.Basic
import RobotFramework.LogAnalysis.RosoutText
import RobotFramework.LogAnalysis.TimestampCsv

/-!
# The report on the rates

`report_markdown` of `TimestampRateAnalyzer` writes a table of the rates and links to a plot of the intervals of
each topic. Dictionaries have the order in which their keys came. However the messages of several topics are
interleaved, the table has one row for each topic that is configured or has a timestamp, in the order of the
names, and the row says what the timestamps of that topic give (`rate_table`); a plot that is linked shows the
intervals of the topic it is linked for (`rate_plots`).
-/

namespace LogAnalysis

open History Statistics

/-! ## The code -/

/-- The characters a file name keeps of a topic name. -/
def keepsChar (c : Char) : Bool :=
  ('A' ≤ c && c ≤ 'Z') || ('a' ≤ c && c ≤ 'z') || ('0' ≤ c && c ≤ '9') || c = '.' || c = '_' || c = '-'

/-- `re.sub(r"[^A-Za-z0-9._-]+", "_", ...)`, after a character that was replaced or not. -/
def substitute : Bool → List Char → List Char
  | _, [] => []
  | replaced, c :: rest =>
    if keepsChar c then c :: substitute false rest
    else if replaced then substitute true rest
    else '_' :: substitute true rest

/-- What the plots depend on besides the analyzer: whether Matplotlib is there, the first 8 hexadecimal digits of
the SHA-1 hash of a topic name, and for which topics `savefig` succeeds. -/
structure Plotting where
  matplotlib : Bool
  topicHash : String → List Char
  hash_length : ∀ topicName, (topicHash topicName).length = 8
  saves : String → Bool
  logStartTimeSeconds : Option Rat
  logDurationSeconds : Option Rat

/-- `topic_slug or 'root_topic'`. -/
def topicSlug (topicName : String) : List Char :=
  let slug := substitute false (stripSlash topicName.toList)
  if slug = [] then "root_topic".toList else slug

/-- `filename` of the plot of a topic. -/
def Plotting.filename (env : Plotting) (topicName : String) : List Char :=
  topicSlug topicName ++ '_' :: env.topicHash topicName ++ ".png".toList

/-- What a plot shows. -/
structure Figure where
  topicName : String
  points : List (Rat × Rat)
  xlim : Option (Rat × Rat)
  deriving DecidableEq, Repr

def Plotting.figure (env : Plotting) (topicName : String) (timestamps deltas : List Rat) : Figure where
  topicName := topicName
  points :=
    let startTime := env.logStartTimeSeconds.getD (timestamps.min?.getD 0)
    (timestamps.map (· - startTime)).zip deltas
  xlim := (env.logDurationSeconds.filter (0 < ·)).map fun duration => (0, duration)

/-- The analyzer with the order of two of its dictionaries, and what its report uses; `plots` is the directory. -/
structure RateReporter where
  analyzer : RateAnalyzer
  statTopics : List String
  deltaTopics : List String
  plotPaths : List (String × List Char)
  plotsGenerated : Bool
  plots : List Char → Option Figure

def RateReporter.new : RateReporter where
  analyzer := .new
  statTopics := []
  deltaTopics := []
  plotPaths := []
  plotsGenerated := false
  plots _ := none

/-- The keys of a dictionary after something was done to it under a name. -/
def keysAfter {α : Type} (keys : List String) (dict : String → Option α) (name : String) : List String :=
  History.join keys (if (dict name).isSome then some name else none)

def RateEvent.topicName {Message : Type} : RateEvent Message → String
  | .configureTopic topicName _ => topicName
  | .process topicName _ => topicName

/-- A call of `configure_topic` or `process`. -/
def RateReporter.step {Message : Type} (timestampSeconds : Message → Option Rat) (r : RateReporter)
    (e : RateEvent Message) : RateReporter :=
  let analyzer := r.analyzer.step timestampSeconds e
  { r with
    analyzer := analyzer
    statTopics := keysAfter r.statTopics analyzer.topicStats e.topicName
    deltaTopics := keysAfter r.deltaTopics analyzer.timestampDeltas e.topicName }

/-- The body of the loop of `_generate_plots`. -/
def RateReporter.plotTopic (env : Plotting) (r : RateReporter) (topicName : String) : RateReporter :=
  let deltas := (r.analyzer.timestampDeltas topicName).getD []
  if deltas = [] then r
  else if env.saves topicName then
    let filename := env.filename topicName
    let figure := env.figure topicName ((r.analyzer.deltaTimestamps topicName).getD []) deltas
    { r with
      plots := Function.update r.plots filename (some figure)
      plotPaths := r.plotPaths ++ [(topicName, "plots/".toList ++ filename)] }
  else r

/-- `_generate_plots`. -/
def RateReporter.generatePlots (env : Plotting) (r : RateReporter) : RateReporter :=
  if r.plotsGenerated then r
  else
    let r := { r with plotsGenerated := true }
    if r.deltaTopics.any fun topicName => (r.analyzer.timestampDeltas topicName).getD [] ≠ [] then
      if env.matplotlib then run (RateReporter.plotTopic env) r r.deltaTopics else r
    else r

/-- A line of the report. -/
inductive ReportLine where
  | text (s : String)
  | row (topicName : String) (type : Option String) (count : Nat) (figures : Option (Rat × Rat))
  | plotHeading (topicName : String)
  | plotLink (topicName : String) (path : List Char)
  deriving DecidableEq, Repr

/-- The format `.3f` of a number and of a square root. -/
structure NumberFormat where
  fixed3 : Rat → String
  sqrtFixed3 : Rat → String

def ReportLine.render (format : NumberFormat) : ReportLine → String
  | .text s => s
  | .row topicName type count figures =>
    let meanRate := figures.elim "N/A" fun f => format.fixed3 f.1
    let rateStddev := figures.elim "N/A" fun f => format.sqrtFixed3 f.2
    "| `" ++ topicName ++ "` | `" ++ type.getD "None" ++ "` | " ++ String.ofList (Rosout.grouped count) ++
      " | " ++ meanRate ++ " | " ++ rateStddev ++ " |"
  | .plotHeading topicName => "#### `" ++ topicName ++ "` timestamp deltas"
  | .plotLink topicName path => "![Timestamp delta plot for " ++ topicName ++ "](" ++ String.ofList path ++ ")"

/-- The row of a topic; without a rate there are no figures. -/
def statsRow (topicName : String) (stats : TopicStats) : ReportLine :=
  .row topicName stats.type stats.intervalCount
    (if stats.intervalCount = 0 then none else some (stats.meanRate, stats.rateM2 / stats.intervalCount))

def tableHead : List ReportLine :=
  [.text "### Timestamp Rate Analysis", .text "",
    .text "Rates are the inverse of positive intervals between consecutive embedded message timestamps. Standard deviation is the population standard deviation of interval rates.",
    .text "", .text "| Topic | Datatype | Rate Samples | Mean Rate (Hz) | Rate Std Dev (Hz) |",
    .text "| :--- | :--- | ---: | ---: | ---: |"]

/-- The rows, in the order of the names. -/
def RateReporter.rows (r : RateReporter) : List ReportLine :=
  (r.statTopics.insertionSort (· ≤ ·)).filterMap fun topicName =>
    (r.analyzer.topicStats topicName).map (statsRow topicName)

/-- The links to the plots, in the order of the names. -/
def RateReporter.links (r : RateReporter) : List ReportLine :=
  (r.plotPaths.insertionSort fun p q => p.1 ≤ q.1).flatMap fun p =>
    [.text "", .plotHeading p.1, .text "", .plotLink p.1 p.2]

/-- `report_markdown`: the analyzer after it, and the lines, of which an empty report has none. -/
def RateReporter.reportMarkdown (env : Plotting) (r : RateReporter) : RateReporter × List ReportLine :=
  if r.statTopics = [] then (r, [])
  else
    let r := r.generatePlots env
    (r, tableHead ++ r.rows ++ r.links)

/-- `"\n".join(report_lines)`. -/
def reportText (format : NumberFormat) (lines : List ReportLine) : List Char :=
  Rosout.joinLines (lines.map fun line => (line.render format).toList)

/-- `report_toc_entry`. -/
def RateReporter.reportTocEntry (r : RateReporter) : Option (String × String) :=
  if r.statTopics = [] then none else some ("Timestamp Rate Analysis", "timestamp-rate-analysis")

/-! ## The keys of a dictionary -/

/-- The keys of a dictionary, each once. -/
structure KeysOf {α : Type} (keys : List String) (dict : String → Option α) : Prop where
  nodup : keys.Nodup
  mem : ∀ k, k ∈ keys ↔ (dict k).isSome = true

theorem KeysOf.after {α : Type} {keys : List String} {dict dict' : String → Option α} {name : String}
    (h : KeysOf keys dict) (hothers : ∀ k, name ≠ k → dict' k = dict k)
    (hkept : (dict name).isSome = true → (dict' name).isSome = true) :
    KeysOf (keysAfter keys dict' name) dict' := by
  refine ⟨nodup_join h.nodup _, fun k => ?_⟩
  unfold keysAfter
  rw [mem_join, h.mem]
  by_cases hk : name = k
  · subst hk
    by_cases hsome : (dict' name).isSome = true
    · simp [hsome]
    · simp [hsome, mt hkept hsome]
  · rw [hothers k hk]
    by_cases hsome : (dict' name).isSome = true <;> simp [hsome, hk]

section Events

variable {Message : Type} (timestampSeconds : Message → Option Rat)

theorem entry_step_of_ne (a : RateAnalyzer) {e : RateEvent Message} {topicName : String}
    (h : e.topicName ≠ topicName) :
    (a.step timestampSeconds e).entry topicName = a.entry topicName := by
  rw [entry_step]
  cases e with
  | configureTopic name messageType => exact if_neg h
  | process name message => exact if_neg h

theorem isSome_timestampDeltas_step (a : RateAnalyzer) (e : RateEvent Message) (topicName : String)
    (h : (a.timestampDeltas topicName).isSome = true) :
    ((a.step timestampSeconds e).timestampDeltas topicName).isSome = true := by
  show ((a.step timestampSeconds e).entry topicName).timestampDeltas.isSome = true
  have hentry : (a.entry topicName).timestampDeltas.isSome = true := h
  rw [entry_step]
  generalize a.entry topicName = entry at hentry
  unfold TopicEntry.step
  cases e with
  | configureTopic name messageType =>
    dsimp only
    split_ifs
    · rfl
    · exact hentry
  | process name message =>
    dsimp only
    split_ifs
    · cases timestampSeconds message with
      | none => exact hentry
      | some timestamp =>
        dsimp only
        unfold TopicEntry.addTimestamp
        cases entry.currentStats.lastTimestamp with
        | none => exact hentry
        | some previousTimestamp => rfl
    · exact hentry

def reported (events : List (RateEvent Message)) : RateReporter :=
  run (RateReporter.step timestampSeconds) .new events

theorem analyzer_reported (events : List (RateEvent Message)) :
    (reported timestampSeconds events).analyzer = analyzed timestampSeconds events :=
  run_map RateReporter.analyzer (fun _ _ => rfl) _ events

/-- Before the first report nothing is plotted, and the keys of the dictionaries are in order. -/
structure RateReporter.Fresh (r : RateReporter) : Prop where
  statTopics : KeysOf r.statTopics r.analyzer.topicStats
  deltaTopics : KeysOf r.deltaTopics r.analyzer.timestampDeltas
  plotPaths : r.plotPaths = []
  plotsGenerated : r.plotsGenerated = false

theorem RateReporter.Fresh.step {r : RateReporter} (h : r.Fresh) (e : RateEvent Message) :
    (r.step timestampSeconds e).Fresh := by
  refine ⟨h.statTopics.after (fun k hk => ?_) fun hsome => ?_, h.deltaTopics.after (fun k hk => ?_) ?_,
    h.plotPaths, h.plotsGenerated⟩
  · exact congrArg TopicEntry.stats (entry_step_of_ne timestampSeconds r.analyzer hk)
  · show ((r.analyzer.step timestampSeconds e).entry e.topicName).stats.isSome = true
    rw [entry_step, isSome_step]
    exact Or.inl hsome
  · exact congrArg TopicEntry.timestampDeltas (entry_step_of_ne timestampSeconds r.analyzer hk)
  · exact isSome_timestampDeltas_step timestampSeconds r.analyzer e e.topicName

theorem fresh_reported (events : List (RateEvent Message)) : (reported timestampSeconds events).Fresh := by
  refine run_invariant (I := fun _ (r : RateReporter) => r.Fresh) ?_ (fun _ _ e h => h.step _ e) events
  exact ⟨⟨List.nodup_nil, fun k => by simp [RateReporter.new, RateAnalyzer.new]⟩,
    ⟨List.nodup_nil, fun k => by simp [RateReporter.new, RateAnalyzer.new]⟩, rfl, rfl⟩

/-! ## What is known of a topic -/

/-- The type that is given when a topic first occurs. -/
def RateEvent.type? : RateEvent Message → Option String
  | .configureTopic _ messageType => some messageType
  | .process _ _ => none

/-- The datatype in the statistics: the one that the topic was configured with before its first timestamp. -/
def firstType (topicName : String) (events : List (RateEvent Message)) : Option String :=
  (events.find? (RateEvent.concerns timestampSeconds topicName)).bind RateEvent.type?

theorem type_addTimestamp (stats : TopicStats) (timestamp : Rat) :
    (stats.addTimestamp timestamp).type = stats.type := by
  unfold TopicStats.addTimestamp
  cases stats.lastTimestamp with
  | none => rfl
  | some previousTimestamp =>
    show (stats.addInterval _).type = stats.type
    unfold TopicStats.addInterval
    split_ifs <;> rfl

theorem stats_addTimestamp (entry : TopicEntry) (timestamp : Rat) :
    (entry.addTimestamp timestamp).stats = some (entry.currentStats.addTimestamp timestamp) := by
  unfold TopicEntry.addTimestamp
  cases entry.currentStats.lastTimestamp <;> rfl

theorem type_step (topicName : String) (entry : TopicEntry) {e : RateEvent Message}
    (h : e.concerns timestampSeconds topicName = true) :
    (entry.step timestampSeconds topicName e).stats.map TopicStats.type =
      some ((entry.stats.map TopicStats.type).getD e.type?) := by
  cases e with
  | configureTopic name messageType =>
    have hname : name = topicName := by simpa [RateEvent.concerns] using h
    rw [TopicEntry.step, if_pos hname]
    cases hstats : entry.stats <;> simp [TopicEntry.configure, hstats, TopicStats.new, RateEvent.type?]
  | process name message =>
    have hboth : name = topicName ∧ (timestampSeconds message).isSome = true := by
      simpa [RateEvent.concerns] using h
    obtain ⟨timestamp, htimestamp⟩ := Option.isSome_iff_exists.mp hboth.2
    rw [TopicEntry.step, if_pos hboth.1, htimestamp]
    dsimp only
    rw [stats_addTimestamp, Option.map_some, type_addTimestamp]
    cases hstats : entry.stats <;> simp [TopicEntry.currentStats, hstats, TopicStats.new, RateEvent.type?]

theorem type_analyzed (topicName : String) (events : List (RateEvent Message)) :
    ((analyzed timestampSeconds events).topicStats topicName).map TopicStats.type =
      (events.find? (RateEvent.concerns timestampSeconds topicName)).map RateEvent.type? := by
  show ((analyzed timestampSeconds events).entry topicName).stats.map TopicStats.type = _
  rw [entry_analyzed]
  refine run_invariant (I := fun past (entry : TopicEntry) => entry.stats.map TopicStats.type =
    (past.find? (RateEvent.concerns timestampSeconds topicName)).map RateEvent.type?) rfl ?_ events
  intro past entry e h
  rw [List.find?_append]
  cases hconcerns : e.concerns timestampSeconds topicName with
  | false =>
    rw [step_of_not_concerns timestampSeconds hconcerns, h]
    simp [hconcerns]
  | true =>
    rw [type_step timestampSeconds topicName entry hconcerns, h]
    cases past.find? (RateEvent.concerns timestampSeconds topicName) <;> simp [hconcerns]

theorem timestamps_concat (topicName : String) (past : List (RateEvent Message)) (e : RateEvent Message) :
    timestamps timestampSeconds topicName (past ++ [e]) =
      timestamps timestampSeconds topicName past ++ (e.timestamp? timestampSeconds topicName).toList := by
  unfold timestamps
  rw [List.filterMap_append]
  cases h : e.timestamp? timestampSeconds topicName <;> simp [h]

theorem deltaTimestamps_addTimestamp {entry : TopicEntry} {ts : List Rat} (h : entry.Inv ts)
    (hdeltas : entry.deltaTimestamps.getD [] = ts.tail) (timestamp : Rat) :
    (entry.addTimestamp timestamp).deltaTimestamps.getD [] = (ts ++ [timestamp]).tail := by
  unfold TopicEntry.addTimestamp
  rw [h.lastTimestamp]
  cases ts with
  | nil => exact hdeltas
  | cons first rest =>
    rw [List.getLast?_cons]
    show entry.deltaTimestamps.getD [] ++ [timestamp] = rest ++ [timestamp]
    rw [hdeltas]
    rfl

theorem deltaTimestamps_analyzed (topicName : String) (events : List (RateEvent Message)) :
    ((analyzed timestampSeconds events).deltaTimestamps topicName).getD [] =
      (timestamps timestampSeconds topicName events).tail := by
  induction events using List.reverseRecOn with
  | nil => rfl
  | append_singleton past e ih =>
    have hinv := inv_analyzed timestampSeconds topicName past
    have hentry : (analyzed timestampSeconds (past ++ [e])).entry topicName =
        ((analyzed timestampSeconds past).entry topicName).step timestampSeconds topicName e := by
      unfold analyzed
      rw [run_concat, entry_step]
    show ((analyzed timestampSeconds (past ++ [e])).entry topicName).deltaTimestamps.getD [] = _
    change ((analyzed timestampSeconds past).entry topicName).deltaTimestamps.getD [] = _ at ih
    rw [hentry, timestamps_concat]
    generalize (analyzed timestampSeconds past).entry topicName = entry at hinv ih
    unfold TopicEntry.step RateEvent.timestamp?
    cases e with
    | configureTopic name messageType =>
      dsimp only
      rw [Option.toList_none, List.append_nil]
      split_ifs
      · exact ih
      · exact ih
    | process name message =>
      dsimp only
      split_ifs
      · cases timestampSeconds message with
        | none => simpa using ih
        | some timestamp => exact deltaTimestamps_addTimestamp hinv ih timestamp
      · simpa using ih

/-! ## The table -/

theorem run_plotTopic (env : Plotting) (r : RateReporter) (topics : List String) :
    (run (RateReporter.plotTopic env) r topics).analyzer = r.analyzer ∧
      (run (RateReporter.plotTopic env) r topics).statTopics = r.statTopics ∧
      (run (RateReporter.plotTopic env) r topics).plotsGenerated = r.plotsGenerated := by
  induction topics generalizing r with
  | nil => exact ⟨rfl, rfl, rfl⟩
  | cons topicName topics ih =>
    obtain ⟨hanalyzer, hstats, hgenerated⟩ := ih (r.plotTopic env topicName)
    have hone : (r.plotTopic env topicName).analyzer = r.analyzer ∧
        (r.plotTopic env topicName).statTopics = r.statTopics ∧
        (r.plotTopic env topicName).plotsGenerated = r.plotsGenerated := by
      unfold RateReporter.plotTopic
      dsimp only
      split_ifs <;> exact ⟨rfl, rfl, rfl⟩
    rw [run_cons]
    exact ⟨hanalyzer.trans hone.1, hstats.trans hone.2.1, hgenerated.trans hone.2.2⟩

/-- The plots change nothing of the statistics, and are not drawn again. -/
theorem generatePlots_keeps (env : Plotting) (r : RateReporter) :
    (r.generatePlots env).analyzer = r.analyzer ∧ (r.generatePlots env).statTopics = r.statTopics ∧
      (r.generatePlots env).plotsGenerated = true := by
  unfold RateReporter.generatePlots
  dsimp only
  split_ifs with hgenerated
  · exact ⟨rfl, rfl, hgenerated⟩
  · exact run_plotTopic env { r with plotsGenerated := true } r.deltaTopics
  · exact ⟨rfl, rfl, rfl⟩
  · exact ⟨rfl, rfl, rfl⟩

theorem sorted_of_nodup {topics : List String} (h : topics.Nodup) :
    (topics.insertionSort (· ≤ ·)).Pairwise (· < ·) := by
  have hle := List.pairwise_insertionSort (· ≤ ·) topics
  have hnodup := (List.perm_insertionSort (· ≤ ·) topics).nodup_iff.mpr h
  exact (hle.and hnodup).imp fun hboth => lt_of_le_of_ne hboth.1 hboth.2

/-- The row of a topic by its timestamps. -/
def rateRow (topicName : String) (type : Option String) (rates : List Rat) : ReportLine :=
  .row topicName type rates.length (if rates = [] then none else some (mean rates, variance rates))

theorem statsRow_eq {events : List (RateEvent Message)} {topicName : String} {stats : TopicStats}
    (h : (analyzed timestampSeconds events).topicStats topicName = some stats) :
    statsRow topicName stats = rateRow topicName (firstType timestampSeconds topicName events)
      (rates (timestamps timestampSeconds topicName events)) := by
  have hcurrent : ((analyzed timestampSeconds events).entry topicName).currentStats = stats := by
    show ((analyzed timestampSeconds events).topicStats topicName).getD _ = stats
    rw [h]
    rfl
  have hexact := exact_of_moments (hcurrent ▸ (inv_analyzed timestampSeconds topicName events).moments)
  have htype : stats.type = firstType timestampSeconds topicName events := by
    have htypes := type_analyzed timestampSeconds topicName events
    rw [h] at htypes
    unfold firstType
    cases hfirst : events.find? (RateEvent.concerns timestampSeconds topicName) with
    | none => simp [hfirst] at htypes
    | some e =>
      rw [hfirst] at htypes
      exact Option.some.inj htypes
  unfold statsRow rateRow
  rw [htype, hexact.variance, hexact.meanRate, hexact.intervalCount]
  simp only [List.length_eq_zero_iff]

theorem rows_reported (events : List (RateEvent Message)) (r : RateReporter)
    (hanalyzer : r.analyzer = analyzed timestampSeconds events)
    (hkeys : KeysOf r.statTopics r.analyzer.topicStats) :
    r.rows = (r.statTopics.insertionSort (· ≤ ·)).map fun t =>
      rateRow t (firstType timestampSeconds t events) (rates (timestamps timestampSeconds t events)) := by
  unfold RateReporter.rows
  rw [← List.filterMap_eq_map]
  apply List.filterMap_congr
  intro t ht
  obtain ⟨stats, hstats⟩ :=
    Option.isSome_iff_exists.mp ((hkeys.mem t).mp ((List.mem_insertionSort _).mp ht))
  rw [hstats, Option.map_some]
  rw [hanalyzer] at hstats
  exact congrArg some (statsRow_eq timestampSeconds hstats)

theorem strip_ne_nil {c : Char} (hc : Rosout.isSpace c = false) (text : List Char) :
    Rosout.strip (c :: text) ≠ [] := by
  unfold Rosout.strip
  rw [List.dropWhile_cons_of_neg (by simp [hc]), Ne, List.reverse_eq_nil_iff, List.dropWhile_eq_nil_iff]
  intro hall
  have hspace := hall c (by simp)
  exact absurd (hc.symm.trans hspace) (by decide)

theorem strip_reportText_ne_nil (format : NumberFormat) (lines : List ReportLine) :
    Rosout.strip (reportText format (tableHead ++ lines)) ≠ [] := by
  have htitle : "### Timestamp Rate Analysis".toList = '#' :: "## Timestamp Rate Analysis".toList := by
    decide +kernel
  show Rosout.strip ("### Timestamp Rate Analysis".toList ++ '\n' :: _) ≠ []
  rw [htitle, List.cons_append]
  exact strip_ne_nil (by decide) _

/-- **The table.** After all calls, however those for several topics are interleaved, the report has, in the order
of the names, one row for each topic that is configured or has a timestamp: with the type that it was configured
with before, the number of its positive intervals, and the mean and the variance of the rates, if there are any.
Without such a topic there is no report and no entry for the table of contents; else there are both. A second
report is the same and draws nothing again. -/
theorem rate_table (env : Plotting) (events : List (RateEvent Message)) :
    let report := (reported timestampSeconds events).reportMarkdown env
    (∃ topics : List String, topics.Pairwise (· < ·) ∧
        (∀ t, t ∈ topics ↔ ∃ e ∈ events, e.concerns timestampSeconds t = true) ∧
        report.2 = if topics = [] then [] else
          tableHead ++ topics.map (fun t => rateRow t (firstType timestampSeconds t events)
            (rates (timestamps timestampSeconds t events))) ++ report.1.links) ∧
      report.1.reportMarkdown env = report ∧
      ∀ format, report.1.reportTocEntry = none ↔ Rosout.strip (reportText format report.2) = [] := by
  have hfresh := fresh_reported timestampSeconds events
  have hanalyzer := analyzer_reported timestampSeconds events
  generalize reported timestampSeconds events = r at hfresh hanalyzer
  obtain ⟨hsame, htopics, hgenerated⟩ := generatePlots_keeps env r
  have hmem (t : String) : t ∈ r.statTopics ↔ ∃ e ∈ events, e.concerns timestampSeconds t = true := by
    rw [hfresh.statTopics.mem, hanalyzer]
    exact isSome_topicStats timestampSeconds t events
  have hsorted := sorted_of_nodup hfresh.statTopics.nodup
  unfold RateReporter.reportMarkdown RateReporter.reportTocEntry
  by_cases hempty : r.statTopics = []
  · rw [if_pos hempty]
    refine ⟨⟨[], List.Pairwise.nil, fun t => ?_, rfl⟩, ?_, ?_⟩
    · rw [← hmem, hempty]
    · rw [if_pos hempty]
    · intro format
      rw [if_pos hempty]
      exact iff_of_true rfl rfl
  · have hrows : (r.generatePlots env).rows = (r.statTopics.insertionSort (· ≤ ·)).map fun t =>
        rateRow t (firstType timestampSeconds t events) (rates (timestamps timestampSeconds t events)) := by
      rw [rows_reported timestampSeconds events _ (hsame.trans hanalyzer)
        (by rw [hsame, htopics]; exact hfresh.statTopics), htopics]
    have hagain : (r.generatePlots env).generatePlots env = r.generatePlots env := by
      conv_lhs => rw [RateReporter.generatePlots, if_pos hgenerated]
    have hsome : r.statTopics.insertionSort (· ≤ ·) ≠ [] := fun hnil => hempty (by
      rw [← List.length_eq_zero_iff, ← List.length_insertionSort (· ≤ ·), hnil, List.length_nil])
    rw [if_neg hempty]
    refine ⟨⟨_, hsorted, fun t => ?_, ?_⟩, ?_, ?_⟩
    · rw [List.mem_insertionSort, hmem]
    · rw [if_neg hsome, ← hrows]
    · rw [if_neg (by rwa [htopics]), hagain]
    · intro format
      rw [if_neg (by rwa [htopics])]
      dsimp only
      rw [List.append_assoc]
      exact iff_of_false (Option.some_ne_none _) (strip_reportText_ne_nil format _)

/-! ## The plots -/

/-- A topic has intervals and its plot is saved. -/
def RateAnalyzer.Plotted (env : Plotting) (a : RateAnalyzer) (topicName : String) : Prop :=
  (a.timestampDeltas topicName).getD [] ≠ [] ∧ env.saves topicName = true

instance (env : Plotting) (a : RateAnalyzer) (topicName : String) : Decidable (a.Plotted env topicName) :=
  inferInstanceAs (Decidable (_ ∧ _))

/-- The plot of a topic by what the analyzer has of it. -/
def RateAnalyzer.figure (env : Plotting) (a : RateAnalyzer) (topicName : String) : Figure :=
  env.figure topicName ((a.deltaTimestamps topicName).getD []) ((a.timestampDeltas topicName).getD [])

theorem plotTopic_eq (env : Plotting) (r : RateReporter) (topicName : String) :
    r.plotTopic env topicName =
      if r.analyzer.Plotted env topicName then
        { r with
          plots := Function.update r.plots (env.filename topicName) (some (r.analyzer.figure env topicName))
          plotPaths := r.plotPaths ++ [(topicName, "plots/".toList ++ env.filename topicName)] }
      else r := by
  unfold RateReporter.plotTopic
  dsimp only
  by_cases hdeltas : (r.analyzer.timestampDeltas topicName).getD [] = []
  · have hnot : ¬ r.analyzer.Plotted env topicName := fun h => h.1 hdeltas
    rw [if_pos hdeltas, if_neg hnot]
  · by_cases hsaves : env.saves topicName = true
    · have hplotted : r.analyzer.Plotted env topicName := ⟨hdeltas, hsaves⟩
      rw [if_neg hdeltas, if_pos hsaves, if_pos hplotted]
      rfl
    · have hnot : ¬ r.analyzer.Plotted env topicName := fun h => hsaves h.2
      rw [if_neg hdeltas, if_neg hsaves, if_neg hnot]

/-- The paths of the plots of some topics. -/
def plotPathsOf (env : Plotting) (a : RateAnalyzer) (topics : List String) : List (String × List Char) :=
  (topics.filter fun t => a.Plotted env t).map fun t => (t, "plots/".toList ++ env.filename t)

theorem plotPaths_run (env : Plotting) (r : RateReporter) (topics : List String) :
    (run (RateReporter.plotTopic env) r topics).plotPaths =
      r.plotPaths ++ plotPathsOf env r.analyzer topics := by
  induction topics using List.reverseRecOn with
  | nil => exact (List.append_nil _).symm
  | append_singleton topics t ih =>
    obtain ⟨hanalyzer, -, -⟩ := run_plotTopic env r topics
    rw [run_concat, plotTopic_eq, hanalyzer]
    unfold plotPathsOf at ih ⊢
    rw [List.filter_append, List.map_append]
    by_cases hplotted : r.analyzer.Plotted env t
    · simp [hplotted, ih]
    · simp [hplotted, ih]

/-- The file of a topic shows its plot, unless a later topic has a file of that name. -/
theorem plots_run (env : Plotting) (r : RateReporter) {topics : List String} {t : String} (ht : t ∈ topics)
    (hplotted : r.analyzer.Plotted env t)
    (hfiles : ∀ u ∈ topics, r.analyzer.Plotted env u → env.filename u = env.filename t → u = t) :
    (run (RateReporter.plotTopic env) r topics).plots (env.filename t) =
      some (r.analyzer.figure env t) := by
  induction topics using List.reverseRecOn with
  | nil => cases ht
  | append_singleton topics u ih =>
    obtain ⟨hanalyzer, -, -⟩ := run_plotTopic env r topics
    rw [run_concat, plotTopic_eq, hanalyzer]
    by_cases hu : u = t
    · subst hu
      rw [if_pos hplotted]
      dsimp only
      rw [Function.update_self]
    · have hbefore : t ∈ topics := by simpa [Ne.symm hu] using ht
      have hrest := ih hbefore fun v hv => hfiles v (List.mem_append_left _ hv)
      by_cases hplotted' : r.analyzer.Plotted env u
      · have hother : env.filename t ≠ env.filename u := fun h =>
          hu (hfiles u (List.mem_append_right _ (List.mem_singleton_self u)) hplotted' h.symm)
        rw [if_pos hplotted']
        dsimp only
        rw [Function.update_of_ne hother]
        exact hrest
      · rw [if_neg hplotted']
        exact hrest

theorem run_plotTopic_of_not {env : Plotting} {r : RateReporter} {topics : List String}
    (h : ∀ t ∈ topics, ¬ r.analyzer.Plotted env t) : run (RateReporter.plotTopic env) r topics = r := by
  induction topics with
  | nil => rfl
  | cons t topics ih =>
    obtain ⟨ht, htopics⟩ := List.forall_mem_cons.mp h
    rw [run_cons, plotTopic_eq, if_neg ht]
    exact ih htopics

theorem generatePlots_fresh (env : Plotting) {r : RateReporter} (h : r.Fresh) :
    r.generatePlots env =
      if env.matplotlib then run (RateReporter.plotTopic env) { r with plotsGenerated := true } r.deltaTopics
      else { r with plotsGenerated := true } := by
  unfold RateReporter.generatePlots
  rw [if_neg (by rw [h.plotsGenerated]; decide)]
  dsimp only
  by_cases hany : (r.deltaTopics.any fun t => (r.analyzer.timestampDeltas t).getD [] ≠ []) = true
  · rw [if_pos hany]
  · rw [if_neg hany, run_plotTopic_of_not, ite_self]
    intro t ht hplotted
    exact hany (List.any_eq_true.mpr ⟨t, ht, decide_eq_true hplotted.1⟩)

theorem differences_ne_nil {ts : List Rat} : differences ts ≠ [] ↔ 2 ≤ ts.length := by
  rw [← List.length_pos_iff]
  unfold differences
  rw [List.length_zipWith, List.length_tail]
  omega

theorem zip_differences (start : Rat) (xs ys : List Rat) :
    (ys.map (· - start)).zip (List.zipWith (fun x y => y - x) xs ys) =
      (xs.zip ys).map fun p => (p.2 - start, p.2 - p.1) := by
  induction xs generalizing ys with
  | nil => simp
  | cons x xs ih =>
    cases ys with
    | nil => rfl
    | cons y ys => simp [ih]

/-- The plot of a topic by its timestamps: each interval over its end. -/
def intervalPlot (env : Plotting) (topicName : String) (ts : List Rat) : Figure where
  topicName := topicName
  points := (ts.zip ts.tail).map fun p =>
    (p.2 - env.logStartTimeSeconds.getD (ts.tail.min?.getD 0), p.2 - p.1)
  xlim := (env.logDurationSeconds.filter (0 < ·)).map fun duration => (0, duration)

theorem timestampDeltas_analyzed (topicName : String) (events : List (RateEvent Message)) :
    ((analyzed timestampSeconds events).timestampDeltas topicName).getD [] =
      differences (timestamps timestampSeconds topicName events) :=
  (inv_analyzed timestampSeconds topicName events).timestampDeltas

theorem figure_analyzed (env : Plotting) (topicName : String) (events : List (RateEvent Message)) :
    (analyzed timestampSeconds events).figure env topicName =
      intervalPlot env topicName (timestamps timestampSeconds topicName events) := by
  unfold RateAnalyzer.figure
  rw [deltaTimestamps_analyzed, timestampDeltas_analyzed]
  unfold Plotting.figure intervalPlot differences
  dsimp only
  rw [zip_differences]

theorem plotted_analyzed (env : Plotting) (topicName : String) (events : List (RateEvent Message)) :
    (analyzed timestampSeconds events).Plotted env topicName ↔
      2 ≤ (timestamps timestampSeconds topicName events).length ∧ env.saves topicName = true := by
  unfold RateAnalyzer.Plotted
  rw [timestampDeltas_analyzed, differences_ne_nil]

/-- Two files have the same name only if the hashes and what is left of the names agree. -/
theorem filename_inj {env : Plotting} {t u : String} (h : env.filename t = env.filename u) : topicSlug t = topicSlug u ∧ env.topicHash t = env.topicHash u := by
  unfold Plotting.filename at h
  have hstem := List.append_cancel_right h
  obtain ⟨hslug, hhash⟩ := List.append_inj' hstem (by simp [env.hash_length])
  exact ⟨hslug, (List.cons.inj hhash).2⟩

theorem mem_lines_plotLink (r : RateReporter) (t : String) (path : List Char) :
    .plotLink t path ∈ tableHead ++ r.rows ++ r.links ↔ (t, path) ∈ r.plotPaths := by
  have hhead : .plotLink t path ∉ tableHead := by simp [tableHead]
  have hrows : .plotLink t path ∉ r.rows := by
    intro hmem
    obtain ⟨u, -, hrow⟩ := List.mem_filterMap.mp hmem
    obtain ⟨stats, -, hstats⟩ := Option.map_eq_some_iff.mp hrow
    cases hstats
  unfold RateReporter.links
  simp [hhead, hrows, List.mem_flatMap]

theorem RateReporter.Fresh.mem_deltaTopics {r : RateReporter} (h : r.Fresh) {env : Plotting} {t : String}
    (ht : r.analyzer.Plotted env t) : t ∈ r.deltaTopics := by
  rw [h.deltaTopics.mem]
  cases hdeltas : r.analyzer.timestampDeltas t with
  | none => exact absurd (by rw [hdeltas]; rfl) ht.1
  | some deltas => rfl

theorem mem_plotPaths_fresh (env : Plotting) {r : RateReporter} (h : r.Fresh) (t : String) (path : List Char) :
    (t, path) ∈ (r.generatePlots env).plotPaths ↔
      env.matplotlib = true ∧ r.analyzer.Plotted env t ∧ path = "plots/".toList ++ env.filename t := by
  rw [generatePlots_fresh env h]
  by_cases hmatplotlib : env.matplotlib = true
  · rw [if_pos hmatplotlib, plotPaths_run]
    show (t, path) ∈ r.plotPaths ++ plotPathsOf env r.analyzer r.deltaTopics ↔ _
    rw [h.plotPaths, List.nil_append]
    unfold plotPathsOf
    rw [List.mem_map]
    constructor
    · rintro ⟨u, hu, ⟨⟩⟩
      exact ⟨hmatplotlib, of_decide_eq_true (List.mem_filter.mp hu).2, rfl⟩
    · rintro ⟨-, hplotted, rfl⟩
      exact ⟨t, List.mem_filter.mpr ⟨h.mem_deltaTopics hplotted, decide_eq_true hplotted⟩, rfl⟩
  · rw [if_neg hmatplotlib]
    show (t, path) ∈ r.plotPaths ↔ _
    simp [h.plotPaths, hmatplotlib]

theorem statTopics_ne_nil {r : RateReporter} (h : r.Fresh) {events : List (RateEvent Message)}
    (hanalyzer : r.analyzer = analyzed timestampSeconds events) {t : String}
    (ht : 2 ≤ (timestamps timestampSeconds t events).length) : r.statTopics ≠ [] := by
  intro hnil
  have hstats : r.analyzer.topicStats t = none := by
    rw [← Option.not_isSome_iff_eq_none, ← h.statTopics.mem, hnil]
    exact List.not_mem_nil
  have hlast := (inv_analyzed timestampSeconds t events).lastTimestamp
  rw [← hanalyzer] at hlast
  have hnone : (r.analyzer.entry t).currentStats.lastTimestamp = none := by
    show ((r.analyzer.topicStats t).getD _).lastTimestamp = none
    rw [hstats]
    rfl
  rw [hnone, eq_comm, List.getLast?_eq_none_iff] at hlast
  rw [hlast] at ht
  cases ht

/-- **The plots.** After all calls, however those for several topics are interleaved, the report links a plot for
exactly the topics that have two timestamps and whose plot could be saved, if Matplotlib is there. Unless another
such topic has the same short hash and differs only in characters that file names do not keep, the file that is
linked shows the intervals of that topic, each over the time from the start of the log to its end. -/
theorem rate_plots (env : Plotting) (events : List (RateEvent Message)) :
    let report := (reported timestampSeconds events).reportMarkdown env
    ∀ t path, (.plotLink t path ∈ report.2 ↔
        env.matplotlib = true ∧ 2 ≤ (timestamps timestampSeconds t events).length ∧ env.saves t = true ∧
          path = "plots/".toList ++ env.filename t) ∧
      ((∀ u, 2 ≤ (timestamps timestampSeconds u events).length → env.saves u = true →
          topicSlug u = topicSlug t → env.topicHash u = env.topicHash t → u = t) →
        .plotLink t path ∈ report.2 →
        report.1.plots (env.filename t) = some (intervalPlot env t (timestamps timestampSeconds t events))) := by
  have hfresh := fresh_reported timestampSeconds events
  have hanalyzer := analyzer_reported timestampSeconds events
  generalize reported timestampSeconds events = r at hfresh hanalyzer
  intro report t path
  have hplotted (u : String) : r.analyzer.Plotted env u ↔
      2 ≤ (timestamps timestampSeconds u events).length ∧ env.saves u = true := by
    rw [hanalyzer]
    exact plotted_analyzed timestampSeconds env u events
  have hlink : .plotLink t path ∈ report.2 ↔
      env.matplotlib = true ∧ r.analyzer.Plotted env t ∧ path = "plots/".toList ++ env.filename t := by
    show .plotLink t path ∈ (r.reportMarkdown env).2 ↔ _
    unfold RateReporter.reportMarkdown
    by_cases hempty : r.statTopics = []
    · rw [if_pos hempty]
      refine iff_of_false List.not_mem_nil fun ⟨_, hp, _⟩ => ?_
      exact statTopics_ne_nil timestampSeconds hfresh hanalyzer ((hplotted t).mp hp).1 hempty
    · rw [if_neg hempty]
      exact (mem_lines_plotLink _ t path).trans (mem_plotPaths_fresh env hfresh t path)
  refine ⟨?_, fun hclash hmem => ?_⟩
  · rw [hlink, hplotted, and_assoc]
  · obtain ⟨hmatplotlib, hp, -⟩ := hlink.mp hmem
    have htwo := ((hplotted t).mp hp).1
    have hempty := statTopics_ne_nil timestampSeconds hfresh hanalyzer htwo
    have hreport : report.1 =
        run (RateReporter.plotTopic env) { r with plotsGenerated := true } r.deltaTopics := by
      show (r.reportMarkdown env).1 = _
      unfold RateReporter.reportMarkdown
      rw [if_neg hempty, generatePlots_fresh env hfresh, if_pos hmatplotlib]
    have hfile : (run (RateReporter.plotTopic env) { r with plotsGenerated := true } r.deltaTopics).plots
        (env.filename t) = some (r.analyzer.figure env t) := by
      refine plots_run env _ (hfresh.mem_deltaTopics hp) hp fun u _ hu hsame => ?_
      obtain ⟨hslug, hhash⟩ := filename_inj hsame
      obtain ⟨hintervals, hsaved⟩ := (hplotted u).mp hu
      exact hclash u hintervals hsaved hslug hhash
    rw [hreport, hfile, hanalyzer, figure_analyzed]

end Events

/-- The plots of the two cameras, of which one has two timestamps. -/
def cameraPlotting : Plotting where
  matplotlib := true
  topicHash t := (if t = "/left" then "318f3874" else if t = "/right" then "2bbb43a2" else "00000000").toList
  hash_length t := by split_ifs <;> rfl
  saves _ := true
  logStartTimeSeconds := some 1
  logDurationSeconds := some 10

theorem twoCameras_plot :
    .plotLink "/left" "plots/left_318f3874.png".toList ∈
        ((reported id twoCameras).reportMarkdown cameraPlotting).2 ∧
      ((reported id twoCameras).reportMarkdown cameraPlotting).1.plots (cameraPlotting.filename "/left") =
        some ⟨"/left", [(2, 2)], some (0, 10)⟩ := by
  have honly (t : String) (ht : 2 ≤ (timestamps id t twoCameras).length) : t = "/left" := by
    by_contra hne
    by_cases hright : t = "/right"
    · subst hright
      revert ht
      decide +kernel
    · have hnone : timestamps id t twoCameras = [] := by
        simp [timestamps, twoCameras, RateEvent.timestamp?, Ne.symm hne, Ne.symm hright]
      rw [hnone] at ht
      cases ht
  have hplots := rate_plots id cameraPlotting twoCameras "/left" "plots/left_318f3874.png".toList
  have hlink := hplots.1.mpr ⟨rfl, by decide +kernel, rfl, by decide +kernel⟩
  refine ⟨hlink, (hplots.2 (fun u hu _ _ _ => honly u hu) hlink).trans ?_⟩
  decide +kernel

end LogAnalysis
