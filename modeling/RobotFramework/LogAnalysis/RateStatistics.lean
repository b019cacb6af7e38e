import Mathlib.Algebra.Order.Ring.Rat
import RobotFramework.History
import RobotFramework.Statistics

/-!
# Rates of timestamps

`TimestampRateAnalyzer` gets the messages of several topics in the order of the bag and keeps, topic by
topic, the statistics of the rates between consecutive timestamps. Numbers are exact. A dictionary is a
partial function of the topic name, as its order is not used, and the files are written without errors.
-/

namespace LogAnalysis

open History Statistics

/-! ## The analyzer -/

/-- The values of `topic_stats`. -/
structure TopicStats where
  type : Option String
  lastTimestamp : Option Rat
  intervalCount : Nat
  meanRate : Rat
  rateM2 : Rat
  deriving DecidableEq, Repr

namespace TopicStats

/-- The value `setdefault` inserts. -/
def new (type : Option String) : TopicStats where
  type := type
  lastTimestamp := none
  intervalCount := 0
  meanRate := 0
  rateM2 := 0

/-- Only a positive interval has a rate. -/
def addInterval (stats : TopicStats) (interval : Rat) : TopicStats :=
  if interval > 0 then
    let rate := 1 / interval
    let count := stats.intervalCount + 1
    let delta := rate - stats.meanRate
    let meanRate := stats.meanRate + delta / count
    { stats with
      intervalCount := count
      meanRate := meanRate
      rateM2 := stats.rateM2 + delta * (rate - meanRate) }
  else stats

/-- The interval since the last timestamp, if there is one, is counted in. -/
def addTimestamp (stats : TopicStats) (timestamp : Rat) : TopicStats :=
  let counted := match stats.lastTimestamp with
    | none => stats
    | some previousTimestamp => stats.addInterval (timestamp - previousTimestamp)
  { counted with lastTimestamp := some timestamp }

end TopicStats

/-- The dictionaries of a `TimestampRateAnalyzer`; of the CSV files the rows. -/
structure RateAnalyzer where
  messageIndices : String → Option Nat
  csvRows : String → Option (List (Nat × Rat))
  topicStats : String → Option TopicStats
  deltaTimestamps : String → Option (List Rat)
  timestampDeltas : String → Option (List Rat)

/-- `dict.setdefault`. -/
def setDefault {α : Type} (dict : String → Option α) (k : String) (a : α) : String → Option α :=
  Function.update dict k (some ((dict k).getD a))

/-- `dict.setdefault(key, []).append(value)`. -/
def appendTo {α : Type} (dict : String → Option (List α)) (k : String) (a : α) :
    String → Option (List α) :=
  Function.update dict k (some ((dict k).getD [] ++ [a]))

namespace RateAnalyzer

def new : RateAnalyzer where
  messageIndices _ := none
  csvRows _ := none
  topicStats _ := none
  deltaTimestamps _ := none
  timestampDeltas _ := none

def configureTopic (a : RateAnalyzer) (topicName messageType : String) : RateAnalyzer :=
  { a with
    deltaTimestamps := setDefault a.deltaTimestamps topicName []
    timestampDeltas := setDefault a.timestampDeltas topicName []
    topicStats := setDefault a.topicStats topicName (.new (some messageType)) }

def process {Message : Type} (timestampSeconds : Message → Option Rat) (a : RateAnalyzer)
    (topicName : String) (message : Message) : RateAnalyzer :=
  let messageIndex := (a.messageIndices topicName).getD 0 + 1
  let a := { a with messageIndices := Function.update a.messageIndices topicName (some messageIndex) }
  match timestampSeconds message with
  | none => a
  | some timestamp =>
    let stats := (a.topicStats topicName).getD (.new none)
    let a := { a with
      csvRows := appendTo a.csvRows topicName (messageIndex, timestamp)
      topicStats := Function.update a.topicStats topicName (some (stats.addTimestamp timestamp)) }
    match stats.lastTimestamp with
    | none => a
    | some previousTimestamp => { a with
      deltaTimestamps := appendTo a.deltaTimestamps topicName timestamp
      timestampDeltas := appendTo a.timestampDeltas topicName (timestamp - previousTimestamp) }

end RateAnalyzer

/-- A call of the analyzer. -/
inductive RateEvent (Message : Type) where
  | configureTopic (topicName messageType : String)
  | process (topicName : String) (message : Message)

section Events

-- `_timestamp_seconds`.
variable {Message : Type} (timestampSeconds : Message → Option Rat)

def RateAnalyzer.step (a : RateAnalyzer) : RateEvent Message → RateAnalyzer
  | .configureTopic topicName messageType => a.configureTopic topicName messageType
  | .process topicName message => a.process timestampSeconds topicName message

def analyzed (events : List (RateEvent Message)) : RateAnalyzer :=
  run (RateAnalyzer.step timestampSeconds) .new events

/-- The timestamp a call adds to a topic. -/
def RateEvent.timestamp? (topicName : String) : RateEvent Message → Option Rat
  | .configureTopic _ _ => none
  | .process name message => if name = topicName then timestampSeconds message else none

def timestamps (topicName : String) (events : List (RateEvent Message)) : List Rat :=
  events.filterMap (RateEvent.timestamp? timestampSeconds topicName)

/-- The call configures the topic or brings a message of it with a timestamp. -/
def RateEvent.concerns (topicName : String) : RateEvent Message → Bool
  | .configureTopic name _ => name = topicName
  | .process name message => name = topicName ∧ (timestampSeconds message).isSome

/-- The rates of the positive intervals between timestamps. -/
def rates (timestamps : List Rat) : List Rat :=
  ((differences timestamps).filter (0 < ·)).map (1 / ·)

/-! ## One topic -/

/-- What the analyzer has about a topic. -/
structure TopicEntry where
  stats : Option TopicStats
  deltaTimestamps : Option (List Rat)
  timestampDeltas : Option (List Rat)

def RateAnalyzer.entry (a : RateAnalyzer) (topicName : String) : TopicEntry where
  stats := a.topicStats topicName
  deltaTimestamps := a.deltaTimestamps topicName
  timestampDeltas := a.timestampDeltas topicName

namespace TopicEntry

def configure (entry : TopicEntry) (messageType : String) : TopicEntry where
  stats := some (entry.stats.getD (.new (some messageType)))
  deltaTimestamps := some (entry.deltaTimestamps.getD [])
  timestampDeltas := some (entry.timestampDeltas.getD [])

/-- The statistics, or those `process` starts with. -/
def currentStats (entry : TopicEntry) : TopicStats := entry.stats.getD (.new none)

def addTimestamp (entry : TopicEntry) (timestamp : Rat) : TopicEntry :=
  let added := { entry with stats := some (entry.currentStats.addTimestamp timestamp) }
  match entry.currentStats.lastTimestamp with
  | none => added
  | some previousTimestamp => { added with
    deltaTimestamps := some (entry.deltaTimestamps.getD [] ++ [timestamp])
    timestampDeltas := some (entry.timestampDeltas.getD [] ++ [timestamp - previousTimestamp]) }

def step (topicName : String) (entry : TopicEntry) : RateEvent Message → TopicEntry
  | .configureTopic name messageType => if name = topicName then entry.configure messageType else entry
  | .process name message =>
    if name = topicName then
      match timestampSeconds message with
      | none => entry
      | some timestamp => entry.addTimestamp timestamp
    else entry

end TopicEntry

theorem entry_configureTopic (a : RateAnalyzer) (topicName name messageType : String) :
    (a.configureTopic name messageType).entry topicName =
      if name = topicName then (a.entry topicName).configure messageType else a.entry topicName := by
  unfold RateAnalyzer.configureTopic RateAnalyzer.entry setDefault
  by_cases hname : name = topicName
  · subst hname
    simp [TopicEntry.configure]
  · simp [hname, Function.update_of_ne (Ne.symm hname)]

theorem entry_process (a : RateAnalyzer) (topicName name : String) (message : Message) :
    (a.process timestampSeconds name message).entry topicName =
      if name = topicName then
        match timestampSeconds message with
        | none => a.entry topicName
        | some timestamp => (a.entry topicName).addTimestamp timestamp
      else a.entry topicName := by
  unfold RateAnalyzer.process
  cases htimestamp : timestampSeconds message with
  | none => simp [RateAnalyzer.entry]
  | some timestamp =>
    unfold RateAnalyzer.entry TopicEntry.addTimestamp TopicEntry.currentStats appendTo
    cases hprevious : ((a.topicStats name).getD (.new none)).lastTimestamp with
    | none =>
      by_cases hname : name = topicName
      · subst hname
        simp [hprevious]
      · simp [hprevious, hname, Function.update_of_ne (Ne.symm hname)]
    | some previousTimestamp =>
      by_cases hname : name = topicName
      · subst hname
        simp [hprevious]
      · simp [hprevious, hname, Function.update_of_ne (Ne.symm hname)]

/-- The analyzer does with each topic what it would do with that topic alone. -/
theorem entry_step (a : RateAnalyzer) (topicName : String) (e : RateEvent Message) :
    (a.step timestampSeconds e).entry topicName =
      (a.entry topicName).step timestampSeconds topicName e := by
  cases e with
  | configureTopic name messageType => exact entry_configureTopic a topicName name messageType
  | process name message => exact entry_process timestampSeconds a topicName name message

theorem entry_analyzed (topicName : String) (events : List (RateEvent Message)) :
    (analyzed timestampSeconds events).entry topicName =
      run (TopicEntry.step timestampSeconds topicName) ⟨none, none, none⟩ events := by
  unfold analyzed
  exact run_map (fun a : RateAnalyzer => a.entry topicName)
    (fun a e => entry_step timestampSeconds a topicName e) _ events

theorem step_of_not_concerns {topicName : String} {e : RateEvent Message}
    (h : e.concerns timestampSeconds topicName = false) (entry : TopicEntry) :
    entry.step timestampSeconds topicName e = entry := by
  unfold TopicEntry.step
  cases e with
  | configureTopic name messageType => exact if_neg (by simpa [RateEvent.concerns] using h)
  | process name message =>
    dsimp only
    split_ifs with hname
    · have hnone : timestampSeconds message = none := by simpa [RateEvent.concerns, hname] using h
      rw [hnone]
    · rfl

theorem entry_filter_concerns (topicName : String) (events : List (RateEvent Message)) :
    (analyzed timestampSeconds (events.filter (RateEvent.concerns timestampSeconds topicName))).entry
        topicName = (analyzed timestampSeconds events).entry topicName := by
  rw [entry_analyzed, entry_analyzed]
  exact run_filter (fun entry e he => step_of_not_concerns timestampSeconds he entry) _ events

/-! ## The statistics -/

def TopicStats.moments (stats : TopicStats) : Moments Rat where
  count := stats.intervalCount
  mean := stats.meanRate
  m2 := stats.rateM2

theorem moments_addInterval (stats : TopicStats) (interval : Rat) :
    (stats.addInterval interval).moments =
      if 0 < interval then stats.moments.push (1 / interval) else stats.moments := by
  unfold TopicStats.addInterval
  split_ifs
  · simp [TopicStats.moments, Moments.push]
  · rfl

theorem moments_addTimestamp (stats : TopicStats) (timestamp : Rat) :
    (stats.addTimestamp timestamp).moments =
      match stats.lastTimestamp with
      | none => stats.moments
      | some previousTimestamp => (stats.addInterval (timestamp - previousTimestamp)).moments := by
  unfold TopicStats.addTimestamp
  cases stats.lastTimestamp <;> rfl

/-- A new timestamp adds the rate since the last one, if that is positive. -/
theorem rates_concat (ts : List Rat) (timestamp : Rat) :
    rates (ts ++ [timestamp]) =
      match ts.getLast? with
      | none => rates ts
      | some previousTimestamp =>
        if 0 < timestamp - previousTimestamp then rates ts ++ [1 / (timestamp - previousTimestamp)]
        else rates ts := by
  unfold rates
  rw [differences_concat, List.filter_append, List.map_append]
  cases ts.getLast? with
  | none => simp
  | some previousTimestamp =>
    dsimp only [Option.map_some, Option.toList_some]
    split_ifs with hpositive
    · rw [List.filter_cons_of_pos (by simpa using hpositive)]
      rfl
    · rw [List.filter_cons_of_neg (by simpa using hpositive)]
      exact List.append_nil _

/-- What the timestamps of a topic say about its entry. -/
structure TopicEntry.Inv (entry : TopicEntry) (ts : List Rat) : Prop where
  lastTimestamp : entry.currentStats.lastTimestamp = ts.getLast?
  moments : entry.currentStats.moments = .ofList (rates ts)
  timestampDeltas : entry.timestampDeltas.getD [] = differences ts

theorem inv_configure {entry : TopicEntry} {ts : List Rat} (h : entry.Inv ts) (messageType : String) :
    (entry.configure messageType).Inv ts := by
  obtain ⟨hlast, hmoments, hdeltas⟩ := h
  refine ⟨?_, ?_, hdeltas⟩
  · rw [← hlast]
    cases hstats : entry.stats <;>
      simp [TopicEntry.currentStats, TopicEntry.configure, hstats, TopicStats.new]
  · rw [← hmoments]
    cases hstats : entry.stats <;>
      simp [TopicEntry.currentStats, TopicEntry.configure, hstats, TopicStats.new, TopicStats.moments]

theorem inv_addTimestamp {entry : TopicEntry} {ts : List Rat} (h : entry.Inv ts) (timestamp : Rat) :
    (entry.addTimestamp timestamp).Inv (ts ++ [timestamp]) := by
  obtain ⟨hlast, hmoments, hdeltas⟩ := h
  have hstats : (entry.addTimestamp timestamp).currentStats =
      entry.currentStats.addTimestamp timestamp := by
    unfold TopicEntry.addTimestamp
    cases entry.currentStats.lastTimestamp <;> rfl
  refine ⟨?_, ?_, ?_⟩
  · rw [hstats, List.getLast?_concat]
    rfl
  · rw [hstats, moments_addTimestamp, rates_concat, hlast]
    cases ts.getLast? with
    | none => exact hmoments
    | some previousTimestamp =>
      dsimp only
      rw [moments_addInterval, hmoments]
      split_ifs
      · exact Moments.push_ofList _ _
      · rfl
  · unfold TopicEntry.addTimestamp
    rw [hlast, differences_concat, ← hdeltas]
    cases ts.getLast? with
    | none => exact (List.append_nil _).symm
    | some previousTimestamp => rfl

theorem inv_step {topicName : String} {entry : TopicEntry} {ts : List Rat} (h : entry.Inv ts)
    (e : RateEvent Message) :
    (entry.step timestampSeconds topicName e).Inv
      (ts ++ (e.timestamp? timestampSeconds topicName).toList) := by
  unfold TopicEntry.step RateEvent.timestamp?
  cases e with
  | configureTopic name messageType =>
    dsimp only
    rw [Option.toList_none, List.append_nil]
    split_ifs
    · exact inv_configure h messageType
    · exact h
  | process name message =>
    dsimp only
    split_ifs
    · cases timestampSeconds message with
      | none => simpa using h
      | some timestamp => exact inv_addTimestamp h timestamp
    · simpa using h

theorem inv_analyzed (topicName : String) (events : List (RateEvent Message)) :
    ((analyzed timestampSeconds events).entry topicName).Inv
      (timestamps timestampSeconds topicName events) := by
  rw [entry_analyzed]
  refine run_invariant (I := fun past (entry : TopicEntry) =>
    entry.Inv (timestamps timestampSeconds topicName past)) ?_ ?_ events
  · exact ⟨rfl, (Moments.ofList_nil).symm, rfl⟩
  · intro past entry e h
    have hconcat : timestamps timestampSeconds topicName (past ++ [e]) =
        timestamps timestampSeconds topicName past ++
          (e.timestamp? timestampSeconds topicName).toList := by
      unfold timestamps
      rw [List.filterMap_append]
      cases htimestamp : e.timestamp? timestampSeconds topicName <;> simp [htimestamp]
    rw [hconcat]
    exact inv_step timestampSeconds h e

/-- The statistics are those of the given rates. -/
structure TopicStats.Exact (stats : TopicStats) (rates : List Rat) : Prop where
  intervalCount : stats.intervalCount = rates.length
  meanRate : stats.meanRate = mean rates
  rateM2 : stats.rateM2 = squaredDeviations rates (mean rates)
  nonneg : 0 ≤ stats.rateM2
  variance : stats.rateM2 / stats.intervalCount = variance rates

theorem exact_of_moments {stats : TopicStats} {rates : List Rat}
    (h : stats.moments = .ofList rates) : stats.Exact rates := by
  have hcount : stats.intervalCount = rates.length := congrArg Moments.count h
  have hm2 : stats.rateM2 = squaredDeviations rates (mean rates) := congrArg Moments.m2 h
  refine ⟨hcount, congrArg Moments.mean h, hm2, ?_, ?_⟩
  · rw [hm2]
    exact squaredDeviations_nonneg rates _
  · rw [hm2, hcount]
    rfl

theorem isSome_addTimestamp (entry : TopicEntry) (timestamp : Rat) :
    (entry.addTimestamp timestamp).stats.isSome = true := by
  unfold TopicEntry.addTimestamp
  cases entry.currentStats.lastTimestamp <;> rfl

theorem isSome_step (topicName : String) (entry : TopicEntry) (e : RateEvent Message) :
    (entry.step timestampSeconds topicName e).stats.isSome = true ↔
      entry.stats.isSome = true ∨ e.concerns timestampSeconds topicName = true := by
  cases hconcerns : e.concerns timestampSeconds topicName with
  | false => simp [step_of_not_concerns timestampSeconds hconcerns]
  | true =>
    refine iff_of_true ?_ (Or.inr rfl)
    cases e with
    | configureTopic name messageType =>
      have hname : name = topicName := by simpa [RateEvent.concerns] using hconcerns
      simp [TopicEntry.step, hname, TopicEntry.configure]
    | process name message =>
      have hboth : name = topicName ∧ (timestampSeconds message).isSome = true := by
        simpa [RateEvent.concerns] using hconcerns
      obtain ⟨timestamp, htimestamp⟩ := Option.isSome_iff_exists.mp hboth.2
      simp [TopicEntry.step, hboth.1, htimestamp, isSome_addTimestamp]

theorem isSome_topicStats (topicName : String) (events : List (RateEvent Message)) :
    ((analyzed timestampSeconds events).topicStats topicName).isSome = true ↔
      ∃ e ∈ events, e.concerns timestampSeconds topicName = true := by
  show ((analyzed timestampSeconds events).entry topicName).stats.isSome = true ↔ _
  rw [entry_analyzed]
  refine run_invariant (I := fun past (entry : TopicEntry) => entry.stats.isSome = true ↔
    ∃ e ∈ past, e.concerns timestampSeconds topicName = true) ?_ ?_ events
  · simp
  · intro past entry e h
    rw [isSome_step, h]
    simp [or_and_right, exists_or]

/-- **Rate statistics.** After all calls the statistics of a topic are those of the rates of its positive
intervals, the deltas are all its intervals, and no other call has had an influence on them. -/
theorem rate_statistics (topicName : String) (events : List (RateEvent Message)) :
    let a := analyzed timestampSeconds events
    let ts := timestamps timestampSeconds topicName events
    ((a.topicStats topicName).isSome = true ↔
        ∃ e ∈ events, e.concerns timestampSeconds topicName = true) ∧
      (∀ stats, a.topicStats topicName = some stats → stats.Exact (rates ts)) ∧
      (a.timestampDeltas topicName).getD [] = differences ts ∧
      (∀ hne : ts ≠ [],
        ((a.timestampDeltas topicName).getD []).sum = ts.getLast hne - ts.head hne) ∧
      (analyzed timestampSeconds (events.filter (RateEvent.concerns timestampSeconds topicName))).entry
        topicName = a.entry topicName := by
  intro a ts
  have hinv := inv_analyzed timestampSeconds topicName events
  refine ⟨isSome_topicStats timestampSeconds topicName events, ?_, hinv.timestampDeltas, ?_,
    entry_filter_concerns timestampSeconds topicName events⟩
  · intro stats hstats
    have hcurrent : (a.entry topicName).currentStats = stats := by
      show (a.topicStats topicName).getD _ = stats
      rw [hstats]
      rfl
    exact exact_of_moments (hcurrent ▸ hinv.moments)
  · intro hne
    rw [show (a.timestampDeltas topicName).getD [] = _ from hinv.timestampDeltas]
    exact sum_differences ts hne

end Events

end LogAnalysis
