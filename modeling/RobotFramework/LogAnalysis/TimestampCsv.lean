import Mathlib.Data.List.DropRight
import Mathlib.Data.UInt
import RobotFramework.LogAnalysis.RateStatistics
import RobotFramework.PrefixCode

/-!
# The CSV files of timestamps

`TimestampRateAnalyzer` writes the timestamps of each topic into a file of its own, whose name is the topic
name in percent encoding. Different topics have different files unless they differ in slashes at the ends
only, or one of them is nothing but slashes (`csvName_eq_iff`); so each file holds the timestamps of its topic
(`csv_files`). Of a file only the rows are modelled, not the format of the numbers.
-/

namespace LogAnalysis

open History PrefixCode

/-! ## Percent encoding -/

/-- `_ALWAYS_SAFE` of `urllib.parse`. -/
def alwaysSafe (b : Nat) : Bool :=
  (48 ≤ b ∧ b ≤ 57) ∨ (65 ≤ b ∧ b ≤ 90) ∨ (97 ≤ b ∧ b ≤ 122) ∨ b = 95 ∨ b = 46 ∨ b = 45 ∨ b = 126

def hexDigit (n : Nat) : Char := if n < 10 then Char.ofNat (48 + n) else Char.ofNat (55 + n)

def hexValue (c : Char) : Nat := if c.toNat < 65 then c.toNat - 48 else c.toNat - 55

/-- What `quote(_, safe="")` makes of a byte. -/
def quoteByte (b : UInt8) : List Char :=
  if alwaysSafe b.toNat then [Char.ofNat b.toNat]
  else ['%', hexDigit (b.toNat / 16), hexDigit (b.toNat % 16)]

def unquoteByte : List Char → Option (UInt8 × List Char)
  | '%' :: high :: low :: rest => some (UInt8.ofNat (16 * hexValue high + hexValue low), rest)
  | c :: rest => some (UInt8.ofNat c.toNat, rest)
  | [] => none

theorem hexValue_hexDigit {n : Nat} (h : n < 16) : hexValue (hexDigit n) = n := by
  revert n
  decide

theorem alwaysSafe_char {b : Nat} (hb : b < 256) (h : alwaysSafe b = true) :
    (Char.ofNat b).toNat = b ∧ Char.ofNat b ≠ '%' := by
  revert b
  decide +kernel

theorem unquoteByte_quoteByte (b : UInt8) (rest : List Char) :
    unquoteByte (quoteByte b ++ rest) = some (b, rest) := by
  have hb : b.toNat < 256 := b.toNat_lt
  unfold quoteByte
  split_ifs with hsafe
  · obtain ⟨hvalue, hne⟩ := alwaysSafe_char hb hsafe
    rw [List.singleton_append]
    unfold unquoteByte
    split
    · rename_i heq
      exact absurd (List.cons.inj heq).1 hne
    · rename_i heq
      obtain ⟨hc, hrest⟩ := List.cons.inj heq
      rw [← hc, ← hrest, hvalue, UInt8.ofNat_toNat]
    · rename_i heq
      cases heq
  · have hhigh := hexValue_hexDigit (n := b.toNat / 16) (by omega)
    have hlow := hexValue_hexDigit (n := b.toNat % 16) (by omega)
    show some (UInt8.ofNat (16 * hexValue (hexDigit (b.toNat / 16)) + hexValue (hexDigit (b.toNat % 16))), rest) =
      some (b, rest)
    rw [hhigh, hlow, Nat.div_add_mod, UInt8.ofNat_toNat]

def percentCode : Code UInt8 Char where
  encode := quoteByte
  decode := unquoteByte
  decode_nil := rfl
  decode_encode := unquoteByte_quoteByte

/-- The bytes of a text in UTF-8. -/
def utf8 (text : List Char) : List UInt8 := (String.ofList text).toByteArray.data.toList

theorem utf8_injective : Function.Injective utf8 := by
  intro s t h
  have hbytes : (String.ofList s).toByteArray = (String.ofList t).toByteArray :=
    ByteArray.ext (Array.toList_inj.mp h)
  exact String.ofList_injective (String.toByteArray_inj.mp hbytes)

/-- `quote(text, safe="")`. -/
def quote (text : List Char) : List Char := percentCode.encodeAll (utf8 text)

theorem quote_injective : Function.Injective quote :=
  percentCode.encodeAll_injective.comp utf8_injective

/-! ## The code -/

/-- `topic_name.strip("/")`. -/
def stripSlash (name : List Char) : List Char := (name.dropWhile (· = '/')).rdropWhile (· = '/')

/-- The name of the file of a topic, without its directory. -/
def csvName (topicName : String) : List Char :=
  let quoted := quote (stripSlash topicName.toList)
  (if quoted = [] then "root_topic".toList else quoted) ++ ".csv".toList

/-- A row of a file. -/
inductive CsvRow where
  | header
  | timestamp (messageIndex : Nat) (timestampSeconds : Rat)
  deriving DecidableEq, Repr

/-- The analyzer with the files in its directory. A file is emptied when it is opened, at the first timestamp
of a topic, and each writer writes on at the end of its file. -/
structure CsvAnalyzer where
  analyzer : RateAnalyzer
  files : List Char → Option (List CsvRow)

def CsvAnalyzer.new : CsvAnalyzer where
  analyzer := .new
  files _ := none

section Events

variable {Message : Type} (timestampSeconds : Message → Option Rat)

/-- What `process` writes. -/
def CsvAnalyzer.writeRow (a : CsvAnalyzer) (topicName : String) (message : Message) :
    List Char → Option (List CsvRow) :=
  match timestampSeconds message with
  | none => a.files
  | some timestamp =>
    let opened := if (a.analyzer.csvRows topicName).isNone then [.header]
      else (a.files (csvName topicName)).getD []
    let messageIndex := (a.analyzer.messageIndices topicName).getD 0 + 1
    Function.update a.files (csvName topicName) (some (opened ++ [.timestamp messageIndex timestamp]))

def CsvAnalyzer.step (a : CsvAnalyzer) (e : RateEvent Message) : CsvAnalyzer where
  analyzer := a.analyzer.step timestampSeconds e
  files := match e with
    | .configureTopic _ _ => a.files
    | .process topicName message => a.writeRow timestampSeconds topicName message

end Events

/-! ## The names of the files -/

theorem quote_eq_nil {text : List Char} : quote text = [] ↔ text = [] :=
  quote_injective.eq_iff' rfl

theorem quote_eq_root_topic {text : List Char} :
    quote text = "root_topic".toList ↔ text = "root_topic".toList :=
  quote_injective.eq_iff' (by decide +kernel)

theorem quoted_eq_iff {root : List Char} (hquote : ∀ {text}, quote text = root ↔ text = root)
    (x y : List Char) :
    (if quote x = [] then root else quote x) = (if quote y = [] then root else quote y) ↔
      x = y ∨ (x = [] ∧ y = root) ∨ (x = root ∧ y = []) := by
  by_cases hx : x = []
  · by_cases hy : y = []
    · simp [hx, hy]
    · rw [if_pos (quote_eq_nil.mpr hx), if_neg (mt quote_eq_nil.mp hy), eq_comm, hquote, hx]
      simp [hy, Ne.symm hy]
  · rw [if_neg (mt quote_eq_nil.mp hx)]
    by_cases hy : y = []
    · rw [if_pos (quote_eq_nil.mpr hy), hquote, hy]
      simp [hx]
    · rw [if_neg (mt quote_eq_nil.mp hy), quote_injective.eq_iff]
      simp [hx, hy]

/-- **Distinct files.** Two topics share a file only if they differ in slashes at the ends, or if one of them
is nothing but slashes and the other one is `root_topic`. -/
theorem csvName_eq_iff (t u : String) :
    csvName t = csvName u ↔
      stripSlash t.toList = stripSlash u.toList ∨
        (stripSlash t.toList = [] ∧ stripSlash u.toList = "root_topic".toList) ∨
        (stripSlash t.toList = "root_topic".toList ∧ stripSlash u.toList = []) := by
  unfold csvName
  dsimp only
  rw [List.append_cancel_right_eq]
  exact quoted_eq_iff quote_eq_root_topic _ _

def FullyQualified (topicName : String) : Prop :=
  ∃ rest, topicName.toList = '/' :: rest ∧ rest ≠ [] ∧ rest.head? ≠ some '/' ∧ rest.getLast? ≠ some '/'

theorem stripSlash_cons {rest : List Char} (hhead : rest.head? ≠ some '/')
    (hlast : rest.getLast? ≠ some '/') : stripSlash ('/' :: rest) = rest := by
  have hdrop : ('/' :: rest).dropWhile (· = '/') = rest := by
    rw [List.dropWhile_cons_of_pos (by simp)]
    cases rest with
    | nil => rfl
    | cons c rest => exact List.dropWhile_cons_of_neg (by simpa using hhead)
  unfold stripSlash
  rw [hdrop, List.rdropWhile_eq_self_iff]
  intro hne
  rw [List.getLast?_eq_some_getLast hne] at hlast
  simpa using hlast

theorem csvName_injective {t u : String} (ht : FullyQualified t) (hu : FullyQualified u)
    (h : csvName t = csvName u) : t = u := by
  obtain ⟨rest, htext, hne, hhead, hlast⟩ := ht
  obtain ⟨rest', htext', hne', hhead', hlast'⟩ := hu
  rw [csvName_eq_iff, htext, htext', stripSlash_cons hhead hlast, stripSlash_cons hhead' hlast'] at h
  rcases h with rfl | ⟨hnil, -⟩ | ⟨-, hnil⟩
  · exact String.toList_inj.mp (htext.trans htext'.symm)
  · exact absurd hnil hne
  · exact absurd hnil hne'

/-! ## The rows -/

section Rows

variable {Message : Type} (timestampSeconds : Message → Option Rat)

/-- The message of a topic that a call brings. -/
def RateEvent.message? (topicName : String) : RateEvent Message → Option Message
  | .configureTopic _ _ => none
  | .process name message => if name = topicName then some message else none

def topicMessages (topicName : String) (events : List (RateEvent Message)) : List Message :=
  events.filterMap (RateEvent.message? topicName)

/-- The timestamps of some messages, each with the index of its message, counted from 1. -/
def indexed (messages : List Message) : List (Nat × Rat) :=
  (messages.zipIdx 1).filterMap fun m => (timestampSeconds m.1).map fun t => (m.2, t)

/-- The timestamps of a topic, each with the index of its message. -/
def topicRows (topicName : String) (events : List (RateEvent Message)) : List (Nat × Rat) :=
  indexed timestampSeconds (topicMessages topicName events)

theorem topicMessages_concat (topicName : String) (past : List (RateEvent Message)) (e : RateEvent Message) :
    topicMessages topicName (past ++ [e]) =
      topicMessages topicName past ++ (e.message? topicName).toList := by
  unfold topicMessages
  rw [List.filterMap_append]
  cases hm : e.message? topicName <;> simp [hm]

theorem indexed_concat (messages : List Message) (m : Message) :
    indexed timestampSeconds (messages ++ [m]) =
      indexed timestampSeconds messages ++
        ((timestampSeconds m).map fun t => (messages.length + 1, t)).toList := by
  unfold indexed
  rw [List.zipIdx_append, List.filterMap_append]
  congr 1
  cases hm : timestampSeconds m <;> simp [hm, Nat.add_comm]

/-- What the analyzer and the files hold of a topic. -/
structure Written (topicName : String) (past : List (RateEvent Message)) (a : CsvAnalyzer) : Prop where
  index : (a.analyzer.messageIndices topicName).getD 0 = (topicMessages topicName past).length
  opened : (a.analyzer.csvRows topicName).isNone ↔ topicRows timestampSeconds topicName past = []
  rows : topicRows timestampSeconds topicName past ≠ [] → a.files (csvName topicName) =
    some (.header :: (topicRows timestampSeconds topicName past).map fun r => .timestamp r.1 r.2)

theorem messageIndices_process (a : RateAnalyzer) (name : String) (message : Message) :
    (a.process timestampSeconds name message).messageIndices =
      Function.update a.messageIndices name (some ((a.messageIndices name).getD 0 + 1)) := by
  unfold RateAnalyzer.process
  cases timestampSeconds message with
  | none => rfl
  | some timestamp =>
    dsimp only
    cases ((a.topicStats name).getD (.new none)).lastTimestamp <;> rfl

theorem csvRows_process (a : RateAnalyzer) (name : String) (message : Message) :
    (a.process timestampSeconds name message).csvRows =
      match timestampSeconds message with
      | none => a.csvRows
      | some timestamp => appendTo a.csvRows name ((a.messageIndices name).getD 0 + 1, timestamp) := by
  unfold RateAnalyzer.process
  cases timestampSeconds message with
  | none => rfl
  | some timestamp =>
    dsimp only
    cases ((a.topicStats name).getD (.new none)).lastTimestamp <;> rfl

variable {timestampSeconds} {topicName : String} {past : List (RateEvent Message)} {a : CsvAnalyzer}

theorem Written.process_of_ne (h : Written timestampSeconds topicName past a) {name : String}
    (hname : name ≠ topicName) (hfile : csvName name ≠ csvName topicName) (message : Message) :
    Written timestampSeconds topicName (past ++ [.process name message])
      (a.step timestampSeconds (.process name message)) := by
  obtain ⟨hindex, hopened, hrows⟩ := h
  have hnone : RateEvent.message? topicName (.process name message) = none := if_neg hname
  have hsame : topicMessages topicName (past ++ [.process name message]) = topicMessages topicName past := by
    rw [topicMessages_concat, hnone]
    exact List.append_nil _
  have hstep : (a.step timestampSeconds (.process name message)).analyzer =
      a.analyzer.process timestampSeconds name message := rfl
  constructor
  · rw [hstep, messageIndices_process, Function.update_of_ne (Ne.symm hname), hindex, hsame]
  · unfold topicRows
    rw [hsame, hstep, csvRows_process, ← topicRows, ← hopened]
    cases timestampSeconds message with
    | none => rfl
    | some timestamp =>
      dsimp only [appendTo]
      rw [Function.update_of_ne (Ne.symm hname)]
  · unfold topicRows
    rw [hsame]
    intro hne
    show a.writeRow timestampSeconds name message (csvName topicName) = _
    unfold CsvAnalyzer.writeRow
    cases timestampSeconds message with
    | none => exact hrows hne
    | some timestamp =>
      dsimp only
      rw [Function.update_of_ne (Ne.symm hfile)]
      exact hrows hne

theorem Written.process_self (h : Written timestampSeconds topicName past a) (message : Message) :
    Written timestampSeconds topicName (past ++ [.process topicName message])
      (a.step timestampSeconds (.process topicName message)) := by
  obtain ⟨hindex, hopened, hrows⟩ := h
  have hsome : RateEvent.message? topicName (.process topicName message) = some message := if_pos rfl
  have hmessages : topicMessages topicName (past ++ [.process topicName message]) =
      topicMessages topicName past ++ [message] := by
    rw [topicMessages_concat, hsome]
    rfl
  have hstep : (a.step timestampSeconds (.process topicName message)).analyzer =
      a.analyzer.process timestampSeconds topicName message := rfl
  have hall : topicRows timestampSeconds topicName (past ++ [.process topicName message]) =
      topicRows timestampSeconds topicName past ++
        ((timestampSeconds message).map fun t => ((topicMessages topicName past).length + 1, t)).toList := by
    unfold topicRows
    rw [hmessages, indexed_concat]
  constructor
  · rw [hstep, messageIndices_process, Function.update_self, hmessages, List.length_append, hindex]
    rfl
  · rw [hall, hstep, csvRows_process]
    cases timestampSeconds message with
    | none => simpa using hopened
    | some timestamp => simp [appendTo]
  · rw [hall]
    intro hne
    show a.writeRow timestampSeconds topicName message (csvName topicName) = _
    unfold CsvAnalyzer.writeRow
    cases htime : timestampSeconds message with
    | none =>
      rw [htime] at hne
      simpa using hrows (by simpa using hne)
    | some timestamp =>
      dsimp only
      rw [Function.update_self, hindex]
      by_cases hfirst : topicRows timestampSeconds topicName past = []
      · rw [if_pos (hopened.mpr hfirst), hfirst]
        rfl
      · rw [if_neg (mt hopened.mp hfirst), hrows hfirst]
        simp

theorem Written.configureTopic (h : Written timestampSeconds topicName past a) (name type : String) :
    Written timestampSeconds topicName (past ++ [.configureTopic name type])
      (a.step timestampSeconds (.configureTopic name type)) := by
  have hsame : topicMessages topicName (past ++ [.configureTopic name type]) =
      topicMessages topicName past := by
    rw [topicMessages_concat]
    exact List.append_nil _
  constructor
  · rw [hsame]
    exact h.index
  · unfold topicRows
    rw [hsame]
    exact h.opened
  · unfold topicRows
    rw [hsame]
    exact h.rows

/-- All topics that bring messages are fully qualified. -/
def QualifiedTopics (events : List (RateEvent Message)) : Prop :=
  ∀ name message, .process name message ∈ events → FullyQualified name

variable (timestampSeconds)

/-- The analyzer with its files after some calls. -/
def csvRun (events : List (RateEvent Message)) : CsvAnalyzer :=
  run (CsvAnalyzer.step timestampSeconds) .new events

theorem written_run (events : List (RateEvent Message)) (hqualified : QualifiedTopics events)
    {topicName : String} (ht : FullyQualified topicName) :
    Written timestampSeconds topicName events (csvRun timestampSeconds events) := by
  refine run_invariant (I := fun past a => QualifiedTopics past →
    Written timestampSeconds topicName past a) ?_ ?_ events hqualified
  · exact fun _ => ⟨rfl, iff_of_true rfl rfl, fun hne => absurd rfl hne⟩
  intro past a e h hpast
  have hbefore := h fun name message hm => hpast name message (List.mem_append_left _ hm)
  cases e with
  | configureTopic name type => exact hbefore.configureTopic name type
  | process name message =>
    by_cases hname : name = topicName
    · subst hname
      exact hbefore.process_self message
    · have hq := hpast name message (List.mem_append_right _ (List.mem_singleton_self _))
      exact hbefore.process_of_ne hname (fun hfile => hname (csvName_injective hq ht hfile)) message

theorem files_run_of_ne (events : List (RateEvent Message)) (f : List Char)
    (h : ∀ name message, .process name message ∈ events → (timestampSeconds message).isSome = true →
      csvName name ≠ f) : (csvRun timestampSeconds events).files f = none := by
  refine run_invariant (I := fun past (a : CsvAnalyzer) =>
    (∀ name message, .process name message ∈ past → (timestampSeconds message).isSome = true →
      csvName name ≠ f) → a.files f = none) ?_ ?_ events h
  · exact fun _ => rfl
  intro past a e ih hpast
  have hbefore := ih fun name message hm => hpast name message (List.mem_append_left _ hm)
  cases e with
  | configureTopic name type => exact hbefore
  | process name message =>
    show a.writeRow timestampSeconds name message f = none
    unfold CsvAnalyzer.writeRow
    cases htime : timestampSeconds message with
    | none => exact hbefore
    | some timestamp =>
      have hf := hpast name message (List.mem_append_right _ (List.mem_singleton_self _))
        (by rw [htime]; rfl)
      dsimp only
      rw [Function.update_of_ne (Ne.symm hf)]
      exact hbefore

theorem topicRows_ne_nil {timestampSeconds : Message → Option Rat} {events : List (RateEvent Message)}
    {name : String} {message : Message} (hm : .process name message ∈ events)
    (hsome : (timestampSeconds message).isSome = true) : topicRows timestampSeconds name events ≠ [] := by
  have hmessage : message ∈ topicMessages name events :=
    List.mem_filterMap.mpr ⟨_, hm, if_pos rfl⟩
  obtain ⟨i, hi⟩ := List.mem_iff_getElem?.mp hmessage
  obtain ⟨t, ht⟩ := Option.isSome_iff_exists.mp hsome
  apply List.ne_nil_of_mem (a := (1 + i, t))
  exact List.mem_filterMap.mpr ⟨(message, 1 + i), List.mk_add_mem_zipIdx_iff_getElem?.mpr hi, by simp [ht]⟩

/-- **One file for each topic.** However the messages of fully qualified topics are interleaved, the file of
each topic that has a timestamp holds, after its header, all timestamps of that topic in their order, each
with the number of its message among those of the topic, and nothing of another topic; and there are no other
files. -/
theorem csv_files (events : List (RateEvent Message)) (hqualified : QualifiedTopics events) :
    let files := (csvRun timestampSeconds events).files
    (∀ topicName, FullyQualified topicName → topicRows timestampSeconds topicName events ≠ [] →
        files (csvName topicName) = some (.header ::
          (topicRows timestampSeconds topicName events).map fun r => .timestamp r.1 r.2)) ∧
      ∀ f, files f ≠ none → ∃ topicName, FullyQualified topicName ∧
        topicRows timestampSeconds topicName events ≠ [] ∧ csvName topicName = f := by
  refine ⟨fun topicName ht => (written_run timestampSeconds events hqualified ht).rows, fun f hf => ?_⟩
  by_contra hnone
  refine hf (files_run_of_ne timestampSeconds events f fun name message hm hsome hname => hnone ?_)
  have hq := hqualified name message hm
  exact ⟨name, hq, topicRows_ne_nil hm hsome, hname⟩

end Rows

/-- Two cameras, whose messages are their timestamps; one message has none. -/
def twoCameras : List (RateEvent (Option Rat)) :=
  [.configureTopic "/left" "Image", .process "/left" (some 1), .process "/right" (some 2), .process "/left" none,
    .process "/left" (some 3)]

theorem qualified_twoCameras : QualifiedTopics twoCameras := by
  intro name message hm
  have hname : name = "/left" ∨ name = "/right" := by
    simp only [twoCameras, List.mem_cons, List.not_mem_nil, or_false, reduceCtorEq, RateEvent.process.injEq,
      false_or] at hm
    tauto
  rcases hname with rfl | rfl
  · exact ⟨"left".toList, rfl, by decide, by decide, by decide⟩
  · exact ⟨"right".toList, rfl, by decide, by decide, by decide⟩

theorem twoCameras_left :
    (csvRun id twoCameras).files (csvName "/left") =
      some [.header, .timestamp 1 1, .timestamp 3 3] := by
  have hrows : topicRows id "/left" twoCameras = [(1, 1), (3, 3)] := by decide +kernel
  have hfile := (csv_files id twoCameras qualified_twoCameras).1 "/left"
    ⟨"left".toList, rfl, by decide, by decide, by decide⟩
  rw [hrows] at hfile
  exact hfile (List.cons_ne_nil _ _)

end LogAnalysis
