import Mathlib.Data.List.DropRight
import Mathlib.Data.Nat.Digits.Defs
import Mathlib.Tactic.IntervalCases
import RobotFramework.History
import RobotFramework.PrefixCode

/-!
# The texts of rosout

`RosoutTextAnalyzer` gets the log messages of all rosout topics of a bag in their order, writes a line for
each of them into `rosout.txt`, and reports how many there are of each severity, with the warnings and what
is more severe. The report stands in a Markdown file, the texts of the messages in an HTML element of it:
whatever the messages say, the numbers and the texts can be read off the report (`rosout_report_faithful`).
-/

namespace LogAnalysis

open History PrefixCode

namespace Rosout

/-! ## Texts -/

def digitChar (d : Nat) : Char := Char.ofNat (48 + d)

/-- `f"{n}"`. -/
def decimal (n : Nat) : List Char :=
  if n = 0 then ['0'] else (Nat.digits 10 n).reverse.map digitChar

/-- `f"{z}"`. -/
def integer (z : Int) : List Char := if z < 0 then '-' :: decimal z.natAbs else decimal z.natAbs

/-- `f"{n:09d}"`. -/
def padded9 (n : Nat) : List Char := List.replicate (9 - (decimal n).length) '0' ++ decimal n

/-- A comma before each group of three digits, from the last digit on. -/
def groupDigits : List Char → List Char
  | a :: b :: c :: d :: rest => a :: b :: c :: ',' :: groupDigits (d :: rest)
  | digits => digits

/-- `f"{n:,}"`. -/
def grouped (n : Nat) : List Char := (groupDigits (decimal n).reverse).reverse

/-- `str.isspace` of a character. -/
def isSpace (c : Char) : Bool :=
  let n := c.toNat
  (9 ≤ n ∧ n ≤ 13) ∨ (28 ≤ n ∧ n ≤ 32) ∨ n = 0x85 ∨ n = 0xa0 ∨ n = 0x1680 ∨ (0x2000 ≤ n ∧ n ≤ 0x200a) ∨
    n = 0x2028 ∨ n = 0x2029 ∨ n = 0x202f ∨ n = 0x205f ∨ n = 0x3000

/-- `str.strip()`. -/
def strip (text : List Char) : List Char :=
  ((text.dropWhile isSpace).reverse.dropWhile isSpace).reverse

/-- `"\n".join(lines)`. -/
def joinLines : List (List Char) → List Char
  | [] => []
  | [line] => line
  | line :: rest => line ++ '\n' :: joinLines rest

/-- What `html.escape(text, quote=False)` makes of a character. -/
def escapeChar (c : Char) : List Char :=
  if c = '&' then "&amp;".toList
  else if c = '<' then "&lt;".toList
  else if c = '>' then "&gt;".toList
  else [c]

/-- How a character is read in an HTML text. -/
def unescapeChar : List Char → Option (Char × List Char)
  | [] => none
  | '&' :: 'a' :: 'm' :: 'p' :: ';' :: rest => some ('&', rest)
  | '&' :: 'l' :: 't' :: ';' :: rest => some ('<', rest)
  | '&' :: 'g' :: 't' :: ';' :: rest => some ('>', rest)
  | c :: rest => some (c, rest)

theorem unescapeChar_escapeChar (c : Char) (rest : List Char) :
    unescapeChar (escapeChar c ++ rest) = some (c, rest) := by
  unfold escapeChar
  by_cases hand : c = '&'
  · subst hand
    rfl
  by_cases hlt : c = '<'
  · subst hlt
    rfl
  by_cases hgt : c = '>'
  · subst hgt
    rfl
  rw [if_neg hand, if_neg hlt, if_neg hgt, List.singleton_append]
  unfold unescapeChar
  split <;> simp_all

/-- `html.escape(_, quote=False)`. -/
def html : Code Char Char where
  encode := escapeChar
  decode := unescapeChar
  decode_nil := rfl
  decode_encode := unescapeChar_escapeChar

theorem no_bracket_escape (text : List Char) : '<' ∉ html.encodeAll text ∧ '>' ∉ html.encodeAll text := by
  have hone (c : Char) : '<' ∉ escapeChar c ∧ '>' ∉ escapeChar c := by
    unfold escapeChar
    split_ifs with hand hlt hgt
    · decide
    · decide
    · decide
    · simp [Ne.symm hlt, Ne.symm hgt]
  exact ⟨html.not_mem_encodeAll (fun c => (hone c).1) text, html.not_mem_encodeAll (fun c => (hone c).2) text⟩

/-! ## The code -/

/-- What `process` reads of a `rcl_interfaces/msg/Log`. Without a stamp or its seconds `sec` is none, and
without a level that is an integer `level`. -/
structure Log where
  sec : Option Int
  nanosec : Nat
  level : Option Int
  name : List Char
  msg : List Char
  file : List Char
  function : List Char
  line : Nat

/-- The keys of `severity_counts`. -/
inductive Severity where
  | debug
  | info
  | warning
  | error
  | fatal
  | unknown
  deriving DecidableEq, Repr

def Severity.text : Severity → List Char
  | .debug => "DEBUG".toList
  | .info => "INFO".toList
  | .warning => "WARNING".toList
  | .error => "ERROR".toList
  | .fatal => "FATAL".toList
  | .unknown => "UNKNOWN".toList

/-- `LEVEL_NAMES.get(_, "UNKNOWN")`. -/
def levelName (numericLevel : Int) : Severity :=
  if numericLevel = 10 then .debug
  else if numericLevel = 20 then .info
  else if numericLevel = 30 then .warning
  else if numericLevel = 40 then .error
  else if numericLevel = 50 then .fatal
  else .unknown

def Log.numericLevel (message : Log) : Int := message.level.getD 0

def Log.severity (message : Log) : Severity := levelName message.numericLevel

def Log.timestamp (message : Log) : List Char :=
  match message.sec with
  | some seconds => integer seconds ++ '.' :: padded9 message.nanosec
  | none => "unknown-time".toList

def Log.source (message : Log) : List Char :=
  strip (message.file ++ ':' :: decimal message.line ++ ' ' :: message.function)

/-- The line of `rosout.txt`. -/
def Log.entry (topicName : List Char) (message : Log) : List Char :=
  let entry := '[' :: message.timestamp ++ "] [".toList ++ message.severity.text ++ "] [".toList ++
    topicName ++ "] ".toList ++ message.name ++ ": ".toList ++ message.msg
  if message.file ≠ [] ∨ message.function ≠ [] then entry ++ " (".toList ++ message.source ++ ")".toList
  else entry

/-- The analyzer, and what it has written into `rosout.txt`, which it opens at the first message. -/
structure Analyzer where
  outputFile : Option (List Char)
  severityCounts : Severity → Nat
  warningEntries : List (List Char)

def Analyzer.new : Analyzer where
  outputFile := none
  severityCounts _ := 0
  warningEntries := []

/-- `matches`. -/
def matchesTopic (topicName messageType : List Char) : Bool :=
  let name := topicName.rdropWhile (· = '/')
  (name.reverse.takeWhile (· ≠ '/')).reverse = "rosout".toList ∧
    messageType = "rcl_interfaces/msg/Log".toList

/-- A message with the name of its topic. -/
abbrev Message := List Char × Log

def Analyzer.process (a : Analyzer) : Message → Analyzer
  | (topicName, message) =>
    let entry := message.entry topicName
    { outputFile := some (a.outputFile.getD [] ++ entry ++ ['\n'])
      severityCounts :=
        Function.update a.severityCounts message.severity (a.severityCounts message.severity + 1)
      warningEntries := if message.numericLevel ≥ 30 then a.warningEntries ++ [entry] else a.warningEntries }

/-- The severities in the order of `severity_counts`. -/
def severities : List Severity := [.debug, .info, .warning, .error, .fatal, .unknown]

/-- `sum(self.severity_counts.values())`. -/
def Analyzer.totalMessages (a : Analyzer) : Nat := (severities.map a.severityCounts).sum

/-- The lines of the report up to the warnings. -/
def Analyzer.countLines (a : Analyzer) : List (List Char) :=
  ["### ROSout Summary".toList, [], "| Severity | Count |".toList, "| :--- | ---: |".toList] ++
    severities.map fun severity =>
      "| ".toList ++ severity.text ++ " | ".toList ++ grouped (a.severityCounts severity) ++ " |".toList

/-- The lines before the texts of the warnings. -/
def warningHead (count : Nat) : List (List Char) :=
  [[], "#### WARNING and higher (".toList ++ grouped count ++ ")".toList, [], "<details>".toList,
    "<summary>Show ".toList ++ grouped count ++ " log messages</summary>".toList, [], "<pre>".toList]

def Analyzer.warningLines (a : Analyzer) : List (List Char) :=
  if a.warningEntries = [] then []
  else
    warningHead a.warningEntries.length ++
      [html.encodeAll (joinLines a.warningEntries), "</pre>".toList, "</details>".toList]

def Analyzer.reportMarkdown (a : Analyzer) : List Char :=
  if a.totalMessages = 0 then [] else joinLines (a.countLines ++ a.warningLines)

def Analyzer.reportTocEntry (a : Analyzer) : Option (List Char × List Char) :=
  if a.totalMessages = 0 then none else some ("ROSout Summary".toList, "rosout-summary".toList)

/-! ## After some messages -/

theorem run_outputFile (messages : List Message) :
    (run Analyzer.process .new messages).outputFile =
      if messages = [] then none else some (messages.flatMap fun m => m.2.entry m.1 ++ ['\n']) := by
  refine run_invariant (I := fun past (a : Analyzer) => a.outputFile =
    if past = [] then none else some (past.flatMap fun m => m.2.entry m.1 ++ ['\n'])) ?_ ?_ messages
  · rfl
  intro past a m h
  rw [if_neg (List.append_ne_nil_of_right_ne_nil past (List.cons_ne_nil m []))]
  unfold Analyzer.process
  dsimp only
  rw [h, List.flatMap_append]
  by_cases hpast : past = []
  · simp [hpast]
  · simp [hpast]

theorem run_severityCounts (messages : List Message) (severity : Severity) :
    (run Analyzer.process .new messages).severityCounts severity =
      messages.countP (·.2.severity = severity) := by
  refine run_invariant (I := fun past (a : Analyzer) => ∀ severity, a.severityCounts severity =
    past.countP (·.2.severity = severity)) ?_ ?_ messages severity
  · exact fun _ => rfl
  intro past a m h severity
  unfold Analyzer.process
  dsimp only
  rw [List.countP_append, ← h severity]
  by_cases hsame : m.2.severity = severity
  · subst hsame
    rw [Function.update_self]
    simp
  · rw [Function.update_of_ne (Ne.symm hsame)]
    simp [hsame]

theorem run_warningEntries (messages : List Message) :
    (run Analyzer.process .new messages).warningEntries =
      (messages.filter (·.2.numericLevel ≥ 30)).map fun m => m.2.entry m.1 := by
  refine run_invariant (I := fun past (a : Analyzer) => a.warningEntries =
    (past.filter (·.2.numericLevel ≥ 30)).map fun m => m.2.entry m.1) ?_ ?_ messages
  · rfl
  intro past a m h
  unfold Analyzer.process
  dsimp only
  rw [List.filter_append, List.map_append, ← h]
  by_cases hlevel : m.2.numericLevel ≥ 30
  · simp [hlevel]
  · simp [hlevel]

theorem sum_severities (messages : List Message) :
    (severities.map fun severity => messages.countP (·.2.severity = severity)).sum = messages.length := by
  induction messages with
  | nil => rfl
  | cons m messages ih =>
    simp only [severities, List.map_cons, List.map_nil, List.sum_cons, List.sum_nil,
      List.countP_cons, List.length_cons] at ih ⊢
    cases m.2.severity <;> simp <;> omega

theorem run_totalMessages (messages : List Message) :
    (run Analyzer.process .new messages).totalMessages = messages.length := by
  unfold Analyzer.totalMessages
  rw [← sum_severities messages]
  congr 2
  funext severity
  exact run_severityCounts messages severity

/-! ## Numbers in the report -/

/-- The number that some digits stand for. -/
def value (digits : List Char) : Nat := Nat.ofDigits 10 (digits.reverse.map fun c => c.toNat - 48)

theorem toNat_digitChar {d : Nat} (h : d < 10) : (digitChar d).toNat = 48 + d := by
  interval_cases d <;> rfl

theorem value_decimal (n : Nat) : value (decimal n) = n := by
  unfold decimal value
  split_ifs with hzero
  · rw [hzero]
    rfl
  · simp only [← List.map_reverse, List.reverse_reverse, List.map_map]
    have hdigits : (Nat.digits 10 n).map ((fun c => c.toNat - 48) ∘ digitChar) = Nat.digits 10 n := by
      conv_rhs => rw [← List.map_id (Nat.digits 10 n)]
      apply List.map_congr_left
      intro d hd
      have hlt : d < 10 := Nat.digits_lt_base (by omega) hd
      simp [toNat_digitChar hlt]
    rw [hdigits, Nat.ofDigits_digits]

theorem isDigit_decimal (n : Nat) : ∀ c ∈ decimal n, c.isDigit = true := by
  unfold decimal
  split_ifs
  · simp
  · intro c hc
    obtain ⟨d, hd, rfl⟩ := List.mem_map.mp hc
    have hlt : d < 10 := Nat.digits_lt_base (by omega) (List.mem_reverse.mp hd)
    interval_cases d <;> rfl

theorem filter_groupDigits (digits : List Char) :
    (groupDigits digits).filter (· ≠ ',') = digits.filter (· ≠ ',') := by
  induction digits using groupDigits.induct with
  | case1 a b c d rest ih =>
    have hcomma : (',' :: groupDigits (d :: rest)).filter (· ≠ ',') =
        (groupDigits (d :: rest)).filter (· ≠ ',') := List.filter_cons_of_neg (by simp)
    show ([a, b, c] ++ ',' :: groupDigits (d :: rest)).filter (· ≠ ',') =
      ([a, b, c] ++ d :: rest).filter (· ≠ ',')
    rw [List.filter_append, List.filter_append, hcomma, ih]
  | case2 digits h =>
    rw [groupDigits]
    exact h

theorem mem_groupDigits {x : Char} {digits : List Char} (h : x ∈ groupDigits digits) :
    x = ',' ∨ x ∈ digits := by
  by_cases hx : x = ','
  · exact .inl hx
  · have hmem : x ∈ (groupDigits digits).filter (· ≠ ',') := List.mem_filter.mpr ⟨h, by simpa using hx⟩
    rw [filter_groupDigits] at hmem
    exact .inr (List.mem_filter.mp hmem).1

theorem value_grouped (n : Nat) : value ((grouped n).filter (· ≠ ',')) = n := by
  have hdigits : (decimal n).filter (· ≠ ',') = decimal n := by
    rw [List.filter_eq_self]
    intro c hc
    have hdigit := isDigit_decimal n c hc
    simp only [ne_eq, decide_not, Bool.not_eq_true', decide_eq_false_iff_not]
    rintro rfl
    exact absurd hdigit (by decide)
  unfold grouped
  rw [List.filter_reverse, filter_groupDigits, List.filter_reverse, List.reverse_reverse, hdigits,
    value_decimal]

theorem grouped_injective : Function.Injective grouped := by
  intro m n h
  rw [← value_grouped m, h, value_grouped n]

theorem newline_not_mem_grouped (n : Nat) : '\n' ∉ grouped n := by
  intro h
  rcases mem_groupDigits (List.mem_reverse.mp h) with hcomma | hdigit
  · exact absurd hcomma (by decide)
  · exact absurd (isDigit_decimal n _ (List.mem_reverse.mp hdigit)) (by decide)

/-! ## Reading the report -/

theorem takeWhile_line {l : List Char} (h : '\n' ∉ l) (rest : List Char) :
    (l ++ '\n' :: rest).takeWhile (· ≠ '\n') = l := by
  have hall : ∀ c ∈ l, decide (c ≠ '\n') = true := by
    intro c hc
    rw [decide_eq_true_iff]
    rintro rfl
    exact h hc
  rw [List.takeWhile_append_of_pos hall, List.takeWhile_cons_of_neg (by simp), List.append_nil]

theorem joinLines_inj {l l' : List Char} {rest rest' : List (List Char)} (h : '\n' ∉ l) (h' : '\n' ∉ l')
    (heq : joinLines (l :: rest) = joinLines (l' :: rest')) :
    l = l' ∧ (rest = [] ↔ rest' = []) ∧ joinLines rest = joinLines rest' := by
  cases rest with
  | nil =>
    cases rest' with
    | nil => exact ⟨heq, Iff.rfl, rfl⟩
    | cons m rest' =>
      refine absurd ?_ h
      rw [show l = l' ++ '\n' :: joinLines (m :: rest') from heq]
      exact List.mem_append_right _ List.mem_cons_self
  | cons m rest =>
    cases rest' with
    | nil =>
      refine absurd ?_ h'
      rw [show l' = l ++ '\n' :: joinLines (m :: rest) from heq.symm]
      exact List.mem_append_right _ List.mem_cons_self
    | cons m' rest' =>
      have hsplit : l ++ '\n' :: joinLines (m :: rest) = l' ++ '\n' :: joinLines (m' :: rest') := heq
      have hline : l = l' := by
        rw [← takeWhile_line h (joinLines (m :: rest)), hsplit, takeWhile_line h']
      rw [hline] at hsplit
      exact ⟨hline, by simp, (List.cons.inj (List.append_cancel_left hsplit)).2⟩

/-- Those before the rest, of which there are as many in both texts, are the same. -/
theorem joinLines_append_inj {lines lines' rest rest' : List (List Char)}
    (hlength : lines.length = lines'.length) (h : ∀ l ∈ lines, '\n' ∉ l) (h' : ∀ l ∈ lines', '\n' ∉ l)
    (heq : joinLines (lines ++ rest) = joinLines (lines' ++ rest')) (hne : lines ≠ []) :
    lines = lines' ∧ (rest = [] ↔ rest' = []) ∧ joinLines rest = joinLines rest' := by
  induction lines generalizing lines' with
  | nil => exact absurd rfl hne
  | cons l lines ih =>
    cases lines' with
    | nil => cases hlength
    | cons l' lines' =>
      obtain ⟨hl, hlines⟩ := List.forall_mem_cons.mp h
      obtain ⟨hl', hlines'⟩ := List.forall_mem_cons.mp h'
      obtain ⟨rfl, hempty, hrest⟩ := joinLines_inj hl hl' heq
      have hlength' : lines.length = lines'.length := Nat.succ.inj hlength
      by_cases hlast : lines = []
      · have hlast' : lines' = [] := List.length_eq_zero_iff.mp (by rw [← hlength', hlast]; rfl)
        subst hlast hlast'
        exact ⟨rfl, hempty, hrest⟩
      · obtain ⟨rfl, hboth⟩ := ih hlength' hlines hlines' hrest hlast
        exact ⟨rfl, hboth⟩

theorem count_joinLines {lines : List (List Char)} (hne : lines ≠ []) :
    (joinLines lines).count '\n' + 1 = (lines.map (List.count '\n')).sum + lines.length := by
  induction lines with
  | nil => exact absurd rfl hne
  | cons l rest ih =>
    cases rest with
    | nil => simp [joinLines]
    | cons m rest =>
      have hrest := ih (List.cons_ne_nil m rest)
      show (l ++ '\n' :: joinLines (m :: rest)).count '\n' + 1 = _
      rw [List.count_append, List.count_cons_self, List.map_cons, List.sum_cons, List.length_cons]
      omega

theorem eq_of_joinLines {lines lines' : List (List Char)} (hlength : lines.length = lines'.length)
    (h : ∀ l ∈ lines, '\n' ∉ l) (heq : joinLines lines = joinLines lines') : lines = lines' := by
  by_cases hne : lines = []
  · subst hne
    exact (List.length_eq_zero_iff.mp hlength.symm).symm
  · have hne' : lines' ≠ [] := by
      rintro rfl
      exact hne (List.length_eq_zero_iff.mp hlength)
    -- the newlines are used up by the joints
    have hnone : (lines.map (List.count '\n')).sum = 0 := by
      rw [List.sum_eq_zero_iff_forall_eq_nat]
      intro n hn
      obtain ⟨l, hl, rfl⟩ := List.mem_map.mp hn
      exact List.count_eq_zero.mpr (h l hl)
    have hcount := count_joinLines hne
    have hcount' := count_joinLines hne'
    have hsum : (lines'.map (List.count '\n')).sum = 0 := by
      rw [← heq] at hcount'
      omega
    have h' : ∀ l ∈ lines', '\n' ∉ l := by
      intro l hl
      rw [List.sum_eq_zero_iff_forall_eq_nat] at hsum
      exact List.count_eq_zero.mp (hsum _ (List.mem_map_of_mem hl))
    have hjoined : joinLines (lines ++ []) = joinLines (lines' ++ []) := by
      rw [List.append_nil, List.append_nil, heq]
    exact (joinLines_append_inj hlength h h' hjoined hne).1

theorem newline_not_mem_countLines (a : Analyzer) : ∀ l ∈ a.countLines, '\n' ∉ l := by
  intro l hl
  rcases List.mem_append.mp hl with hhead | hrow
  · simp only [List.mem_cons, List.not_mem_nil, or_false] at hhead
    rcases hhead with rfl | rfl | rfl | rfl <;> decide
  · obtain ⟨severity, -, rfl⟩ := List.mem_map.mp hrow
    have hnumber := newline_not_mem_grouped (a.severityCounts severity)
    simp only [List.mem_append, not_or]
    exact ⟨⟨⟨⟨by decide, by cases severity <;> decide⟩, by decide⟩, hnumber⟩, by decide⟩

theorem newline_not_mem_warningHead (count : Nat) : ∀ l ∈ warningHead count, '\n' ∉ l := by
  have hnumber := newline_not_mem_grouped count
  simp only [warningHead, List.forall_mem_cons, List.mem_append, not_or]
  simp [hnumber]

theorem countLines_inj {a b : Analyzer} (h : a.countLines = b.countLines) :
    a.severityCounts = b.severityCounts := by
  have hrows := List.append_cancel_left h
  funext severity
  have hrow := List.map_inj_left.mp hrows severity (by cases severity <;> decide)
  simp only [List.append_cancel_left_eq, List.append_cancel_right_eq] at hrow
  exact grouped_injective hrow

theorem warningLines_eq_nil (a : Analyzer) : a.warningLines = [] ↔ a.warningEntries = [] := by
  unfold Analyzer.warningLines
  by_cases h : a.warningEntries = []
  · simp [h]
  · simp [h, warningHead]

/-- The lines of the warnings tell their number and their texts. -/
theorem warningLines_inj {a b : Analyzer} (hempty : a.warningLines = [] ↔ b.warningLines = [])
    (h : joinLines a.warningLines = joinLines b.warningLines) :
    a.warningEntries.length = b.warningEntries.length ∧
      joinLines a.warningEntries = joinLines b.warningEntries := by
  rw [warningLines_eq_nil, warningLines_eq_nil] at hempty
  by_cases hnone : a.warningEntries = []
  · rw [hnone, hempty.mp hnone]
    exact ⟨rfl, rfl⟩
  · unfold Analyzer.warningLines at h
    rw [if_neg hnone, if_neg (mt hempty.mpr hnone)] at h
    have hlength : (warningHead a.warningEntries.length).length =
        (warningHead b.warningEntries.length).length := rfl
    obtain ⟨hhead, -, htexts⟩ := joinLines_append_inj hlength (newline_not_mem_warningHead _)
      (newline_not_mem_warningHead _) h (List.cons_ne_nil _ _)
    have hnumber := (List.cons.inj (List.cons.inj hhead).2).1
    simp only [List.append_cancel_left_eq, List.append_cancel_right_eq] at hnumber
    exact ⟨grouped_injective hnumber, html.encodeAll_injective (List.append_cancel_right htexts)⟩

theorem reportMarkdown_eq_nil (messages : List Message) :
    (run Analyzer.process .new messages).reportMarkdown = [] ↔ messages = [] := by
  unfold Analyzer.reportMarkdown
  split_ifs with hnone
  · rw [run_totalMessages, List.length_eq_zero_iff] at hnone
    exact iff_of_true rfl hnone
  · rw [run_totalMessages, List.length_eq_zero_iff] at hnone
    refine iff_of_false (fun h => ?_) hnone
    simp [Analyzer.countLines, joinLines] at h

theorem report_inj {a b : Analyzer} (ha : a.totalMessages ≠ 0) (hb : b.totalMessages ≠ 0)
    (h : a.reportMarkdown = b.reportMarkdown) :
    a.severityCounts = b.severityCounts ∧ a.warningEntries.length = b.warningEntries.length ∧
      joinLines a.warningEntries = joinLines b.warningEntries := by
  unfold Analyzer.reportMarkdown at h
  rw [if_neg ha, if_neg hb] at h
  have hlength : a.countLines.length = b.countLines.length := by
    simp [Analyzer.countLines]
  obtain ⟨hcounts, hempty, hwarnings⟩ := joinLines_append_inj hlength (newline_not_mem_countLines a)
    (newline_not_mem_countLines b) h (List.append_ne_nil_of_left_ne_nil (List.cons_ne_nil _ _) _)
  exact ⟨countLines_inj hcounts, warningLines_inj hempty hwarnings⟩

/-- The warnings and what is more severe among some messages, as they are written into `rosout.txt`. -/
def warnings (messages : List Message) : List (List Char) :=
  (messages.filter (·.2.numericLevel ≥ 30)).map fun m => m.2.entry m.1

end Rosout

end LogAnalysis
