import RobotFramework.SystemMonitor.DiagnosticWindow
import RobotFramework.SystemMonitor.MessageWindow

/-!
# The diagnostics panel

`DiagnosticWindow::updateWindow` draws one line for each type of diagnostic of the node it monitors. The
numbers and names of the types, messages and levels are those of a library that is not part of this
repository, and so is the text of a time stamp; they are parameters. While the monitored node has sent no
diagnostic nothing is drawn, and what was drawn before stays on the screen.
-/

namespace SystemMonitor

open History

/-! ## The code -/

/-- `fast::rf::DiagnosticDefinition` and `fast::rf::Level` as numbers and names, and the text of a time.
`level` is none for a number that is no level. -/
structure DiagnosticDefinition where
  levels : LevelNames
  level : UInt8 → Option BaseNode.Level
  level_unknown : level (UInt8.ofNat levels.unknown) = some .unknown
  unknown : UInt8
  unknownType : UInt8
  endOfList : UInt8
  prettyType : UInt8 → String
  prettyMessage : UInt8 → String
  seconds : Time → String

/-- The panel's window. In one of less than three columns `erase` throws. -/
structure PanelWidth where
  windowWidth : Nat
  wide : 3 ≤ windowWidth

/-- A line as it is drawn: the bytes of its text, and its colour. -/
structure Line where
  text : List UInt8
  color : Color
  deriving DecidableEq, Repr

/-- The diagnostics window with the members that its drawing uses; `screen` is what is drawn. -/
structure DiagnosticPanel extends DiagnosticWindow where
  focused : Bool
  nodeToMonitor : String
  screen : List Line

namespace DiagnosticPanel

def initial (currentTimeSec : Rat) (hasWindow : Bool) : DiagnosticPanel where
  toDiagnosticWindow := .initial currentTimeSec hasWindow
  focused := false
  nodeToMonitor := ""
  screen := []

def color : Option BaseNode.Level → Color
  | some .unknown => .redColor
  | some .noError => .blueColor
  | some .debug => .blueColor
  | some .info => .blueColor
  | some .notice => .blueColor
  | some .warn => .yellowColor
  | some .error => .redColor
  | some .fatal => .redColor
  | none => .redColor

/-- The bytes of a `std::string`. -/
def bytes (str : String) : List UInt8 := str.toUTF8.data.toList

/-- `if (str.size() >= windowWidth) str.erase(windowWidth - 3)`. -/
def cut (width : PanelWidth) (str : List UInt8) : List UInt8 :=
  if str.length ≥ width.windowWidth then str.take (width.windowWidth - 3) else str

/-- The types that have a line. -/
def lineTypes (defs : DiagnosticDefinition) : List UInt8 :=
  ((List.range' defs.unknown.toNat (defs.endOfList.toNat - defs.unknown.toNat)).map UInt8.ofNat).filter
    fun i => i ≠ defs.unknown ∧ i ≠ defs.unknownType ∧ i ≠ defs.endOfList

def diagnosticLine (defs : DiagnosticDefinition) (width : PanelWidth) (type : UInt8) (msg : Diagnostic) :
    Line where
  text := cut width (bytes (defs.prettyType type ++ ":" ++ defs.prettyMessage msg.diagnosticMessage ++ "(" ++
    defs.seconds msg.timestamp ++ ") - " ++ msg.description))
  color := color (defs.level msg.level)

/-- The line of a type of which there is no diagnostic. -/
def emptyLine (defs : DiagnosticDefinition) (type : UInt8) : Line where
  text := bytes (defs.prettyType type)
  color := .noColor

def lines (defs : DiagnosticDefinition) (width : PanelWidth) (nodeDiagnosticMap : DiagnosticTypes) :
    List Line :=
  (lineTypes defs).map fun i =>
    match nodeDiagnosticMap.lookup i with
    | some m => diagnosticLine defs width i m.nodeDiagnostic
    | none => emptyLine defs i

/-- `DiagnosticWindow::updateWindow`: the window, and whether it could be drawn. -/
def updateWindow (defs : DiagnosticDefinition) (width : PanelWidth) (w : DiagnosticPanel) :
    DiagnosticPanel × Bool :=
  if w.hasWindow then
    match w.nodeDiagnosticMonitors.lookup w.nodeToMonitor with
    | none => (w, true)
    | some nodeDiagnosticMap => ({ w with screen := lines defs width nodeDiagnosticMap }, true)
  else (w, false)

/-- `DiagnosticWindow::update`. -/
def update (defs : DiagnosticDefinition) (width : PanelWidth) (w : DiagnosticPanel)
    (currentTimeSec : Rat) : DiagnosticPanel × Bool :=
  { w with toDiagnosticWindow := (w.toDiagnosticWindow.update defs.levels currentTimeSec).1 }.updateWindow
    defs width

/-- `DiagnosticWindow::newDiagnosticMsg`. -/
def newDiagnosticMsg (w : DiagnosticPanel) (msg : Diagnostic) : DiagnosticPanel :=
  { w with toDiagnosticWindow := w.toDiagnosticWindow.newDiagnosticMsg msg }

/-- `DiagnosticWindow::setNodeToMonitor`. -/
def setNodeToMonitor (w : DiagnosticPanel) (nodeName : String) : DiagnosticPanel :=
  { w with nodeToMonitor := nodeName }

/-! ## What is drawn -/

variable (defs : DiagnosticDefinition) (width : PanelWidth) (w : DiagnosticPanel)

/-- The line of a node and a type. -/
def lineOf (w : DiagnosticWindow) (nodeName : String) (type : UInt8) : Line :=
  match w.entry nodeName type with
  | some m => diagnosticLine defs width type m.nodeDiagnostic
  | none => emptyLine defs type

/-- What the screen shows after an update: the lines of a node that has sent a diagnostic, and otherwise
what it showed before. -/
def drawn (screen : List Line) (w : DiagnosticWindow) (nodeName : String) : List Line :=
  (w.nodeDiagnosticMonitors.lookup nodeName).elim screen fun _ =>
    (lineTypes defs).map (lineOf defs width w nodeName)

variable {defs width} in
theorem drawn_of_unknown {screen : List Line} {v : DiagnosticWindow} {nodeName : String}
    (h : ¬ (v.nodeDiagnosticMonitors.lookup nodeName).isSome = true) :
    drawn defs width screen v nodeName = screen := by
  unfold drawn
  rw [Option.not_isSome_iff_eq_none.mp h]
  rfl

variable {defs width} in
theorem drawn_of_known {screen : List Line} {v : DiagnosticWindow} {nodeName : String}
    (h : (v.nodeDiagnosticMonitors.lookup nodeName).isSome = true) :
    drawn defs width screen v nodeName = (lineTypes defs).map (lineOf defs width v nodeName) := by
  obtain ⟨types, htypes⟩ := Option.isSome_iff_exists.mp h
  unfold drawn
  rw [htypes]
  rfl

theorem lines_eq {nodeDiagnosticMap : DiagnosticTypes} {nodeName : String} {v : DiagnosticWindow}
    (h : v.nodeDiagnosticMonitors.lookup nodeName = some nodeDiagnosticMap) :
    lines defs width nodeDiagnosticMap = (lineTypes defs).map (lineOf defs width v nodeName) := by
  unfold lines lineOf DiagnosticWindow.entry DiagnosticWindow.find
  rw [h]
  rfl

theorem updateWindow_eq (hw : w.hasWindow = true) :
    (w.updateWindow defs width).1 =
      { w with screen := drawn defs width w.screen w.toDiagnosticWindow w.nodeToMonitor } := by
  unfold updateWindow drawn
  rw [if_pos hw]
  cases hnode : w.nodeDiagnosticMonitors.lookup w.nodeToMonitor with
  | none => rfl
  | some types =>
    dsimp only [Option.elim]
    rw [lines_eq defs width hnode]

theorem update_eq (hw : w.hasWindow = true) (t : Rat) :
    (w.update defs width t).1 =
      { w with
        toDiagnosticWindow := (w.toDiagnosticWindow.update defs.levels t).1
        screen := drawn defs width w.screen (w.toDiagnosticWindow.update defs.levels t).1
          w.nodeToMonitor } := updateWindow_eq defs width _ hw

theorem toDiagnosticWindow_update (t : Rat) :
    (w.update defs width t).1.toDiagnosticWindow = (w.toDiagnosticWindow.update defs.levels t).1 := by
  unfold update updateWindow
  split_ifs
  · split <;> rfl
  · rfl

theorem nodeToMonitor_update (t : Rat) :
    (w.update defs width t).1.nodeToMonitor = w.nodeToMonitor := by
  unfold update updateWindow
  split_ifs
  · split <;> rfl
  · rfl

theorem focused_update (t : Rat) : (w.update defs width t).1.focused = w.focused := by
  unfold update updateWindow
  split_ifs
  · split <;> rfl
  · rfl

/-! ## The lines of a node -/

variable {levels : LevelNames} {nodeName : String} {type : UInt8}

/-- The event is a message of a node. -/
def ofNode (nodeName : String) : DiagnosticWindow.Event → Bool
  | .diagnostic msg => msg.nodeName = nodeName
  | .update _ => false

theorem isSome_lookup_run (levels : LevelNames) (t₀ : Rat) (hasWindow : Bool)
    (past : List DiagnosticWindow.Event) (nodeName : String) :
    ((run (DiagnosticWindow.step levels) (.initial t₀ hasWindow) past).nodeDiagnosticMonitors.lookup
      nodeName).isSome ↔ ∃ e ∈ past, ofNode nodeName e = true := by
  refine run_invariant (I := fun past (v : DiagnosticWindow) =>
    (v.nodeDiagnosticMonitors.lookup nodeName).isSome ↔ ∃ e ∈ past, ofNode nodeName e = true) ?_ ?_ past
  · refine iff_of_false (fun hsome => ?_) (fun ⟨e, he, _⟩ => absurd he List.not_mem_nil)
    cases hsome
  intro past v e h
  have hlast : (∃ x ∈ past ++ [e], ofNode nodeName x = true) ↔
      (∃ x ∈ past, ofNode nodeName x = true) ∨ ofNode nodeName e = true := by
    simp [or_and_right, exists_or]
  rw [hlast, ← h]
  cases e with
  | update t =>
    show ((mapValues _ v.nodeDiagnosticMonitors).lookup nodeName).isSome ↔ _
    rw [lookup_mapValues, Option.isSome_map]
    simp [ofNode]
  | diagnostic msg =>
    show ((DiagnosticWindow.atPair (DiagnosticWindow.atPair _ _ _ _) _ _ _).lookup nodeName).isSome ↔ _
    unfold DiagnosticWindow.atPair
    rw [lookup_atKey, lookup_atKey]
    by_cases hn : msg.nodeName = nodeName
    · simp [ofNode, hn]
    · simp [ofNode, hn]

theorem hasWindow_run (levels : LevelNames) (v : DiagnosticWindow) (past : List DiagnosticWindow.Event) :
    (run (DiagnosticWindow.step levels) v past).hasWindow = v.hasWindow := by
  refine run_invariant (I := fun _ (u : DiagnosticWindow) => u.hasWindow = v.hasWindow) rfl ?_ past
  intro past u e h
  cases e <;> exact h

theorem entry_last (levels : LevelNames) (t₀ : Rat) (hasWindow : Bool)
    (before : List DiagnosticWindow.Event) (msg : Diagnostic) {after : List DiagnosticWindow.Event}
    {t : Rat} (hmono : DiagnosticWindow.Nondecreasing (after ++ [.update t]))
    (hpair : (DiagnosticWindow.Event.diagnostic msg).isOf nodeName type = true)
    (hafter : ∀ e ∈ after, e.isOf nodeName type = false) :
    ∃ m, (run (DiagnosticWindow.step levels) (.initial t₀ hasWindow)
          (before ++ .diagnostic msg :: after ++ [.update t])).entry nodeName type = some m ∧
      m.nodeDiagnostic = DiagnosticWindow.timedOut levels
        (decide (commTimeoutThreshold < t - (DiagnosticWindow.monitorTime before).getD t₀)) msg := by
  have hwritten : msg.nodeName = nodeName ∧ msg.diagnosticType = type := by
    simpa [DiagnosticWindow.Event.isOf] using hpair
  have hentry := DiagnosticWindow.entry_newDiagnosticMsg
    (run (DiagnosticWindow.step levels) (.initial t₀ hasWindow) before) msg nodeName type
  rw [if_pos hwritten, DiagnosticWindow.currentTimeSec_run] at hentry
  obtain ⟨m, hm, -, hmessage⟩ := DiagnosticWindow.entry_run_of_not_isOf levels hentry
    (after ++ [.update t]) (List.forall_mem_append.mpr ⟨hafter, by simp [DiagnosticWindow.Event.isOf]⟩)
  rw [DiagnosticWindow.any_late_concat hmono] at hmessage
  refine ⟨m, ?_, hmessage⟩
  rw [List.append_assoc, List.cons_append, run_append, run_cons]
  exact hm

theorem diagnosticLine_timedOut (late : Bool) (msg : Diagnostic) :
    diagnosticLine defs width type (DiagnosticWindow.timedOut defs.levels late msg) =
      { diagnosticLine defs width type msg with
        color := if late then .redColor else color (defs.level msg.level) } := by
  cases late with
  | false => rfl
  | true =>
    show diagnosticLine defs width type { msg with level := UInt8.ofNat defs.levels.unknown } = _
    unfold diagnosticLine
    rw [defs.level_unknown]
    rfl

end DiagnosticPanel

end SystemMonitor
