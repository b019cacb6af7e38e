import RobotFramework.BaseNode.Timing
import RobotFramework.SystemMonitor.StableRows

/-!
# Key events of the node window

The arrow keys move the selected record, and `l` followed by a digit asks the selected node to change its
log level. The selected node is the one whose row was marked when the window was last drawn. The log
levels are those of the logger, which is not part of this repository: their numbers and names are a
parameter. So is the order in which `std::sort` leaves records of equal ids.

`window_newKeyEvent` and `request_newKeyEvent` say what a key event does to the window and what it sends.
-/

namespace SystemMonitor

open History

/-! ## The code -/

/-- `fast::rf::Level` as numbers, and `fast::rf::pretty`. -/
structure LevelNames where
  unknown : Nat
  endOfList : Nat
  pretty : Nat → String

/-- The levels that `BaseNode` names, numbered in their order. -/
def loggerLevels : LevelNames where
  unknown := 0
  endOfList := 7
  pretty i := ["UNKNOWN", "DEBUG", "INFO", "NOTICE", "WARN", "ERROR", "FATAL"].getD i "UNKNOWN"

/-- `MessageText`, as constructed without arguments. -/
structure MessageText where
  text : String := ""
  level : BaseNode.Level := .debug
  deriving DecidableEq, Repr

/-- A request to a `ChangeLoggerLevel` service. -/
structure ChangeLoggerLevelRequest where
  serviceTopic : String
  verbosityLevel : Nat
  deriving DecidableEq, Repr

/-- `KEY_UP` of the terminal library. -/
def keyUp : Int := 259

/-- `KEY_DOWN` of the terminal library. -/
def keyDown : Int := 258

/-- The code of a character key. -/
def charKey (c : Char) : Int := c.toNat

/-- The keys `'0'` to `'9'`. -/
def digitKeys : List Int := "0123456789".toList.map charKey

/-- The keys `'l'` and `'L'`. -/
def levelKeys : List Int := "lL".toList.map charKey

/-- `supportedKeys`. -/
def supportedKeys : List Int := [keyUp, keyDown] ++ levelKeys ++ digitKeys

/-- The node window with the members that its key events and its drawing use. -/
structure KeyedWindow extends NodeInfoWindow where
  recordSelected : Int16
  focused : Bool
  previousKey : Int
  selectedNode : String

def KeyedWindow.initial (currentTimeSec : Rat) (hasWindow focused : Bool) : KeyedWindow where
  toNodeInfoWindow := .initial currentTimeSec hasWindow
  recordSelected := 0
  focused := focused
  previousKey := -1
  selectedNode := ""

/-- `std::sort` of the records by id. -/
structure SortById where
  sort : List NodeData → List NodeData
  perm : ∀ nodes, (sort nodes).Perm nodes
  sorted : ∀ nodes, (sort nodes).Pairwise fun a b => a.id ≤ b.id

/-- The loop of `NodeInfoWindow::updateWindow`: each record, and whether its row is marked. -/
def drawRows (selectedRecord : Int16) (index : UInt16) : List NodeData → List (NodeData × Bool)
  | [] => []
  | node :: nodes =>
      (node, (index.toNat : Int) = selectedRecord.toInt) :: drawRows selectedRecord (index + 1) nodes

namespace KeyedWindow

/-- `BaseWindow::decrementSelectedRecord`. -/
def decrementSelectedRecord (w : KeyedWindow) : KeyedWindow :=
  let currentRecord := w.recordSelected - 1
  { w with recordSelected := if currentRecord < 0 then 0 else currentRecord }

/-- `BaseWindow::incrementSelectedRecord`; the comparison is one of `int`s. -/
def incrementSelectedRecord (w : KeyedWindow) : KeyedWindow :=
  let currentRecord := w.recordSelected + 1
  let last : Int := w.recordCount.toNat - 1
  { w with recordSelected := if currentRecord.toInt ≥ last then .ofInt last else currentRecord }

/-- The rows that `NodeInfoWindow::updateWindow` draws. -/
def rows (sort : SortById) (w : KeyedWindow) : List (NodeData × Bool) :=
  drawRows w.recordSelected 0 (sort.sort (w.nodes.entries.map (·.2)))

/-- `NodeInfoWindow::updateWindow`. -/
def updateWindow (sort : SortById) (w : KeyedWindow) : KeyedWindow :=
  if w.hasWindow then
    { w with selectedNode :=
        (w.rows sort).foldl (fun name row => if row.2 then row.1.nodeName else name) w.selectedNode }
  else w

/-- `NodeInfoWindow::update`. -/
def update (sort : SortById) (w : KeyedWindow) (currentTimeSec : Rat) : KeyedWindow :=
  { w with toNodeInfoWindow := (w.toNodeInfoWindow.update currentTimeSec).1 }.updateWindow sort

end KeyedWindow

/-- The text shown for the `l` key. -/
def levelPrompt (levels : LevelNames) : String :=
  (List.range' levels.unknown (levels.endOfList - levels.unknown)).foldl
    (fun str i => if i = levels.unknown then str
      else str ++ toString i ++ ":" ++ levels.pretty i ++ " ")
    "Enter new Log Level "

/-- What a key event leaves: the window, the message, and the request it has sent. -/
structure KeyEventResult where
  window : KeyedWindow
  message : MessageText
  request : Option ChangeLoggerLevelRequest

/-- `key - '0'`. -/
def verbosityValue (key : Int) : Nat := (key - charKey '0').toNat

/-- The service a request for the selected node goes to. -/
def KeyedWindow.serviceTopic (w : KeyedWindow) : String := w.selectedNode ++ "/change_logger_level"

/-- What `NodeInfoWindow::newKeyEvent` does for a digit after `l`: a missing node and a missing service
are reported, and the request is sent. `available` is what `wait_for_service` finds. -/
def KeyedWindow.changeLoggerLevel (levels : LevelNames) (available : String → Bool) (w : KeyedWindow)
    (key : Int) : MessageText × Option ChangeLoggerLevelRequest :=
  let verbosity := levels.pretty (verbosityValue key)
  if verbosity = "UNKNOWN" then
    ({ text := "Requested Log Level Not Supported."
       level := .warn }, none)
  else
    let message : MessageText := if w.selectedNode ∈ w.nodes then {}
      else { text := "Can't lookup Node: " ++ w.selectedNode
             level := .warn }
    let message : MessageText := if available w.serviceTopic then message
      else { text := "Service: " ++ w.serviceTopic ++ " Not available!"
             level := .warn }
    (message, some ⟨w.serviceTopic, verbosityValue key⟩)

/-- `NodeInfoWindow::newKeyEvent`. A digit that finds no node is not remembered as the previous key. -/
def KeyedWindow.newKeyEvent (levels : LevelNames) (available : String → Bool) (w : KeyedWindow)
    (key : Int) : KeyEventResult :=
  if key ∈ supportedKeys then
    if w.focused then
      if key = keyUp then ⟨{ w.decrementSelectedRecord with previousKey := key }, {}, none⟩
      else if key = keyDown then ⟨{ w.incrementSelectedRecord with previousKey := key }, {}, none⟩
      else if key ∈ levelKeys then
        ⟨{ w with previousKey := key }, ⟨levelPrompt levels, .notice⟩, none⟩
      else if key ∈ digitKeys then
        if w.nodes.entries.length = 0 then ⟨w, { level := .error }, none⟩
        else if w.previousKey ∈ levelKeys then
          let (message, request) := w.changeLoggerLevel levels available key
          ⟨{ w with previousKey := key }, message, request⟩
        else ⟨{ w with previousKey := key }, {}, none⟩
      else ⟨{ w with previousKey := key }, {}, none⟩
    else ⟨{ w with previousKey := key }, {}, none⟩
  else ⟨w, {}, none⟩

/-- What happens to the window; with a key event comes what `wait_for_service` would find then. -/
inductive Input where
  | event (e : Event)
  | key (key : Int) (available : String → Bool)

def KeyedWindow.step (sort : SortById) (levels : LevelNames) (w : KeyedWindow) : Input → KeyedWindow
  | .event (.update currentTimeSec) => w.update sort currentTimeSec
  | .event e => { w with toNodeInfoWindow := SystemMonitor.step w.toNodeInfoWindow e }
  | .key key available => (w.newKeyEvent levels available key).window

/-! ## What a key event does -/

/-- A digit that finds no node. -/
def KeyedWindow.dropsKey (w : KeyedWindow) (key : Int) : Prop :=
  w.focused = true ∧ key ∈ digitKeys ∧ w.nodes.entries.length = 0

instance (w : KeyedWindow) (key : Int) : Decidable (w.dropsKey key) :=
  inferInstanceAs (Decidable (_ ∧ _))

/-- A digit that is taken as a log level. -/
def KeyedWindow.asksLevel (w : KeyedWindow) (key : Int) : Prop :=
  w.focused = true ∧ key ∈ digitKeys ∧ w.nodes.entries.length ≠ 0 ∧ w.previousKey ∈ levelKeys

instance (w : KeyedWindow) (key : Int) : Decidable (w.asksLevel key) :=
  inferInstanceAs (Decidable (_ ∧ _))

/-- The record that is selected after a key. -/
def KeyedWindow.selectedAfter (w : KeyedWindow) (key : Int) : Int16 :=
  if w.focused = true ∧ key = keyUp then w.decrementSelectedRecord.recordSelected
  else if w.focused = true ∧ key = keyDown then w.incrementSelectedRecord.recordSelected
  else w.recordSelected

/-- The previous key after a key. -/
def KeyedWindow.previousAfter (w : KeyedWindow) (key : Int) : Int :=
  if key ∈ supportedKeys ∧ ¬ w.dropsKey key then key else w.previousKey

def KeyedWindow.requestFor (levels : LevelNames) (w : KeyedWindow) (key : Int) :
    Option ChangeLoggerLevelRequest :=
  if w.asksLevel key ∧ levels.pretty (verbosityValue key) ≠ "UNKNOWN" then
    some ⟨w.serviceTopic, verbosityValue key⟩
  else none

theorem digit_supported {key : Int} (h : key ∈ digitKeys) : key ∈ supportedKeys :=
  List.mem_append_right _ h

theorem digit_ne {key : Int} (h : key ∈ digitKeys) :
    key ≠ keyUp ∧ key ≠ keyDown ∧ key ∉ levelKeys := by
  have hall : ∀ key ∈ digitKeys, key ≠ keyUp ∧ key ≠ keyDown ∧ key ∉ levelKeys := by decide
  exact hall key h

theorem KeyedWindow.selectedAfter_of_ne {w : KeyedWindow} {key : Int} (hup : key ≠ keyUp)
    (hdown : key ≠ keyDown) : w.selectedAfter key = w.recordSelected := by
  unfold KeyedWindow.selectedAfter
  rw [if_neg (fun h => hup h.2), if_neg (fun h => hdown h.2)]

theorem KeyedWindow.previousAfter_of_kept {w : KeyedWindow} {key : Int} (hkey : key ∈ supportedKeys)
    (hdrop : ¬ w.dropsKey key) : w.previousAfter key = key := if_pos ⟨hkey, hdrop⟩

theorem window_newKeyEvent (levels : LevelNames) (available : String → Bool) (w : KeyedWindow)
    (key : Int) :
    (w.newKeyEvent levels available key).window =
      { w with
        recordSelected := w.selectedAfter key
        previousKey := w.previousAfter key } := by
  unfold KeyedWindow.newKeyEvent
  split_ifs with hkey hf hup hdown hlevel hdigit hempty hprev
  · have hdrop : ¬ w.dropsKey key := fun h => (digit_ne h.2.1).1 hup
    rw [KeyedWindow.previousAfter_of_kept hkey hdrop, KeyedWindow.selectedAfter, if_pos ⟨hf, hup⟩]
    rfl
  · have hdrop : ¬ w.dropsKey key := fun h => (digit_ne h.2.1).2.1 hdown
    rw [KeyedWindow.previousAfter_of_kept hkey hdrop, KeyedWindow.selectedAfter,
      if_neg (fun h => hup h.2), if_pos ⟨hf, hdown⟩]
    rfl
  · have hdrop : ¬ w.dropsKey key := fun h => (digit_ne h.2.1).2.2 hlevel
    rw [KeyedWindow.previousAfter_of_kept hkey hdrop, KeyedWindow.selectedAfter_of_ne hup hdown]
  · have hdrop : w.dropsKey key := ⟨hf, hdigit, hempty⟩
    rw [KeyedWindow.previousAfter, if_neg (fun h => h.2 hdrop),
      KeyedWindow.selectedAfter_of_ne hup hdown]
  · have hdrop : ¬ w.dropsKey key := fun h => hempty h.2.2
    rw [KeyedWindow.previousAfter_of_kept hkey hdrop, KeyedWindow.selectedAfter_of_ne hup hdown]
  · have hdrop : ¬ w.dropsKey key := fun h => hempty h.2.2
    rw [KeyedWindow.previousAfter_of_kept hkey hdrop, KeyedWindow.selectedAfter_of_ne hup hdown]
  · have hdrop : ¬ w.dropsKey key := fun h => hdigit h.2.1
    rw [KeyedWindow.previousAfter_of_kept hkey hdrop, KeyedWindow.selectedAfter_of_ne hup hdown]
  · have hdrop : ¬ w.dropsKey key := fun h => hf h.1
    rw [KeyedWindow.previousAfter_of_kept hkey hdrop, KeyedWindow.selectedAfter,
      if_neg (fun h => hf h.1), if_neg (fun h => hf h.1)]
  · have hup : key ≠ keyUp := by
      rintro rfl
      exact hkey (by decide)
    have hdown : key ≠ keyDown := by
      rintro rfl
      exact hkey (by decide)
    rw [KeyedWindow.previousAfter, if_neg (fun h => hkey h.1),
      KeyedWindow.selectedAfter_of_ne hup hdown]

/-- A request is sent for every digit that is taken as the number of a log level. -/
theorem request_newKeyEvent (levels : LevelNames) (available : String → Bool) (w : KeyedWindow)
    (key : Int) : (w.newKeyEvent levels available key).request = w.requestFor levels key := by
  have hnone : ¬ w.asksLevel key → w.requestFor levels key = none :=
    fun h => if_neg fun hc => h hc.1
  unfold KeyedWindow.newKeyEvent
  split_ifs with hkey hf hup hdown hlevel hdigit hempty hprev
  · rw [hnone fun h => (digit_ne h.2.1).1 hup]
  · rw [hnone fun h => (digit_ne h.2.1).2.1 hdown]
  · rw [hnone fun h => (digit_ne h.2.1).2.2 hlevel]
  · rw [hnone fun h => h.2.2.1 hempty]
  · have hasks : w.asksLevel key := ⟨hf, hdigit, hempty, hprev⟩
    show (w.changeLoggerLevel levels available key).2 = _
    by_cases hname : levels.pretty (verbosityValue key) = "UNKNOWN"
    · rw [KeyedWindow.requestFor, if_neg (fun h => h.2 hname)]
      unfold KeyedWindow.changeLoggerLevel
      rw [if_pos hname]
    · rw [KeyedWindow.requestFor, if_pos ⟨hasks, hname⟩]
      unfold KeyedWindow.changeLoggerLevel
      rw [if_neg hname]
  · rw [hnone fun h => hprev h.2.2.2]
  · rw [hnone fun h => hdigit h.2.1]
  · rw [hnone fun h => hf h.1]
  · rw [hnone fun h => hkey (digit_supported h.2.1)]

/-! ## The rows -/

/-- The row at a position is marked if the position, as the loop counts it, is the selected record. -/
theorem marks_drawRows (selectedRecord : Int16) (nodes : List NodeData) : ∀ i,
    (drawRows selectedRecord (UInt16.ofNat i) nodes).map (·.2) =
      (List.range' i nodes.length).map fun j => decide (((j % 65536 : Nat) : Int) = selectedRecord.toInt) := by
  induction nodes with
  | nil => intro i; rfl
  | cons node nodes ih =>
    intro i
    have hnext : UInt16.ofNat i + 1 = UInt16.ofNat (i + 1) := by
      rw [UInt16.ofNat_add]
      rfl
    unfold drawRows
    rw [hnext, List.length_cons, List.range'_succ, List.map_cons, List.map_cons, ih]
    congr 1

theorem marks_rows (sort : SortById) (w : KeyedWindow) :
    (w.rows sort).map (·.2) = (List.range w.nodes.entries.length).map
      fun i => decide (((i % 65536 : Nat) : Int) = w.recordSelected.toInt) := by
  have hlen : (sort.sort (w.nodes.entries.map (·.2))).length = w.nodes.entries.length := by
    rw [(sort.perm _).length_eq, List.length_map]
  have hmarks := marks_drawRows w.recordSelected (sort.sort (w.nodes.entries.map (·.2))) 0
  rw [hlen, ← List.range_eq_range'] at hmarks
  exact hmarks

theorem mem_drawRows {selectedRecord : Int16} {nodes : List NodeData} {row : NodeData × Bool} :
    ∀ {i}, row ∈ drawRows selectedRecord i nodes → row.1 ∈ nodes := by
  induction nodes with
  | nil =>
    intro i h
    cases h
  | cons node nodes ih =>
    intro i h
    rcases List.mem_cons.mp h with rfl | h
    · exact List.mem_cons_self
    · exact List.mem_cons_of_mem node (ih h)

theorem row_of_mem_rows {sort : SortById} {w : KeyedWindow} {row : NodeData × Bool}
    (h : row ∈ w.rows sort) : ∃ n, w.row n = some row.1 := by
  have hmem := (sort.perm _).mem_iff.mp (mem_drawRows h)
  obtain ⟨e, he, hrow⟩ := List.mem_map.mp hmem
  exact ⟨e.1, hrow ▸ AList.mem_lookup_iff.mpr he⟩

/-! ## What an input changes -/

/-- What an input does to the members of the node window. -/
def Input.node (w : NodeInfoWindow) : Input → NodeInfoWindow
  | .event e => SystemMonitor.step w e
  | .key _ _ => w

section Step

variable (sort : SortById) (levels : LevelNames) (w : KeyedWindow)

theorem updateWindow_eq : w.updateWindow sort =
    { w with selectedNode := (w.updateWindow sort).selectedNode } := by
  unfold KeyedWindow.updateWindow
  split_ifs <;> rfl

theorem toNodeInfoWindow_step (input : Input) :
    (w.step sort levels input).toNodeInfoWindow = input.node w.toNodeInfoWindow := by
  cases input with
  | key key available =>
    show (w.newKeyEvent levels available key).window.toNodeInfoWindow = _
    rw [window_newKeyEvent]
    rfl
  | event e =>
    cases e with
    | update t =>
      show (KeyedWindow.updateWindow sort _).toNodeInfoWindow = _
      rw [updateWindow_eq]
      rfl
    | heartbeat msg | readyToArm msg => rfl

theorem focused_step (input : Input) : (w.step sort levels input).focused = w.focused := by
  cases input with
  | key key available =>
    show (w.newKeyEvent levels available key).window.focused = _
    rw [window_newKeyEvent]
  | event e =>
    cases e with
    | update t =>
      show (KeyedWindow.updateWindow sort _).focused = _
      rw [updateWindow_eq]
    | heartbeat msg | readyToArm msg => rfl

theorem recordSelected_event (e : Event) :
    (w.step sort levels (.event e)).recordSelected = w.recordSelected := by
  cases e with
  | update t =>
    show (KeyedWindow.updateWindow sort _).recordSelected = _
    rw [updateWindow_eq]
  | heartbeat msg | readyToArm msg => rfl

theorem recordSelected_key (key : Int) (available : String → Bool) :
    (w.step sort levels (.key key available)).recordSelected = w.selectedAfter key := by
  show (w.newKeyEvent levels available key).window.recordSelected = _
  rw [window_newKeyEvent]

theorem previousKey_event (e : Event) :
    (w.step sort levels (.event e)).previousKey = w.previousKey := by
  cases e with
  | update t =>
    show (KeyedWindow.updateWindow sort _).previousKey = _
    rw [updateWindow_eq]
  | heartbeat msg | readyToArm msg => rfl

theorem previousKey_key (key : Int) (available : String → Bool) :
    (w.step sort levels (.key key available)).previousKey = w.previousAfter key := by
  show (w.newKeyEvent levels available key).window.previousKey = _
  rw [window_newKeyEvent]

theorem selectedNode_key (key : Int) (available : String → Bool) :
    (w.step sort levels (.key key available)).selectedNode = w.selectedNode := by
  show (w.newKeyEvent levels available key).window.selectedNode = _
  rw [window_newKeyEvent]

end Step

theorem focused_run (sort : SortById) (levels : LevelNames) (w : KeyedWindow) (inputs : List Input) :
    (run (KeyedWindow.step sort levels) w inputs).focused = w.focused := by
  refine run_invariant (I := fun _ (v : KeyedWindow) => v.focused = w.focused) rfl ?_ inputs
  intro past v input h
  rw [focused_step, h]

end SystemMonitor
