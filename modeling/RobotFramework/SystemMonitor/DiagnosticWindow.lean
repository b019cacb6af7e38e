import Mathlib.Algebra.Order.Ring.Rat
import Mathlib.Data.List.AList
import Mathlib.Tactic.Linarith
import RobotFramework.History
import RobotFramework.SystemMonitor.KeyEvents

/-!
# The diagnostics of the system monitor

`DiagnosticWindow` keeps the last diagnostic of each node and type, and the periodic update overwrites
the level of those that are too old. Times are exact, and the drawing of the window is left out.
-/

namespace SystemMonitor

open History

/-! ## Maps -/

section Maps

variable {α β γ : Type} [DecidableEq α]

/-- `m[key]` with something done to it; `operator[]` inserts a default value if the key is new. -/
def atKey (default : β) (m : AList fun _ : α => β) (key : α) (f : β → β) : AList fun _ : α => β :=
  m.insert key (f ((m.lookup key).getD default))

theorem lookup_atKey (default : β) (m : AList fun _ : α => β) (key k : α) (f : β → β) :
    (atKey default m key f).lookup k =
      if key = k then some (f ((m.lookup k).getD default)) else m.lookup k := by
  unfold atKey
  by_cases hk : key = k
  · rw [if_pos hk, ← hk, AList.lookup_insert]
  · rw [if_neg hk, AList.lookup_insert_ne (Ne.symm hk)]

/-- A loop over the values of a map. -/
def mapValues (f : β → γ) (m : AList fun _ : α => β) : AList fun _ : α => γ where
  entries := m.entries.map fun e => ⟨e.1, f e.2⟩
  nodupKeys := m.nodupKeys.map₂ fun _ => f

theorem lookup_mapValues (f : β → γ) (m : AList fun _ : α => β) (k : α) :
    (mapValues f m).lookup k = (m.lookup k).map f :=
  List.dlookup_map₂ k (f := fun _ => f)

end Maps

/-! ## The code -/

/-- `builtin_interfaces::msg::Time`. -/
structure Time where
  sec : Int32
  nanosec : UInt32
  deriving DecidableEq, Repr

/-- `robot_framework_ros2::msg::Diagnostic`. -/
structure Diagnostic where
  timestamp : Time
  nodeName : String
  systemId : UInt8
  subsystemId : UInt8
  processId : UInt8
  diagnosticType : UInt8
  level : UInt8
  diagnosticMessage : UInt8
  description : String
  deriving DecidableEq, Repr

/-- `DiagnosticWindow::NodeDiagnosticMonitor`. -/
structure NodeDiagnosticMonitor where
  nodeDiagnostic : Diagnostic
  lastUpdateSec : Rat
  lastUpdateDeltaSec : Rat
  deriving DecidableEq, Repr

/-- The value `operator[]` inserts. -/
def NodeDiagnosticMonitor.default : NodeDiagnosticMonitor where
  nodeDiagnostic := ⟨⟨0, 0⟩, "", 0, 0, 0, 0, 0, 0, ""⟩
  lastUpdateSec := 0
  lastUpdateDeltaSec := 0

abbrev DiagnosticTypes := AList fun _ : UInt8 => NodeDiagnosticMonitor

/-- `m_nodeDiagnosticMonitors`. -/
abbrev NodeDiagnosticMonitors := AList fun _ : String => DiagnosticTypes

/-- The members of the window that its messages and updates use. -/
structure DiagnosticWindow where
  currentTimeSec : Rat
  hasWindow : Bool
  nodeDiagnosticMonitors : NodeDiagnosticMonitors

namespace DiagnosticWindow

/-- The window as constructed; nothing sets its time before the first update. -/
def initial (currentTimeSec : Rat) (hasWindow : Bool) : DiagnosticWindow where
  currentTimeSec := currentTimeSec
  hasWindow := hasWindow
  nodeDiagnosticMonitors := ∅

/-- `m_nodeDiagnosticMonitors[nodeName][diagnosticType]` with something done to it. -/
def atPair (monitors : NodeDiagnosticMonitors) (nodeName : String) (diagnosticType : UInt8)
    (f : NodeDiagnosticMonitor → NodeDiagnosticMonitor) : NodeDiagnosticMonitors :=
  atKey ∅ monitors nodeName fun types => atKey .default types diagnosticType f

/-- `DiagnosticWindow::newDiagnosticMsg`. -/
def newDiagnosticMsg (w : DiagnosticWindow) (msg : Diagnostic) : DiagnosticWindow :=
  let monitors := atPair w.nodeDiagnosticMonitors msg.nodeName msg.diagnosticType fun m =>
    { m with nodeDiagnostic := msg }
  let monitors := atPair monitors msg.nodeName msg.diagnosticType fun m =>
    { m with lastUpdateSec := w.currentTimeSec }
  { w with nodeDiagnosticMonitors := monitors }

/-- The body of the inner loop of `DiagnosticWindow::update`. -/
def timeOut (levels : LevelNames) (currentTimeSec : Rat) (m : NodeDiagnosticMonitor) :
    NodeDiagnosticMonitor :=
  let m := { m with lastUpdateDeltaSec := currentTimeSec - m.lastUpdateSec }
  if m.lastUpdateDeltaSec > commTimeoutThreshold then
    { m with nodeDiagnostic := { m.nodeDiagnostic with level := UInt8.ofNat levels.unknown } }
  else m

/-- `DiagnosticWindow::update`: the window, and whether it could be drawn. -/
def update (levels : LevelNames) (w : DiagnosticWindow) (currentTimeSec : Rat) : DiagnosticWindow × Bool :=
  ({ w with
      currentTimeSec := currentTimeSec
      nodeDiagnosticMonitors :=
        mapValues (mapValues (timeOut levels currentTimeSec)) w.nodeDiagnosticMonitors }, w.hasWindow)

/-- What happens to the window. -/
inductive Event where
  | diagnostic (msg : Diagnostic)
  | update (currentTimeSec : Rat)
  deriving DecidableEq, Repr

def step (levels : LevelNames) (w : DiagnosticWindow) : Event → DiagnosticWindow
  | .diagnostic msg => w.newDiagnosticMsg msg
  | .update currentTimeSec => (w.update levels currentTimeSec).1

/-! ## The entry of a node and a type -/

variable {levels : LevelNames} {w : DiagnosticWindow} {nodeName : String} {diagnosticType : UInt8}

/-- The diagnostic of a node and a type in the two maps. -/
def find (monitors : NodeDiagnosticMonitors) (nodeName : String) (diagnosticType : UInt8) :
    Option NodeDiagnosticMonitor :=
  (monitors.lookup nodeName).bind fun types => types.lookup diagnosticType

/-- The entry of a node and a type. -/
def entry (w : DiagnosticWindow) (nodeName : String) (diagnosticType : UInt8) :
    Option NodeDiagnosticMonitor := find w.nodeDiagnosticMonitors nodeName diagnosticType

theorem find_atPair (monitors : NodeDiagnosticMonitors) (n : String) (ty : UInt8)
    (f : NodeDiagnosticMonitor → NodeDiagnosticMonitor) (nodeName : String) (diagnosticType : UInt8) :
    find (atPair monitors n ty f) nodeName diagnosticType =
      if n = nodeName ∧ ty = diagnosticType then
        some (f ((find monitors nodeName diagnosticType).getD .default))
      else find monitors nodeName diagnosticType := by
  unfold find atPair
  rw [lookup_atKey]
  by_cases hn : n = nodeName
  · rw [if_pos hn, Option.bind_some, lookup_atKey]
    by_cases hty : ty = diagnosticType
    · rw [if_pos hty, if_pos ⟨hn, hty⟩]
      cases monitors.lookup nodeName <;> rfl
    · rw [if_neg hty, if_neg fun hand => hty hand.2]
      cases monitors.lookup nodeName <;> rfl
  · rw [if_neg hn, if_neg fun hand => hn hand.1]

theorem find_mapValues (f : NodeDiagnosticMonitor → NodeDiagnosticMonitor)
    (monitors : NodeDiagnosticMonitors) (nodeName : String) (diagnosticType : UInt8) :
    find (mapValues (mapValues f) monitors) nodeName diagnosticType =
      (find monitors nodeName diagnosticType).map f := by
  unfold find
  rw [lookup_mapValues]
  cases monitors.lookup nodeName with
  | none => rfl
  | some types => exact lookup_mapValues f types diagnosticType

theorem entry_newDiagnosticMsg (w : DiagnosticWindow) (msg : Diagnostic) (nodeName : String)
    (diagnosticType : UInt8) :
    (w.newDiagnosticMsg msg).entry nodeName diagnosticType =
      if msg.nodeName = nodeName ∧ msg.diagnosticType = diagnosticType then
        some { nodeDiagnostic := msg
               lastUpdateSec := w.currentTimeSec
               lastUpdateDeltaSec :=
                ((w.entry nodeName diagnosticType).getD .default).lastUpdateDeltaSec }
      else w.entry nodeName diagnosticType := by
  show find (atPair _ _ _ _) nodeName diagnosticType = _
  rw [find_atPair, find_atPair]
  by_cases hpair : msg.nodeName = nodeName ∧ msg.diagnosticType = diagnosticType
  · rw [if_pos hpair, if_pos hpair, if_pos hpair]
    rfl
  · rw [if_neg hpair, if_neg hpair, if_neg hpair]
    rfl

/-! ## What is kept of a message -/

/-- The event is a message of a node and a type. -/
def Event.isOf (nodeName : String) (diagnosticType : UInt8) : Event → Bool
  | .diagnostic msg => msg.nodeName = nodeName ∧ msg.diagnosticType = diagnosticType
  | .update _ => false

def Event.time : Event → Option Rat
  | .update t => some t
  | .diagnostic _ => none

/-- The argument of the last update, if there was one. -/
def monitorTime (past : List Event) : Option Rat := lastSome Event.time past

/-- The arguments of the updates do not decrease. -/
def Nondecreasing (events : List Event) : Prop := (events.filterMap Event.time).Pairwise (· ≤ ·)

instance (events : List Event) : Decidable (Nondecreasing events) :=
  inferInstanceAs (Decidable (List.Pairwise _ _))

/-- The update finds a message of a time too old. -/
def Event.late (s : Rat) (e : Event) : Bool := e.time.any fun t => commTimeoutThreshold < t - s

/-- A message with the level unknown if it is too old. -/
def timedOut (levels : LevelNames) (late : Bool) (msg : Diagnostic) : Diagnostic :=
  if late then { msg with level := UInt8.ofNat levels.unknown } else msg

theorem currentTimeSec_step (w : DiagnosticWindow) (e : Event) :
    (step levels w e).currentTimeSec = e.time.getD w.currentTimeSec := by
  cases e <;> rfl

theorem currentTimeSec_run (w : DiagnosticWindow) (past : List Event) :
    (run (step levels) w past).currentTimeSec = (monitorTime past).getD w.currentTimeSec :=
  run_lastSome DiagnosticWindow.currentTimeSec Event.time currentTimeSec_step w past

theorem timeOut_eq (t : Rat) (m : NodeDiagnosticMonitor) :
    timeOut levels t m =
      { nodeDiagnostic := timedOut levels ((Event.update t).late m.lastUpdateSec) m.nodeDiagnostic
        lastUpdateSec := m.lastUpdateSec
        lastUpdateDeltaSec := t - m.lastUpdateSec } := by
  unfold timeOut timedOut Event.late Event.time
  by_cases hlate : commTimeoutThreshold < t - m.lastUpdateSec
  · simp [hlate]
  · simp [hlate]

theorem timedOut_timedOut (msg : Diagnostic) (first second : Bool) :
    timedOut levels second (timedOut levels first msg) = timedOut levels (first || second) msg := by
  cases first <;> cases second <;> rfl

theorem timedOut_spec {late : Prop} [Decidable late] {msg kept : Diagnostic}
    (h : kept = timedOut levels (decide late) msg) :
    kept = { msg with level := kept.level } ∧
      (kept.level = UInt8.ofNat levels.unknown ↔ msg.level = UInt8.ofNat levels.unknown ∨ late) ∧
      (kept.level ≠ UInt8.ofNat levels.unknown → kept = msg) := by
  subst h
  unfold timedOut
  by_cases hlate : late
  · simp [hlate]
  · simp [hlate]

theorem entry_step_of_not_isOf (levels : LevelNames) {e : Event} (he : e.isOf nodeName diagnosticType = false) :
    (step levels w e).entry nodeName diagnosticType =
      (w.entry nodeName diagnosticType).map fun m => e.time.elim m fun t => timeOut levels t m := by
  cases e with
  | diagnostic msg =>
    have hpair : ¬ (msg.nodeName = nodeName ∧ msg.diagnosticType = diagnosticType) := by
      simpa [Event.isOf] using he
    show (w.newDiagnosticMsg msg).entry nodeName diagnosticType = _
    rw [entry_newDiagnosticMsg, if_neg hpair]
    exact (congrFun Option.map_id _).symm
  | update t => exact find_mapValues (timeOut levels t) w.nodeDiagnosticMonitors nodeName diagnosticType

/-- While no message of the pair comes, its entry keeps its message, timed out if an update was late. -/
theorem entry_run_of_not_isOf (levels : LevelNames) {m : NodeDiagnosticMonitor}
    (hentry : w.entry nodeName diagnosticType = some m) (after : List Event)
    (hafter : ∀ e ∈ after, e.isOf nodeName diagnosticType = false) :
    ∃ m', (run (step levels) w after).entry nodeName diagnosticType = some m' ∧
      m'.lastUpdateSec = m.lastUpdateSec ∧
      m'.nodeDiagnostic = timedOut levels (after.any (Event.late m.lastUpdateSec)) m.nodeDiagnostic := by
  induction after using List.reverseRecOn with
  | nil => exact ⟨m, hentry, rfl, rfl⟩
  | append_singleton after e ih =>
    obtain ⟨hbefore, he⟩ := List.forall_mem_append.mp hafter
    obtain ⟨m', hentry', hstamp, hmessage⟩ := ih hbefore
    have hstep := entry_step_of_not_isOf levels (w := run (step levels) w after) (he e (List.mem_singleton_self e))
    rw [hentry', Option.map_some] at hstep
    rw [run_concat, hstep, List.any_append, List.any_cons, List.any_nil, Bool.or_false]
    cases e with
    | diagnostic msg =>
      refine ⟨m', rfl, hstamp, ?_⟩
      rw [show (Event.diagnostic msg).late m.lastUpdateSec = false from rfl, Bool.or_false]
      exact hmessage
    | update t =>
      refine ⟨timeOut levels t m', rfl, ?_, ?_⟩
      · rw [timeOut_eq]
        exact hstamp
      · rw [timeOut_eq, hstamp, hmessage, ← timedOut_timedOut]

theorem entry_isSome_run (levels : LevelNames) (t₀ : Rat) (hasWindow : Bool) (past : List Event)
    (nodeName : String) (diagnosticType : UInt8) :
    ((run (step levels) (initial t₀ hasWindow) past).entry nodeName diagnosticType).isSome ↔
      ∃ e ∈ past, e.isOf nodeName diagnosticType = true := by
  refine run_invariant (I := fun past (v : DiagnosticWindow) =>
    (v.entry nodeName diagnosticType).isSome ↔ ∃ e ∈ past, e.isOf nodeName diagnosticType = true)
    ?_ ?_ past
  · refine iff_of_false (fun hsome => ?_) (fun ⟨e, he, _⟩ => absurd he List.not_mem_nil)
    cases hsome
  intro past v e h
  cases he : e.isOf nodeName diagnosticType with
  | false => simp [entry_step_of_not_isOf levels he, h, he, or_and_right, exists_or]
  | true =>
    cases e with
    | update t => cases he
    | diagnostic msg =>
      have hpair : msg.nodeName = nodeName ∧ msg.diagnosticType = diagnosticType := by
        simpa [Event.isOf] using he
      refine iff_of_true ?_ ⟨_, List.mem_append_right _ (List.mem_singleton_self _), he⟩
      show ((v.newDiagnosticMsg msg).entry nodeName diagnosticType).isSome
      rw [entry_newDiagnosticMsg, if_pos hpair]
      rfl

theorem any_late_concat {s t : Rat} {after : List Event} (hmono : Nondecreasing (after ++ [.update t])) :
    (after ++ [Event.update t]).any (Event.late s) = decide (commTimeoutThreshold < t - s) := by
  unfold Nondecreasing at hmono
  rw [List.filterMap_append, List.pairwise_append] at hmono
  rw [List.any_append, List.any_cons, List.any_nil, Bool.or_false]
  cases hany : after.any (Event.late s) with
  | false =>
    rw [Bool.false_or]
    rfl
  | true =>
    obtain ⟨e, he, hlate⟩ := List.any_eq_true.mp hany
    cases e with
    | diagnostic msg => cases hlate
    | update u =>
      have hut : u ≤ t := hmono.2.2 u (List.mem_filterMap.mpr ⟨_, he, rfl⟩) t (by simp [Event.time])
      have hus : commTimeoutThreshold < u - s := by simpa [Event.late, Event.time] using hlate
      rw [Bool.true_or, eq_comm, decide_eq_true_iff]
      linarith

/-- **Latest wins, with a timeout.** After an update a pair has an entry exactly if a message of the pair
was received. It is the last one, but for its level if the message is too old; and a message leaves the
entries of other pairs as they are. -/
theorem latest_wins (levels : LevelNames) (t₀ : Rat) (hasWindow : Bool) (past : List Event) (t : Rat)
    (hmono : Nondecreasing (past ++ [.update t])) (nodeName : String) (diagnosticType : UInt8) :
    (((run (step levels) (initial t₀ hasWindow) (past ++ [.update t])).entry nodeName
        diagnosticType).isSome ↔ ∃ e ∈ past, e.isOf nodeName diagnosticType = true) ∧
      (∀ before msg after, past = before ++ .diagnostic msg :: after →
        (Event.diagnostic msg).isOf nodeName diagnosticType = true →
        (∀ e ∈ after, e.isOf nodeName diagnosticType = false) →
        ∃ m, (run (step levels) (initial t₀ hasWindow) (past ++ [.update t])).entry nodeName
            diagnosticType = some m ∧
          m.nodeDiagnostic = { msg with level := m.nodeDiagnostic.level } ∧
          (m.nodeDiagnostic.level = UInt8.ofNat levels.unknown ↔
            msg.level = UInt8.ofNat levels.unknown ∨
              commTimeoutThreshold < t - (monitorTime before).getD t₀) ∧
          (m.nodeDiagnostic.level ≠ UInt8.ofNat levels.unknown → m.nodeDiagnostic = msg)) ∧
      ∀ (w : DiagnosticWindow) msg, (Event.diagnostic msg).isOf nodeName diagnosticType = false →
        (w.newDiagnosticMsg msg).entry nodeName diagnosticType = w.entry nodeName diagnosticType := by
  refine ⟨?_, ?_, fun w msg hother => ?_⟩
  · rw [entry_isSome_run]
    simp [Event.isOf, or_and_right, exists_or]
  · rintro before msg after rfl hpair hafter
    have hmono' : Nondecreasing (after ++ [.update t]) := by
      unfold Nondecreasing at hmono ⊢
      rw [List.append_assoc, List.filterMap_append, List.cons_append] at hmono
      exact (List.pairwise_append.mp hmono).2.1
    have hwritten : msg.nodeName = nodeName ∧ msg.diagnosticType = diagnosticType := by
      simpa [Event.isOf] using hpair
    have hentry := entry_newDiagnosticMsg (run (step levels) (initial t₀ hasWindow) before) msg nodeName
      diagnosticType
    rw [if_pos hwritten] at hentry
    obtain ⟨m, hm, -, hmessage⟩ := entry_run_of_not_isOf levels hentry
      (after ++ [.update t]) (List.forall_mem_append.mpr ⟨hafter, by simp [Event.isOf]⟩)
    rw [any_late_concat hmono'] at hmessage
    have hrun : run (step levels) (initial t₀ hasWindow) (before ++ .diagnostic msg :: after ++ [.update t]) =
        run (step levels) ((run (step levels) (initial t₀ hasWindow) before).newDiagnosticMsg msg)
          (after ++ [.update t]) := by
      rw [List.append_assoc, List.cons_append, run_append, run_cons]
      rfl
    rw [hrun]
    refine ⟨m, hm, ?_⟩
    rw [currentTimeSec_run] at hmessage
    exact timedOut_spec hmessage
  · have hpair : ¬ (msg.nodeName = nodeName ∧ msg.diagnosticType = diagnosticType) := by
      simpa [Event.isOf] using hother
    rw [entry_newDiagnosticMsg, if_neg hpair]

def warning : Diagnostic := ⟨⟨5, 0⟩, "imu_node1", 1, 2, 3, 4, 4, 5, "late"⟩

/-- The warning, and the same one again after it has timed out. -/
def warningTwice : List Event :=
  [.update 0, .diagnostic warning, .update 6, .diagnostic warning]

/-- At time 9 the second one is kept as it came. -/
theorem warningTwice_entry :
    ∃ m, (run (step loggerLevels) (initial 0 true) (warningTwice ++ [.update 9])).entry "imu_node1" 4 =
        some m ∧ m.nodeDiagnostic = warning := by
  obtain ⟨-, hlast, -⟩ := latest_wins loggerLevels 0 true warningTwice 9 (by decide +kernel) "imu_node1" 4
  obtain ⟨m, hm, -, hlevel, hkept⟩ := hlast [.update 0, .diagnostic warning, .update 6] warning [] rfl
    (by decide) (by simp)
  refine ⟨m, hm, hkept fun hunknown => ?_⟩
  have hlate := hlevel.mp hunknown
  revert hlate
  decide +kernel

end DiagnosticWindow

end SystemMonitor
