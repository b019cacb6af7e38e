import RobotFramework.BaseNode.PublishedDiagnostics
import RobotFramework.LossyNetwork
import RobotFramework.Systems.HealthNetwork
import RobotFramework.SystemMonitor.DiagnosticWindow

/-!
# Diagnostics over the network

Any number of base nodes publish diagnostics, each on its own topic, and the system monitor keeps the last one
it has received for each node name and type. Whatever is lost or late, what it keeps was published by a node of
that name while it was running, and a timing diagnostic was true when it was published
(`diagnostic_network_safe`). If the messages of a node arrive in their order, and all of them have arrived, the
monitor shows the timing diagnostic of its last 1 Hz callback, whatever the user code of the node publishes
(`last_report_shown`).
-/

namespace Systems

open History LossyNetwork
open BaseNode (Program MainEvent)
open SystemMonitor (Diagnostic DiagnosticWindow LevelNames Time commTimeoutThreshold)

/-! ## The code -/

/-- The numbers that `TranslateUtility::convert` casts the enumerations of a diagnostic to. -/
structure DiagnosticNumbers where
  diagnosticType : BaseNode.DiagnosticType → UInt8
  level : BaseNode.Level → UInt8
  diagnosticMessage : BaseNode.DiagnosticMessage → UInt8

/-- `TranslateUtility::convert` of a diagnostic, with the time and the name that `baseRun1Hz` writes. -/
def DiagnosticNumbers.convert (numbers : DiagnosticNumbers) (timestamp : Time) (nodeName : String)
    (data : BaseNode.Diagnostic) : Diagnostic where
  timestamp := timestamp
  nodeName := nodeName
  systemId := .ofNat data.systemID
  subsystemId := .ofNat data.subsystemID
  processId := .ofNat data.processID
  diagnosticType := numbers.diagnosticType data.diagnosticType
  level := numbers.level data.level
  diagnosticMessage := numbers.diagnosticMessage data.diagnosticMessage
  description := data.description

/-- An event of a program, and the clock at each diagnostic that it publishes. -/
structure ClockedEvent where
  event : MainEvent
  now : Nat → Time

/-- The nodes and the diagnostics window of the monitor. -/
def diagnosticNetwork (d : Deployment) (numbers : DiagnosticNumbers) (levels : LevelNames) :
    System String Program ClockedEvent Diagnostic DiagnosticWindow Rat where
  act n q e :=
    let (q, published) := q.step (d.parameters n) e.event
    (q, (BaseNode.diagnosticsOf published).mapIdx fun k => numbers.convert (e.now k) (d.getName n))
  receive w _ msg := w.newDiagnosticMsg msg
  observe w currentTimeSec := (w.update levels currentTimeSec).1

/-- The nodes and the monitor as constructed. -/
def diagnosticStart (t₀ : Rat) (hasWindow : Bool) : World String Program Diagnostic DiagnosticWindow :=
  .initial (fun _ => .initial) (.initial t₀ hasWindow)

def diagnosticRun (d : Deployment) (numbers : DiagnosticNumbers) (levels : LevelNames) (t₀ : Rat)
    (hasWindow : Bool) (actions : List (Action String ClockedEvent Rat)) :
    World String Program Diagnostic DiagnosticWindow :=
  run (step (diagnosticNetwork d numbers levels)) (diagnosticStart t₀ hasWindow) actions

/-- The program of a node after some events. -/
def programOf (d : Deployment) (n : String) (events : List ClockedEvent) : Program :=
  BaseNode.programRun (d.parameters n) (events.map (·.event))

/-- The callbacks of a node that have run in some events. -/
def callbacksOf (d : Deployment) (n : String) (events : List ClockedEvent) : List BaseNode.Callback :=
  BaseNode.callbacks (d.parameters n) (events.map (·.event))

variable {d : Deployment} {numbers : DiagnosticNumbers} {levels : LevelNames}

/-! ## What a node sends -/

theorem programOf_eq (d : Deployment) (numbers : DiagnosticNumbers) (levels : LevelNames) (n : String)
    (events : List ClockedEvent) :
    run (fun q e => ((diagnosticNetwork d numbers levels).act n q e).1) .initial events = programOf d n events := by
  unfold programOf BaseNode.programRun run
  rw [List.foldl_map]
  rfl

theorem programOf_append (d : Deployment) (numbers : DiagnosticNumbers) (levels : LevelNames) (n : String)
    (past later : List ClockedEvent) :
    run (fun q e => ((diagnosticNetwork d numbers levels).act n q e).1) (programOf d n past) later =
      programOf d n (past ++ later) := by
  rw [← programOf_eq d numbers levels n past, ← programOf_eq d numbers levels n (past ++ later), run_append]

theorem act_sent (n : String) (q : Program) (e : ClockedEvent) :
    ((diagnosticNetwork d numbers levels).act n q e).2 =
      (BaseNode.diagnosticsOf (q.step (d.parameters n) e.event).2).mapIdx fun k =>
        numbers.convert (e.now k) (d.getName n) := rfl

/-- What a node has sent, by its events. -/
def sentBy (d : Deployment) (numbers : DiagnosticNumbers) (levels : LevelNames) (n : String)
    (events : List ClockedEvent) : List Diagnostic :=
  emitted (fun q e => ((diagnosticNetwork d numbers levels).act n q e).1)
    (fun q e => ((diagnosticNetwork d numbers levels).act n q e).2) .initial events

theorem sent_eq (t₀ : Rat) (hasWindow : Bool) (actions : List (Action String ClockedEvent Rat)) (n : String) :
    (diagnosticRun d numbers levels t₀ hasWindow actions).sent n =
      sentBy d numbers levels n (eventsOf n actions) :=
  (party_run (diagnosticNetwork d numbers levels) _ _ n actions).2

theorem sentBy_append (n : String) (past later : List ClockedEvent) :
    sentBy d numbers levels n (past ++ later) =
      sentBy d numbers levels n past ++
        emitted (fun q e => ((diagnosticNetwork d numbers levels).act n q e).1)
          (fun q e => ((diagnosticNetwork d numbers levels).act n q e).2)
          (programOf d n past) later := by
  unfold sentBy
  rw [emitted_append, programOf_eq]

theorem exists_of_mem_sentBy {n : String} {events : List ClockedEvent} {msg : Diagnostic}
    (h : msg ∈ sentBy d numbers levels n events) :
    ∃ past e later, events = past ++ e :: later ∧
      ∃ x ∈ BaseNode.diagnosticsOf ((programOf d n past).step (d.parameters n) e.event).2,
        ∃ k, msg = numbers.convert (e.now k) (d.getName n) x := by
  obtain ⟨past, e, later, hsplit, hmsg⟩ := mem_emitted h
  rw [programOf_eq, act_sent] at hmsg
  obtain ⟨k, hk, hconvert⟩ := List.mem_mapIdx.mp hmsg
  exact ⟨past, e, later, hsplit, _, List.getElem_mem hk, k, hconvert.symm⟩

/-! ## What the window keeps -/

/-- A kept diagnostic was received, and its level may have been overwritten since. -/
def Kept (levels : LevelNames) (sent : String → List Diagnostic) (nodeName : String) (diagnosticType : UInt8)
    (kept : Diagnostic) : Prop :=
  ∃ n, ∃ msg ∈ sent n, msg.nodeName = nodeName ∧ msg.diagnosticType = diagnosticType ∧
    (kept = msg ∨ kept = { msg with level := UInt8.ofNat levels.unknown })

/-- Every entry of the window was sent under its name and type. -/
def Backed (levels : LevelNames) (sent : String → List Diagnostic) (w : DiagnosticWindow) : Prop :=
  ∀ nodeName diagnosticType m, w.entry nodeName diagnosticType = some m →
    Kept levels sent nodeName diagnosticType m.nodeDiagnostic

theorem Kept.grows {sent sent' : String → List Diagnostic} (h : Grows sent sent') {nodeName : String}
    {diagnosticType : UInt8} {kept : Diagnostic} (hkept : Kept levels sent nodeName diagnosticType kept) :
    Kept levels sent' nodeName diagnosticType kept := by
  obtain ⟨n, msg, hmem, hrest⟩ := hkept
  exact ⟨n, msg, h n hmem, hrest⟩

theorem Backed.receive {sent : String → List Diagnostic} {w : DiagnosticWindow} (h : Backed levels sent w)
    {n : String} {msg : Diagnostic} (hmem : msg ∈ sent n) : Backed levels sent (w.newDiagnosticMsg msg) := by
  intro nodeName diagnosticType m hm
  rw [DiagnosticWindow.entry_newDiagnosticMsg] at hm
  split_ifs at hm with hpair
  · rw [← Option.some.inj hm]
    exact ⟨n, msg, hmem, hpair.1, hpair.2, Or.inl rfl⟩
  · exact h nodeName diagnosticType m hm

theorem Backed.update {sent : String → List Diagnostic} {w : DiagnosticWindow} (h : Backed levels sent w)
    (t : Rat) : Backed levels sent (w.update levels t).1 := by
  intro nodeName diagnosticType m hm
  obtain ⟨before, hbefore, rfl⟩ := Option.map_eq_some_iff.mp
    ((DiagnosticWindow.find_mapValues (DiagnosticWindow.timeOut levels t) w.nodeDiagnosticMonitors nodeName
      diagnosticType).symm.trans hm)
  obtain ⟨n, msg, hmem, hname, htype, hkept⟩ := h nodeName diagnosticType before hbefore
  refine ⟨n, msg, hmem, hname, htype, ?_⟩
  rw [DiagnosticWindow.timeOut_eq]
  unfold DiagnosticWindow.timedOut
  dsimp only
  rcases hkept with hkept | hkept
  · rw [hkept]
    split_ifs
    · exact Or.inr rfl
    · exact Or.inl rfl
  · rw [hkept]
    split_ifs
    · exact Or.inr rfl
    · exact Or.inr rfl

theorem diagnostic_rule (d : Deployment) (numbers : DiagnosticNumbers) (levels : LevelNames) :
    Rule (diagnosticNetwork d numbers levels) (fun _ _ => True) (fun n msg => msg.nodeName = d.getName n)
      (Backed levels) where
  act n q e _ := by
    refine ⟨trivial, fun msg hmsg => ?_⟩
    obtain ⟨k, hk, hconvert⟩ := List.mem_mapIdx.mp hmsg
    rw [← hconvert]
    rfl
  grows sent sent' w hgrows h nodeName diagnosticType m hm := (h nodeName diagnosticType m hm).grows hgrows
  receive sent w n msg h hmem _ := h.receive hmem
  observe sent w t h := h.update t

theorem backed_initial (t₀ : Rat) (hasWindow : Bool) :
    Backed levels (fun _ => []) (DiagnosticWindow.initial t₀ hasWindow) := by
  intro nodeName diagnosticType m hm
  cases hm

theorem diagnostic_holds (d : Deployment) (numbers : DiagnosticNumbers) (levels : LevelNames) (t₀ : Rat)
    (hasWindow : Bool) (actions : List (Action String ClockedEvent Rat)) :
    Holds (fun _ _ => True) (fun n msg => msg.nodeName = d.getName n) (Backed levels)
      (diagnosticRun d numbers levels t₀ hasWindow actions) :=
  (diagnostic_rule d numbers levels).holds_run (fun _ => trivial) (backed_initial t₀ hasWindow) actions

/-- A diagnostic that a 1 Hz callback publishes: one of the user, or the timing diagnostic, which describes
the callbacks that have run. -/
def Truthful (d : Deployment) (n : String) (past : List ClockedEvent) (x : BaseNode.Diagnostic) : Prop :=
  x ∈ (programOf d n past).node.user.diagnostics ∨
    BaseNode.TimingReport (programOf d n past).node.loopRates (callbacksOf d n past) x

theorem published_of_mem_sentBy {n : String} {events : List ClockedEvent} {msg : Diagnostic}
    (h : msg ∈ sentBy d numbers levels n events) :
    ∃ past c now later x k, events = past ++ ⟨.fire c, now⟩ :: later ∧ (programOf d n past).Publishes c ∧
      (programOf d n past).node.nodeState = .running ∧ Truthful d n past x ∧
      msg = numbers.convert (now k) (d.getName n) x := by
  obtain ⟨past, ⟨event, now⟩, later, hsplit, x, hx, k, hmsg⟩ := exists_of_mem_sentBy h
  have hreports : (programOf d n past).Reports (callbacksOf d n past) := BaseNode.reports_run _ _
  rcases BaseNode.diagnosticsOf_step (d.parameters n) (programOf d n past) event with
    ⟨c, rfl, hpublishes, hpublished⟩ | ⟨-, hpublished⟩
  · rw [hpublished] at hx
    refine ⟨past, c, now, later, x, k, hsplit, hpublishes, ?_, ?_, hmsg⟩
    · exact (hreports.valid.spins hpublishes.fires.1).running hpublishes.fires.2
    · rcases List.mem_append.mp hx with hx | hx
      · exact Or.inl hx
      · rw [List.mem_singleton.mp hx]
        exact Or.inr hreports.described.report
  · rw [hpublished] at hx
    cases hx

/-- **Nothing is made up.** After every interleaving of any number of nodes with the monitor, whatever is lost
or late: what the monitor keeps for a name and a type was published, but for its level if that is unknown, by a
1 Hz callback of a node of that name that was running. It is a diagnostic that the user code of the node had
set, or the timing diagnostic of the node, which says that there was no error exactly if every loop was on
time, and else describes the last overrun among the callbacks that had run. -/
theorem diagnostic_network_safe (d : Deployment) (numbers : DiagnosticNumbers) (levels : LevelNames) (t₀ : Rat)
    (hasWindow : Bool) (actions : List (Action String ClockedEvent Rat)) :
    ∀ nodeName diagnosticType m,
      (diagnosticRun d numbers levels t₀ hasWindow actions).observer.entry nodeName diagnosticType = some m →
      ∃ n past c now later x k,
        d.getName n = nodeName ∧ numbers.diagnosticType x.diagnosticType = diagnosticType ∧
        eventsOf n actions = past ++ ⟨.fire c, now⟩ :: later ∧
        (programOf d n past).Publishes c ∧ (programOf d n past).node.nodeState = .running ∧
        Truthful d n past x ∧
        (m.nodeDiagnostic = numbers.convert (now k) nodeName x ∨
          m.nodeDiagnostic =
            { numbers.convert (now k) nodeName x with level := UInt8.ofNat levels.unknown }) := by
  intro nodeName diagnosticType m hm
  have hholds := diagnostic_holds d numbers levels t₀ hasWindow actions
  obtain ⟨n, msg, hmem, hname, htype, hkept⟩ := hholds.observer nodeName diagnosticType m hm
  rw [sent_eq] at hmem
  obtain ⟨past, c, now, later, x, k, hsplit, hpublishes, hrunning, htruthful, rfl⟩ := published_of_mem_sentBy hmem
  refine ⟨n, past, c, now, later, x, k, hname, htype, hsplit, hpublishes, hrunning, htruthful, ?_⟩
  rw [← hname]
  exact hkept

/-! ## When everything has arrived -/

/-- The last 1 Hz callback of a node among its events. -/
structure LastReport (d : Deployment) (n : String) (events past : List ClockedEvent) (c : BaseNode.Callback)
    (now : Nat → Time) (later : List ClockedEvent) : Prop where
  split : events = past ++ ⟨.fire c, now⟩ :: later
  publishes : (programOf d n past).Publishes c
  last : ∀ before e rest, later = before ++ e :: rest → ∀ c', e.event = .fire c' →
    ¬ (programOf d n (past ++ ⟨.fire c, now⟩ :: before)).Publishes c'

theorem LastReport.sentBy (numbers : DiagnosticNumbers) (levels : LevelNames) {n : String}
    {events past later : List ClockedEvent} {c : BaseNode.Callback} {now : Nat → Time} (h : LastReport d n events past c now later) :
    ∃ earlier k, Systems.sentBy d numbers levels n events =
      earlier ++ [numbers.convert (now k) (d.getName n)
        (BaseNode.publishedTimingDiagnostic (programOf d n past).timing)] := by
  have hnothing : emitted (fun q e => ((diagnosticNetwork d numbers levels).act n q e).1)
      (fun q e => ((diagnosticNetwork d numbers levels).act n q e).2)
      (programOf d n (past ++ [⟨.fire c, now⟩])) later = [] := by
    rw [List.eq_nil_iff_forall_not_mem]
    intro msg hmsg
    obtain ⟨before, e, rest, hsplit, hsent⟩ := mem_emitted hmsg
    have hlast := h.last before e rest hsplit
    rw [programOf_append, List.append_assoc, List.singleton_append, act_sent] at hsent
    obtain ⟨k, hk, -⟩ := List.mem_mapIdx.mp hsent
    rcases BaseNode.diagnosticsOf_step (d.parameters n)
      (programOf d n (past ++ ⟨.fire c, now⟩ :: before)) e.event with ⟨c', he, hpublishes, -⟩ | ⟨-, hnone⟩
    · exact hlast c' he hpublishes
    · rw [hnone] at hk
      exact absurd hk (Nat.not_lt_zero k)
  have hcallback : ((diagnosticNetwork d numbers levels).act n (programOf d n past) ⟨.fire c, now⟩).2 =
      ((programOf d n past).node.user.diagnostics.mapIdx fun k => numbers.convert (now k) (d.getName n)) ++
        [numbers.convert (now (programOf d n past).node.user.diagnostics.length) (d.getName n)
          (BaseNode.publishedTimingDiagnostic (programOf d n past).timing)] := by
    rw [act_sent]
    rcases BaseNode.diagnosticsOf_step (d.parameters n) (programOf d n past) (.fire c) with
      ⟨c', -, -, hpublished⟩ | ⟨hnot, -⟩
    · rw [hpublished, List.mapIdx_concat]
    · exact absurd h.publishes (hnot c rfl)
  have hsent : Systems.sentBy d numbers levels n events =
      Systems.sentBy d numbers levels n past ++
        ((diagnosticNetwork d numbers levels).act n (programOf d n past) ⟨.fire c, now⟩).2 := by
    rw [h.split, ← List.singleton_append, ← List.append_assoc, sentBy_append, hnothing, List.append_nil,
      sentBy_append, emitted, emitted, List.append_nil]
  rw [hcallback, ← List.append_assoc] at hsent
  exact ⟨_, _, hsent⟩

/-- The window takes an input as an event. -/
def windowEvent : Input String Diagnostic Rat → DiagnosticWindow.Event
  | .receive _ msg => .diagnostic msg
  | .observe t => .update t

theorem window_run (d : Deployment) (numbers : DiagnosticNumbers) (levels : LevelNames) (w : DiagnosticWindow)
    (taken : List (Input String Diagnostic Rat)) :
    run (diagnosticNetwork d numbers levels).take w taken =
      run (DiagnosticWindow.step levels) w (taken.map windowEvent) := by
  unfold run
  rw [List.foldl_map]
  congr 1
  funext w input
  cases input <;> rfl

theorem times_windowEvent (taken : List (Input String Diagnostic Rat)) :
    (taken.map windowEvent).filterMap DiagnosticWindow.Event.time = taken.filterMap Input.observation := by
  rw [List.filterMap_map]
  congr 1
  funext input
  cases input <;> rfl

theorem observer_update (t₀ t : Rat) (hasWindow : Bool) (actions : List (Action String ClockedEvent Rat)) :
    (diagnosticRun d numbers levels t₀ hasWindow (actions ++ [.observe t])).observer =
      run (DiagnosticWindow.step levels) (.initial t₀ hasWindow)
        ((inputs (diagnosticNetwork d numbers levels) (diagnosticStart t₀ hasWindow) actions).map windowEvent ++
          [.update t]) := by
  have hbefore : (diagnosticRun d numbers levels t₀ hasWindow actions).observer =
      run (diagnosticNetwork d numbers levels).take (.initial t₀ hasWindow)
        (inputs (diagnosticNetwork d numbers levels) (diagnosticStart t₀ hasWindow) actions) :=
    observer_run _ _ actions
  rw [run_concat, ← window_run d numbers levels, ← hbefore]
  unfold diagnosticRun
  rw [run_concat]
  rfl

theorem not_isOf_of_ne {t₀ : Rat} {hasWindow : Bool} {actions : List (Action String ClockedEvent Rat)}
    {n : String} (hname : ∀ k, d.getName k = d.getName n → k = n)
    {input : Input String Diagnostic Rat}
    (hmem : input ∈ inputs (diagnosticNetwork d numbers levels) (diagnosticStart t₀ hasWindow) actions)
    (hother : ∀ x, input ≠ .receive n x) (diagnosticType : UInt8) :
    (windowEvent input).isOf (d.getName n) diagnosticType = false := by
  cases input with
  | observe u => rfl
  | receive k msg =>
    have hsender : msg.nodeName = d.getName k :=
      (diagnostic_rule d numbers levels).input (fun _ => trivial) (backed_initial t₀ hasWindow) hmem
    have hk : ¬ msg.nodeName = d.getName n := by
      intro hsame
      obtain rfl := hname k (hsender.symm.trans hsame)
      exact hother msg rfl
    exact decide_eq_false fun hpair => hk hpair.1

/-- When a message that comes after some inputs is received. -/
def arrivalTime (d : Deployment) (numbers : DiagnosticNumbers) (levels : LevelNames) (t₀ : Rat) (hasWindow : Bool)
    (taken : List (Input String Diagnostic Rat)) : Rat :=
  (run (diagnosticNetwork d numbers levels).take (.initial t₀ hasWindow) taken).currentTimeSec

/-- **The last report is shown.** Take any run of the network that keeps the messages of a node in their order
and has delivered all of them, with a clock of the monitor that is not set back and no other node of that name.
An update of the monitor then shows the timing diagnostic of the last 1 Hz callback of the node, whatever other
diagnostics its user code has published: no error exactly if every loop was on time there, and else the last
overrun; the level is unknown if the message came longer than the timeout ago. -/
theorem last_report_shown (d : Deployment) (numbers : DiagnosticNumbers) (levels : LevelNames) (t₀ : Rat)
    (hasWindow : Bool) (actions : List (Action String ClockedEvent Rat)) (n : String) (t : Rat)
    {past later : List ClockedEvent} {c : BaseNode.Callback} {now : Nat → Time}
    (hlast : LastReport d n (eventsOf n actions) past c now later)
    (hname : ∀ k, d.getName k = d.getName n → k = n) (horder : InOrder n actions)
    (hflight : (diagnosticRun d numbers levels t₀ hasWindow actions).inFlight n = [])
    (hmono : (actions.filterMap Action.observation ++ [t]).Pairwise (· ≤ ·)) :
    let x := BaseNode.publishedTimingDiagnostic (programOf d n past).timing
    BaseNode.TimingReport (programOf d n past).node.loopRates (callbacksOf d n past) x ∧
      ∃ k before after m, inputs (diagnosticNetwork d numbers levels) (diagnosticStart t₀ hasWindow) actions =
          before ++ .receive n (numbers.convert (now k) (d.getName n) x) :: after ∧
        (diagnosticRun d numbers levels t₀ hasWindow (actions ++ [.observe t])).observer.entry (d.getName n)
          (numbers.diagnosticType .timing) = some m ∧
        m.nodeDiagnostic =
          if commTimeoutThreshold < t - arrivalTime d numbers levels t₀ hasWindow before then
            { numbers.convert (now k) (d.getName n) x with level := UInt8.ofNat levels.unknown }
          else numbers.convert (now k) (d.getName n) x := by
  have hreports : (programOf d n past).Reports (callbacksOf d n past) := BaseNode.reports_run _ _
  have hreport := hreports.described.report
  obtain ⟨earlier, k, hsent⟩ := hlast.sentBy numbers levels
  dsimp only
  generalize BaseNode.publishedTimingDiagnostic (programOf d n past).timing = x at hreport hsent ⊢
  -- all that was sent was received, and the report is the last of it
  have hreceived : receivedOf n (inputs (diagnosticNetwork d numbers levels) (diagnosticStart t₀ hasWindow)
      actions) = earlier ++ [numbers.convert (now k) (d.getName n) x] := by
    have harrived := received_inOrder (diagnosticNetwork d numbers levels) (fun _ => Program.initial)
      (DiagnosticWindow.initial t₀ hasWindow) actions horder
    rw [← hsent, ← sent_eq t₀ hasWindow]
    exact (List.append_nil _).symm.trans ((congrArg _ hflight.symm).trans harrived)
  obtain ⟨before, after, hinputs, hafter⟩ := exists_of_receivedOf hreceived
  -- the window from then on
  have hentry := DiagnosticWindow.entry_newDiagnosticMsg
    (run (DiagnosticWindow.step levels) (.initial t₀ hasWindow) (before.map windowEvent))
    (numbers.convert (now k) (d.getName n) x) (d.getName n) (numbers.diagnosticType .timing)
  rw [if_pos ⟨rfl, congrArg numbers.diagnosticType hreport.diagnosticType⟩] at hentry
  have hothers : ∀ e ∈ after.map windowEvent, e.isOf (d.getName n) (numbers.diagnosticType .timing) = false := by
    intro e he
    obtain ⟨input, hinput, rfl⟩ := List.mem_map.mp he
    have hmem : input ∈ inputs (diagnosticNetwork d numbers levels) (diagnosticStart t₀ hasWindow) actions := by
      rw [hinputs]
      exact List.mem_append_right _ (List.mem_cons_of_mem _ hinput)
    exact not_isOf_of_ne hname hmem (fun x hx => hafter x (hx ▸ hinput)) _
  obtain ⟨m, hm, -, hmessage⟩ := DiagnosticWindow.entry_run_of_not_isOf levels hentry
    (after.map windowEvent ++ [.update t])
    (List.forall_mem_append.mpr ⟨hothers, by simp [DiagnosticWindow.Event.isOf]⟩)
  have hlater : DiagnosticWindow.Nondecreasing (after.map windowEvent ++ [.update t]) := by
    rw [← observations_inputs (diagnosticNetwork d numbers levels) (diagnosticStart t₀ hasWindow), hinputs,
      List.filterMap_append, List.append_assoc] at hmono
    unfold DiagnosticWindow.Nondecreasing
    rw [List.filterMap_append, times_windowEvent]
    exact (List.pairwise_append.mp hmono).2.1
  rw [DiagnosticWindow.any_late_concat hlater] at hmessage
  refine ⟨hreport, k, before, after, m, hinputs, ?_, ?_⟩
  · rw [observer_update, hinputs, List.map_append, List.map_cons, List.append_assoc, List.cons_append, run_append,
      run_cons]
    exact hm
  · rw [hmessage]
    unfold DiagnosticWindow.timedOut arrivalTime
    rw [window_run]
    simp only [decide_eq_true_eq]

/-- The enumerations numbered in some order. -/
def someNumbers : DiagnosticNumbers where
  diagnosticType
    | .timing => 4
    | .other code => .ofNat code
  level
    | .unknown => 0
    | .debug => 1
    | .info => 2
    | .notice => 3
    | .warn => 4
    | .error => 5
    | .fatal => 6
    | .noError => 7
  diagnosticMessage
    | .noError => 1
    | .initializing => 2
    | .diagnosticFailed => 3
    | .other code => .ofNat code

/-- User code that publishes a timing diagnostic of its own. -/
def ownDiagnostic : BaseNode.UserData → BaseNode.UserData := fun user =>
  { user with diagnostics := [⟨1, 2, 3, .timing, .info, .noError, "No Loop Timing Issues"⟩] }

/-- The node starts, and its 10 Hz loop is late. -/
def lateLoop : List ClockedEvent :=
  [.init successfulInit, .start, .fire ⟨.loop100Hz, 0, ownDiagnostic⟩, .fire ⟨.loop10Hz, 1 / 5, id⟩].map
    fun e => ⟨e, fun _ => ⟨5, 0⟩⟩

/-- Then the 1 Hz callback comes, and both of its messages arrive. -/
def lateLoopArrives : List (Action String ClockedEvent Rat) :=
  lateLoop.map (.act "/imu") ++
    [.observe 1, .act "/imu" ⟨.fire ⟨.loop1Hz, 0, id⟩, fun _ => ⟨6, 0⟩⟩, .deliver "/imu" 0, .deliver "/imu" 0]

theorem lateLoop_safe :
    ∃ past c now later x, eventsOf "/imu" lateLoopArrives = past ++ ⟨.fire c, now⟩ :: later ∧
      (programOf oneLoopDeployment "/imu" past).Publishes c ∧ Truthful oneLoopDeployment "/imu" past x ∧
      someNumbers.diagnosticType x.diagnosticType = 4 := by
  obtain ⟨m, hm⟩ : ∃ m, (diagnosticRun oneLoopDeployment someNumbers SystemMonitor.loggerLevels 0 true
      lateLoopArrives).observer.entry "/imu" 4 = some m := Option.isSome_iff_exists.mp (by decide +kernel)
  obtain ⟨n, past, c, now, later, x, -, hname, htype, hsplit, hpublishes, -, hx, -⟩ :=
    diagnostic_network_safe oneLoopDeployment someNumbers SystemMonitor.loggerLevels 0 true lateLoopArrives "/imu" 4 m
      hm
  obtain rfl : n = "/imu" := hname
  exact ⟨past, c, now, later, x, hsplit, hpublishes, hx, htype⟩

theorem lateLoop_shown :
    ∃ m, (diagnosticRun oneLoopDeployment someNumbers SystemMonitor.loggerLevels 0 true
        (lateLoopArrives ++ [.observe 2])).observer.entry "/imu" 4 = some m ∧
      m.nodeDiagnostic.diagnosticMessage = 3 := by
  have hlast : LastReport oneLoopDeployment "/imu" (eventsOf "/imu" lateLoopArrives) lateLoop ⟨.loop1Hz, 0, id⟩
      (fun _ => ⟨6, 0⟩) [] := by
    refine ⟨rfl, ⟨by decide +kernel, rfl⟩, fun before e rest hsplit => ?_⟩
    simp at hsplit
  obtain ⟨hreport, k, before, after, m, -, hm, hkept⟩ :=
    last_report_shown oneLoopDeployment someNumbers SystemMonitor.loggerLevels 0 true lateLoopArrives "/imu" 2 hlast
      (fun _ h => h) (fun k => by simp [lateLoopArrives, lateLoop]) (by decide +kernel) (by decide +kernel)
  have hlate : BaseNode.lastOverran (programOf oneLoopDeployment "/imu" lateLoop).node.loopRates
      (callbacksOf oneLoopDeployment "/imu" lateLoop) .loop10Hz = some true := by decide +kernel
  obtain ⟨-, hfailed, -⟩ := hreport.failed (BaseNode.not_onTime_iff.mpr ⟨.loop10Hz, hlate⟩)
  refine ⟨m, hm, ?_⟩
  rw [hkept]
  split_ifs
  · exact congrArg someNumbers.diagnosticMessage hfailed
  · exact congrArg someNumbers.diagnosticMessage hfailed

end Systems
