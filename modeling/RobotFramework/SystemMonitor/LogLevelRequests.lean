import RobotFramework.SystemMonitor.Selection

/-!
# Log-level requests

A digit after `l` sends its request whatever the checks before have found, and a digit that finds no node
is forgotten, so that the `l` before it still counts. `Guarded` says of the inputs when neither matters:
the window has drawn a selected row, the service answers, and no digit was pressed before the first
message since.

What the window remembers is tied to the inputs by three invariants: the records lie under their names
(`Named`), the previous key is the last supported one unless that one was forgotten
(`remembered_run`), and the selected node is known once a selected row has been drawn (`selected_run`).
-/

namespace SystemMonitor

open History

/-! ## What the inputs say -/

/-- The input is a message of a node. -/
def Input.isMessage : Input → Bool
  | .event e => e.node.isSome
  | .key _ _ => false

/-- The input as a key that the window supports. -/
def Input.supportedKey : Input → Option Int
  | .event _ => none
  | .key k _ => if k ∈ supportedKeys then some k else none

def lastKey (past : List Input) : Option Int := lastSome Input.supportedKey past

/-- The supported key pressed last is a digit from before the first message. -/
def ForgottenDigit (past : List Input) : Prop :=
  ∃ before key available later, past = before ++ .key key available :: later ∧ key ∈ digitKeys ∧
    (∀ input ∈ before, input.isMessage = false) ∧ ∀ input ∈ later, input.supportedKey = none

/-- The window can be drawn, and some row of it has the number of the selected record. -/
def KeyedWindow.MarksRow (w : KeyedWindow) : Prop :=
  w.hasWindow = true ∧
    ∃ i < w.nodes.entries.length, ((i % 65536 : Nat) : Int) = w.recordSelected.toInt

section Run

variable (sort : SortById) (levels : LevelNames) (start : KeyedWindow)

/-- Some update has drawn the row of a selected record. -/
def DrewSelection (past : List Input) : Prop :=
  ∃ before t later, past = before ++ .event (.update t) :: later ∧
    (run (KeyedWindow.step sort levels) start before).MarksRow

/-- A request is sent only for a digit that denotes a level, after `l` or `L`, to a node of the table
whose service is available. -/
def ValidRequest (past : List Input) : Input → Prop
  | .event _ => True
  | .key key available =>
      let w := run (KeyedWindow.step sort levels) start past
      (w.newKeyEvent levels available key).request.isSome = true →
        key ∈ digitKeys ∧ levels.pretty (verbosityValue key) ≠ "UNKNOWN" ∧
          (∃ previous ∈ levelKeys, lastKey past = some previous) ∧
          w.selectedNode ∈ w.nodes ∧ available w.serviceTopic = true

/-- A digit that is taken as the number of a level comes after a selected row was drawn, unless some node
has the empty name, with the service available, and after no forgotten digit. -/
def Guarded (past : List Input) : Input → Prop
  | .event _ => True
  | .key key available =>
      let w := run (KeyedWindow.step sort levels) start past
      w.asksLevel key → levels.pretty (verbosityValue key) ≠ "UNKNOWN" →
        (DrewSelection sort levels start past ∨ "" ∈ w.nodes) ∧ available w.serviceTopic = true ∧
          ¬ ForgottenDigit past

end Run

/-! ## The histories, one input longer -/

theorem forgottenDigit_concat {past : List Input} {input : Input} :
    ForgottenDigit (past ++ [input]) ↔ (input.supportedKey = none ∧ ForgottenDigit past) ∨
      (∀ earlier ∈ past, earlier.isMessage = false) ∧
        ∃ key available, input = .key key available ∧ key ∈ digitKeys := by
  constructor
  · rintro ⟨before, key, available, later, hsplit, hkey, hbefore, hlater⟩
    rcases split_concat hsplit with ⟨rfl, hinput, -⟩ | ⟨later', rfl, hpast⟩
    · exact Or.inr ⟨hbefore, key, available, hinput.symm, hkey⟩
    · left
      refine ⟨hlater input (List.mem_append_right _ List.mem_cons_self), before, key, available,
        later', hpast, hkey, hbefore, fun x hx => hlater x (List.mem_append_left _ hx)⟩
  · rintro (⟨hnone, before, key, available, later, rfl, hkey, hbefore, hlater⟩ |
      ⟨hpast, key, available, rfl, hkey⟩)
    · refine ⟨before, key, available, later ++ [input], ?_, hkey, hbefore, fun x hx => ?_⟩
      · rw [List.append_assoc, List.cons_append]
      · rcases List.mem_append.mp hx with hx | hx
        · exact hlater x hx
        · rw [List.mem_singleton.mp hx]
          exact hnone
    · exact ⟨past, key, available, [], rfl, hkey, hpast, fun x hx => absurd hx List.not_mem_nil⟩

theorem drewSelection_concat {sort : SortById} {levels : LevelNames} {start : KeyedWindow}
    {past : List Input} {input : Input} :
    DrewSelection sort levels start (past ++ [input]) ↔ DrewSelection sort levels start past ∨
      (∃ t, input = .event (.update t)) ∧
        (run (KeyedWindow.step sort levels) start past).MarksRow := by
  constructor
  · rintro ⟨before, t, later, hsplit, hmarks⟩
    rcases split_concat hsplit with ⟨rfl, hinput, -⟩ | ⟨later', rfl, hpast⟩
    · exact Or.inr ⟨⟨t, hinput.symm⟩, hmarks⟩
    · exact Or.inl ⟨before, t, later', hpast, hmarks⟩
  · rintro (⟨before, t, later, rfl, hmarks⟩ | ⟨⟨t, rfl⟩, hmarks⟩)
    · refine ⟨before, t, later ++ [input], ?_, hmarks⟩
      rw [List.append_assoc, List.cons_append]
    · exact ⟨past, t, [], rfl, hmarks⟩

/-! ## The records lie under their names -/

/-- The record under a name is the one of that node. -/
def Named (w : NodeInfoWindow) : Prop := ∀ n d, w.row n = some d → d.nodeName = n

theorem named_step {w : NodeInfoWindow} (h : Named w) (e : Event) : Named (step w e) := by
  intro n d hd
  have hident := identity_step w n e
  rw [hd] at hident
  cases hrow : w.row n with
  | some old =>
    rw [hrow] at hident
    have hname : d.nodeName = old.nodeName := congrArg Prod.fst (Option.some.inj hident)
    rw [hname, h n old hrow]
  | none =>
    rw [hrow] at hident
    split_ifs at hident
    · exact congrArg Prod.fst (Option.some.inj hident)
    · cases hident

theorem mem_nodes_step {w : NodeInfoWindow} {n : String} (h : n ∈ w.nodes) (e : Event) :
    n ∈ (step w e).nodes := by
  rw [← AList.lookup_isSome, Option.isSome_iff_exists] at h
  obtain ⟨d, hd⟩ := h
  have hident := identity_step w n e
  rw [show w.row n = some d from hd, Option.map_some, Option.some_or] at hident
  obtain ⟨d', hd', -⟩ := Option.map_eq_some_iff.mp hident
  rw [← AList.lookup_isSome]
  exact Option.isSome_iff_exists.mpr ⟨d', hd'⟩

theorem length_step_eq_zero_iff (w : NodeInfoWindow) (e : Event) :
    (step w e).nodes.entries.length = 0 ↔ w.nodes.entries.length = 0 ∧ e.node.isSome = false := by
  by_cases hnew : e.isNew w
  · obtain ⟨n, hnode, -⟩ := id hnew
    rw [(length_step_of_new hnew).1, hnode]
    simp
  · rw [(length_step_of_known hnew).1]
    refine ⟨fun hzero => ⟨hzero, ?_⟩, fun h => h.1⟩
    cases hnode : e.node with
    | none => rfl
    | some n =>
      -- a message of a node without a row would be new, and there are no rows
      refine absurd ⟨n, hnode, ?_⟩ hnew
      have hempty : w.nodes.entries = [] := List.length_eq_zero_iff.mp hzero
      show w.nodes.entries.dlookup n = none
      rw [hempty]
      rfl

section Invariants

variable (sort : SortById) (levels : LevelNames) (t : Rat) (hasWindow : Bool)

/-! ## The previous key -/

/-- The records are empty while no message has come; the previous key is the last supported one, unless
that one is a forgotten digit. -/
structure Remembered (past : List Input) (w : KeyedWindow) : Prop where
  focused : w.focused = true
  empty : w.nodes.entries.length = 0 ↔ ∀ input ∈ past, input.isMessage = false
  forgotten : ForgottenDigit past → ∃ key ∈ digitKeys, lastKey past = some key
  previous : ¬ ForgottenDigit past → (lastKey past).getD (-1) = w.previousKey

theorem remembered_initial : Remembered [] (.initial t hasWindow true) where
  focused := rfl
  empty := by
    refine iff_of_true rfl fun input h => ?_
    cases h
  forgotten := by
    rintro ⟨before, key, available, later, h, -⟩
    exact absurd h (by simp)
  previous _ := rfl

theorem lastKey_concat (past : List Input) (input : Input) :
    lastKey (past ++ [input]) = input.supportedKey.or (lastKey past) :=
  lastSome_concat Input.supportedKey past input

/-- An input that is no supported key changes neither what was pressed last nor what is remembered. -/
theorem remembered_step_none {past : List Input} {w : KeyedWindow} (h : Remembered past w)
    {input : Input} (hkey : input.supportedKey = none)
    (hempty : (w.step sort levels input).nodes.entries.length = 0 ↔
      w.nodes.entries.length = 0 ∧ input.isMessage = false)
    (hprevious : (w.step sort levels input).previousKey = w.previousKey)
    (hdigit : ∀ key available, input = .key key available → key ∉ digitKeys) :
    Remembered (past ++ [input]) (w.step sort levels input) := by
  have hforgotten : ForgottenDigit (past ++ [input]) ↔ ForgottenDigit past := by
    rw [forgottenDigit_concat]
    constructor
    · rintro (⟨_, hpast⟩ | ⟨_, key, available, hinput, hmem⟩)
      · exact hpast
      · exact absurd hmem (hdigit key available hinput)
    · intro hpast
      exact Or.inl ⟨hkey, hpast⟩
  have hlast : lastKey (past ++ [input]) = lastKey past := by
    rw [lastKey_concat, hkey, Option.none_or]
  constructor
  · rw [focused_step, h.focused]
  · rw [hempty, h.empty, List.forall_mem_append, List.forall_mem_singleton]
  · intro hf
    rw [hlast]
    exact h.forgotten (hforgotten.mp hf)
  · intro hf
    rw [hlast, hprevious]
    exact h.previous fun hpast => hf (hforgotten.mpr hpast)

theorem remembered_step {past : List Input} {w : KeyedWindow} (h : Remembered past w)
    (input : Input) : Remembered (past ++ [input]) (w.step sort levels input) := by
  have hnode := toNodeInfoWindow_step sort levels w input
  cases input with
  | event e =>
    refine remembered_step_none sort levels h rfl ?_ (previousKey_event sort levels w e) nofun
    rw [hnode]
    exact length_step_eq_zero_iff w.toNodeInfoWindow e
  | key key available =>
    have hempty : (w.step sort levels (.key key available)).nodes.entries.length = 0 ↔
        w.nodes.entries.length = 0 ∧ (Input.key key available).isMessage = false := by
      rw [hnode]
      exact (and_iff_left rfl).symm
    have hprevious := previousKey_key sort levels w key available
    by_cases hkey : key ∈ supportedKeys
    · have hsupported : (Input.key key available).supportedKey = some key := if_pos hkey
      have hlast : lastKey (past ++ [.key key available]) = some key := by
        rw [lastKey_concat, hsupported, Option.some_or]
      have hforgotten : ForgottenDigit (past ++ [.key key available]) ↔ w.dropsKey key := by
        rw [forgottenDigit_concat, hsupported]
        constructor
        · rintro (⟨hnone, -⟩ | ⟨hpast, key', available', hinput, hmem⟩)
          · cases hnone
          · cases hinput
            exact ⟨h.focused, hmem, h.empty.mpr hpast⟩
        · rintro ⟨-, hmem, hzero⟩
          exact Or.inr ⟨h.empty.mp hzero, key, available, rfl, hmem⟩
      constructor
      · rw [focused_step, h.focused]
      · rw [hempty, h.empty, List.forall_mem_append, List.forall_mem_singleton]
      · intro hf
        exact ⟨key, (hforgotten.mp hf).2.1, hlast⟩
      · intro hf
        rw [hlast, hprevious,
          KeyedWindow.previousAfter_of_kept hkey fun hdrop => hf (hforgotten.mpr hdrop)]
        rfl
    · refine remembered_step_none sort levels h (if_neg hkey) hempty ?_ ?_
      · rw [hprevious, KeyedWindow.previousAfter, if_neg (fun hk => hkey hk.1)]
      · intro key' available' hinput hmem
        cases hinput
        exact hkey (digit_supported hmem)

theorem remembered_run (past : List Input) : Remembered past
    (run (KeyedWindow.step sort levels) (.initial t hasWindow true) past) :=
  run_invariant (I := Remembered) (remembered_initial t hasWindow)
    (fun _ _ input h => remembered_step sort levels h input) past

/-! ## The selected node -/

theorem selectedNode_fold (rows : List (NodeData × Bool)) : ∀ name : String,
    ((∀ row ∈ rows, row.2 = false) ∧
      rows.foldl (fun name row => if row.2 then row.1.nodeName else name) name = name) ∨
    ∃ row ∈ rows, row.2 = true ∧
      rows.foldl (fun name row => if row.2 then row.1.nodeName else name) name = row.1.nodeName := by
  induction rows with
  | nil =>
    intro name
    exact Or.inl ⟨fun row h => absurd h List.not_mem_nil, rfl⟩
  | cons row rows ih =>
    intro name
    rw [List.foldl_cons]
    rcases ih (if row.2 then row.1.nodeName else name) with ⟨hnone, heq⟩ | ⟨x, hx, hmark, heq⟩
    · rw [heq]
      cases hrow : row.2 with
      | false => exact Or.inl ⟨List.forall_mem_cons.mpr ⟨hrow, hnone⟩, rfl⟩
      | true => exact Or.inr ⟨row, List.mem_cons_self, hrow, rfl⟩
    · exact Or.inr ⟨x, List.mem_cons_of_mem row hx, hmark, heq⟩

theorem marks_true_iff (w : KeyedWindow) : (∃ row ∈ w.rows sort, row.2 = true) ↔
    ∃ i < w.nodes.entries.length, ((i % 65536 : Nat) : Int) = w.recordSelected.toInt := by
  have hmem : true ∈ (w.rows sort).map (·.2) ↔ ∃ row ∈ w.rows sort, row.2 = true := List.mem_map
  rw [← hmem, marks_rows, List.mem_map]
  simp

theorem selectedNode_updateWindow {w : KeyedWindow} (hnamed : Named w.toNodeInfoWindow) :
    (w.MarksRow → (w.updateWindow sort).selectedNode ∈ w.nodes) ∧
      (¬ w.MarksRow → (w.updateWindow sort).selectedNode = w.selectedNode) := by
  unfold KeyedWindow.updateWindow
  by_cases hwindow : w.hasWindow = true
  · rw [if_pos hwindow]
    rcases selectedNode_fold (w.rows sort) w.selectedNode with ⟨hnone, heq⟩ | ⟨row, hrow, hmark, heq⟩
    · refine ⟨fun hmarks => ?_, fun _ => heq⟩
      obtain ⟨row, hrow, hmark⟩ := (marks_true_iff sort w).mpr hmarks.2
      rw [hnone row hrow] at hmark
      cases hmark
    · refine ⟨fun _ => ?_, fun hmarks => ?_⟩
      · obtain ⟨n, hn⟩ := row_of_mem_rows hrow
        rw [show (List.foldl _ _ _ : String) = row.1.nodeName from heq, hnamed n row.1 hn,
          ← AList.lookup_isSome]
        exact Option.isSome_iff_exists.mpr ⟨row.1, hn⟩
      · exact absurd ⟨hwindow, (marks_true_iff sort w).mp ⟨row, hrow, hmark⟩⟩ hmarks
  · rw [if_neg hwindow]
    exact ⟨fun hmarks => absurd hmarks.1 hwindow, fun _ => rfl⟩

/-- The selected node is one of the table once a selected row has been drawn, and unset before. -/
structure Selected (drew : Prop) (w : KeyedWindow) : Prop where
  named : Named w.toNodeInfoWindow
  known : drew → w.selectedNode ∈ w.nodes
  unset : ¬ drew → w.selectedNode = ""

theorem selected_update {drew : Prop} {w : KeyedWindow} (h : Selected drew w) (t : Rat) :
    Selected (drew ∨ w.MarksRow) (w.update sort t) := by
  have hnode := toNodeInfoWindow_step sort loggerLevels w (.event (.update t))
  have hnamed : Named (w.update sort t).toNodeInfoWindow := by
    show Named (w.step sort loggerLevels (.event (.update t))).toNodeInfoWindow
    rw [hnode]
    exact named_step h.named (.update t)
  have hmarks : KeyedWindow.MarksRow { w with toNodeInfoWindow := (w.toNodeInfoWindow.update t).1 } ↔
      w.MarksRow := by
    have hlen : (w.nodes.update t).entries.length = w.nodes.entries.length := List.length_map _
    show (w.hasWindow = true ∧ ∃ i < (w.nodes.update t).entries.length, _) ↔ _
    rw [hlen]
    rfl
  obtain ⟨hdrawn, hkept⟩ := selectedNode_updateWindow sort
    (w := { w with toNodeInfoWindow := (w.toNodeInfoWindow.update t).1 }) (named_step h.named (.update t))
  rw [hmarks] at hdrawn hkept
  have hnodes : (w.update sort t).nodes = w.nodes.update t := congrArg NodeInfoWindow.nodes hnode
  constructor
  · exact hnamed
  · intro hdrew
    rw [hnodes]
    by_cases hm : w.MarksRow
    · exact hdrawn hm
    · have hsame : (w.update sort t).selectedNode = w.selectedNode := hkept hm
      rw [hsame]
      exact mem_nodes_step (h.known (hdrew.resolve_right hm)) (.update t)
  · intro hdrew
    rw [not_or] at hdrew
    exact (hkept hdrew.2).trans (h.unset hdrew.1)

theorem Selected.congr {drew drew' : Prop} {w : KeyedWindow} (h : Selected drew w)
    (hiff : drew ↔ drew') : Selected drew' w := propext hiff ▸ h

theorem selected_step {drew : Prop} {w : KeyedWindow} (h : Selected drew w) (input : Input) :
    Selected (drew ∨ (∃ t, input = .event (.update t)) ∧ w.MarksRow) (w.step sort levels input) := by
  cases input with
  | key key available =>
    refine Selected.congr ?_ (show drew ↔ _ by simp)
    have hnode := toNodeInfoWindow_step sort levels w (.key key available)
    have hnodes : (w.step sort levels (.key key available)).nodes = w.nodes :=
      congrArg NodeInfoWindow.nodes hnode
    constructor
    · rw [hnode]
      exact h.named
    · intro hdrew
      rw [selectedNode_key, hnodes]
      exact h.known hdrew
    · intro hdrew
      rw [selectedNode_key]
      exact h.unset hdrew
  | event e =>
    cases e with
    | update t =>
      refine Selected.congr ?_ (show drew ∨ w.MarksRow ↔ _ by simp)
      exact selected_update sort h t
    | heartbeat msg | readyToArm msg =>
      refine Selected.congr ?_ (show drew ↔ _ by simp)
      exact ⟨named_step h.named _, fun hdrew => mem_nodes_step (h.known hdrew) _, h.unset⟩

theorem selected_run (focused : Bool) (past : List Input) :
    Selected (DrewSelection sort levels (.initial t hasWindow focused) past)
      (run (KeyedWindow.step sort levels) (.initial t hasWindow focused) past) := by
  induction past using List.reverseRecOn with
  | nil =>
    have hnone : ¬ DrewSelection sort levels (.initial t hasWindow focused) [] := by
      rintro ⟨before, t, later, hsplit, -⟩
      exact absurd hsplit (by simp)
    refine ⟨fun n d hd => ?_, fun h => absurd h hnone, fun _ => rfl⟩
    cases hd
  | append_singleton past input ih =>
    rw [run_concat]
    exact (selected_step sort levels ih input).congr drewSelection_concat.symm

/-! ## Requests -/

theorem selectedNode_mem_iff {drew : Prop} {w : KeyedWindow} (h : Selected drew w) :
    w.selectedNode ∈ w.nodes ↔ drew ∨ "" ∈ w.nodes := by
  by_cases hdrew : drew
  · exact iff_of_true (h.known hdrew) (Or.inl hdrew)
  · rw [h.unset hdrew, or_iff_right hdrew]

theorem lastKey_levelKey_iff {past : List Input} {w : KeyedWindow} (h : Remembered past w)
    (hprevious : w.previousKey ∈ levelKeys) :
    (∃ previous ∈ levelKeys, lastKey past = some previous) ↔ ¬ ForgottenDigit past := by
  constructor
  · rintro ⟨previous, hlevel, hlast⟩ hforgotten
    obtain ⟨digit, hdigit, hlast'⟩ := h.forgotten hforgotten
    obtain rfl := Option.some.inj (hlast.symm.trans hlast')
    exact (digit_ne hdigit).2.2 hlevel
  · intro hforgotten
    have heq := h.previous hforgotten
    rw [← heq] at hprevious
    cases hlast : lastKey past with
    | none =>
      rw [hlast] at hprevious
      exact absurd hprevious (by decide)
    | some key =>
      rw [hlast] at hprevious
      exact ⟨key, hprevious, rfl⟩

theorem validRequest_iff (focused : Bool) (past : List Input) (input : Input) :
    ValidRequest sort levels (.initial t hasWindow focused) past input ↔
      Guarded sort levels (.initial t hasWindow focused) past input := by
  cases input with
  | event e => exact Iff.rfl
  | key key available =>
    unfold ValidRequest Guarded
    dsimp only
    rw [request_newKeyEvent]
    unfold KeyedWindow.requestFor
    have hselected := selected_run sort levels t hasWindow focused past
    have hfocused := focused_run sort levels (.initial t hasWindow focused) past
    by_cases hsends : (run (KeyedWindow.step sort levels) (.initial t hasWindow focused) past).asksLevel key ∧
        levels.pretty (verbosityValue key) ≠ "UNKNOWN"
    · obtain ⟨hasks, hknown⟩ := hsends
      rw [if_pos ⟨hasks, hknown⟩]
      obtain rfl : focused = true := hfocused.symm.trans hasks.1
      have hremembered := remembered_run sort levels t hasWindow past
      rw [selectedNode_mem_iff hselected, lastKey_levelKey_iff hremembered hasks.2.2.2]
      constructor
      · intro h _ _
        obtain ⟨_, _, hlast, hnode, hservice⟩ := h rfl
        exact ⟨hnode, hservice, hlast⟩
      · intro h _
        obtain ⟨hnode, hservice, hlast⟩ := h hasks hknown
        exact ⟨hasks.2.1, hknown, hlast, hnode, hservice⟩
    · rw [if_neg hsends]
      refine iff_of_true (fun h => ?_) fun hasks hknown => absurd ⟨hasks, hknown⟩ hsends
      cases h

end Invariants

/-- **Log-level requests.** Every request is valid exactly if every input is guarded. -/
theorem requests_valid_iff (sort : SortById) (levels : LevelNames) (t : Rat) (hasWindow focused : Bool)
    (inputs : List Input) :
    Every (ValidRequest sort levels (.initial t hasWindow focused)) inputs ↔
      Every (Guarded sort levels (.initial t hasWindow focused)) inputs :=
  every_congr (fun past input _ => validRequest_iff sort levels t hasWindow focused past input) inputs

/-- A node is heard of and drawn, and `l` and `3` are pressed while its service is not available. -/
def unavailableService : List Input :=
  [.event (.heartbeat ⟨"DevComputer2", "imu_node", "/robot/imu_node1", .running⟩),
   .event (.update 1),
   .key (charKey 'l') fun _ => false,
   .key (charKey '3') fun _ => false]

/-- The request is sent although the service is not available. -/
theorem unavailableService_requested :
    ((run (KeyedWindow.step insertionById loggerLevels) (.initial 0 true true)
        (unavailableService.take 3)).newKeyEvent loggerLevels (fun _ => false) (charKey '3')).request =
        some ⟨"/robot/imu_node1/change_logger_level", 3⟩ ∧
      ¬ Every (ValidRequest insertionById loggerLevels (.initial 0 true true)) unavailableService := by
  refine ⟨by decide +kernel, fun h => ?_⟩
  have hvalid := h (unavailableService.take 3) (.key (charKey '3') fun _ => false) [] rfl
  have hrequest := hvalid (by decide +kernel)
  exact absurd hrequest.2.2.2.2 (by decide)

end SystemMonitor
