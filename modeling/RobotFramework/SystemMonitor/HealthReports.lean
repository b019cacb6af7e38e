import RobotFramework.SystemMonitor.NodeHealth

/-!
# Which health reports are shown

The first message of a node only starts its record: what it reports is dropped, and the record is
dated 0 until the next message. Every later report is shown as long as it is fresh.
-/

namespace SystemMonitor

open History

variable {n : String} {w : NodeInfoWindow} {d : NodeData} {s t : Rat}

/-! ## Runs over the record of one node -/

theorem row_run {P : Rat → NodeData → Prop} (after : List Event)
    (keeps : ∀ e ∈ after, ∀ id now d, P now d →
      ∃ d', rowStep n id now (some d) e = some d' ∧ P (e.time.getD now) d')
    (hrow : w.row n = some d) (h : P w.currentTimeSec d) :
    ∃ d', (run step w after).row n = some d' ∧ P (run step w after).currentTimeSec d' := by
  induction after generalizing w d with
  | nil => exact ⟨d, hrow, h⟩
  | cons e after ih =>
    obtain ⟨d', hstep, h'⟩ := keeps e List.mem_cons_self
      (UInt16.ofNat w.nodes.entries.length) w.currentTimeSec d h
    rw [run_cons]
    refine ih (fun x hx => keeps x (List.mem_cons_of_mem e hx)) (d := d') ?_ ?_
    · rw [row_step, hrow, hstep]
    · rw [currentTimeSec_step]
      exact h'

theorem update_fields (d : NodeData) (t : Rat) :
    (d.update t).lastHeartbeat = d.lastHeartbeat ∧ (d.update t).hostDevice = d.hostDevice ∧
      (d.update t).baseNodeName = d.baseNodeName := by
  unfold NodeData.update
  dsimp only
  split_ifs <;> exact ⟨rfl, rfl, rfl⟩

theorem update_state (d : NodeData) (t : Rat) :
    (d.update t).state = if commTimeoutThreshold < t - d.lastHeartbeat then .unknown else d.state := by
  unfold NodeData.update
  dsimp only
  split_ifs <;> rfl

theorem update_of_fresh (h : t - d.lastHeartbeat ≤ commTimeoutThreshold) :
    d.update t = { d with lastHeartbeatDelta := t - d.lastHeartbeat } := by
  unfold NodeData.update
  rw [if_neg (not_lt.mpr h)]

theorem view_run {β : Type} (view : NodeData → β) (after : List Event)
    (hdelta : ∀ d x, view { d with lastHeartbeatDelta := x } = view d)
    (htime : ∀ u, .update u ∈ after → s ≤ u ∧ u - s ≤ commTimeoutThreshold)
    (hmessage : ∀ e ∈ after, e.ofNode n = true → ∀ id now d, ∃ d',
      rowStep n id now (some d) e = some d' ∧ d'.lastHeartbeat = now ∧ view d' = view d)
    (hrow : w.row n = some d) (hw : s ≤ w.currentTimeSec) (hd : s ≤ d.lastHeartbeat) :
    ∃ d', (run step w after).row n = some d' ∧ view d' = view d := by
  have keeps : ∀ e ∈ after, ∀ id now x, s ≤ now ∧ s ≤ x.lastHeartbeat ∧ view x = view d →
      ∃ x', rowStep n id now (some x) e = some x' ∧
        s ≤ e.time.getD now ∧ s ≤ x'.lastHeartbeat ∧ view x' = view d := by
    rintro e he id now x ⟨hnow, hstamp, hview⟩
    cases hn : e.ofNode n with
    | true =>
      obtain ⟨x', hstep, hstamp', hview'⟩ := hmessage e he hn id now x
      refine ⟨x', hstep, ?_, by rw [hstamp']; exact hnow, hview'.trans hview⟩
      cases e with
      | update u => simp [Event.ofNode] at hn
      | heartbeat msg | readyToArm msg => exact hnow
    | false =>
      rw [rowStep_of_not_ofNode hn]
      cases e with
      | heartbeat msg | readyToArm msg => exact ⟨x, rfl, hnow, hstamp, hview⟩
      | update u =>
        obtain ⟨hsu, hus⟩ := htime u he
        refine ⟨x.update u, rfl, hsu, ?_⟩
        rw [update_of_fresh (by linarith), hdelta]
        exact ⟨hstamp, hview⟩
  obtain ⟨d', hrow', _, _, hview⟩ := row_run (P := fun now x =>
    s ≤ now ∧ s ≤ x.lastHeartbeat ∧ view x = view d) after keeps hrow ⟨hw, hd, rfl⟩
  exact ⟨d', hrow', hview⟩

/-- An update later than the threshold. -/
def Event.late (e : Event) : Bool := e.time.any (commTimeoutThreshold < ·)

/-- The events before the next message of a node. -/
def silence (n : String) (events : List Event) : List Event := events.takeWhile (!·.ofNode n)

/-- The state of a node that has sent one message, after some events. -/
def firstState (n : String) (after : List Event) : NodeState :=
  if (silence n after).any Event.late then .unknown else .starting

theorem silent_run (after : List Event) (hsilent : ∀ e ∈ after, e.ofNode n = false)
    (hrow : w.row n = some d) (hd : d.lastHeartbeat = 0) :
    ∃ d', (run step w after).row n = some d' ∧ d'.lastHeartbeat = 0 ∧ d'.hostDevice = d.hostDevice ∧
      d'.baseNodeName = d.baseNodeName ∧
      d'.state = if after.any Event.late then .unknown else d.state := by
  induction after generalizing w d with
  | nil => exact ⟨d, hrow, hd, rfl, rfl, rfl⟩
  | cons e after ih =>
    have hrest : ∀ x ∈ after, x.ofNode n = false := fun x hx => hsilent x (List.mem_cons_of_mem e hx)
    have hstep := row_step w n e
    rw [hrow, rowStep_of_not_ofNode (hsilent e List.mem_cons_self)] at hstep
    rw [run_cons, List.any_cons]
    cases e with
    | heartbeat msg | readyToArm msg => exact ih hrest hstep hd
    | update u =>
      obtain ⟨hstamp, hhost, hbase⟩ := update_fields d u
      have hstate : (d.update u).state = if (Event.update u).late then .unknown else d.state := by
        rw [update_state, hd, sub_zero]
        by_cases hu : commTimeoutThreshold < u <;> simp [Event.late, Event.time, hu]
      obtain ⟨d', hrow', hstamp', hhost', hbase', hstate'⟩ := ih hrest hstep (hstamp.trans hd)
      refine ⟨d', hrow', hstamp', hhost'.trans hhost, hbase'.trans hbase, ?_⟩
      rw [hstate', hstate]
      cases (Event.update u).late <;> simp

/-! ## A report and the updates after it -/

theorem Nondecreasing.between {before after future : List Event} {e : Event}
    (h : Nondecreasing (before ++ e :: (after ++ .update t :: future)))
    (hs : monitorTime before = some s) (u : Rat) (hu : .update u ∈ after ++ [.update t]) :
    s ≤ u ∧ u ≤ t := by
  have hsplit : Nondecreasing (before ++ ((e :: after ++ [.update t]) ++ future)) := by
    simpa using h
  unfold Nondecreasing at hsplit
  rw [List.filterMap_append, List.pairwise_append, List.filterMap_append, List.pairwise_append,
    List.filterMap_append, List.pairwise_append] at hsplit
  obtain ⟨_, ⟨⟨_, _, hafter⟩, _⟩, hbefore⟩ := hsplit
  have hsu : s ∈ before.filterMap Event.time := List.mem_filterMap.mpr ⟨_, mem_of_monitorTime hs, rfl⟩
  have hmem : .update u ∈ e :: after ++ [.update t] := by
    rw [List.cons_append]
    exact List.mem_cons_of_mem e hu
  refine ⟨hbefore s hsu u ?_, ?_⟩
  · rw [← List.filterMap_append]
    exact List.mem_append_left _ (List.mem_filterMap.mpr ⟨_, hmem, rfl⟩)
  · rcases List.mem_append.mp hmem with hu | hu
    · exact hafter u (List.mem_filterMap.mpr ⟨_, hu, rfl⟩) t List.mem_cons_self
    · obtain rfl := Event.update.inj (List.mem_singleton.mp hu)
      exact le_refl u

/-- If the last of these updates is at most the threshold after `s`, all are. -/
theorem fresh_of_between {after : List Event} (ht : t - s ≤ commTimeoutThreshold)
    (hbetween : ∀ u, .update u ∈ after ++ [.update t] → s ≤ u ∧ u ≤ t) (u : Rat)
    (hu : .update u ∈ after ++ [.update t]) : s ≤ u ∧ u - s ≤ commTimeoutThreshold := by
  obtain ⟨hsu, hut⟩ := hbetween u hu
  exact ⟨hsu, by linarith⟩

theorem currentTimeSec_message (t₀ : Rat) (hasWindow : Bool) {before : List Event} {e : Event}
    (hs : monitorTime before = some s) (he : e.time = none) :
    (step (run step (.initial t₀ hasWindow) before) e).currentTimeSec = s := by
  rw [currentTimeSec_step, he, currentTimeSec_run, hs]
  rfl

theorem row_message (t₀ : Rat) (hasWindow : Bool) {before : List Event} {e : Event}
    (hs : monitorTime before = some s) {new : UInt16 → NodeData} {write : NodeData → NodeData}
    (hreceived : ∀ id row, rowStep n id s row e = some ((row.map write).getD (new id))) :
    (before.any (·.ofNode n) = true ∧
        ∃ d, (step (run step (.initial t₀ hasWindow) before) e).row n = some (write d)) ∨
      (before.any (·.ofNode n) = false ∧
        ∃ id, (step (run step (.initial t₀ hasWindow) before) e).row n = some (new id)) := by
  have htime : (run step (.initial t₀ hasWindow) before).currentTimeSec = s := by
    rw [currentTimeSec_run, hs]
    rfl
  rw [row_step, htime, hreceived, ← row_isSome_run t₀ hasWindow n before]
  cases (run step (.initial t₀ hasWindow) before).row n with
  | none => exact Or.inr ⟨rfl, _, rfl⟩
  | some d => exact Or.inl ⟨rfl, d, rfl⟩

theorem readyToArm_view {e : Event} (he : e.ofNode n = true)
    (hheartbeat : ∀ msg, e = .heartbeat msg → msg.nodename ≠ n) (id : UInt16) (now : Rat)
    (d : NodeData) :
    ∃ d', rowStep n id now (some d) e = some d' ∧ d'.lastHeartbeat = now ∧
      (d'.state, d'.hostDevice, d'.baseNodeName) = (d.state, d.hostDevice, d.baseNodeName) := by
  cases e with
  | update u => simp [Event.ofNode] at he
  | heartbeat msg => exact absurd (by simpa [Event.ofNode] using he) (hheartbeat msg rfl)
  | readyToArm msg =>
    obtain rfl : msg.nodename = n := by simpa [Event.ofNode] using he
    exact ⟨_, received_self _ _ _ _, rfl, rfl⟩

theorem heartbeat_view {e : Event} (he : e.ofNode n = true)
    (hready : ∀ msg, e = .readyToArm msg → msg.nodename ≠ n) (id : UInt16) (now : Rat) (d : NodeData) :
    ∃ d', rowStep n id now (some d) e = some d' ∧ d'.lastHeartbeat = now ∧
      d'.readyToArm = d.readyToArm := by
  cases e with
  | update u => simp [Event.ofNode] at he
  | readyToArm msg => exact absurd (by simpa [Event.ofNode] using he) (hready msg rfl)
  | heartbeat msg =>
    obtain rfl : msg.nodename = n := by simpa [Event.ofNode] using he
    exact ⟨_, received_self _ _ _ _, rfl, rfl⟩

/-- Only a ready-to-arm message of its node gives a record a text. -/
theorem unknown_text {e : Event} (hready : ∀ msg, e = .readyToArm msg → msg.nodename ≠ n) (id : UInt16)
    (now : Rat) (d : NodeData) (hd : d.readyToArm = "UNKNOWN") :
    ∃ d', rowStep n id now (some d) e = some d' ∧ d'.readyToArm = "UNKNOWN" := by
  cases he : e.ofNode n with
  | true =>
    obtain ⟨d', hstep, _, hview⟩ := heartbeat_view he hready id now d
    exact ⟨d', hstep, hview.trans hd⟩
  | false =>
    rw [rowStep_of_not_ofNode he]
    cases e with
    | heartbeat msg | readyToArm msg => exact ⟨d, rfl, hd⟩
    | update u =>
      refine ⟨d.update u, rfl, ?_⟩
      unfold NodeData.update
      dsimp only
      split_ifs
      · rfl
      · exact hd

theorem text_ne_unknown (msg : ReadyToArm) : msg.text ≠ "UNKNOWN" := by
  unfold ReadyToArm.text
  split_ifs <;> decide

/-- The state and the names of a record that no heartbeat writes for a while, from its first message
on: the next message of the node saves them from the updates. -/
theorem first_run (after : List Event)
    (htime : ∀ u, .update u ∈ after → s ≤ u ∧ u - s ≤ commTimeoutThreshold)
    (hlast : ∀ msg, .heartbeat msg ∈ after → msg.nodename ≠ n)
    (hrow : w.row n = some d) (hw : s ≤ w.currentTimeSec) (hd : d.lastHeartbeat = 0)
    (hstate : d.state = .starting) :
    ∃ d', (run step w after).row n = some d' ∧
      (d'.state, d'.hostDevice, d'.baseNodeName) =
        (firstState n after, d.hostDevice, d.baseNodeName) := by
  have hsplit : after = silence n after ++ after.dropWhile (!·.ofNode n) :=
    (List.takeWhile_append_dropWhile).symm
  have hsilent : ∀ e ∈ silence n after, e.ofNode n = false := by
    intro e he
    simpa using List.all_eq_true.mp List.all_takeWhile e he
  obtain ⟨d', hrow', hstamp', hhost, hbase, hstate'⟩ := silent_run (silence n after) hsilent hrow hd
  have hview : (d'.state, d'.hostDevice, d'.baseNodeName) =
      (firstState n after, d.hostDevice, d.baseNodeName) := by
    rw [hhost, hbase, hstate', hstate]
    rfl
  have hw' : s ≤ (run step w (silence n after)).currentTimeSec := by
    rw [currentTimeSec_run]
    cases hm : monitorTime (silence n after) with
    | none => exact hw
    | some u => exact (htime u (hsplit ▸ List.mem_append_left _ (mem_of_monitorTime hm))).1
  rw [← hview, hsplit, run_append]
  cases hrest : after.dropWhile (!·.ofNode n) with
  | nil => exact ⟨d', hrow', rfl⟩
  | cons e rest =>
    have hmem : ∀ x ∈ e :: rest, x ∈ after := by
      intro x hx
      rw [hsplit, hrest]
      exact List.mem_append_right _ hx
    have he : e.ofNode n = true := by
      have hhead := List.head_dropWhile_not (!·.ofNode n) (l := after) (by simp [hrest])
      simpa [hrest] using hhead
    have hlater : ∀ x ∈ e :: rest, ∀ msg, x = .heartbeat msg → msg.nodename ≠ n := by
      rintro x hx msg rfl
      exact hlast msg (hmem _ hx)
    obtain ⟨x, hstep, hstamp, hx⟩ := readyToArm_view he (hlater e List.mem_cons_self)
      (UInt16.ofNat (run step w (silence n after)).nodes.entries.length)
      (run step w (silence n after)).currentTimeSec d'
    rw [← hx, run_cons]
    refine view_run (s := s) (fun x => (x.state, x.hostDevice, x.baseNodeName)) rest
      (fun _ _ => rfl) (fun u hu => htime u (hmem _ (List.mem_cons_of_mem e hu)))
      (fun y hy hn => readyToArm_view hn (hlater y (List.mem_cons_of_mem e hy))) ?_ ?_ ?_
    · rw [row_step, hrow', hstep]
    · rw [currentTimeSec_step]
      cases e with
      | update u => simp [Event.ofNode] at he
      | heartbeat msg | readyToArm msg => exact hw'
    · rw [hstamp]
      exact hw'

theorem heartbeat_row (t₀ : Rat) (hasWindow : Bool) {before after : List Event} {msg : Heartbeat}
    (hs : monitorTime before = some s)
    (hbetween : ∀ u, .update u ∈ after ++ [.update t] → s ≤ u ∧ u ≤ t)
    (hlast : ∀ later, .heartbeat later ∈ after → later.nodename ≠ msg.nodename)
    (ht : t - s ≤ commTimeoutThreshold) :
    ∃ d, (run step (.initial t₀ hasWindow) (before ++ .heartbeat msg :: (after ++ [.update t]))).row
        msg.nodename = some d ∧
      (d.state, d.hostDevice, d.baseNodeName) =
        (if before.any (·.ofNode msg.nodename) then msg.nodeState
          else firstState msg.nodename (after ++ [.update t]), msg.hostname, msg.baseNodename) := by
  have htime := fresh_of_between ht hbetween
  have hlater : ∀ later, .heartbeat later ∈ after ++ [.update t] → later.nodename ≠ msg.nodename := by
    intro later hmem
    exact hlast later (by simpa using hmem)
  have hw := currentTimeSec_message t₀ hasWindow hs (e := .heartbeat msg) rfl
  rw [run_append, run_cons]
  rcases row_message (n := msg.nodename) t₀ hasWindow hs (e := .heartbeat msg)
    (fun _ _ => received_self _ _ _ _) with ⟨hseen, d, hrow⟩ | ⟨hseen, id, hrow⟩
  · rw [hseen, if_pos rfl]
    exact view_run (s := s) (fun x => (x.state, x.hostDevice, x.baseNodeName)) _ (fun _ _ => rfl) htime
      (fun e he hn => readyToArm_view hn fun later he' => hlater later (he' ▸ he))
      hrow hw.ge (le_refl s)
  · rw [hseen, if_neg (by decide)]
    exact first_run _ htime hlater hrow hw.ge rfl rfl

theorem readyToArm_row (t₀ : Rat) (hasWindow : Bool) {before after : List Event} {msg : ReadyToArm}
    (hs : monitorTime before = some s)
    (hbetween : ∀ u, .update u ∈ after ++ [.update t] → s ≤ u ∧ u ≤ t)
    (hlast : ∀ later, .readyToArm later ∈ after → later.nodename ≠ msg.nodename)
    (ht : t - s ≤ commTimeoutThreshold) :
    ∃ d, (run step (.initial t₀ hasWindow) (before ++ .readyToArm msg :: (after ++ [.update t]))).row
        msg.nodename = some d ∧
      d.readyToArm = if before.any (·.ofNode msg.nodename) then msg.text else "UNKNOWN" := by
  have htime := fresh_of_between ht hbetween
  have hlater : ∀ later, .readyToArm later ∈ after ++ [.update t] → later.nodename ≠ msg.nodename := by
    intro later hmem
    exact hlast later (by simpa using hmem)
  have hw := currentTimeSec_message t₀ hasWindow hs (e := .readyToArm msg) rfl
  rw [run_append, run_cons]
  rcases row_message (n := msg.nodename) t₀ hasWindow hs (e := .readyToArm msg)
    (fun _ _ => received_self _ _ _ _) with ⟨hseen, d, hrow⟩ | ⟨hseen, id, hrow⟩
  · rw [hseen, if_pos rfl]
    exact view_run (s := s) (·.readyToArm) _ (fun _ _ => rfl) htime
      (fun e he hn => heartbeat_view hn fun later he' => hlater later (he' ▸ he))
      hrow hw.ge (le_refl s)
  · rw [hseen, if_neg (by decide)]
    obtain ⟨d, hd, htext⟩ := row_run (P := fun _ x => x.readyToArm = "UNKNOWN") (after ++ [.update t])
      (fun e he => unknown_text fun later he' => hlater later (he' ▸ he)) hrow rfl
    exact ⟨d, hd, htext⟩

/-! ## The reports that are shown -/

/-- After every update, the most recent heartbeat of a node is shown if it is fresh. -/
def HeartbeatsShown (t₀ : Rat) (hasWindow : Bool) (events : List Event) : Prop :=
  ∀ before msg after t future s, events = before ++ .heartbeat msg :: (after ++ .update t :: future) →
    (∀ later, .heartbeat later ∈ after → later.nodename ≠ msg.nodename) →
    monitorTime before = some s → t - s ≤ commTimeoutThreshold →
    ∃ d, (run step (.initial t₀ hasWindow) (before ++ .heartbeat msg :: (after ++ [.update t]))).row
        msg.nodename = some d ∧
      d.state = msg.nodeState ∧ d.hostDevice = msg.hostname ∧ d.baseNodeName = msg.baseNodename

/-- After every update, the most recent ready-to-arm message of a node is shown if it is fresh. -/
def ReadyToArmShown (t₀ : Rat) (hasWindow : Bool) (events : List Event) : Prop :=
  ∀ before msg after t future s, events = before ++ .readyToArm msg :: (after ++ .update t :: future) →
    (∀ later, .readyToArm later ∈ after → later.nodename ≠ msg.nodename) →
    monitorTime before = some s → t - s ≤ commTimeoutThreshold →
    ∃ d, (run step (.initial t₀ hasWindow) (before ++ .readyToArm msg :: (after ++ [.update t]))).row
        msg.nodename = some d ∧ d.readyToArm = msg.text

/-- At every update, a most recent heartbeat that is fresh is not the first message of its node, or
reports the state that the record has anyway. -/
def HeartbeatsFollow (events : List Event) : Prop :=
  ∀ before msg after t future s, events = before ++ .heartbeat msg :: (after ++ .update t :: future) →
    (∀ later, .heartbeat later ∈ after → later.nodename ≠ msg.nodename) →
    monitorTime before = some s → t - s ≤ commTimeoutThreshold →
    before.any (·.ofNode msg.nodename) = true ∨
      msg.nodeState = firstState msg.nodename (after ++ [.update t])

/-- At every update, a most recent ready-to-arm message that is fresh is not the first message of its
node. -/
def ReadyToArmFollows (events : List Event) : Prop :=
  ∀ before msg after t future s, events = before ++ .readyToArm msg :: (after ++ .update t :: future) →
    (∀ later, .readyToArm later ∈ after → later.nodename ≠ msg.nodename) →
    monitorTime before = some s → t - s ≤ commTimeoutThreshold →
    before.any (·.ofNode msg.nodename) = true

theorem heartbeatsShown_iff (t₀ : Rat) (hasWindow : Bool) {events : List Event}
    (h : Nondecreasing events) : HeartbeatsShown t₀ hasWindow events ↔ HeartbeatsFollow events := by
  constructor
  · rintro hshown before msg after t future s rfl hlast hs ht
    obtain ⟨d, hrow, hview⟩ := heartbeat_row t₀ hasWindow hs (h.between hs) hlast ht
    obtain ⟨d', hrow', hstate, _⟩ := hshown before msg after t future s rfl hlast hs ht
    obtain rfl : d = d' := Option.some.inj (hrow.symm.trans hrow')
    cases hseen : before.any (·.ofNode msg.nodename) with
    | true => exact Or.inl rfl
    | false =>
      rw [hseen, if_neg (by decide)] at hview
      exact Or.inr (hstate.symm.trans (Prod.mk.inj hview).1)
  · rintro hfollow before msg after t future s rfl hlast hs ht
    obtain ⟨d, hrow, hview⟩ := heartbeat_row t₀ hasWindow hs (h.between hs) hlast ht
    obtain ⟨hstate, hnames⟩ := Prod.mk.inj hview
    obtain ⟨hhost, hbase⟩ := Prod.mk.inj hnames
    refine ⟨d, hrow, ?_, hhost, hbase⟩
    rw [hstate]
    split_ifs with hseen
    · rfl
    · exact ((hfollow before msg after t future s rfl hlast hs ht).resolve_left hseen).symm

theorem readyToArmShown_iff (t₀ : Rat) (hasWindow : Bool) {events : List Event}
    (h : Nondecreasing events) : ReadyToArmShown t₀ hasWindow events ↔ ReadyToArmFollows events := by
  constructor
  · rintro hshown before msg after t future s rfl hlast hs ht
    obtain ⟨d, hrow, htext⟩ := readyToArm_row t₀ hasWindow hs (h.between hs) hlast ht
    obtain ⟨d', hrow', htext'⟩ := hshown before msg after t future s rfl hlast hs ht
    obtain rfl : d = d' := Option.some.inj (hrow.symm.trans hrow')
    by_contra hseen
    rw [if_neg hseen] at htext
    exact text_ne_unknown msg (htext'.symm.trans htext)
  · rintro hfollow before msg after t future s rfl hlast hs ht
    obtain ⟨d, hrow, htext⟩ := readyToArm_row t₀ hasWindow hs (h.between hs) hlast ht
    rw [if_pos (hfollow before msg after t future s rfl hlast hs ht)] at htext
    exact ⟨d, hrow, htext⟩

/-- After every update, the most recent messages of every node are shown as far as they are fresh. -/
def ReportsShown (t₀ : Rat) (hasWindow : Bool) (events : List Event) : Prop :=
  HeartbeatsShown t₀ hasWindow events ∧ ReadyToArmShown t₀ hasWindow events

/-- No fresh report that should be shown is the first message of its node, except for a heartbeat with
the state of a new record. -/
def ReportsFollow (events : List Event) : Prop := HeartbeatsFollow events ∧ ReadyToArmFollows events

/-- **No report is lost.** In a run whose update times do not decrease, every fresh report is shown
exactly if none of them is the first message of its node or, being a heartbeat, it reports the state
of the new record. -/
theorem reports_shown_iff (t₀ : Rat) (hasWindow : Bool) (events : List Event)
    (h : Nondecreasing events) : ReportsShown t₀ hasWindow events ↔ ReportsFollow events :=
  and_congr (heartbeatsShown_iff t₀ hasWindow h) (readyToArmShown_iff t₀ hasWindow h)

/-- A running node sends its first heartbeat between two updates. -/
def firstHeartbeat : List Event :=
  [.update 1700000000, .heartbeat ⟨"pi", "imu", "/imu", .running⟩, .update 1700000001]

/-- The window shows it as unknown. -/
theorem firstHeartbeat_lost : Nondecreasing firstHeartbeat ∧ ¬ ReportsShown 0 true firstHeartbeat := by
  refine ⟨by decide +kernel, fun h => ?_⟩
  obtain ⟨d, hd, hstate, _⟩ := h.1 [.update 1700000000] ⟨"pi", "imu", "/imu", .running⟩ [] 1700000001 []
    1700000000 rfl (by simp) rfl (by decide +kernel)
  revert hstate
  rw [← Option.some.inj hd]
  decide +kernel

/-- A node sends two heartbeats between two updates. -/
def secondHeartbeat : List Event :=
  [.update 1700000000, .heartbeat ⟨"pi", "imu", "/imu", .starting⟩,
    .heartbeat ⟨"pi", "imu", "/imu", .running⟩, .update 1700000001]

theorem secondHeartbeat_shown : ReportsShown 0 true secondHeartbeat ∧
    ∃ d, (run step (.initial 0 true) secondHeartbeat).row "/imu" = some d ∧ d.state = .running := by
  have hfollow : ReportsFollow secondHeartbeat := by
    constructor
    · intro before msg after t future s hsplit hlast _ _
      match before, after with
      | [], _ | [_], [] => simp [secondHeartbeat] at hsplit
      | [_], later :: _ =>
        simp only [secondHeartbeat, List.cons_append, List.nil_append, List.cons.injEq,
          Event.heartbeat.injEq] at hsplit
        obtain ⟨-, rfl, rfl, -⟩ := hsplit
        exact absurd rfl (hlast ⟨"pi", "imu", "/imu", .running⟩ List.mem_cons_self)
      | [_, _], _ =>
        simp only [secondHeartbeat, List.cons_append, List.nil_append, List.cons.injEq,
          Event.heartbeat.injEq] at hsplit
        obtain ⟨rfl, rfl, rfl, -⟩ := hsplit
        exact Or.inl rfl
      | [_, _, _], _ | _ :: _ :: _ :: _ :: _, _ => simp [secondHeartbeat] at hsplit
    · intro before msg after t future s hsplit
      match before with
      | [] | [_] | [_, _] | [_, _, _] | _ :: _ :: _ :: _ :: _ => simp [secondHeartbeat] at hsplit
  have hshown := (reports_shown_iff 0 true secondHeartbeat (by decide +kernel)).mpr hfollow
  obtain ⟨d, hrow, hstate, -⟩ := hshown.1 (secondHeartbeat.take 2) ⟨"pi", "imu", "/imu", .running⟩ []
    1700000001 [] 1700000000 rfl (fun _ h => absurd h List.not_mem_nil) rfl (by decide +kernel)
  exact ⟨hshown, d, hrow, hstate⟩

end SystemMonitor
