import Mathlib.Algebra.Order.Ring.Rat
import Mathlib.Tactic.Linarith
import RobotFramework.SystemMonitor.NodeInfoWindow

/-!
# How fresh the shown health is

One time per record stands for both streams, and a node is timed out as a whole: a state or a text
stays shown while the node keeps sending, be it on the other stream.
-/

namespace SystemMonitor

open History

variable {t₀ : Rat} {n : String} {past : List Event} {kind : List Event → Event → Prop}

/-! ## Health is kept while the node is alive -/

/-- At time `t` a message of the node, of either stream, is at most the threshold old; a message
that is the only one of its node may instead count as received at 0. -/
def Alive (t₀ : Rat) (n : String) (past : List Event) (t : Rat) : Prop :=
  ∃ before e after, past = before ++ e :: after ∧ e.ofNode n = true ∧
    (t - (monitorTime before).getD t₀ ≤ commTimeoutThreshold ∨
      (∀ x ∈ before ++ after, x.ofNode n = false) ∧ t ≤ commTimeoutThreshold)

/-- There was an event of a kind, and the node was alive at every update since. -/
def KeptAlive (t₀ : Rat) (n : String) (kind : List Event → Event → Prop) (past : List Event) : Prop :=
  ∃ before e after, past = before ++ e :: after ∧ kind before e ∧
    ∀ mid t rest, after = mid ++ .update t :: rest → Alive t₀ n (before ++ e :: mid) t

/-- A heartbeat of the node, or its first message. -/
def stateSource (n : String) (before : List Event) (e : Event) : Prop :=
  e.ofNode n = true ∧ ((∃ msg, e = .heartbeat msg) ∨ ∀ x ∈ before, x.ofNode n = false)

/-- A ready-to-arm message of the node. -/
def readyToArmSource (n : String) (_before : List Event) (e : Event) : Prop :=
  e.ofNode n = true ∧ ∃ msg, e = .readyToArm msg

theorem KeptAlive.start {e : Event} (h : kind past e) : KeptAlive t₀ n kind (past ++ [e]) := by
  refine ⟨past, e, [], rfl, h, fun mid t rest hsplit => ?_⟩
  simp at hsplit

theorem KeptAlive.extend (h : KeptAlive t₀ n kind past) (e : Event)
    (alive : ∀ t, e = .update t → Alive t₀ n past t) : KeptAlive t₀ n kind (past ++ [e]) := by
  obtain ⟨before, source, after, rfl, hsource, hafter⟩ := h
  refine ⟨before, source, after ++ [e], by simp, hsource, fun mid t rest hsplit => ?_⟩
  rcases split_concat hsplit with ⟨rfl, hupdate, rfl⟩ | ⟨rest, rfl, hold⟩
  · exact alive t hupdate.symm
  · exact hafter mid t rest hold

/-- The time of a record is the one of the last message of its node, or 0 if that is the first. -/
def Stamped (t₀ : Rat) (n : String) (past : List Event) (lastHeartbeat : Rat) : Prop :=
  ∃ before e after, past = before ++ e :: after ∧ e.ofNode n = true ∧
    (∀ x ∈ after, x.ofNode n = false) ∧
    (lastHeartbeat = (monitorTime before).getD t₀ ∨
      (∀ x ∈ before, x.ofNode n = false) ∧ lastHeartbeat = 0)

theorem unseen_concat {e : Event} (hpast : ∀ x ∈ past, x.ofNode n = false) (he : e.ofNode n = false) :
    ∀ x ∈ past ++ [e], x.ofNode n = false :=
  List.forall_mem_append.mpr ⟨hpast, List.forall_mem_singleton.mpr he⟩

theorem Stamped.extend {x : Rat} (h : Stamped t₀ n past x) {e : Event} (he : e.ofNode n = false) :
    Stamped t₀ n (past ++ [e]) x := by
  obtain ⟨before, source, after, rfl, hsource, hafter, hstamp⟩ := h
  exact ⟨before, source, after ++ [e], by simp, hsource, unseen_concat hafter he, hstamp⟩

/-- What the record of a node says about the past. -/
structure Health (t₀ : Rat) (n : String) (past : List Event) (d : NodeData) : Prop where
  stamp : Stamped t₀ n past d.lastHeartbeat
  state : d.state ≠ .unknown → KeptAlive t₀ n (stateSource n) past
  readyToArm : d.readyToArm ≠ "UNKNOWN" → KeptAlive t₀ n (readyToArmSource n) past

/-- A record that an update does not time out is of a node that is alive. -/
theorem Health.alive {d : NodeData} (h : Health t₀ n past d) {t : Rat}
    (ht : t - d.lastHeartbeat ≤ commTimeoutThreshold) : Alive t₀ n past t := by
  obtain ⟨before, e, after, hpast, he, hafter, hstamp⟩ := h.stamp
  refine ⟨before, e, after, hpast, he, ?_⟩
  rcases hstamp with hstamp | ⟨hbefore, hstamp⟩
  · rw [hstamp] at ht
    exact Or.inl ht
  · rw [hstamp, sub_zero] at ht
    exact Or.inr ⟨List.forall_mem_append.mpr ⟨hbefore, hafter⟩, ht⟩

theorem Health.update {d : NodeData} (h : Health t₀ n past d) (t : Rat) :
    Health t₀ n (past ++ [.update t]) (d.update t) := by
  have hstamp : Stamped t₀ n (past ++ [.update t]) d.lastHeartbeat := h.stamp.extend rfl
  unfold NodeData.update
  by_cases hlate : t - d.lastHeartbeat > commTimeoutThreshold
  · rw [if_pos hlate]
    exact ⟨hstamp, fun hs => absurd rfl hs, fun hs => absurd rfl hs⟩
  · rw [if_neg hlate]
    have halive : ∀ u, Event.update t = .update u → Alive t₀ n past u := by
      intro u hu
      rw [← Event.update.inj hu]
      exact h.alive (not_lt.mp hlate)
    exact ⟨hstamp, fun hs => (h.state hs).extend _ halive, fun hs => (h.readyToArm hs).extend _ halive⟩

theorem Health.other {d : NodeData} (h : Health t₀ n past d) {e : Event} (he : e.ofNode n = false)
    (hu : ∀ t, e ≠ .update t) : Health t₀ n (past ++ [e]) d := by
  have halive : ∀ t, e = .update t → Alive t₀ n past t := fun t ht => absurd ht (hu t)
  exact ⟨h.stamp.extend he, fun hs => (h.state hs).extend _ halive,
    fun hs => (h.readyToArm hs).extend _ halive⟩

theorem Health.write {d d' : NodeData} (h : Health t₀ n past d) {e : Event} (he : e.ofNode n = true)
    (hstamp : d'.lastHeartbeat = (monitorTime past).getD t₀)
    (hstate : d'.state = d.state ∨ stateSource n past e)
    (hready : d'.readyToArm = d.readyToArm ∨ readyToArmSource n past e) :
    Health t₀ n (past ++ [e]) d' := by
  have halive : ∀ t, e = .update t → Alive t₀ n past t := by
    rintro t rfl
    exact absurd he (by simp [Event.ofNode])
  refine ⟨⟨past, e, [], rfl, he, by simp, Or.inl hstamp⟩, fun hs => ?_, fun hs => ?_⟩
  · rcases hstate with hstate | hstate
    · rw [hstate] at hs
      exact (h.state hs).extend _ halive
    · exact KeptAlive.start hstate
  · rcases hready with hready | hready
    · rw [hready] at hs
      exact (h.readyToArm hs).extend _ halive
    · exact KeptAlive.start hready

theorem Health.first {d : NodeData} (hpast : ∀ x ∈ past, x.ofNode n = false) {e : Event}
    (he : e.ofNode n = true) (hstamp : d.lastHeartbeat = 0) (hready : d.readyToArm = "UNKNOWN") :
    Health t₀ n (past ++ [e]) d := by
  refine ⟨⟨past, e, [], rfl, he, by simp, Or.inr ⟨hpast, hstamp⟩⟩, fun _ => ?_, fun hs => ?_⟩
  · exact KeptAlive.start ⟨he, Or.inr hpast⟩
  · exact absurd hready hs

/-- The window after a past: its time, and the record of a node if the node has sent something. -/
structure Tracks (t₀ : Rat) (n : String) (past : List Event) (w : NodeInfoWindow) : Prop where
  time : w.currentTimeSec = (monitorTime past).getD t₀
  unseen : w.row n = none → ∀ x ∈ past, x.ofNode n = false
  health : ∀ d, w.row n = some d → Health t₀ n past d

theorem Tracks.message {w : NodeInfoWindow} (h : Tracks t₀ n past w) {e : Event}
    (he : e.ofNode n = true) {new : NodeData} {write : NodeData → NodeData}
    (hrow : (step w e).row n = some (((w.row n).map write).getD new))
    (hnew : new.lastHeartbeat = 0 ∧ new.readyToArm = "UNKNOWN")
    (hwrite : ∀ d, (write d).lastHeartbeat = w.currentTimeSec ∧
      ((write d).state = d.state ∨ stateSource n past e) ∧
      ((write d).readyToArm = d.readyToArm ∨ readyToArmSource n past e))
    {d : NodeData} (hd : (step w e).row n = some d) : Health t₀ n (past ++ [e]) d := by
  rw [hrow] at hd
  cases hw : w.row n with
  | none =>
    rw [hw] at hd
    obtain rfl : new = d := Option.some.inj hd
    exact Health.first (h.unseen hw) he hnew.1 hnew.2
  | some d₀ =>
    rw [hw] at hd
    obtain rfl : write d₀ = d := Option.some.inj hd
    obtain ⟨hstamp, hstate, hready⟩ := hwrite d₀
    exact (h.health d₀ hw).write he (hstamp.trans h.time) hstate hready

theorem Tracks.step {w : NodeInfoWindow} (h : Tracks t₀ n past w) (e : Event) :
    Tracks t₀ n (past ++ [e]) (step w e) := by
  have htime : (SystemMonitor.step w e).currentTimeSec = (monitorTime (past ++ [e])).getD t₀ := by
    rw [currentTimeSec_step, h.time, monitorTime_concat, Option.getD_or]
  have hrow := row_step w n e
  cases he : e.ofNode n with
  | false =>
    rw [rowStep_of_not_ofNode he] at hrow
    cases e with
    | update t =>
      refine ⟨htime, fun hnone => ?_, fun d hd => ?_⟩
      · rw [hrow] at hnone
        exact unseen_concat (h.unseen (Option.map_eq_none_iff.mp hnone)) he
      · rw [hrow] at hd
        obtain ⟨d₀, hd₀, rfl⟩ := Option.map_eq_some_iff.mp hd
        exact (h.health d₀ hd₀).update t
    | heartbeat msg | readyToArm msg =>
      refine ⟨htime, fun hnone => ?_, fun d hd => ?_⟩
      · exact unseen_concat (h.unseen (hrow.symm.trans hnone)) he
      · exact (h.health d (hrow.symm.trans hd)).other he (fun t => by simp)
  | true =>
    cases e with
    | update t => simp [Event.ofNode] at he
    | heartbeat msg =>
      obtain rfl : msg.nodename = n := by simpa [Event.ofNode] using he
      have hreceived := hrow.trans (received_self _ _ _ _)
      refine ⟨htime, fun hnone => ?_, fun d => h.message he hreceived ⟨rfl, rfl⟩ fun d => ?_⟩
      · rw [hreceived] at hnone
        exact absurd hnone (by simp)
      · exact ⟨rfl, Or.inr ⟨he, Or.inl ⟨msg, rfl⟩⟩, Or.inl rfl⟩
    | readyToArm msg =>
      obtain rfl : msg.nodename = n := by simpa [Event.ofNode] using he
      have hreceived := hrow.trans (received_self _ _ _ _)
      refine ⟨htime, fun hnone => ?_, fun d => h.message he hreceived ⟨rfl, rfl⟩ fun d => ?_⟩
      · rw [hreceived] at hnone
        exact absurd hnone (by simp)
      · exact ⟨rfl, Or.inl rfl, Or.inr ⟨he, msg, rfl⟩⟩

theorem tracks_run (t₀ : Rat) (hasWindow : Bool) (n : String) (past : List Event) :
    Tracks t₀ n past (run step (.initial t₀ hasWindow) past) := by
  apply run_invariant
  · refine ⟨rfl, fun _ x hx => absurd hx List.not_mem_nil, fun d hd => ?_⟩
    exact absurd hd (by simp [NodeInfoWindow.row, NodeInfoWindow.initial])
  · intro past w e h
    exact h.step e

theorem row_isSome_run (t₀ : Rat) (hasWindow : Bool) (n : String) (past : List Event) :
    ((run step (.initial t₀ hasWindow) past).row n).isSome = past.any (·.ofNode n) := by
  have htracks := tracks_run t₀ hasWindow n past
  cases hrow : (run step (.initial t₀ hasWindow) past).row n with
  | none =>
    refine (List.any_eq_false.mpr fun x hx => ?_).symm
    simp [htracks.unseen hrow x hx]
  | some d =>
    obtain ⟨before, e, after, rfl, he, _⟩ := (htracks.health d hrow).stamp
    exact (List.any_eq_true.mpr ⟨e, by simp, he⟩).symm

theorem KeptAlive.of_concat_update {t : Rat} (h : KeptAlive t₀ n kind (past ++ [.update t]))
    (hkind : ∀ before, ¬ kind before (.update t)) : Alive t₀ n past t ∧ KeptAlive t₀ n kind past := by
  obtain ⟨before, e, after, hsplit, he, hafter⟩ := h
  rcases split_concat hsplit with ⟨_, rfl, _⟩ | ⟨after, rfl, hpast⟩
  · exact absurd he (hkind before)
  · rw [hpast]
    refine ⟨hafter after t [] rfl, before, e, after, rfl, he, fun mid u rest hrest => ?_⟩
    exact hafter mid u (rest ++ [.update t]) (by rw [hrest, List.append_assoc, List.cons_append])

/-- **Freshness of the shown health.** After an update a state other than unknown is shown only if a
heartbeat of the node, or its first message, came and the node has been alive at every update since;
a text other than unknown, only if a ready-to-arm message came and the node has been alive since. -/
theorem shown_only_while_alive (t₀ : Rat) (hasWindow : Bool) (past : List Event) (t : Rat) (n : String)
    (d : NodeData) (h : (run step (.initial t₀ hasWindow) (past ++ [.update t])).row n = some d) :
    (d.state ≠ .unknown → Alive t₀ n past t ∧ KeptAlive t₀ n (stateSource n) past) ∧
      (d.readyToArm ≠ "UNKNOWN" → Alive t₀ n past t ∧ KeptAlive t₀ n (readyToArmSource n) past) := by
  have hhealth := (tracks_run t₀ hasWindow n (past ++ [.update t])).health d h
  refine ⟨fun hs => (hhealth.state hs).of_concat_update fun before hk => ?_,
    fun hs => (hhealth.readyToArm hs).of_concat_update fun before hk => ?_⟩
  · exact absurd hk.1 (by simp [Event.ofNode])
  · exact absurd hk.1 (by simp [Event.ofNode])

/-- After every update a state other than unknown is shown only if a heartbeat of the node is at most
the threshold old, and a text other than unknown only if a ready-to-arm message is. -/
def FreshPerStream (t₀ : Rat) (hasWindow : Bool) (events : List Event) : Prop :=
  ∀ past t future, events = past ++ .update t :: future → ∀ n d,
    (run step (.initial t₀ hasWindow) (past ++ [.update t])).row n = some d →
    (d.state ≠ .unknown → ∃ before msg after, past = before ++ .heartbeat msg :: after ∧
      msg.nodename = n ∧ t - (monitorTime before).getD t₀ ≤ commTimeoutThreshold) ∧
    (d.readyToArm ≠ "UNKNOWN" → ∃ before msg after, past = before ++ .readyToArm msg :: after ∧
      msg.nodename = n ∧ t - (monitorTime before).getD t₀ ≤ commTimeoutThreshold)

/-- A running node says at time 0 that it is ready to arm, and then sends heartbeats only. -/
def heartbeatsOnly : List Event :=
  let heartbeat : Event := .heartbeat ⟨"pi", "imu", "/imu", .running⟩
  [.update 0, heartbeat, .readyToArm ⟨"/imu", 1, 1, true⟩, .update 4, heartbeat]

/-- At time 8 the text is still shown. -/
theorem heartbeatsOnly_row :
    ∃ d, (run step (.initial 0 true) (heartbeatsOnly ++ [.update 8])).row "/imu" = some d ∧
      d.state = .running ∧ d.readyToArm = "TRUE" := by
  refine ⟨_, rfl, ?_⟩
  decide +kernel

theorem not_freshPerStream :
    ¬ ∀ t₀ hasWindow events, Nondecreasing events → FreshPerStream t₀ hasWindow events := by
  intro h
  obtain ⟨d, hd, _, htext⟩ := heartbeatsOnly_row
  obtain ⟨before, msg, after, hsplit, _, ht⟩ := (h 0 true (heartbeatsOnly ++ [.update 8])
    (by decide +kernel) heartbeatsOnly 8 [] rfl "/imu" d hd).2 (by simp [htext])
  have hbefore : before = [.update 0, .heartbeat ⟨"pi", "imu", "/imu", .running⟩] := by
    simp [heartbeatsOnly, List.cons_eq_append_iff] at hsplit
    exact hsplit.1
  rw [hbefore] at ht
  revert ht
  decide +kernel

theorem heartbeatsOnly_alive :
    ∃ d, (run step (.initial 0 true) (heartbeatsOnly ++ [.update 8])).row "/imu" = some d ∧
      d.readyToArm ≠ "UNKNOWN" ∧ Alive 0 "/imu" heartbeatsOnly 8 := by
  obtain ⟨d, hd, _, htext⟩ := heartbeatsOnly_row
  have hne : d.readyToArm ≠ "UNKNOWN" := by simp [htext]
  exact ⟨d, hd, hne, ((shown_only_while_alive 0 true heartbeatsOnly 8 "/imu" d hd).2 hne).1⟩

end SystemMonitor
