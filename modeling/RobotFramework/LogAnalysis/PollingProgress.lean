import Mathlib.Algebra.BigOperators.Ring.Finset
import RobotFramework.LogAnalysis.Polling

/-!
# The polling loop goes on

`work` is a potential of the workers and the parent: every step lowers it, and only an expired timeout pays
something in. So between timeouts the loop does a bounded amount of work (`polling_work_bounded`), and as
long as there is a worker process, it is never stuck before its end (`polling_can_end`). Of each bag it
reports the end exactly once, counting from 1 to the number of bags (`completions_reported`).
-/

namespace LogAnalysis

open History

variable {total : Nat} {jobs : Fin total → Job} {workerCount : Nat} {s t : System total}

/-! ## What the parent does in a step -/

/-- How far the parent is from the head of its loop. -/
def Control.rank : Control total → Nat
  | .scan unseen finished => 2 * unseen.length + finished.length + 5
  | .complete finished => finished.length + 4
  | .drain => 3
  | .loopHead => 2
  | .get => 1
  | .ended | .keyError => 0

/-- The parent prints the first item of the queue. -/
structure Prints (s t : System total) : Prop where
  queue : ∃ item, s.queue = item :: t.queue ∧ t.parent.output = s.parent.output ++ [.line item]
  pending : t.parent.pending = s.parent.pending
  completed : t.parent.completed = s.parent.completed
  rank : t.parent.control.rank ≤ s.parent.control.rank + (2 * s.parent.pending.length + 4)

/-- The parent goes on without printing. -/
structure Continues (s t : System total) : Prop where
  queue : t.queue = s.queue
  output : t.parent.output = s.parent.output
  pending : t.parent.pending = s.parent.pending
  completed : t.parent.completed = s.parent.completed
  rank : t.parent.control.rank < s.parent.control.rank

/-- What is printed when a future is completed. -/
def completion (jobs : Fin total → Job) (bagPath : List Char) (future : Fin total) (completed : Nat) :
    List Output :=
  ((jobs future).failure.map (Output.workerFailure bagPath)).toList ++ [.progress completed total]

/-- The parent completes a future. -/
structure Completes (jobs : Fin total → Job) (s t : System total) : Prop where
  queue : t.queue = s.queue
  future : ∃ future finished bagPath, s.parent.control = .complete (future :: finished) ∧
    s.parent.pending.lookup future = some bagPath ∧
    t.parent =
      { control := .complete finished
        pending := s.parent.pending.filter (·.1 ≠ future)
        completed := s.parent.completed + 1
        output := s.parent.output ++ completion jobs bagPath future (s.parent.completed + 1) }

theorem parentStep_cases (h : parentStep jobs s = some t) :
    t.futures = s.futures ∧ (Prints s t ∨ Continues s t ∨ Completes jobs s t) := by
  unfold parentStep at h
  dsimp only at h
  split at h
  case h_1 hcontrol =>
    obtain rfl := Option.some.inj h
    refine ⟨rfl, .inr (.inl ⟨rfl, rfl, rfl, rfl, ?_⟩)⟩
    by_cases hempty : s.parent.pending.isEmpty <;> simp [hcontrol, hempty, Control.rank]
  case h_2 hcontrol =>
    split at h
    · cases h
    · rename_i item queue hqueue
      obtain rfl := Option.some.inj h
      refine ⟨rfl, .inl ⟨⟨item, hqueue, rfl⟩, rfl, rfl, ?_⟩⟩
      simp only [hcontrol, Control.rank, List.length_map, List.length_nil]
      omega
  case h_3 future unseen finished hcontrol =>
    obtain rfl := Option.some.inj h
    refine ⟨rfl, .inr (.inl ⟨rfl, rfl, rfl, rfl, ?_⟩)⟩
    by_cases hdone : s.done future = true
    · simp only [hcontrol, hdone, Control.rank, if_true, List.length_append, List.length_cons, List.length_nil]
      omega
    · simp only [hcontrol, hdone, Control.rank, List.length_cons]
      simp
  case h_4 finished hcontrol =>
    obtain rfl := Option.some.inj h
    refine ⟨rfl, .inr (.inl ⟨rfl, rfl, rfl, rfl, ?_⟩)⟩
    simp [hcontrol, Control.rank]
  case h_5 future finished hcontrol =>
    split at h
    · obtain rfl := Option.some.inj h
      refine ⟨rfl, .inr (.inl ⟨rfl, rfl, rfl, rfl, ?_⟩)⟩
      simp [hcontrol, Control.rank]
    · rename_i bagPath hlookup
      obtain rfl := Option.some.inj h
      refine ⟨rfl, .inr (.inr ⟨rfl, future, finished, bagPath, hcontrol, hlookup, ?_⟩)⟩
      simp [completion]
  case h_6 hcontrol =>
    obtain rfl := Option.some.inj h
    refine ⟨rfl, .inr (.inl ⟨rfl, rfl, rfl, rfl, ?_⟩)⟩
    simp [hcontrol, Control.rank]
  case h_7 hcontrol =>
    split at h
    · rename_i hqueue
      obtain rfl := Option.some.inj h
      refine ⟨rfl, .inr (.inl ⟨rfl, rfl, rfl, rfl, ?_⟩)⟩
      simp [hcontrol, Control.rank]
    · rename_i item queue hqueue
      obtain rfl := Option.some.inj h
      exact ⟨rfl, .inl ⟨⟨item, hqueue, rfl⟩, rfl, rfl, Nat.le_add_right _ _⟩⟩
  case h_8 => cases h
  case h_9 => cases h

/-- The parent cannot go on only at its end, and while it waits for an item. -/
theorem parentStep_eq_none (h : Inv jobs s) (hnone : parentStep jobs s = none) :
    s.parent.control = .ended ∨ s.parent.control = .get ∧ s.queue = [] := by
  have hcontrol := h.control
  unfold ControlInv at hcontrol
  unfold parentStep at hnone
  cases hplace : s.parent.control with
  | get =>
    refine .inr ⟨rfl, ?_⟩
    by_contra hqueue
    obtain ⟨item, queue, hqueue⟩ := List.exists_cons_of_ne_nil hqueue
    simp [hplace, hqueue] at hnone
  | loopHead => simp [hplace] at hnone
  | scan unseen finished => cases unseen <;> simp [hplace] at hnone
  | complete finished =>
    cases finished with
    | nil => simp [hplace] at hnone
    | cons future finished =>
      simp only [hplace] at hnone
      split at hnone <;> cases hnone
  | drain =>
    simp only [hplace] at hnone
    split at hnone <;> cases hnone
  | ended => exact .inl rfl
  | keyError =>
    rw [hplace] at hcontrol
    exact absurd hcontrol id

/-! ## The potential -/

/-- What an item costs that a worker has put: the parent looks at each future once more. -/
def itemWork (total : Nat) : Nat := 2 * total + 5

def Phase.work : Phase → Nat
  | .submitted => 2
  | .running => 1
  | .done => 0

def Future.work (total : Nat) (future : Future) : Nat :=
  future.phase.work + (itemWork total + 1) * future.unput.length

def System.work (s : System total) : Nat :=
  (∑ i, (s.futures i).work total) + itemWork total * s.queue.length + s.parent.control.rank

def Event.pays : Event total → Nat
  | .timeout => itemWork total
  | _ => 0

theorem sum_work_update (futures : Fin total → Future) (i : Fin total) (future : Future) :
    (∑ j, (Function.update futures i future j).work total) + (futures i).work total =
      (∑ j, (futures j).work total) + future.work total := by
  have hothers : ∑ j ∈ Finset.univ.erase i, (Function.update futures i future j).work total =
      ∑ j ∈ Finset.univ.erase i, (futures j).work total := by
    apply Finset.sum_congr rfl
    intro j hj
    rw [Function.update_of_ne (Finset.ne_of_mem_erase hj)]
  rw [← Finset.add_sum_erase _ _ (Finset.mem_univ i), ← Finset.add_sum_erase _ _ (Finset.mem_univ i),
    hothers, Function.update_self]
  omega

theorem rank_complete_le {future : Fin total} {finished : List (Fin total)}
    (h : s.parent.control = .complete (future :: finished)) :
    (Control.complete finished).rank < s.parent.control.rank := by
  rw [h]
  exact Nat.add_lt_add_right (Nat.lt_succ_self _) _

theorem work_parentStep (hinv : Inv jobs s) (h : parentStep jobs s = some t) : t.work < s.work := by
  have hcount := hinv.count
  obtain ⟨hfutures, hprints | hcontinues | hcompletes⟩ := parentStep_cases h
  · obtain ⟨⟨item, hqueue, -⟩, -, -, hrank⟩ := hprints
    unfold System.work itemWork
    rw [hfutures, hqueue, List.length_cons, Nat.mul_add]
    omega
  · unfold System.work
    rw [hfutures, hcontinues.queue]
    have hrank := hcontinues.rank
    omega
  · obtain ⟨hqueue, future, finished, bagPath, hcontrol, -, hparent⟩ := hcompletes
    have hrank := rank_complete_le hcontrol
    unfold System.work
    rw [hfutures, hqueue, hparent]
    dsimp only
    omega

/-- Every step lowers the potential by what it does not pay in. -/
theorem work_step (hinv : Inv jobs s) {event : Event total}
    (h : s.step jobs workerCount event = some t) : t.work + 1 ≤ s.work + event.pays := by
  cases event with
  | start i =>
    simp only [System.step, Option.ite_none_right_eq_some, Option.some.injEq] at h
    obtain ⟨⟨hphase, -⟩, rfl⟩ := h
    have hsum := sum_work_update s.futures i ⟨.running, (s.futures i).unput⟩
    have hbefore : (s.futures i).work total = 2 + (itemWork total + 1) * (s.futures i).unput.length := by
      unfold Future.work
      rw [hphase]
      rfl
    have hafter : (Future.mk .running (s.futures i).unput).work total =
        1 + (itemWork total + 1) * (s.futures i).unput.length := rfl
    simp only [System.work, Event.pays]
    omega
  | put i =>
    simp only [System.step] at h
    split at h
    · cases h
    · rename_i item unput hunput
      simp only [Option.ite_none_right_eq_some, Option.some.injEq] at h
      obtain ⟨hphase, rfl⟩ := h
      have hsum := sum_work_update s.futures i ⟨.running, unput⟩
      have hbefore : (s.futures i).work total = 1 + (itemWork total + 1) * (unput.length + 1) := by
        unfold Future.work
        rw [hphase, hunput]
        rfl
      have hafter : (Future.mk .running unput).work total = 1 + (itemWork total + 1) * unput.length := rfl
      rw [Nat.mul_add] at hbefore
      simp only [System.work, Event.pays, List.length_append, List.length_cons, List.length_nil,
        Nat.mul_add]
      omega
  | finish i =>
    simp only [System.step, Option.ite_none_right_eq_some, Option.some.injEq] at h
    obtain ⟨⟨hphase, hunput⟩, rfl⟩ := h
    have hsum := sum_work_update s.futures i ⟨.done, []⟩
    have hbefore : (s.futures i).work total = 1 := by
      unfold Future.work
      rw [hphase, hunput]
      rfl
    have hafter : (Future.mk .done []).work total = 0 := rfl
    simp only [System.work, Event.pays]
    omega
  | parent =>
    have hlower := work_parentStep hinv h
    simp only [Event.pays]
    omega
  | timeout =>
    have hcount := hinv.count
    simp only [System.step, Option.ite_none_right_eq_some, Option.some.injEq] at h
    obtain ⟨hget, rfl⟩ := h
    simp only [System.work, Event.pays, itemWork, hget, Control.rank, List.length_map, List.length_nil]
    omega

def Event.isTimeout : Event total → Bool
  | .timeout => true
  | _ => false

theorem sum_pays (events : List (Event total)) :
    (events.map Event.pays).sum = itemWork total * events.countP Event.isTimeout := by
  induction events with
  | nil => rfl
  | cons event events ih =>
    rw [List.map_cons, List.sum_cons, ih]
    cases event with
    | timeout =>
      rw [List.countP_cons_of_pos rfl, Nat.mul_add]
      simp only [Event.pays]
      omega
    | start i | put i | finish i | parent =>
      rw [List.countP_cons_of_neg (by simp [Event.isTimeout])]
      exact Nat.zero_add _

/-- **Bounded work.** However the workers and the parent interleave, the number of steps is bounded by the
number of bags, of items that the workers put, and of timeouts that expire: the loop does not turn forever
but by waiting. -/
theorem polling_work_bounded (jobs : Fin total → Job) (workerCount : Nat) (events : List (Event total))
    (s : System total)
    (hrun : attempt (System.step jobs workerCount) (System.initial jobs) events = some s) :
    events.length ≤ (2 * total + 6) * (∑ i, (jobs i).puts.length) + 2 * total + 2 +
      (2 * total + 5) * events.countP Event.isTimeout := by
  have hbound : events.length + s.work ≤ (System.initial jobs).work + (events.map Event.pays).sum :=
    attempt_length_le (fun h ht => h.step ht) (fun h ht => work_step h ht) (inv_initial jobs) hrun
  have hinitial : (System.initial jobs).work = (2 * total + 6) * (∑ i, (jobs i).puts.length) + 2 * total + 2 := by
    simp only [System.work, System.initial, Future.work, Phase.work, itemWork, Control.rank,
      Finset.sum_add_distrib, Finset.sum_const, Finset.card_univ, Fintype.card_fin, List.length_nil,
      ← Finset.mul_sum, nsmul_eq_mul, Nat.cast_id]
    rw [show 2 * total + 5 + 1 = 2 * total + 6 from rfl]
    omega
  rw [sum_pays, hinitial] at hbound
  exact (Nat.le_add_right _ _).trans hbound

theorem twoBagsRun_bounded : twoBagsRun.length ≤ 6 * 3 + 2 * 2 * 3 + 2 * 2 + 2 + (2 * 2 + 5) * 1 := by
  have hended : (attempt (System.step twoBags 2) (System.initial twoBags) twoBagsRun).isSome = true := by decide
  obtain ⟨s, hrun⟩ := Option.isSome_iff_exists.mp hended
  exact polling_work_bounded twoBags 2 twoBagsRun s hrun

/-! ## The end -/

/-- Nothing is left to do but to wait for the timeout. -/
def Idle (s : System total) : Prop := s.parent.control = .get ∧ s.queue = [] ∧ ∀ i, s.done i = true

theorem worker_goes_on (hworkers : 0 < workerCount) {i : Fin total} (hi : s.done i = false) :
    ∃ event t, event.isTimeout = false ∧ s.step jobs workerCount event = some t := by
  have hrunning (j : Fin total) (hj : (s.futures j).phase = .running) :
      ∃ event t, event.isTimeout = false ∧ s.step jobs workerCount event = some t := by
    cases hunput : (s.futures j).unput with
    | nil =>
      exact ⟨.finish j, _, rfl, if_pos ⟨hj, hunput⟩⟩
    | cons item unput =>
      refine ⟨.put j, { s with
          futures := Function.update s.futures j ⟨.running, unput⟩
          queue := s.queue ++ [item] }, rfl, ?_⟩
      simp only [System.step, hunput]
      exact if_pos hj
  cases hphase : (s.futures i).phase with
  | running => exact hrunning i hphase
  | done => simp [System.done, hphase] at hi
  | submitted =>
    by_cases hany : ∃ j, (s.futures j).phase = .running
    · obtain ⟨j, hj⟩ := hany
      exact hrunning j hj
    · have hnone : (List.finRange total).countP (fun j => (s.futures j).phase = .running) = 0 := by
        rw [List.countP_eq_zero]
        intro j _
        simpa using fun hj => hany ⟨j, hj⟩
      exact ⟨.start i, _, rfl, if_pos ⟨hphase, by omega⟩⟩

theorem goes_on (hworkers : 0 < workerCount) (hinv : Inv jobs s)
    (hgoal : ¬ (s.parent.control = .ended ∨ Idle s)) :
    ∃ event t, event.isTimeout = false ∧ s.step jobs workerCount event = some t := by
  cases hparent : parentStep jobs s with
  | some t => exact ⟨.parent, t, rfl, hparent⟩
  | none =>
    rcases parentStep_eq_none hinv hparent with hended | ⟨hget, hqueue⟩
    · exact absurd (Or.inl hended) hgoal
    · have hundone : ∃ i, s.done i = false := by
        by_contra hall
        refine hgoal (.inr ⟨hget, hqueue, fun i => ?_⟩)
        cases hi : s.done i with
        | true => rfl
        | false => exact absurd ⟨i, hi⟩ hall
      obtain ⟨i, hi⟩ := hundone
      exact worker_goes_on hworkers hi

theorem pays_of_isTimeout {event : Event total} (h : event.isTimeout = false) : event.pays = 0 := by
  cases event <;> first | rfl | cases h

/-- The parent is on its way to the end: all futures are done, the queue is empty, and it has seen, or will
see, all futures that are pending. -/
structure Closing (s : System total) : Prop where
  done : ∀ i, s.done i = true
  queue : s.queue = []
  seen : match s.parent.control with
    | .scan unseen finished => ∀ i ∈ s.parent.pending.map Prod.fst, i ∈ finished ++ unseen
    | .complete finished => ∀ i ∈ s.parent.pending.map Prod.fst, i ∈ finished
    | .drain | .loopHead | .ended => s.parent.pending = []
    | .get | .keyError => False

theorem pending_nil_of_keys (h : ∀ i ∈ s.parent.pending.map Prod.fst, i ∈ ([] : List (Fin total))) :
    s.parent.pending = [] := by
  rw [← List.map_eq_nil_iff (f := Prod.fst)]
  exact List.eq_nil_iff_forall_not_mem.mpr fun i hi => List.not_mem_nil (h i hi)

theorem Closing.parentStep (h : Closing s) (hinv : Inv jobs s) (ht : parentStep jobs s = some t) :
    Closing t := by
  obtain ⟨hdone, hqueue, hseen⟩ := h
  have hcontrol := hinv.control
  unfold ControlInv at hcontrol
  unfold LogAnalysis.parentStep at ht
  cases hplace : s.parent.control with
  | loopHead =>
    simp only [hplace, Option.some.injEq] at ht hseen
    subst ht
    exact ⟨hdone, hqueue, by simp [hseen]⟩
  | scan unseen finished =>
    cases unseen with
    | nil =>
      simp only [hplace, Option.some.injEq, List.append_nil] at ht hseen
      subst ht
      exact ⟨hdone, hqueue, hseen⟩
    | cons future unseen =>
      simp only [hplace, Option.some.injEq] at ht hseen
      subst ht
      exact ⟨hdone, hqueue, by simpa [hdone future] using hseen⟩
  | complete finished =>
    cases finished with
    | nil =>
      simp only [hplace, Option.some.injEq] at ht hseen
      subst ht
      exact ⟨hdone, hqueue, pending_nil_of_keys hseen⟩
    | cons future finished =>
      simp only [hplace] at ht hseen hcontrol
      have hpending := hcontrol.2.1 future List.mem_cons_self
      have hpop := (pending_pop hinv.pending_nodup hpending).1
      split at ht
      · rename_i hlookup
        obtain ⟨entry, hentry, hkey⟩ := List.mem_map.mp hpending
        have hne := List.lookup_eq_none_iff.mp hlookup entry hentry
        simp [hkey] at hne
      · obtain rfl := Option.some.inj ht
        refine ⟨hdone, hqueue, fun i hi => ?_⟩
        rw [hpop, hinv.pending_nodup.mem_erase_iff] at hi
        exact (List.mem_cons.mp (hseen i hi.2)).resolve_left hi.1
  | drain =>
    simp only [hplace, hqueue, Option.some.injEq] at ht hseen
    subst ht
    exact ⟨hdone, rfl, hseen⟩
  | get | ended | keyError => simp [hplace, hqueue] at ht hseen

theorem idle_ends (workerCount : Nat) (hinv : Inv jobs s) (hidle : Idle s) :
    ∃ more t, attempt (System.step jobs workerCount) s (.timeout :: more) = some t ∧
      t.parent.control = .ended ∧ ∀ e ∈ more, e.isTimeout = false := by
  obtain ⟨hget, hqueue, hdone⟩ := hidle
  have htimeout : s.step jobs workerCount .timeout = some
      { s with parent := { s.parent with control := .scan (s.parent.pending.map Prod.fst) [] } } :=
    if_pos hget
  have hclosing : Closing
      { s with parent := { s.parent with control := .scan (s.parent.pending.map Prod.fst) [] } } :=
    ⟨hdone, hqueue, fun _ hi => hi⟩
  obtain ⟨more, t, hmore, -, hended, hbusy⟩ :=
    attempt_reaches (System.step jobs workerCount) (fun s => Inv jobs s ∧ Closing s)
      (fun s => s.parent.control = .ended) (fun e => e.isTimeout = false) System.work
      (fun s ⟨hinv, hclosing⟩ hgoal => by
        cases hparent : parentStep jobs s with
        | some t =>
          exact ⟨.parent, t, rfl, hparent, ⟨hinv.parentStep hparent, hclosing.parentStep hinv hparent⟩,
            work_parentStep hinv hparent⟩
        | none =>
          rcases parentStep_eq_none hinv hparent with hended | ⟨hget, -⟩
          · exact absurd hended hgoal
          · have hseen := hclosing.seen
            simp only [hget] at hseen) ⟨hinv.step htimeout, hclosing⟩
  exact ⟨more, t, by rw [attempt_cons_of_step htimeout, hmore], hended, hbusy⟩

/-- **The loop is never stuck.** With at least one worker process, every state of the loop can still come to
the end, with at most one timeout that expires on the way. -/
theorem polling_can_end (jobs : Fin total → Job) {workerCount : Nat} (hworkers : 0 < workerCount)
    (events : List (Event total)) (s : System total)
    (hrun : attempt (System.step jobs workerCount) (System.initial jobs) events = some s) :
    ∃ more t, attempt (System.step jobs workerCount) s more = some t ∧ t.parent.control = .ended ∧
      more.countP Event.isTimeout ≤ 1 := by
  have hnone (more : List (Event total)) (h : ∀ e ∈ more, e.isTimeout = false) :
      more.countP Event.isTimeout = 0 :=
    List.countP_eq_zero.mpr fun e he => by simp [h e he]
  -- Until the end, or until there is nothing left but to wait.
  obtain ⟨more, idle, hmore, hinv, hreached, hbusy⟩ :=
    attempt_reaches (System.step jobs workerCount) (Inv jobs) (fun s => s.parent.control = .ended ∨ Idle s)
      (fun e => e.isTimeout = false) System.work
      (fun s hinv hgoal => by
        obtain ⟨event, t, hevent, hstep⟩ := goes_on hworkers hinv hgoal
        have hlower := work_step hinv hstep
        rw [pays_of_isTimeout hevent] at hlower
        exact ⟨event, t, hevent, hstep, hinv.step hstep, hlower⟩) (inv_run hrun)
  rcases hreached with hended | hidle
  · exact ⟨more, idle, hmore, hended, by rw [hnone more hbusy]; exact Nat.zero_le 1⟩
  · obtain ⟨last, t, hlast, hended, hquiet⟩ := idle_ends workerCount hinv hidle
    refine ⟨more ++ .timeout :: last, t, ?_, hended, ?_⟩
    · rw [attempt_append hmore, hlast]
    · rw [List.countP_append, hnone more hbusy, List.countP_cons_of_pos rfl, hnone last hquiet]

theorem twoBags_can_end :
    ∃ s, attempt (System.step twoBags 1) (System.initial twoBags) [.start 0, .put 0] = some s ∧
      ∃ more t, attempt (System.step twoBags 1) s more = some t ∧ t.parent.control = .ended ∧
        more.countP Event.isTimeout ≤ 1 := by
  have hstarted : (attempt (System.step twoBags 1) (System.initial twoBags) [.start 0, .put 0]).isSome = true := by
    decide
  obtain ⟨s, hrun⟩ := Option.isSome_iff_exists.mp hstarted
  exact ⟨s, hrun, polling_can_end twoBags Nat.zero_lt_one _ s hrun⟩

/-! ## What is reported -/

/-- What is printed besides the lines of the workers. -/
def Parent.reports (p : Parent total) : List Output := p.output.filter fun o => o.item?.isNone

/-- The reports when futures are completed in an order. -/
def completions (jobs : Fin total → Job) (completed : Nat) : List (Fin total) → List Output
  | [] => []
  | future :: order =>
    completion jobs (jobs future).bagPath future (completed + 1) ++ completions jobs (completed + 1) order

theorem completions_concat (completed : Nat) (order : List (Fin total)) (future : Fin total) :
    completions jobs completed (order ++ [future]) =
      completions jobs completed order ++
        completion jobs (jobs future).bagPath future (completed + order.length + 1) := by
  induction order generalizing completed with
  | nil => simp [completions]
  | cons first order ih =>
    rw [List.cons_append, completions, completions, ih, List.append_assoc, List.length_cons]
    congr 4
    omega

/-- The futures have been completed in an order. -/
structure Reported (jobs : Fin total → Job) (s : System total) (order : List (Fin total)) : Prop where
  nodup : order.Nodup
  mem (i : Fin total) : i ∈ order ↔ i ∉ s.parent.pending.map Prod.fst
  completed : s.parent.completed = order.length
  reports : s.parent.reports = completions jobs 0 order
  bagPath : ∀ entry ∈ s.parent.pending, entry.2 = (jobs entry.1).bagPath

theorem reported_initial (jobs : Fin total → Job) : Reported jobs (System.initial jobs) [] where
  nodup := List.nodup_nil
  mem i := by simp [System.initial]
  completed := rfl
  reports := rfl
  bagPath entry hentry := by
    obtain ⟨i, -, rfl⟩ := List.mem_map.mp hentry
    rfl

theorem reports_completion (bagPath : List Char) (future : Fin total) (completed : Nat) :
    (completion jobs bagPath future completed).filter (fun o => o.item?.isNone) =
      completion jobs bagPath future completed := by
  unfold completion
  cases (jobs future).failure <;> simp [Output.item?]

theorem Reported.congr {order : List (Fin total)} (h : Reported jobs s order)
    (hpending : t.parent.pending = s.parent.pending) (hcompleted : t.parent.completed = s.parent.completed)
    (hreports : t.parent.reports = s.parent.reports) : Reported jobs t order where
  nodup := h.nodup
  mem i := by rw [hpending, h.mem]
  completed := by rw [hcompleted, h.completed]
  reports := by rw [hreports, h.reports]
  bagPath := by rw [hpending]; exact h.bagPath

theorem Reported.parentStep {order : List (Fin total)} (h : Reported jobs s order) (hinv : Inv jobs s)
    (ht : parentStep jobs s = some t) : ∃ order, Reported jobs t order := by
  obtain ⟨-, hprints | hcontinues | hcompletes⟩ := parentStep_cases ht
  · obtain ⟨⟨item, -, houtput⟩, hpending, hcompleted, -⟩ := hprints
    refine ⟨order, h.congr hpending hcompleted ?_⟩
    unfold Parent.reports
    rw [houtput, List.filter_append]
    exact List.append_nil _
  · refine ⟨order, h.congr hcontinues.pending hcontinues.completed ?_⟩
    unfold Parent.reports
    rw [hcontinues.output]
  · obtain ⟨-, future, finished, bagPath, hplace, hlookup, hparent⟩ := hcompletes
    have hentry : (future, bagPath) ∈ s.parent.pending := by
      obtain ⟨before, after, hsplit, -⟩ := List.lookup_eq_some_iff.mp hlookup
      rw [hsplit]
      exact List.mem_append_right _ List.mem_cons_self
    have hpending : future ∈ s.parent.pending.map Prod.fst := List.mem_map_of_mem hentry
    have hpop := (pending_pop hinv.pending_nodup hpending).1
    have hpath : bagPath = (jobs future).bagPath := h.bagPath _ hentry
    refine ⟨order ++ [future], ?_, fun i => ?_, ?_, ?_, ?_⟩
    · rw [List.nodup_append]
      refine ⟨h.nodup, List.nodup_singleton _, fun i hi j hj => ?_⟩
      rw [List.mem_singleton.mp hj]
      rintro rfl
      exact (h.mem i).mp hi hpending
    · rw [hparent]
      dsimp only
      rw [hpop, hinv.pending_nodup.mem_erase_iff, List.mem_append, List.mem_singleton, h.mem]
      tauto
    · rw [hparent, List.length_append, h.completed]
      rfl
    · rw [hparent]
      unfold Parent.reports
      dsimp only
      rw [List.filter_append, reports_completion, completions_concat, ← h.reports, h.completed, hpath,
        Nat.zero_add]
      rfl
    · rw [hparent]
      exact fun entry hentry => h.bagPath entry (List.mem_filter.mp hentry).1

theorem Reported.step {order : List (Fin total)} (h : Reported jobs s order) (hinv : Inv jobs s)
    {event : Event total} (ht : s.step jobs workerCount event = some t) : ∃ order, Reported jobs t order := by
  cases event with
  | parent => exact h.parentStep hinv ht
  | start i =>
    simp only [System.step, Option.ite_none_right_eq_some, Option.some.injEq] at ht
    obtain ⟨-, rfl⟩ := ht
    exact ⟨order, h.congr rfl rfl rfl⟩
  | put i =>
    simp only [System.step] at ht
    split at ht
    · cases ht
    · simp only [Option.ite_none_right_eq_some, Option.some.injEq] at ht
      obtain ⟨-, rfl⟩ := ht
      exact ⟨order, h.congr rfl rfl rfl⟩
  | finish i =>
    simp only [System.step, Option.ite_none_right_eq_some, Option.some.injEq] at ht
    obtain ⟨-, rfl⟩ := ht
    exact ⟨order, h.congr rfl rfl rfl⟩
  | timeout =>
    simp only [System.step, Option.ite_none_right_eq_some, Option.some.injEq] at ht
    obtain ⟨-, rfl⟩ := ht
    exact ⟨order, h.congr rfl rfl rfl⟩

theorem reported_run {events : List (Event total)}
    (hrun : attempt (System.step jobs workerCount) (System.initial jobs) events = some s) :
    ∃ order, Reported jobs s order := by
  have hkept : Inv jobs s ∧ ∃ order, Reported jobs s order :=
    attempt_invariant (I := fun s => Inv jobs s ∧ ∃ order, Reported jobs s order)
      (fun ⟨hinv, _, h⟩ ht => ⟨hinv.step ht, h.step hinv ht⟩)
      ⟨inv_initial jobs, [], reported_initial jobs⟩ hrun
  exact hkept.2

theorem Reported.perm {order : List (Fin total)} (h : Reported jobs s order) (hinv : Inv jobs s)
    (hended : s.parent.control = .ended) : order.Perm (List.finRange total) := by
  have hcontrol := hinv.control
  unfold ControlInv at hcontrol
  rw [hended] at hcontrol
  refine (List.perm_ext_iff_of_nodup h.nodup (List.nodup_finRange total)).mpr fun i => ?_
  rw [h.mem, hcontrol.1]
  simp

/-- **Each bag is reported once.** At every moment the reports are those of some futures, each of which is
done and completed once, with the path of its bag and with a failure just if its worker has raised one, and
they count from 1 on; at the end of the loop they are those of all bags. -/
theorem completions_reported (jobs : Fin total → Job) (workerCount : Nat) (events : List (Event total))
    (s : System total)
    (hrun : attempt (System.step jobs workerCount) (System.initial jobs) events = some s) :
    ∃ order : List (Fin total), order.Nodup ∧ (∀ i ∈ order, s.done i = true) ∧
      s.parent.completed = order.length ∧ s.parent.reports = completions jobs 0 order ∧
      (s.parent.control = .ended → order.Perm (List.finRange total)) := by
  have hinv := inv_run hrun
  obtain ⟨order, h⟩ := reported_run hrun
  exact ⟨order, h.nodup, fun i hi => hinv.not_pending_done i ((h.mem i).mp hi), h.completed, h.reports,
    h.perm hinv⟩

/-- The second bag of `twoBags` fails. -/
theorem twoBagsRun_reported :
    ∃ s, attempt (System.step twoBags 2) (System.initial twoBags) twoBagsRun = some s ∧
      ∃ order : List (Fin 2), order.Nodup ∧ (∀ i ∈ order, s.done i = true) ∧
        s.parent.completed = order.length ∧ s.parent.reports = completions twoBags 0 order ∧
        (s.parent.control = .ended → order.Perm (List.finRange 2)) := by
  have hended : (attempt (System.step twoBags 2) (System.initial twoBags) twoBagsRun).isSome = true := by decide
  obtain ⟨s, hrun⟩ := Option.isSome_iff_exists.mp hended
  exact ⟨s, hrun, completions_reported twoBags 2 twoBagsRun s hrun⟩

end LogAnalysis
