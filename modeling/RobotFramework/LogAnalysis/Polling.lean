import Mathlib.Data.Fintype.Card
import Mathlib.Data.List.FinRange
import RobotFramework.Interleaving
import RobotFramework.LogAnalysis.WorkerOutput

/-!
# The polling loop

The parent process submits one job per bag to a pool of worker processes and then polls: it reads one
item of the queue or waits in vain, looks which futures are done, and empties the queue. The workers run
meanwhile. `Inv` holds after every interleaving; from it, no output of a worker is lost when the loop has
ended (`polling_loses_nothing`).
-/

namespace LogAnalysis

open History Interleaving

/-! ## The workers -/

/-- What happens to one bag in its worker: what is put on the queue, and the error that
`future.result()` raises in the end, if any. -/
structure Job where
  bagPath : List Char
  puts : List OutputLine
  failure : Option (List Char) := none
  deriving DecidableEq

inductive Phase where
  | submitted
  | running
  | done
  deriving DecidableEq

/-- A future with what its worker has not put yet. -/
structure Future where
  phase : Phase
  unput : List OutputLine

/-! ## The parent -/

/-- What the parent prints. -/
inductive Output where
  | line (item : OutputLine)
  | workerFailure (bagPath error : List Char)
  | progress (completed total : Nat)
  deriving DecidableEq

def Output.item? : Output → Option OutputLine
  | .line item => some item
  | _ => none

section Pool

-- The number of bags.
variable {total : Nat}

/-- Where the parent is in `while pending`. -/
inductive Control (total : Nat) where
  | loopHead
  | get
  | scan (unseen finished : List (Fin total))
  | complete (finished : List (Fin total))
  | drain
  | ended
  | keyError
  deriving DecidableEq

structure Parent (total : Nat) where
  control : Control total
  pending : List (Fin total × List Char)
  completed : Nat
  output : List Output

structure System (total : Nat) where
  futures : Fin total → Future
  queue : List OutputLine
  parent : Parent total

/-- The items that have been printed. -/
def Parent.printed (p : Parent total) : List OutputLine := p.output.filterMap Output.item?

/-- `future.done()`. -/
def System.done (s : System total) (future : Fin total) : Bool := (s.futures future).phase = .done

def System.initial (jobs : Fin total → Job) : System total where
  futures := fun i => ⟨.submitted, (jobs i).puts⟩
  queue := []
  parent :=
    { control := .loopHead
      pending := (List.finRange total).map fun i => (i, (jobs i).bagPath)
      completed := 0
      output := [] }

/-- The next step of the parent. It is blocked in `get` while the queue is empty. -/
def parentStep (jobs : Fin total → Job) (s : System total) : Option (System total) :=
  let p := s.parent
  match p.control with
  | .loopHead =>
    some { s with parent := { p with control := if p.pending.isEmpty then .ended else .get } }
  | .get =>
    match s.queue with
    | [] => none
    | item :: queue =>
      some { s with
        queue
        parent := { p with
          control := .scan (p.pending.map Prod.fst) []
          output := p.output ++ [.line item] } }
  | .scan (future :: unseen) finished =>
    some { s with
      parent := { p with
        control := .scan unseen (if s.done future then finished ++ [future] else finished) } }
  | .scan [] finished => some { s with parent := { p with control := .complete finished } }
  | .complete (future :: finished) =>
    match p.pending.lookup future with
    | none => some { s with parent := { p with control := .keyError } }
    | some bagPath =>
      let failures := ((jobs future).failure.map (Output.workerFailure bagPath)).toList
      some { s with
        parent :=
          { control := .complete finished
            pending := p.pending.filter (·.1 ≠ future)
            completed := p.completed + 1
            output := p.output ++ failures ++ [.progress (p.completed + 1) total] } }
  | .complete [] => some { s with parent := { p with control := .drain } }
  | .drain =>
    match s.queue with
    | [] => some { s with parent := { p with control := .loopHead } }
    | item :: queue =>
      some { s with queue, parent := { p with output := p.output ++ [.line item] } }
  | .ended => none
  | .keyError => none

/-- What can happen next. -/
inductive Event (total : Nat) where
  /-- A free worker process takes the bag. -/
  | start (future : Fin total)
  /-- Its worker puts the next item on the queue. -/
  | put (future : Fin total)
  /-- The future becomes done. -/
  | finish (future : Fin total)
  /-- The parent takes its next step. -/
  | parent
  /-- The timeout of `get` expires. -/
  | timeout

/-- What an event does, if it can happen now. -/
def System.step (jobs : Fin total → Job) (workerCount : Nat) (s : System total) :
    Event total → Option (System total)
  | .start i =>
    if (s.futures i).phase = .submitted ∧
        (List.finRange total).countP (fun j => (s.futures j).phase = .running) < workerCount then
      some { s with futures := Function.update s.futures i ⟨.running, (s.futures i).unput⟩ }
    else none
  | .put i =>
    match (s.futures i).unput with
    | [] => none
    | item :: unput =>
      if (s.futures i).phase = .running then
        some { s with
          futures := Function.update s.futures i ⟨.running, unput⟩
          queue := s.queue ++ [item] }
      else none
  | .finish i =>
    if (s.futures i).phase = .running ∧ (s.futures i).unput = [] then
      some { s with futures := Function.update s.futures i ⟨.done, []⟩ }
    else none
  | .parent => parentStep jobs s
  | .timeout =>
    if s.parent.control = .get then
      some { s with
        parent := { s.parent with control := .scan (s.parent.pending.map Prod.fst) [] } }
    else none

/-! ## What holds at every moment -/

variable {jobs : Fin total → Job} {s t : System total}

/-- What the parent knows at each place of its loop. Only where it has just seen the queue empty with no
future pending can it stay empty. -/
def ControlInv (s : System total) : Prop :=
  match s.parent.control with
  | .loopHead => s.parent.pending = [] → s.queue = []
  | .scan unseen finished =>
    (finished ++ unseen).Nodup ∧ (∀ i ∈ finished ++ unseen, i ∈ s.parent.pending.map Prod.fst) ∧
      ∀ i ∈ finished, s.done i = true
  | .complete finished =>
    finished.Nodup ∧ (∀ i ∈ finished, i ∈ s.parent.pending.map Prod.fst) ∧
      ∀ i ∈ finished, s.done i = true
  | .ended => s.parent.pending = [] ∧ s.queue = []
  | .keyError => False
  | .get | .drain => True

structure Inv (jobs : Fin total → Job) (s : System total) : Prop where
  /-- What has been printed and what is queued is an interleaving of what the workers have put. -/
  delivered : ∃ put : Fin total → List OutputLine,
    Interleaves put (s.parent.printed ++ s.queue) ∧
      ∀ i, put i ++ (s.futures i).unput = (jobs i).puts
  done_unput (i : Fin total) : s.done i = true → (s.futures i).unput = []
  not_pending_done (i : Fin total) : i ∉ s.parent.pending.map Prod.fst → s.done i = true
  pending_nodup : (s.parent.pending.map Prod.fst).Nodup
  count : s.parent.completed + s.parent.pending.length = total
  control : ControlInv s

theorem inv_initial (jobs : Fin total → Job) : Inv jobs (System.initial jobs) where
  delivered := ⟨fun _ => [], Interleaves.nil, fun _ => rfl⟩
  done_unput _ h := absurd h (by simp [System.done, System.initial])
  not_pending_done i h := absurd (by simp [System.initial]) h
  pending_nodup := by
    have : ((List.finRange total).map fun i => (i, (jobs i).bagPath)).map Prod.fst =
        List.finRange total := by
      rw [List.map_map]
      exact List.map_id _
    show (((List.finRange total).map fun i => (i, (jobs i).bagPath)).map Prod.fst).Nodup
    rw [this]
    exact List.nodup_finRange total
  count := by simp [System.initial]
  control := fun _ => rfl

/-! ## Steps of the workers -/

theorem done_congr {i : Fin total} (h : t.futures i = s.futures i) : t.done i = s.done i := by
  unfold System.done
  rw [h]

/-- What a worker can do: the future `i`, which is not done, puts some of its items. -/
structure WorkerStep (s t : System total) (i : Fin total) (items : List OutputLine) : Prop where
  parent : t.parent = s.parent
  others (j : Fin total) : j ≠ i → t.futures j = s.futures j
  undone : s.done i = false
  unput : (s.futures i).unput = items ++ (t.futures i).unput
  queue : t.queue = s.queue ++ items
  finished : t.done i = true → (t.futures i).unput = []

theorem workerStep_update (i : Fin total) (items : List OutputLine) (future : Future)
    (undone : s.done i = false) (unput : (s.futures i).unput = items ++ future.unput)
    (finished : future.phase = .done → future.unput = []) :
    WorkerStep s
      { s with futures := Function.update s.futures i future, queue := s.queue ++ items } i items where
  parent := rfl
  others j hj := Function.update_of_ne hj _ _
  undone := undone
  unput := by
    dsimp only
    rw [Function.update_self, unput]
  queue := rfl
  finished h := by
    unfold System.done at h
    dsimp only at h ⊢
    rw [decide_eq_true_iff, Function.update_self] at h
    rw [Function.update_self]
    exact finished h

theorem WorkerStep.done {i : Fin total} {items : List OutputLine} (h : WorkerStep s t i items)
    {j : Fin total} (hj : s.done j = true) : t.done j = true := by
  rw [done_congr (h.others j _), hj]
  rintro rfl
  rw [h.undone] at hj
  exact Bool.noConfusion hj

theorem WorkerStep.inv {i : Fin total} {items : List OutputLine} (h : WorkerStep s t i items)
    (hinv : Inv jobs s) : Inv jobs t := by
  have hpending : i ∈ s.parent.pending.map Prod.fst := by
    by_contra hnot
    have := hinv.not_pending_done i hnot
    rw [h.undone] at this
    exact Bool.noConfusion this
  have hne : s.parent.pending ≠ [] := by
    intro hnil
    rw [hnil] at hpending
    exact absurd hpending List.not_mem_nil
  obtain ⟨put, hinter, hput⟩ := hinv.delivered
  constructor
  · refine ⟨Function.update put i (put i ++ items), ?_, ?_⟩
    · rw [h.parent, h.queue, ← List.append_assoc]
      exact hinter.append i items
    · intro j
      by_cases hj : j = i
      · subst hj
        rw [Function.update_self, List.append_assoc, ← h.unput, hput]
      · rw [Function.update_of_ne hj, h.others j hj, hput]
  · intro j hj
    by_cases hji : j = i
    · subst hji
      exact h.finished hj
    · rw [h.others j hji]
      rw [done_congr (h.others j hji)] at hj
      exact hinv.done_unput j hj
  · rw [h.parent]
    exact fun j hj => h.done (hinv.not_pending_done j hj)
  · rw [h.parent]
    exact hinv.pending_nodup
  · rw [h.parent]
    exact hinv.count
  · have hcontrol := hinv.control
    unfold ControlInv at hcontrol ⊢
    rw [h.parent]
    split at hcontrol
    · exact fun hnil => absurd hnil hne
    · exact ⟨hcontrol.1, hcontrol.2.1, fun j hj => h.done (hcontrol.2.2 j hj)⟩
    · exact ⟨hcontrol.1, hcontrol.2.1, fun j hj => h.done (hcontrol.2.2 j hj)⟩
    · exact absurd hcontrol.1 hne
    · exact hcontrol
    · trivial
    · trivial

/-! ## Steps of the parent -/

theorem Inv.goto (h : Inv jobs s) (control : Control total)
    (hcontrol : ControlInv { s with parent := { s.parent with control } }) :
    Inv jobs { s with parent := { s.parent with control } } :=
  ⟨h.delivered, h.done_unput, h.not_pending_done, h.pending_nodup, h.count, hcontrol⟩

theorem Inv.printItem (h : Inv jobs s) {item : OutputLine} {queue : List OutputLine}
    (hqueue : s.queue = item :: queue) (control : Control total)
    (hcontrol : ControlInv { s with parent := { s.parent with control } , queue }) :
    Inv jobs { s with
      queue
      parent := { s.parent with control, output := s.parent.output ++ [.line item] } } := by
  refine ⟨?_, h.done_unput, h.not_pending_done, h.pending_nodup, h.count, hcontrol⟩
  obtain ⟨put, hinter, hput⟩ := h.delivered
  refine ⟨put, ?_, hput⟩
  have hprinted : (s.parent.output ++ [Output.line item]).filterMap Output.item? =
      s.parent.printed ++ [item] := List.filterMap_append
  show Interleaves put ((s.parent.output ++ [Output.line item]).filterMap Output.item? ++ queue)
  rw [hprinted, List.append_assoc, List.singleton_append, ← hqueue]
  exact hinter

theorem scan_start (h : Inv jobs s) (queue : List OutputLine) :
    ControlInv { s with
      parent := { s.parent with control := .scan (s.parent.pending.map Prod.fst) [] }, queue } :=
  ⟨h.pending_nodup, fun _ hi => hi, fun _ hi => absurd hi List.not_mem_nil⟩

theorem scan_next (h : Inv jobs s) {future : Fin total} {unseen finished : List (Fin total)}
    (hcontrol : s.parent.control = .scan (future :: unseen) finished) :
    ControlInv { s with
      parent := { s.parent with
        control := .scan unseen (if s.done future then finished ++ [future] else finished) } } := by
  have hscan := h.control
  unfold ControlInv at hscan
  rw [hcontrol] at hscan
  obtain ⟨hnodup, hmem, hdone⟩ := hscan
  by_cases hfuture : s.done future = true
  · rw [if_pos hfuture]
    have happend : finished ++ [future] ++ unseen = finished ++ future :: unseen :=
      List.append_cons .. |>.symm
    refine ⟨by rwa [happend], by rwa [happend], ?_⟩
    intro i hi
    rcases List.mem_append.mp hi with hi | hi
    · exact hdone i hi
    · rw [List.mem_singleton.mp hi]
      exact hfuture
  · rw [if_neg hfuture]
    have hsub : (finished ++ unseen).Sublist (finished ++ future :: unseen) :=
      (List.sublist_cons_self future unseen).append_left finished
    exact ⟨hnodup.sublist hsub, fun i hi => hmem i (hsub.subset hi), hdone⟩

theorem pending_pop {pending : List (Fin total × List Char)} {future : Fin total}
    (hnodup : (pending.map Prod.fst).Nodup) (hmem : future ∈ pending.map Prod.fst) :
    (pending.filter (·.1 ≠ future)).map Prod.fst = (pending.map Prod.fst).erase future ∧
      (pending.filter (·.1 ≠ future)).length + 1 = pending.length := by
  have hmap : (pending.filter (·.1 ≠ future)).map Prod.fst = (pending.map Prod.fst).erase future := by
    rw [hnodup.erase_eq_filter, List.filter_map]
    congr 2
    funext entry
    by_cases hkey : entry.1 = future <;> simp [hkey]
  refine ⟨hmap, ?_⟩
  have hlen := List.length_erase_add_one hmem
  rwa [← hmap, List.length_map, List.length_map] at hlen

theorem Inv.complete (h : Inv jobs s) {future : Fin total} {finished : List (Fin total)}
    (hcontrol : s.parent.control = .complete (future :: finished))
    (ht : parentStep jobs s = some t) : Inv jobs t := by
  have hcomplete := h.control
  unfold ControlInv at hcomplete
  rw [hcontrol] at hcomplete
  obtain ⟨hnodup, hmem, hdone⟩ := hcomplete
  obtain ⟨hfresh, hnodup⟩ := List.nodup_cons.mp hnodup
  have hpending := hmem future List.mem_cons_self
  obtain ⟨hpop, hlength⟩ := pending_pop h.pending_nodup hpending
  unfold LogAnalysis.parentStep at ht
  simp only [hcontrol] at ht
  cases hlookup : s.parent.pending.lookup future with
  | none =>
    obtain ⟨entry, hentry, hkey⟩ := List.mem_map.mp hpending
    have := List.lookup_eq_none_iff.mp hlookup entry hentry
    rw [hkey] at this
    simp at this
  | some bagPath =>
    rw [hlookup] at ht
    obtain rfl := Option.some.inj ht
    constructor
    · obtain ⟨put, hinter, hput⟩ := h.delivered
      refine ⟨put, ?_, hput⟩
      have hprinted (failure : Option (List Char)) :
          (s.parent.output ++ (failure.map (Output.workerFailure bagPath)).toList ++
            [Output.progress (s.parent.completed + 1) total]).filterMap Output.item? =
              s.parent.printed := by
        cases failure <;> simp [Parent.printed, Output.item?]
      unfold Parent.printed
      dsimp only
      rw [hprinted]
      exact hinter
    · exact h.done_unput
    · dsimp only
      rw [hpop]
      intro i hi
      by_cases hif : i = future
      · rw [hif]
        exact hdone future List.mem_cons_self
      · exact h.not_pending_done i fun hold => hi ((List.mem_erase_of_ne hif).mpr hold)
    · dsimp only
      rw [hpop]
      exact h.pending_nodup.erase future
    · have := h.count
      dsimp only
      omega
    · refine ⟨hnodup, ?_, fun i hi => hdone i (List.mem_cons_of_mem _ hi)⟩
      dsimp only
      rw [hpop]
      intro i hi
      have hif : i ≠ future := by
        rintro rfl
        exact hfresh hi
      exact (List.mem_erase_of_ne hif).mpr (hmem i (List.mem_cons_of_mem _ hi))

theorem Inv.parentStep (h : Inv jobs s) (ht : parentStep jobs s = some t) : Inv jobs t := by
  have hcontrol := h.control
  unfold ControlInv at hcontrol
  cases hplace : s.parent.control with
  | loopHead =>
    unfold LogAnalysis.parentStep at ht
    simp only [hplace, Option.some.injEq] at ht hcontrol
    subst ht
    apply h.goto
    by_cases hempty : s.parent.pending = []
    · simp [ControlInv, hempty, hcontrol hempty]
    · simp [ControlInv, hempty]
  | get =>
    unfold LogAnalysis.parentStep at ht
    simp only [hplace] at ht
    cases hqueue : s.queue with
    | nil => simp [hqueue] at ht
    | cons item queue =>
      simp only [hqueue, Option.some.injEq] at ht
      subst ht
      exact h.printItem hqueue _ (scan_start h queue)
  | scan unseen finished =>
    unfold LogAnalysis.parentStep at ht
    cases unseen with
    | nil =>
      simp only [hplace, Option.some.injEq, List.append_nil] at ht hcontrol
      subst ht
      exact h.goto _ hcontrol
    | cons future unseen =>
      simp only [hplace, Option.some.injEq] at ht
      subst ht
      exact h.goto _ (scan_next h hplace)
  | complete finished =>
    cases finished with
    | nil =>
      unfold LogAnalysis.parentStep at ht
      simp only [hplace, Option.some.injEq] at ht
      subst ht
      exact h.goto _ trivial
    | cons future finished => exact h.complete hplace ht
  | drain =>
    unfold LogAnalysis.parentStep at ht
    simp only [hplace] at ht
    cases hqueue : s.queue with
    | nil =>
      simp only [hqueue, Option.some.injEq] at ht
      subst ht
      have hnext := h.goto .loopHead fun _ => hqueue
      rwa [hqueue] at hnext
    | cons item queue =>
      simp only [hqueue, Option.some.injEq] at ht
      subst ht
      exact h.printItem hqueue .drain trivial
  | ended =>
    unfold LogAnalysis.parentStep at ht
    simp [hplace] at ht
  | keyError =>
    unfold LogAnalysis.parentStep at ht
    simp [hplace] at ht

/-! ## Every interleaving -/

variable {workerCount : Nat}

theorem Inv.step (h : Inv jobs s) {event : Event total}
    (ht : s.step jobs workerCount event = some t) : Inv jobs t := by
  cases event with
  | start i =>
    simp only [System.step, Option.ite_none_right_eq_some, Option.some.injEq] at ht
    obtain ⟨⟨hphase, -⟩, rfl⟩ := ht
    have hstep := workerStep_update i [] ⟨.running, (s.futures i).unput⟩
      (by simp [System.done, hphase]) rfl (fun h => Phase.noConfusion h)
    rw [List.append_nil] at hstep
    exact hstep.inv h
  | put i =>
    simp only [System.step] at ht
    split at ht
    · exact absurd ht (by simp)
    · rename_i item unput hunput
      simp only [Option.ite_none_right_eq_some, Option.some.injEq] at ht
      obtain ⟨hphase, rfl⟩ := ht
      exact (workerStep_update i [item] ⟨.running, unput⟩ (by simp [System.done, hphase]) hunput
        (fun h => Phase.noConfusion h)).inv h
  | finish i =>
    simp only [System.step, Option.ite_none_right_eq_some, Option.some.injEq] at ht
    obtain ⟨⟨hphase, hunput⟩, rfl⟩ := ht
    have hstep := workerStep_update i [] ⟨.done, []⟩ (by simp [System.done, hphase]) hunput
      (fun _ => rfl)
    rw [List.append_nil] at hstep
    exact hstep.inv h
  | parent => exact h.parentStep ht
  | timeout =>
    simp only [System.step, Option.ite_none_right_eq_some, Option.some.injEq] at ht
    obtain ⟨-, rfl⟩ := ht
    exact h.goto _ (scan_start h s.queue)

theorem inv_run {events : List (Event total)}
    (hrun : attempt (System.step jobs workerCount) (System.initial jobs) events = some s) :
    Inv jobs s :=
  attempt_invariant (fun h ht => Inv.step h ht) (inv_initial jobs) hrun

/-- With no future pending, every worker has put all it had. -/
theorem Inv.ended (h : Inv jobs s) (hended : s.parent.control = .ended) :
    Interleaves (fun i => (jobs i).puts) s.parent.printed ∧ s.parent.completed = total := by
  have hcontrol := h.control
  unfold ControlInv at hcontrol
  rw [hended] at hcontrol
  obtain ⟨hpending, hqueue⟩ := hcontrol
  obtain ⟨put, hinter, hput⟩ := h.delivered
  have hall : put = fun i => (jobs i).puts := by
    funext i
    have hdone : s.done i = true := h.not_pending_done i (by rw [hpending]; exact List.not_mem_nil)
    rw [← hput i, h.done_unput i hdone, List.append_nil]
  rw [hqueue, List.append_nil, hall] at hinter
  have hcount := h.count
  rw [hpending] at hcount
  exact ⟨hinter, hcount⟩

/-- For each bag and each of its two streams, what is printed are the lines of the text written there. -/
theorem printed_of_bag {events : List (Event total)} {summary : Fin total → List Write}
    {error : Fin total → Option (List Char)}
    (hpaths : Function.Injective fun i => (jobs i).bagPath)
    (hputs : ∀ i, (jobs i).puts = processBagDirectory (jobs i).bagPath (summary i) (error i))
    (hrun : attempt (System.step jobs workerCount) (System.initial jobs) events = some s)
    (hended : s.parent.control = .ended) (i : Fin total) (isError : Bool) :
    ((s.parent.printed.filter (·.bagPath = (jobs i).bagPath)).filter (·.isError = isError)).map
      OutputLine.line = linesOf (textOf isError (workerWrites (jobs i).bagPath (summary i) (error i))) := by
  have hbag (j : Fin total) : ∀ item ∈ (jobs j).puts, item.bagPath = (jobs j).bagPath := by
    rw [hputs j]
    exact (processBagDirectory_lines _ _ _).1
  have hfilter : s.parent.printed.filter (·.bagPath = (jobs i).bagPath) = (jobs i).puts := by
    apply ((inv_run hrun).ended hended).1.filter
    · exact fun item hitem => decide_eq_true (hbag i item hitem)
    · intro j hj item hitem
      apply decide_eq_false
      rw [hbag j item hitem]
      exact fun heq => hj (hpaths heq)
  rw [hfilter, hputs i]
  exact (processBagDirectory_lines _ _ _).2 isError

/-- **No worker output is lost or duplicated.** However the workers and the parent interleave, when the
polling loop has ended, every item that a worker has put is printed exactly once, those of each worker in
the order they were put, and every bag is counted. -/
theorem polling_loses_nothing (jobs : Fin total → Job) (workerCount : Nat)
    (events : List (Event total)) (s : System total)
    (hrun : attempt (System.step jobs workerCount) (System.initial jobs) events = some s)
    (hended : s.parent.control = .ended) :
    Interleaves (fun i => (jobs i).puts) s.parent.printed ∧ s.parent.completed = total :=
  (inv_run hrun).ended hended

end Pool

/-- Two bags; the second one writes to the standard error too. -/
def twoBags : Fin 2 → Job
  | 0 => ⟨['a'], [⟨['a'], false, ['1']⟩], none⟩
  | 1 => ⟨['b'], [⟨['b'], false, ['1']⟩, ⟨['b'], true, ['2']⟩], some ['!']⟩

/-- The second worker puts its last item while the parent looks which futures are done. -/
def twoBagsRun : List (Event 2) :=
  [.start 0, .parent, .start 1, .put 1, .parent, .put 0, .finish 0, .parent, .put 1, .parent, .finish 1] ++
    .replicate 7 .parent ++ .timeout :: .replicate 6 .parent

theorem polling_two_bags :
    ∃ s, attempt (System.step twoBags 2) (System.initial twoBags) twoBagsRun = some s ∧
      Interleaves (fun i => (twoBags i).puts) s.parent.printed ∧ s.parent.completed = 2 := by
  have hended : (attempt (System.step twoBags 2) (System.initial twoBags) twoBagsRun).map
      (·.parent.control) = some .ended := by decide
  obtain ⟨s, hrun, hcontrol⟩ := Option.map_eq_some_iff.mp hended
  exact ⟨s, hrun, polling_loses_nothing twoBags 2 twoBagsRun s hrun hcontrol⟩

end LogAnalysis
