import Mathlib.Algebra.Ring.Nat
import Mathlib.Data.List.Basic
import Mathlib.Data.List.Induction
import Mathlib.Data.List.Nodup

/-!
# Runs of a machine and their histories

A machine takes one step for each event. An invariant may speak of the events so far: of the last one
of a kind (`lastSome`), or of those since the last one of a kind (`fromLast`). What is asked of each event
is asked of it and the ones before (`Every`). Where an event may be impossible, the machine's step is
partial (`attempt`).
-/

namespace History

variable {σ ε α : Type}

/-- The state a machine is in after some events. -/
def run (step : σ → ε → σ) (s : σ) (events : List ε) : σ := events.foldl step s

@[simp] theorem run_nil (step : σ → ε → σ) (s : σ) : run step s [] = s := rfl

theorem run_concat (step : σ → ε → σ) (s : σ) (events : List ε) (e : ε) :
    run step s (events ++ [e]) = step (run step s events) e := by
  unfold run
  rw [List.foldl_append, List.foldl_cons, List.foldl_nil]

theorem run_cons (step : σ → ε → σ) (s : σ) (e : ε) (events : List ε) :
    run step s (e :: events) = run step (step s e) events := rfl

theorem run_append (step : σ → ε → σ) (s : σ) (events later : List ε) :
    run step s (events ++ later) = run step (run step s events) later := by
  unfold run
  rw [List.foldl_append]

/-- An invariant of the history and the state that the initial state has and each step keeps holds
after every run. -/
theorem run_invariant {step : σ → ε → σ} {s : σ} {I : List ε → σ → Prop} (init : I [] s)
    (preserves : ∀ past t e, I past t → I (past ++ [e]) (step t e)) (events : List ε) :
    I events (run step s events) := by
  induction events using List.reverseRecOn with
  | nil => exact init
  | append_singleton events e ih =>
    rw [run_concat]
    exact preserves events _ e ih

/-- What is seen of a machine is a machine of its own, if a step of it depends on nothing else. -/
theorem run_map {τ : Type} {step : σ → ε → σ} {step' : τ → ε → τ} (view : σ → τ)
    (h : ∀ s e, view (step s e) = step' (view s) e) (s : σ) (events : List ε) :
    view (run step s events) = run step' (view s) events := by
  induction events using List.reverseRecOn with
  | nil => rfl
  | append_singleton events e ih => rw [run_concat, run_concat, h, ih]

/-- Events that change nothing can be left out. -/
theorem run_filter {step : σ → ε → σ} {p : ε → Bool} (h : ∀ s e, p e = false → step s e = s) (s : σ)
    (events : List ε) : run step s (events.filter p) = run step s events := by
  induction events generalizing s with
  | nil => rfl
  | cons e events ih =>
    rw [run_cons, List.filter_cons]
    split_ifs with hp
    · exact ih (step s e)
    · rw [h s e (by simpa using hp)]
      exact ih s

/-! ## A machine that drives another one -/

/-- What a machine emits in a run. -/
def emitted (step : σ → ε → σ) (emit : σ → ε → List α) (s : σ) : List ε → List α
  | [] => []
  | e :: events => emit s e ++ emitted step emit (step s e) events

theorem emitted_append (step : σ → ε → σ) (emit : σ → ε → List α) (s : σ) (events later : List ε) :
    emitted step emit s (events ++ later) =
      emitted step emit s events ++ emitted step emit (run step s events) later := by
  induction events generalizing s with
  | nil => rfl
  | cons e events ih => rw [List.cons_append, emitted, emitted, ih, run_cons, List.append_assoc]

theorem emitted_concat (step : σ → ε → σ) (emit : σ → ε → List α) (s : σ) (events : List ε) (e : ε) :
    emitted step emit s (events ++ [e]) =
      emitted step emit s events ++ emit (run step s events) e := by
  rw [emitted_append, emitted, emitted, List.append_nil]

theorem mem_emitted {step : σ → ε → σ} {emit : σ → ε → List α} {s : σ} {events : List ε} {a : α}
    (h : a ∈ emitted step emit s events) :
    ∃ past e later, events = past ++ e :: later ∧ a ∈ emit (run step s past) e := by
  induction events generalizing s with
  | nil => simp [emitted] at h
  | cons e events ih =>
    rw [emitted, List.mem_append] at h
    rcases h with h | h
    · exact ⟨[], e, events, rfl, h⟩
    · obtain ⟨past, x, later, rfl, hx⟩ := ih h
      exact ⟨e :: past, x, later, rfl, hx⟩

theorem emitted_of_mem {step : σ → ε → σ} {emit : σ → ε → List α} {s : σ} {past later : List ε} {e : ε} {a : α}
    (h : a ∈ emit (run step s past) e) : a ∈ emitted step emit s (past ++ e :: later) := by
  rw [emitted_append, emitted]
  exact List.mem_append_right _ (List.mem_append_left _ h)

theorem emitted_const (step : σ → ε → σ) (emit : ε → List α) (s : σ) (events : List ε) :
    emitted step (fun _ => emit) s events = events.flatMap emit := by
  induction events generalizing s with
  | nil => rfl
  | cons e events ih => rw [emitted, ih, List.flatMap_cons]

/-- What is seen of a machine is a machine that takes what the first one emits, if each step shows as the
steps of what it emits. -/
theorem run_emitted {τ : Type} {step : σ → ε → σ} {step' : τ → α → τ} {emit : σ → ε → List α}
    (view : σ → τ) (h : ∀ s e, view (step s e) = run step' (view s) (emit s e)) (s : σ)
    (events : List ε) :
    view (run step s events) = run step' (view s) (emitted step emit s events) := by
  induction events generalizing s with
  | nil => rfl
  | cons e events ih => rw [run_cons, ih, h, emitted, run_append]

/-- A later event splits a history where an earlier one did, or at its end. -/
theorem split_concat {past before rest : List ε} {e x : ε} (h : past ++ [e] = before ++ x :: rest) :
    (before = past ∧ x = e ∧ rest = []) ∨
      ∃ rest', rest = rest' ++ [e] ∧ past = before ++ x :: rest' := by
  rcases List.eq_nil_or_concat' rest with rfl | ⟨rest, last, rfl⟩
  · obtain ⟨hpast, he⟩ := List.append_inj' h rfl
    exact Or.inl ⟨hpast.symm, (List.singleton_inj.mp he).symm, rfl⟩
  · rw [← List.cons_append, ← List.append_assoc] at h
    obtain ⟨hpast, he⟩ := List.append_inj' h rfl
    rw [List.singleton_inj.mp he]
    exact Or.inr ⟨rest, rfl, hpast⟩

/-- The value a function has at the last event it is defined at. -/
def lastSome (f : ε → Option α) (events : List ε) : Option α := events.reverse.findSome? f

@[simp] theorem lastSome_nil (f : ε → Option α) : lastSome f [] = none := rfl

theorem lastSome_append (f : ε → Option α) (events later : List ε) :
    lastSome f (events ++ later) = (lastSome f later).or (lastSome f events) := by
  unfold lastSome
  rw [List.reverse_append, List.findSome?_append]

theorem lastSome_concat (f : ε → Option α) (events : List ε) (e : ε) :
    lastSome f (events ++ [e]) = (f e).or (lastSome f events) := by
  rw [lastSome_append]
  unfold lastSome
  rw [List.reverse_singleton, List.findSome?_cons]
  cases f e <;> rfl

theorem lastSome_eq_none_iff {f : ε → Option α} {events : List ε} :
    lastSome f events = none ↔ ∀ e ∈ events, f e = none := by
  unfold lastSome
  rw [List.findSome?_eq_none_iff]
  simp

theorem exists_of_lastSome {f : ε → Option α} {events : List ε} {a : α}
    (h : lastSome f events = some a) : ∃ e ∈ events, f e = some a := by
  obtain ⟨e, he, hf⟩ := List.exists_of_findSome?_eq_some h
  exact ⟨e, List.mem_reverse.mp he, hf⟩

theorem getLast?_filterMap (f : ε → Option α) (events : List ε) :
    (events.filterMap f).getLast? = lastSome f events := by
  induction events using List.reverseRecOn with
  | nil => rfl
  | append_singleton events e ih =>
    rw [lastSome_concat, ← ih, List.filterMap_append]
    cases h : f e <;> simp [h]

/-- What only some events write holds what the last of them wrote, or what it started with. -/
theorem run_lastSome {step : σ → ε → σ} (field : σ → α) (f : ε → Option α)
    (h : ∀ s e, field (step s e) = (f e).getD (field s)) (s : σ) (events : List ε) :
    field (run step s events) = (lastSome f events).getD (field s) := by
  induction events using List.reverseRecOn with
  | nil => rfl
  | append_singleton events e ih =>
    rw [run_concat, h, ih, lastSome_concat, Option.getD_or]

/-- The events from the last one of a kind on; all of them if there is none. -/
def fromLast (p : ε → Bool) (events : List ε) : List ε :=
  events.foldl (fun window e => if p e then [e] else window ++ [e]) []

/-! ## The values seen so far -/

section FirstSeen

variable [DecidableEq α] {f : ε → Option α} {events : List ε}

/-- A value joins those seen so far, at the end, unless it is one of them. -/
def join (seen : List α) : Option α → List α
  | none => seen
  | some a => if a ∈ seen then seen else seen ++ [a]

/-- The values a function has at the events, in the order in which they first occur. -/
def firstSeen (f : ε → Option α) (events : List ε) : List α :=
  events.foldl (fun seen e => join seen (f e)) []

@[simp] theorem firstSeen_nil (f : ε → Option α) : firstSeen f [] = [] := rfl

theorem firstSeen_concat (f : ε → Option α) (events : List ε) (e : ε) :
    firstSeen f (events ++ [e]) = join (firstSeen f events) (f e) := by
  unfold firstSeen
  rw [List.foldl_append, List.foldl_cons, List.foldl_nil]

theorem mem_join {seen : List α} {x : Option α} {a : α} :
    a ∈ join seen x ↔ a ∈ seen ∨ x = some a := by
  unfold join
  cases x with
  | none => simp
  | some b =>
    dsimp only
    split_ifs with hb
    · refine ⟨Or.inl, fun h => h.elim id fun hba => ?_⟩
      exact Option.some.inj hba ▸ hb
    · rw [List.mem_append, List.mem_singleton, Option.some.injEq, eq_comm (a := a)]

theorem mem_firstSeen {a : α} : a ∈ firstSeen f events ↔ ∃ e ∈ events, f e = some a := by
  induction events using List.reverseRecOn with
  | nil => simp
  | append_singleton events e ih => simp [firstSeen_concat, mem_join, ih, or_and_right, exists_or]

theorem nodup_join {seen : List α} (h : seen.Nodup) (x : Option α) : (join seen x).Nodup := by
  unfold join
  cases x with
  | none => exact h
  | some a =>
    dsimp only
    split_ifs with ha
    · exact h
    · simpa using List.Nodup.concat ha h

theorem nodup_firstSeen : (firstSeen f events).Nodup := by
  induction events using List.reverseRecOn with
  | nil => exact List.nodup_nil
  | append_singleton events e ih =>
    rw [firstSeen_concat]
    exact nodup_join ih _

theorem firstSeen_prefix_append (f : ε → Option α) (events later : List ε) :
    firstSeen f events <+: firstSeen f (events ++ later) := by
  induction later using List.reverseRecOn with
  | nil => simp
  | append_singleton later e ih =>
    rw [← List.append_assoc, firstSeen_concat]
    refine ih.trans ?_
    unfold join
    cases f e with
    | none => exact List.prefix_rfl
    | some a =>
      dsimp only
      split_ifs
      · exact List.prefix_rfl
      · exact List.prefix_append _ _

end FirstSeen

/-! ## What holds of every event of a history -/

/-- Each event is related to the ones before it. -/
def Every (P : List ε → ε → Prop) (events : List ε) : Prop :=
  ∀ past e later, events = past ++ e :: later → P past e

section Every

variable {P Q : List ε → ε → Prop} {events : List ε}

theorem every_nil (P : List ε → ε → Prop) : Every P [] := by
  intro past e later h
  simp at h

theorem every_concat {e : ε} : Every P (events ++ [e]) ↔ Every P events ∧ P events e := by
  constructor
  · intro h
    refine ⟨fun past x later hpast => h past x (later ++ [e]) ?_, h events e [] rfl⟩
    rw [hpast, List.append_assoc, List.cons_append]
  · rintro ⟨hpast, he⟩ before x later hsplit
    rcases split_concat hsplit with ⟨rfl, rfl, -⟩ | ⟨later, -, hbefore⟩
    · exact he
    · exact hpast before x later hbefore

/-- Two properties hold of every event of the same histories if each event that comes after a past with
the first property has both or none. -/
theorem every_congr (h : ∀ past e, Every P past → (P past e ↔ Q past e)) (events : List ε) :
    Every P events ↔ Every Q events := by
  induction events using List.reverseRecOn with
  | nil => exact ⟨fun _ => every_nil Q, fun _ => every_nil P⟩
  | append_singleton past e ih =>
    rw [every_concat, every_concat, ← ih]
    exact and_congr_right (h past e)

end Every

/-! ## Up to the first failure -/

/-- The events up to and including the first that fails; whether one fails may depend on those before. -/
def upToFailure (fails : List ε → ε → Bool) (past : List ε) : List ε → List ε
  | [] => []
  | e :: later => e :: if fails past e then [] else upToFailure fails (past ++ [e]) later

theorem upToFailure_cons (fails : List ε → ε → Bool) (past : List ε) (e : ε) (later : List ε) :
    upToFailure fails past (e :: later) =
      e :: if fails past e then [] else upToFailure fails (past ++ [e]) later := rfl

/-! ## Events that may be impossible -/

/-- The state a machine is in after some events, if each of them could happen. -/
def attempt (step : σ → ε → Option σ) (s : σ) (events : List ε) : Option σ := events.foldlM step s

theorem attempt_invariant {step : σ → ε → Option σ} {I : σ → Prop}
    (preserves : ∀ {s e t}, I s → step s e = some t → I t) {events : List ε} {s t : σ} (init : I s)
    (h : attempt step s events = some t) : I t := by
  induction events generalizing s with
  | nil =>
    obtain rfl := Option.some.inj h
    exact init
  | cons e events ih =>
    unfold attempt at h
    rw [List.foldlM_cons] at h
    obtain ⟨next, hstep, hrest⟩ := Option.bind_eq_some_iff.mp h
    exact ih (preserves init hstep) hrest

theorem attempt_cons_of_step {step : σ → ε → Option σ} {s t : σ} {e : ε} (h : step s e = some t)
    (events : List ε) : attempt step s (e :: events) = attempt step t events := by
  unfold attempt
  rw [List.foldlM_cons, h]
  rfl

theorem attempt_append {step : σ → ε → Option σ} {s t : σ} {past : List ε}
    (h : attempt step s past = some t) (future : List ε) :
    attempt step s (past ++ future) = attempt step t future := by
  unfold attempt at h ⊢
  rw [List.foldlM_append, h]
  rfl

/-- A run is no longer than a potential that every step lowers, apart from what some steps pay in. -/
theorem attempt_length_le {step : σ → ε → Option σ} {I : σ → Prop} {potential : σ → Nat} {pays : ε → Nat}
    (preserves : ∀ {s e t}, I s → step s e = some t → I t)
    (lowers : ∀ {s e t}, I s → step s e = some t → potential t + 1 ≤ potential s + pays e)
    {events : List ε} {s t : σ} (init : I s) (h : attempt step s events = some t) :
    events.length + potential t ≤ potential s + (events.map pays).sum := by
  induction events generalizing s with
  | nil =>
    obtain rfl := Option.some.inj h
    simp
  | cons e events ih =>
    unfold attempt at h
    rw [List.foldlM_cons] at h
    obtain ⟨next, hstep, hrest⟩ := Option.bind_eq_some_iff.mp h
    have hfirst := lowers init hstep
    have hothers := ih (preserves init hstep) hrest
    simp only [List.length_cons, List.map_cons, List.sum_cons]
    omega

/-- Where an allowed step that lowers a potential is always possible short of the goal, a run of allowed
steps reaches the goal. -/
theorem attempt_reaches (step : σ → ε → Option σ) (I goal : σ → Prop) (allowed : ε → Prop)
    (potential : σ → Nat)
    (goes : ∀ s, I s → ¬ goal s → ∃ e t, allowed e ∧ step s e = some t ∧ I t ∧ potential t < potential s)
    {s : σ} (init : I s) :
    ∃ events t, attempt step s events = some t ∧ I t ∧ goal t ∧ ∀ e ∈ events, allowed e := by
  induction hbound : potential s using Nat.strongRecOn generalizing s with
  | ind n ih =>
    by_cases hgoal : goal s
    · exact ⟨[], s, rfl, init, hgoal, fun e he => absurd he List.not_mem_nil⟩
    · obtain ⟨e, next, he, hstep, hnext, hlower⟩ := goes s init hgoal
      obtain ⟨events, t, hrun, ht, hreached, hallowed⟩ := ih _ (hbound ▸ hlower) hnext rfl
      refine ⟨e :: events, t, ?_, ht, hreached, List.forall_mem_cons.mpr ⟨he, hallowed⟩⟩
      rw [attempt_cons_of_step hstep, hrun]

end History
