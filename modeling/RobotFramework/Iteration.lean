import Mathlib.Data.List.Basic

/-!
# Loops without a bound

A loop takes an input for each turn and leaves with a result or goes on in a new state. A variant that
every turn it goes on lowers bounds the number of turns (`Variant.turns_le`), and a loop whose turns
follow those of another one ends as that one does (`Simulates.run`).
-/

namespace Iteration

variable {σ τ ι κ ρ ρ' : Type}

/-- The result of a loop on some inputs; none if it is still running after the last of them. -/
def run (turn : σ → ι → ρ ⊕ σ) : List ι → σ → Option ρ
  | [], _ => none
  | i :: inputs, s =>
    match turn s i with
    | .inl r => some r
    | .inr s => run turn inputs s

/-- The number of turns a loop makes on some inputs. -/
def turns (turn : σ → ι → ρ ⊕ σ) : List ι → σ → Nat
  | [], _ => 0
  | i :: inputs, s =>
    match turn s i with
    | .inl _ => 1
    | .inr s => turns turn inputs s + 1

section Rules

variable {turn : σ → ι → ρ ⊕ σ} {inputs : List ι} {s : σ}

theorem run_cons_leave {i : ι} {r : ρ} (h : turn s i = .inl r) (inputs : List ι) :
    run turn (i :: inputs) s = some r := by
  rw [run, h]

theorem run_cons_again {i : ι} {t : σ} (h : turn s i = .inr t) (inputs : List ι) :
    run turn (i :: inputs) s = run turn inputs t := by
  rw [run, h]

theorem turns_cons_leave {i : ι} {r : ρ} (h : turn s i = .inl r) (inputs : List ι) :
    turns turn (i :: inputs) s = 1 := by
  rw [turns, h]

theorem turns_cons_again {i : ι} {t : σ} (h : turn s i = .inr t) (inputs : List ι) :
    turns turn (i :: inputs) s = turns turn inputs t + 1 := by
  rw [turns, h]

theorem run_spec {I : σ → Prop} {Q : ρ → Prop}
    (again : ∀ i ∈ inputs, ∀ s t, I s → turn s i = .inr t → I t)
    (leave : ∀ i ∈ inputs, ∀ s r, I s → turn s i = .inl r → Q r) (hs : I s) {r : ρ}
    (h : run turn inputs s = some r) : Q r := by
  induction inputs generalizing s with
  | nil => cases h
  | cons i inputs ih =>
    cases hturn : turn s i with
    | inl r' =>
      rw [run_cons_leave hturn] at h
      obtain rfl := Option.some.inj h
      exact leave i List.mem_cons_self s r' hs hturn
    | inr t =>
      rw [run_cons_again hturn] at h
      exact ih (fun j hj => again j (List.mem_cons_of_mem i hj))
        (fun j hj => leave j (List.mem_cons_of_mem i hj)) (again i List.mem_cons_self s t hs hturn) h

/-- An invariant and a variant: a turn that goes on keeps the one and lowers the other. -/
structure Variant (turn : σ → ι → ρ ⊕ σ) (inputs : List ι) (I : σ → Prop) (variant : σ → Nat) : Prop where
  again : ∀ i ∈ inputs, ∀ s t, I s → turn s i = .inr t → I t ∧ variant t < variant s

variable {I : σ → Prop} {variant : σ → Nat}

theorem Variant.tail {i : ι} (h : Variant turn (i :: inputs) I variant) : Variant turn inputs I variant :=
  ⟨fun j hj => h.again j (List.mem_cons_of_mem i hj)⟩

theorem Variant.turns_le (h : Variant turn inputs I variant) (hs : I s) :
    turns turn inputs s ≤ variant s + 1 := by
  induction inputs generalizing s with
  | nil => exact Nat.zero_le _
  | cons i inputs ih =>
    cases hturn : turn s i with
    | inl r =>
      rw [turns_cons_leave hturn]
      exact Nat.le_add_left 1 _
    | inr t =>
      obtain ⟨ht, hlower⟩ := h.again i List.mem_cons_self s t hs hturn
      rw [turns_cons_again hturn]
      have hrest := ih h.tail ht
      omega

theorem Variant.run_isSome (h : Variant turn inputs I variant) (hs : I s)
    (hlong : variant s < inputs.length) : (run turn inputs s).isSome := by
  induction inputs generalizing s with
  | nil => simp at hlong
  | cons i inputs ih =>
    cases hturn : turn s i with
    | inl r =>
      rw [run_cons_leave hturn]
      rfl
    | inr t =>
      obtain ⟨ht, hlower⟩ := h.again i List.mem_cons_self s t hs hturn
      rw [run_cons_again hturn]
      rw [List.length_cons] at hlong
      exact ih h.tail ht (by omega)

end Rules

/-- The turns of one loop are followed by those of another: both leave with related results, or both go
on in related states. -/
structure Simulates (turn : σ → ι → ρ ⊕ σ) (turn' : τ → κ → ρ' ⊕ τ) (input : ι → κ) (R : σ → τ → Prop)
    (S : ρ → ρ' → Prop) : Prop where
  turn : ∀ s t i, R s t → Sum.LiftRel S R (turn s i) (turn' t (input i))

theorem Simulates.run {turn : σ → ι → ρ ⊕ σ} {turn' : τ → κ → ρ' ⊕ τ} {input : ι → κ}
    {R : σ → τ → Prop} {S : ρ → ρ' → Prop} (h : Simulates turn turn' input R S) (inputs : List ι)
    {s : σ} {t : τ} (hst : R s t) :
    Option.Rel S (run turn inputs s) (run turn' (inputs.map input) t) := by
  induction inputs generalizing s t with
  | nil => exact Option.Rel.none
  | cons i inputs ih =>
    have hturn := h.turn s t i hst
    rw [List.map_cons]
    generalize hs : turn s i = x, ht : turn' t (input i) = y at hturn
    cases hturn with
    | inl hr =>
      rw [run_cons_leave hs, run_cons_leave ht]
      exact Option.Rel.some hr
    | inr hr =>
      rw [run_cons_again hs, run_cons_again ht]
      exact ih hr

end Iteration
