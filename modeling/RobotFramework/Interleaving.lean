import Mathlib.Data.List.Basic
import Mathlib.Logic.Function.Basic

/-!
# Interleavings of sequences

Several producers share one first-in first-out channel. What has come out of it and what is still in it
is, in this order, an interleaving of what the producers have put in.
-/

namespace Interleaving

variable {ι α : Type} [DecidableEq ι]

/-- `Interleaves parts out`: the sequence `out` consists of every element of every sequence `parts i`
exactly once, those of each `parts i` in their order. -/
inductive Interleaves : (ι → List α) → List α → Prop
  | nil : Interleaves (fun _ => []) []
  | concat {parts : ι → List α} {out : List α} (i : ι) (a : α) (h : Interleaves parts out) :
      Interleaves (Function.update parts i (parts i ++ [a])) (out ++ [a])

theorem Interleaves.append {parts : ι → List α} {out : List α} (h : Interleaves parts out) (i : ι)
    (items : List α) :
    Interleaves (Function.update parts i (parts i ++ items)) (out ++ items) := by
  induction items generalizing parts out with
  | nil =>
    rw [List.append_nil, List.append_nil, Function.update_eq_self]
    exact h
  | cons a items ih =>
    have hnext := ih (h.concat i a)
    rw [Function.update_self, Function.update_idem, List.append_assoc, List.append_assoc,
      List.singleton_append] at hnext
    exact hnext

theorem Interleaves.exists_mem {parts : ι → List α} {out : List α} (h : Interleaves parts out) {a : α}
    (ha : a ∈ out) : ∃ i, a ∈ parts i := by
  induction h with
  | nil => cases ha
  | @concat parts out j b h ih =>
    rcases List.mem_append.mp ha with hold | hnew
    · obtain ⟨i, hi⟩ := ih hold
      by_cases hij : i = j
      · subst hij
        exact ⟨i, by rw [Function.update_self]; exact List.mem_append_left _ hi⟩
      · exact ⟨i, by rwa [Function.update_of_ne hij]⟩
    · exact ⟨j, by rw [Function.update_self]; exact List.mem_append_right _ hnew⟩

/-- Where the elements of one sequence can be told from all others, they are found in their order. -/
theorem Interleaves.filter {parts : ι → List α} {out : List α} {i : ι} {p : α → Bool}
    (h : Interleaves parts out) (own : ∀ a ∈ parts i, p a = true)
    (others : ∀ j, j ≠ i → ∀ a ∈ parts j, p a = false) : out.filter p = parts i := by
  induction h with
  | nil => rfl
  | @concat parts out j a h ih =>
    have mem_old {k : ι} {b : α} (hb : b ∈ parts k) :
        b ∈ Function.update parts j (parts j ++ [a]) k := by
      by_cases hk : k = j
      · subst hk
        rw [Function.update_self]
        exact List.mem_append_left _ hb
      · rwa [Function.update_of_ne hk]
    have mem_new : a ∈ Function.update parts j (parts j ++ [a]) j := by
      rw [Function.update_self]
      exact List.mem_append_right _ (List.mem_singleton_self a)
    have hold := ih (fun b hb => own b (mem_old hb)) (fun k hk b hb => others k hk b (mem_old hb))
    rw [List.filter_append, hold]
    by_cases hij : i = j
    · subst hij
      rw [Function.update_self, List.filter_singleton, own a mem_new, cond_true]
    · rw [Function.update_of_ne hij, List.filter_singleton, others j (Ne.symm hij) a mem_new, cond_false,
        List.append_nil]

end Interleaving
