import Mathlib.Algebra.Order.Group.Defs
import Mathlib.Data.List.Chain
import Mathlib.Order.Lattice
import Mathlib.Tactic.Abel

/-!
# Time counted by a stopwatch

A stopwatch reads a clock from time to time and counts what the clock has advanced since the reading
before. Where the clock was set back it counts nothing, so it counts at least what has passed
(`sub_le_elapsed`), and just that if the clock was never set back (`elapsed_of_nondecreasing`).
-/

namespace ElapsedTime

/-! ## The last reading -/

section Reading

variable {G : Type}

/-- The last reading of the clock. -/
def reading (start : G) (times : List G) : G := times.getLastD start

@[simp] theorem reading_concat (start : G) (times : List G) (t : G) : reading start (times ++ [t]) = t := by
  unfold reading
  rw [List.getLastD_concat]

theorem reading_cons (start t : G) (times : List G) : reading start (t :: times) = reading t times := by
  unfold reading
  rw [List.getLastD_cons]

end Reading

/-! ## The time that is counted -/

variable {G : Type} [AddCommGroup G] [LinearOrder G]

/-- What a stopwatch counts from one reading of the clock over the ones after it. -/
def elapsed (start : G) : List G → G
  | [] => 0
  | t :: times => max (t - start) 0 + elapsed t times

theorem elapsed_concat (start : G) (times : List G) (t : G) :
    elapsed start (times ++ [t]) = elapsed start times + max (t - reading start times) 0 := by
  induction times generalizing start with
  | nil => simp [elapsed, reading]
  | cons u times ih =>
    rw [List.cons_append, elapsed, elapsed, ih, reading_cons, add_assoc]

variable [IsOrderedAddMonoid G]

/-- A stopwatch never counts less than what has passed on the clock. -/
theorem sub_le_elapsed (start : G) (times : List G) : reading start times - start ≤ elapsed start times := by
  induction times generalizing start with
  | nil => simp [reading, elapsed]
  | cons t times ih =>
    have hsplit : reading t times - start = (t - start) + (reading t times - t) := by abel
    rw [reading_cons, elapsed, hsplit]
    exact add_le_add (le_max_left _ 0) (ih t)

theorem elapsed_of_nondecreasing {start : G} {times : List G} (h : (start :: times).IsChain (· ≤ ·)) :
    elapsed start times = reading start times - start := by
  induction times generalizing start with
  | nil => simp [elapsed, reading]
  | cons t times ih =>
    obtain ⟨hle, hrest⟩ := List.isChain_cons_cons.mp h
    rw [elapsed, ih hrest, reading_cons, max_eq_left (sub_nonneg.mpr hle)]
    abel

end ElapsedTime
