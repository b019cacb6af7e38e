import Mathlib.Algebra.BigOperators.Group.List.Basic
import Mathlib.Algebra.Order.BigOperators.Group.List
import Mathlib.Algebra.Order.Field.Basic
import Mathlib.Data.List.Induction
import Mathlib.Tactic.FieldSimp
import Mathlib.Tactic.Ring

/-!
# Mean and variance in one pass

The number, the mean and the sum of squared deviations of a sequence are kept up to date value by value
(`Moments.push`), and are those that two passes over the whole sequence give. Where the values are
consecutive differences, their sum is the last value minus the first.
-/

namespace Statistics

variable {K : Type}

/-! ## Two passes -/

section Field

variable [Field K]

/-- The arithmetic mean; 0 for no values. -/
def mean (xs : List K) : K := xs.sum / xs.length

/-- The sum of the squared deviations from a center. -/
def squaredDeviations (xs : List K) (center : K) : K := (xs.map fun x => (x - center) ^ 2).sum

/-- The population variance; 0 for no values. -/
def variance (xs : List K) : K := squaredDeviations xs (mean xs) / xs.length

theorem sum_eq_length_mul_mean [CharZero K] (xs : List K) : xs.sum = xs.length * mean xs := by
  unfold mean
  rcases eq_or_ne xs [] with rfl | hne
  · simp
  · have hlength : (xs.length : K) ≠ 0 := by simpa using hne
    rw [mul_div_cancel₀ _ hlength]

theorem squaredDeviations_concat (xs : List K) (x center : K) :
    squaredDeviations (xs ++ [x]) center = squaredDeviations xs center + (x - center) ^ 2 := by
  unfold squaredDeviations
  rw [List.map_append, List.sum_append, List.map_singleton, List.sum_singleton]

theorem squaredDeviations_shift (xs : List K) (c d : K) :
    squaredDeviations xs d =
      squaredDeviations xs c - 2 * (d - c) * (xs.sum - xs.length * c) + xs.length * (d - c) ^ 2 := by
  induction xs using List.reverseRecOn with
  | nil => simp [squaredDeviations]
  | append_singleton xs x ih =>
    rw [squaredDeviations_concat, squaredDeviations_concat, ih, List.sum_append, List.sum_singleton,
      List.length_append, List.length_singleton, Nat.cast_add, Nat.cast_one]
    ring

/-- The mean is the best center. -/
theorem squaredDeviations_mean [CharZero K] (xs : List K) (center : K) :
    squaredDeviations xs center =
      squaredDeviations xs (mean xs) + xs.length * (center - mean xs) ^ 2 := by
  rw [squaredDeviations_shift xs (mean xs) center, ← sum_eq_length_mul_mean, sub_self, mul_zero,
    sub_zero]

theorem squaredDeviations_nonneg [LinearOrder K] [IsStrictOrderedRing K] (xs : List K) (center : K) :
    0 ≤ squaredDeviations xs center := by
  apply List.sum_nonneg
  intro y hy
  obtain ⟨x, -, rfl⟩ := List.mem_map.mp hy
  exact sq_nonneg _

/-! ## One pass -/

/-- The number of values, their mean and the sum of their squared deviations from it. -/
structure Moments (K : Type) where
  count : Nat
  mean : K
  m2 : K

namespace Moments

def empty : Moments K where
  count := 0
  mean := 0
  m2 := 0

def push (s : Moments K) (x : K) : Moments K :=
  let count := s.count + 1
  let delta := x - s.mean
  let mean := s.mean + delta / count
  { count := count
    mean := mean
    m2 := s.m2 + delta * (x - mean) }

def ofList (xs : List K) : Moments K where
  count := xs.length
  mean := Statistics.mean xs
  m2 := squaredDeviations xs (Statistics.mean xs)

@[simp] theorem ofList_nil : ofList ([] : List K) = empty := by
  simp [ofList, empty, Statistics.mean, squaredDeviations]

end Moments

theorem mean_concat [CharZero K] (xs : List K) (x : K) :
    mean (xs ++ [x]) = mean xs + (x - mean xs) / (xs.length + 1) := by
  have hlength : (xs.length + 1 : K) ≠ 0 := Nat.cast_add_one_ne_zero _
  have hmean : mean (xs ++ [x]) = (xs.length * mean xs + x) / (xs.length + 1) := by
    rw [← sum_eq_length_mul_mean]
    simp [mean]
  rw [hmean]
  field_simp
  ring

/-- **One pass.** Adding a value gives what two passes over the longer sequence give. -/
theorem Moments.push_ofList [CharZero K] (xs : List K) (x : K) :
    (ofList xs).push x = ofList (xs ++ [x]) := by
  have hlength : (xs.length + 1 : K) ≠ 0 := Nat.cast_add_one_ne_zero _
  have hm2 : squaredDeviations (xs ++ [x]) (Statistics.mean (xs ++ [x])) =
      squaredDeviations xs (Statistics.mean xs) +
        (x - Statistics.mean xs) * (x - Statistics.mean (xs ++ [x])) := by
    rw [squaredDeviations_concat, squaredDeviations_mean xs (Statistics.mean (xs ++ [x])), mean_concat]
    field_simp
    ring
  unfold ofList
  rw [hm2, mean_concat]
  simp [push]

end Field

/-! ## Consecutive differences -/

section Differences

variable [AddCommGroup K]

def differences (xs : List K) : List K := List.zipWith (fun x y => y - x) xs xs.tail

theorem differences_concat (xs : List K) (x : K) :
    differences (xs ++ [x]) = differences xs ++ (xs.getLast?.map (x - ·)).toList := by
  induction xs with
  | nil => rfl
  | cons y xs ih =>
    cases xs with
    | nil => rfl
    | cons z xs =>
      show (z - y) :: differences (z :: xs ++ [x]) = (z - y) :: differences (z :: xs) ++ _
      rw [ih]
      rfl

theorem sum_differences (xs : List K) (hne : xs ≠ []) :
    (differences xs).sum = xs.getLast hne - xs.head hne := by
  induction xs with
  | nil => exact absurd rfl hne
  | cons y xs ih =>
    cases xs with
    | nil => simp [differences]
    | cons z xs =>
      have hsum : (differences (y :: z :: xs)).sum = (z - y) + (differences (z :: xs)).sum :=
        List.sum_cons
      rw [hsum, ih (List.cons_ne_nil z xs), List.getLast_cons (List.cons_ne_nil z xs), List.head_cons,
        List.head_cons]
      exact sub_add_sub_cancel' _ _ _

end Differences

end Statistics
