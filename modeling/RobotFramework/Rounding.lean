import Mathlib.Algebra.Order.Floor.Ring
import Mathlib.Data.Int.Log
import Mathlib.Tactic.Linarith

/-!
# Rounding to binary digits

`roundTo p x` is the number with `p` significant binary digits that is nearest to `x`, where the last digit is
even if there are two: what a binary floating-point format makes of a result, as long as the exponent stays in
its range. Rounding keeps the order, and how far it moves a number is bounded by the size of the number.
-/

namespace Rounding

variable {K : Type} [Field K] [LinearOrder K] [IsStrictOrderedRing K] [FloorRing K]

/-! ## To an integer -/

/-- The nearest integer, the even one of two. -/
def nearest (x : K) : ℤ :=
  if 1 < 2 * Int.fract x ∨ (2 * Int.fract x = 1 ∧ ⌊x⌋ % 2 = 1) then ⌊x⌋ + 1 else ⌊x⌋

omit [IsStrictOrderedRing K] in
theorem nearest_cases (x : K) :
    (nearest x = ⌊x⌋ ∧ 2 * Int.fract x ≤ 1) ∨ (nearest x = ⌊x⌋ + 1 ∧ 1 ≤ 2 * Int.fract x) := by
  unfold nearest
  split_ifs with h
  · right
    refine ⟨rfl, ?_⟩
    rcases h with h | ⟨h, -⟩
    · exact h.le
    · exact h.ge
  · left
    rw [not_or] at h
    exact ⟨rfl, not_lt.mp h.1⟩

theorem abs_nearest_sub_le (x : K) : |(nearest x : K) - x| ≤ 1 / 2 := by
  have hfloor := Int.floor_add_fract x
  have hnonneg := Int.fract_nonneg x
  have hlt := Int.fract_lt_one x
  rw [abs_le]
  rcases nearest_cases x with ⟨h, hx⟩ | ⟨h, hx⟩
  · rw [h]
    constructor <;> linarith
  · rw [h, Int.cast_add, Int.cast_one]
    constructor <;> linarith

@[simp] theorem nearest_intCast (n : ℤ) : nearest (n : K) = n := by
  unfold nearest
  simp

theorem nearest_of_abs_sub_lt {x : K} {n : ℤ} (h : |x - n| < 1 / 2) : nearest x = n := by
  have hnear := abs_nearest_sub_le x
  rw [abs_lt] at h
  rw [abs_le] at hnear
  have hlow : (n : K) - 1 < nearest x := by linarith
  have hhigh : (nearest x : K) < n + 1 := by linarith
  have hlow' : n - 1 < nearest x := by exact_mod_cast hlow
  have hhigh' : nearest x < n + 1 := by exact_mod_cast hhigh
  omega

theorem nearest_mono {x y : K} (h : x ≤ y) : nearest x ≤ nearest y := by
  have hfloor : ⌊x⌋ ≤ ⌊y⌋ := Int.floor_le_floor h
  rcases hfloor.lt_or_eq with hlt | heq
  · have hx : nearest x ≤ ⌊x⌋ + 1 := by
      rcases nearest_cases x with ⟨h, -⟩ | ⟨h, -⟩ <;> omega
    have hy : ⌊y⌋ ≤ nearest y := by
      rcases nearest_cases y with ⟨h, -⟩ | ⟨h, -⟩ <;> omega
    omega
  · -- within two integers the distance to the lower one decides
    have hfract : Int.fract x ≤ Int.fract y := by
      rw [Int.fract, Int.fract, heq]
      exact sub_le_sub_right h _
    unfold nearest
    rw [heq]
    split_ifs with hx hy hy
    · exact le_rfl
    · exfalso
      apply hy
      rcases hx with hx | ⟨hx, hodd⟩
      · exact Or.inl (by linarith)
      · rcases (show 1 ≤ 2 * Int.fract y by linarith).lt_or_eq with hlt | heven
        · exact Or.inl hlt
        · exact Or.inr ⟨heven.symm, hodd⟩
    · omega
    · exact le_rfl

/-! ## To some binary digits -/

variable {p : ℕ} {x y : K}

/-- The exponent of the last of `p` binary digits of a number. -/
def lastPlace (p : ℕ) (x : K) : ℤ := Int.log 2 |x| + 1 - p

def roundTo (p : ℕ) (x : K) : K := nearest (x / 2 ^ lastPlace p x) * 2 ^ lastPlace p x

theorem zpow_two_pos (e : ℤ) : (0 : K) < 2 ^ e := zpow_pos two_pos e

theorem zpow_log_le (h : 0 < x) : (2 : K) ^ Int.log 2 |x| ≤ x := by
  rw [abs_of_pos h]
  exact_mod_cast Int.zpow_log_le_self (by norm_num) h

theorem lt_zpow_log (h : 0 < x) : x < (2 : K) ^ (Int.log 2 |x| + 1) := by
  rw [abs_of_pos h]
  exact_mod_cast Int.lt_zpow_succ_log_self (R := K) (b := 2) (by norm_num) x

theorem lastPlace_of_between {k : ℤ} (hlow : 2 ^ k ≤ x) (hhigh : x < 2 ^ (k + 1)) :
    lastPlace p x = k + 1 - p := by
  have hpos : 0 < x := (zpow_two_pos k).trans_le hlow
  have hge := (zpow_lt_zpow_iff_right₀ (one_lt_two : (1 : K) < 2)).mp (hlow.trans_lt (lt_zpow_log hpos))
  have hle := (zpow_lt_zpow_iff_right₀ (one_lt_two : (1 : K) < 2)).mp ((zpow_log_le hpos).trans_lt hhigh)
  unfold lastPlace
  omega

@[simp] theorem roundTo_zero (p : ℕ) : roundTo p (0 : K) = 0 := by
  simp [roundTo, nearest]

/-- The error is at most half a unit in the last place. -/
theorem abs_roundTo_sub_le (p : ℕ) (x : K) : |roundTo p x - x| ≤ 2 ^ lastPlace p x / 2 := by
  have hpos := zpow_two_pos (K := K) (lastPlace p x)
  have hscaled : roundTo p x - x =
      ((nearest (x / 2 ^ lastPlace p x) : K) - x / 2 ^ lastPlace p x) * 2 ^ lastPlace p x := by
    rw [sub_mul, div_mul_cancel₀ _ hpos.ne']
    rfl
  have hhalf : (2 : K) ^ lastPlace p x / 2 = 1 / 2 * 2 ^ lastPlace p x := by
    rw [one_div, ← div_eq_inv_mul]
  rw [hscaled, abs_mul, abs_of_pos hpos, hhalf]
  exact mul_le_mul_of_nonneg_right (abs_nearest_sub_le _) hpos.le

theorem abs_roundTo_sub_le_of_lt (h : 0 ≤ x) {k : ℤ} (hk : x < 2 ^ k) :
    |roundTo p x - x| ≤ 2 ^ (k - p - 1) := by
  rcases h.eq_or_lt with rfl | hpos
  · rw [roundTo_zero, sub_zero, abs_zero]
    exact (zpow_two_pos _).le
  · refine (abs_roundTo_sub_le p x).trans ?_
    have hlog : Int.log 2 |x| < k := by
      by_contra hle
      have := (zpow_le_zpow_right₀ (one_le_two : (1 : K) ≤ 2) (not_lt.mp hle)).trans (zpow_log_le hpos)
      exact absurd hk (not_lt.mpr this)
    rw [div_eq_mul_inv, ← zpow_neg_one, ← zpow_add₀ two_ne_zero]
    apply zpow_le_zpow_right₀ one_le_two
    unfold lastPlace
    omega

theorem abs_roundTo_sub_le_mul (h : 0 ≤ x) : |roundTo p x - x| ≤ x * 2 ^ (-(p : ℤ)) := by
  rcases h.eq_or_lt with rfl | hpos
  · simp
  · refine (abs_roundTo_sub_le p x).trans ?_
    have hplace : (2 : K) ^ lastPlace p x / 2 = 2 ^ Int.log 2 |x| * 2 ^ (-(p : ℤ)) := by
      rw [div_eq_mul_inv, ← zpow_neg_one, ← zpow_add₀ two_ne_zero, ← zpow_add₀ two_ne_zero]
      congr 1
      unfold lastPlace
      omega
    rw [hplace]
    exact mul_le_mul_of_nonneg_right (zpow_log_le hpos) (zpow_two_pos _).le

/-- A number that is near to one with `p` digits is rounded to it. -/
theorem roundTo_of_near {n e : ℤ} (he : lastPlace p x = e) (h : |x - n * 2 ^ e| < 2 ^ e / 2) :
    roundTo p x = n * 2 ^ e := by
  have hpos := zpow_two_pos (K := K) e
  have hscaled : x / 2 ^ e - n = (x - n * 2 ^ e) / 2 ^ e := by
    rw [sub_div, mul_div_cancel_right₀ _ hpos.ne']
  have hnear : |x / 2 ^ e - n| < 1 / 2 := by
    rw [hscaled, abs_div, abs_of_pos hpos, div_lt_iff₀ hpos, one_div, ← div_eq_inv_mul]
    exact h
  unfold roundTo
  rw [he, nearest_of_abs_sub_lt hnear]

theorem roundTo_of_digits {m : ℕ} (hm : m < 2 ^ p) (j : ℤ) : roundTo p ((m : K) * 2 ^ j) = m * 2 ^ j := by
  rcases Nat.eq_zero_or_pos m with rfl | hpos
  · simp
  set x : K := (m : K) * 2 ^ j with hx
  have hxpos : 0 < x := mul_pos (Nat.cast_pos.mpr hpos) (zpow_two_pos j)
  have hplace : lastPlace p x ≤ j := by
    have hlt : (2 : K) ^ Int.log 2 |x| < 2 ^ ((p : ℤ) + j) := by
      refine (zpow_log_le hxpos).trans_lt ?_
      rw [zpow_add₀ two_ne_zero, zpow_natCast]
      exact mul_lt_mul_of_pos_right (by exact_mod_cast hm) (zpow_two_pos j)
    have hlog := (zpow_lt_zpow_iff_right₀ (one_lt_two : (1 : K) < 2)).mp hlt
    unfold lastPlace
    omega
  obtain ⟨d, hd⟩ := Int.eq_ofNat_of_zero_le (sub_nonneg.mpr hplace)
  have hscaled : x / 2 ^ lastPlace p x = (((m : ℤ) * 2 ^ d : ℤ) : K) := by
    rw [hx, mul_div_assoc, ← zpow_sub₀ two_ne_zero, hd, zpow_natCast]
    push_cast
    rfl
  unfold roundTo
  rw [hscaled, nearest_intCast, ← hscaled, div_mul_cancel₀ _ (zpow_two_pos _).ne']

theorem roundTo_natCast {m : ℕ} (hm : m < 2 ^ p) : roundTo p (m : K) = m := by
  have h := roundTo_of_digits (K := K) hm 0
  rwa [zpow_zero, mul_one] at h

theorem roundTo_nonneg (h : 0 ≤ x) : 0 ≤ roundTo p x := by
  have hn : 0 ≤ nearest (x / 2 ^ lastPlace p x) := by
    have hmono := nearest_mono (div_nonneg h (zpow_two_pos (lastPlace p x)).le)
    rwa [← Int.cast_zero (R := K), nearest_intCast] at hmono
  exact mul_nonneg (Int.cast_nonneg hn) (zpow_two_pos _).le

theorem roundTo_between (hp : 0 < p) (h : 0 < x) :
    2 ^ Int.log 2 |x| ≤ roundTo p x ∧ roundTo p x ≤ 2 ^ (Int.log 2 |x| + 1) := by
  have hpos := zpow_two_pos (K := K) (lastPlace p x)
  obtain ⟨q, rfl⟩ := Nat.exists_eq_succ_of_ne_zero hp.ne'
  have hlow : (2 : K) ^ Int.log 2 |x| = ((2 ^ q : ℤ) : K) * 2 ^ lastPlace (q + 1) x := by
    rw [Int.cast_pow, Int.cast_ofNat, ← zpow_natCast, ← zpow_add₀ two_ne_zero]
    congr 1
    unfold lastPlace
    omega
  have hhigh : (2 : K) ^ (Int.log 2 |x| + 1) = ((2 ^ (q + 1) : ℤ) : K) * 2 ^ lastPlace (q + 1) x := by
    rw [Int.cast_pow, Int.cast_ofNat, ← zpow_natCast, ← zpow_add₀ two_ne_zero]
    congr 1
    unfold lastPlace
    omega
  unfold roundTo
  constructor
  · have hle : ((2 ^ q : ℤ) : K) ≤ x / 2 ^ lastPlace (q + 1) x := by
      rw [le_div_iff₀ hpos, ← hlow]
      exact zpow_log_le h
    have hnearest := nearest_mono hle
    rw [nearest_intCast] at hnearest
    rw [hlow]
    exact mul_le_mul_of_nonneg_right (by exact_mod_cast hnearest) hpos.le
  · have hle : x / 2 ^ lastPlace (q + 1) x ≤ ((2 ^ (q + 1) : ℤ) : K) := by
      rw [div_le_iff₀ hpos, ← hhigh]
      exact (lt_zpow_log h).le
    have hnearest := nearest_mono hle
    rw [nearest_intCast] at hnearest
    rw [hhigh]
    exact mul_le_mul_of_nonneg_right (by exact_mod_cast hnearest) hpos.le

theorem roundTo_mono (hp : 0 < p) (h : 0 ≤ x) (hxy : x ≤ y) : roundTo p x ≤ roundTo p y := by
  rcases h.eq_or_lt with rfl | hx
  · rw [roundTo_zero]
    exact roundTo_nonneg hxy
  have hy := hx.trans_le hxy
  have hlog : Int.log 2 |x| ≤ Int.log 2 |y| := by
    rw [abs_of_pos hx, abs_of_pos hy]
    exact Int.log_mono_right hx hxy
  rcases hlog.lt_or_eq with hlt | heq
  · -- a power of two lies between the two numbers
    calc roundTo p x ≤ 2 ^ (Int.log 2 |x| + 1) := (roundTo_between hp hx).2
      _ ≤ 2 ^ Int.log 2 |y| := zpow_le_zpow_right₀ one_le_two hlt
      _ ≤ roundTo p y := (roundTo_between hp hy).1
  · have hplace : lastPlace p x = lastPlace p y := by
      unfold lastPlace
      rw [heq]
    have hpos := zpow_two_pos (K := K) (lastPlace p y)
    unfold roundTo
    rw [hplace]
    refine mul_le_mul_of_nonneg_right (Int.cast_le.mpr (nearest_mono ?_)) hpos.le
    exact div_le_div_of_nonneg_right hxy hpos.le

end Rounding
