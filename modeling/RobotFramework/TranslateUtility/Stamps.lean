import Mathlib.Data.Rat.Floor
import Mathlib.Tactic.Ring
import RobotFramework.Rounding
import RobotFramework.TranslateUtility.Conversions

/-!
# Stamps in double precision

A node takes a stamp into the core as seconds in double precision and sends it on in nanoseconds. `Conversions`
has the two conversions with exact numbers; here every operation is rounded as the code rounds it. A stamp of
today has more nanoseconds than a double has digits. It changes by at most 128 nanoseconds, and only in the
first node it goes through (`relay_recent`); a stamp of a simulated clock may lose a nanosecond in every node
(`relay_simulated`). No number of nodes brings stamps out of order (`relay_order`).
-/

namespace TranslateUtility

open Rounding

/-! ## The code -/

/-- A result of double precision; the exponents that occur are in its range. -/
def double (x : Rat) : Rat := roundTo 53 x

/-- `static_cast<int64_t>` of a number that fits. -/
def truncate (x : Rat) : Int := x.num.tdiv x.den

namespace Ros

/-- The nanoseconds of `rclcpp::Time(stamp)`. -/
def Time.nanoseconds (stamp : Time) : Int := stamp.sec * 1000000000 + stamp.nanosec

/-- `rclcpp::Time(nanoseconds)`, as a message. -/
def Time.ofNanoseconds (nanoseconds : Int) : Time :=
  { sec := nanoseconds / 1000000000
    nanosec := (nanoseconds % 1000000000).toNat }

/-- `rclcpp::Time(stamp).seconds()`: the nanoseconds as a double, divided by `1e9`. -/
def Time.doubleSeconds (stamp : Time) : Option Rat :=
  if stamp.sec < 0 then none else some (double (double stamp.nanoseconds / 1000000000))

/-- A stamp that ROS sends, until a second before the seconds of the message run out. -/
structure Time.Valid (stamp : Time) : Prop where
  nonneg : 0 ≤ stamp.sec
  nanosec : stamp.nanosec < 1000000000
  last : stamp.nanoseconds ≤ (2 ^ 31 - 1) * 1000000000

end Ros

/-- `rclcpp::Time(static_cast<int64_t>(time_stamp * 1e9))`, as a message. -/
def Core.doubleStamp (timeStamp : Rat) : Ros.Time :=
  Ros.Time.ofNanoseconds (truncate (double (timeStamp * 1000000000)))

/-- A stamp through a node, which takes it into the core and sends it on. -/
def stampBack (stamp : Ros.Time) : Option Ros.Time := stamp.doubleSeconds.map Core.doubleStamp

def relay : ℕ → Ros.Time → Option Ros.Time
  | 0, stamp => some stamp
  | k + 1, stamp => (stampBack stamp).bind (relay k)

/-! ## Nanoseconds -/

/-- The nanoseconds that come back, before they are truncated. -/
def nanosecondsBack (n : Rat) : Rat := double (double (double n / 1000000000) * 1000000000)

theorem truncate_of_nonneg {x : Rat} (h : 0 ≤ x) : truncate x = ⌊x⌋ := by
  unfold truncate
  rw [Int.tdiv_eq_ediv_of_nonneg (Rat.num_nonneg.mpr h), ← Rat.floor_def]
  rfl

theorem nanoseconds_ofNanoseconds (n : Int) :
    (Ros.Time.ofNanoseconds n).nanoseconds = n ∧ (Ros.Time.ofNanoseconds n).nanosec < 1000000000 := by
  unfold Ros.Time.ofNanoseconds Ros.Time.nanoseconds
  dsimp only
  omega

theorem double_nonneg {x : Rat} (h : 0 ≤ x) : 0 ≤ double x := roundTo_nonneg h

theorem double_mono {x y : Rat} (h : 0 ≤ x) (hxy : x ≤ y) : double x ≤ double y :=
  roundTo_mono (by norm_num) h hxy

theorem nanosecondsBack_nonneg {n : Rat} (h : 0 ≤ n) : 0 ≤ nanosecondsBack n := by
  apply double_nonneg
  apply mul_nonneg _ (by norm_num)
  exact double_nonneg (div_nonneg (double_nonneg h) (by norm_num))

theorem nanosecondsBack_mono {n m : Rat} (h : 0 ≤ n) (hnm : n ≤ m) : nanosecondsBack n ≤ nanosecondsBack m := by
  have hbillion : (0 : Rat) ≤ 1000000000 := by norm_num
  have hseconds : 0 ≤ double n / 1000000000 := div_nonneg (double_nonneg h) hbillion
  apply double_mono (mul_nonneg (double_nonneg hseconds) hbillion)
  apply mul_le_mul_of_nonneg_right _ hbillion
  apply double_mono hseconds
  exact div_le_div_of_nonneg_right (double_mono h hnm) hbillion

/-! ### Of today -/

theorem double_last : double ((2 ^ 31 - 1) * 1000000000) = (2 ^ 31 - 1) * 1000000000 := by
  have h := roundTo_of_digits (K := Rat) (p := 53) (m := (2 ^ 31 - 1) * 1953125) (by norm_num) 9
  norm_num at h ⊢
  exact h

/-- From July 2006 on a double has the multiples of 256 nanoseconds. -/
theorem double_recent {n : Rat} (hlow : 1152921505 * 1000000000 ≤ n) (hhigh : n ≤ (2 ^ 31 - 1) * 1000000000) :
    ∃ q : ℤ, double n = q * 2 ^ (8 : ℤ) ∧ |double n - n| ≤ 128 ∧
      1152921505 * 1000000000 ≤ double n ∧ double n ≤ (2 ^ 31 - 1) * 1000000000 := by
  have hnonneg : (0 : Rat) ≤ 1152921505 * 1000000000 := by norm_num
  have hplace : lastPlace 53 n = 8 := by
    rw [lastPlace_of_between (k := 60)]
    · norm_num
    · norm_num at hlow ⊢
      linarith
    · norm_num at hhigh ⊢
      linarith
  have hfirst : double (1152921505 * 1000000000) = 1152921505 * 1000000000 := by
    have h := roundTo_of_digits (K := Rat) (p := 53) (m := 1152921505 * 1953125) (by norm_num) 9
    norm_num at h ⊢
    exact h
  refine ⟨nearest (n / 2 ^ (8 : ℤ)), ?_, ?_, ?_, ?_⟩
  · unfold double roundTo
    rw [hplace]
  · have h := abs_roundTo_sub_le 53 n
    rw [hplace] at h
    norm_num at h
    exact h
  · rw [← hfirst]
    exact double_mono hnonneg hlow
  · rw [← double_last]
    exact double_mono (hnonneg.trans hlow) hhigh

theorem nanosecondsBack_recent {n : Rat} (hlow : 1152921505 * 1000000000 ≤ n)
    (hhigh : n ≤ (2 ^ 31 - 1) * 1000000000) : nanosecondsBack n = double n := by
  obtain ⟨q, hq, -, hlow', hhigh'⟩ := double_recent hlow hhigh
  unfold nanosecondsBack
  set d := double n
  have hseconds : |double (d / 1000000000) - d / 1000000000| ≤ 2 ^ (31 - (53 : ℕ) - 1 : ℤ) := by
    apply abs_roundTo_sub_le_of_lt
    · exact div_nonneg (le_trans (by norm_num) hlow') (by norm_num)
    · rw [div_lt_iff₀ (by norm_num)]
      norm_num at hhigh' ⊢
      linarith
  rw [show (31 - (53 : ℕ) - 1 : ℤ) = -(23 : ℕ) by norm_num, zpow_neg, zpow_natCast, abs_le] at hseconds
  norm_num at hseconds hlow' hhigh'
  have hplace : lastPlace 53 (double (d / 1000000000) * 1000000000) = 8 := by
    rw [lastPlace_of_between (k := 60)]
    · norm_num
    · norm_num
      linarith
    · norm_num
      linarith
  have hnear : |double (d / 1000000000) * 1000000000 - q * 2 ^ (8 : ℤ)| < 2 ^ (8 : ℤ) / 2 := by
    rw [← hq, abs_lt]
    norm_num
    constructor <;> linarith
  exact (roundTo_of_near hplace hnear).trans hq.symm

theorem double_double_recent {n : Rat} (hlow : 1152921505 * 1000000000 ≤ n)
    (hhigh : n ≤ (2 ^ 31 - 1) * 1000000000) : double (double n) = double n := by
  obtain ⟨q, hq, -, hlow', hhigh'⟩ := double_recent hlow hhigh
  rw [hq]
  apply roundTo_of_near
  · rw [← hq, lastPlace_of_between (k := 60)]
    · norm_num
    · norm_num at hlow' ⊢
      linarith
    · norm_num at hhigh' ⊢
      linarith
  · rw [sub_self, abs_zero]
    norm_num

/-! ### Of a simulated clock -/

/-- Nanoseconds that fit in a double are off by less than one. -/
theorem abs_nanosecondsBack_sub_lt_one {m : ℕ} (hm : m < 2 ^ 52) : |nanosecondsBack (m : Rat) - m| < 1 := by
  have hcast : (m : Rat) < 4503599627370496 := by exact_mod_cast hm
  have hone : double (m : Rat) = m := roundTo_natCast (hm.trans (by norm_num))
  have hnonneg : (0 : Rat) ≤ m / 1000000000 := div_nonneg (Nat.cast_nonneg m) (by norm_num)
  have htwo : |double ((m : Rat) / 1000000000) - m / 1000000000| ≤ m / 1000000000 * 2 ^ (-((53 : ℕ) : ℤ)) :=
    abs_roundTo_sub_le_mul hnonneg
  rw [zpow_neg, zpow_natCast, abs_le] at htwo
  have hlt : double ((m : Rat) / 1000000000) * 1000000000 < 2 ^ (53 : ℤ) := by
    norm_num at htwo ⊢
    linarith
  have hthree : |nanosecondsBack (m : Rat) - double ((m : Rat) / 1000000000) * 1000000000| ≤
      2 ^ (53 - (53 : ℕ) - 1 : ℤ) := by
    unfold nanosecondsBack
    rw [hone]
    exact abs_roundTo_sub_le_of_lt (mul_nonneg (double_nonneg hnonneg) (by norm_num)) hlt
  rw [show (53 - (53 : ℕ) - 1 : ℤ) = -(1 : ℕ) by norm_num, zpow_neg, zpow_natCast, abs_le] at hthree
  rw [abs_lt]
  norm_num at htwo hthree
  constructor <;> linarith

/-! ## Through some nodes -/

theorem nanoseconds_nonneg {stamp : Ros.Time} (h : stamp.Valid) : 0 ≤ stamp.nanoseconds := by
  have hsec := h.nonneg
  unfold Ros.Time.nanoseconds
  omega

theorem stampBack_eq {stamp : Ros.Time} (h : stamp.Valid) :
    stampBack stamp = some (Ros.Time.ofNanoseconds ⌊nanosecondsBack stamp.nanoseconds⌋) := by
  have hnonneg : (0 : Rat) ≤ stamp.nanoseconds := by exact_mod_cast nanoseconds_nonneg h
  unfold stampBack Ros.Time.doubleSeconds Core.doubleStamp
  rw [if_neg (not_lt.mpr h.nonneg), Option.map_some]
  congr 2
  exact truncate_of_nonneg (nanosecondsBack_nonneg hnonneg)

theorem nanosecondsBack_last :
    nanosecondsBack ((2 ^ 31 - 1) * 1000000000) = (2 ^ 31 - 1) * 1000000000 := by
  rw [nanosecondsBack_recent (by norm_num) le_rfl, double_last]

theorem valid_ofNanoseconds {n : Int} (hlow : 0 ≤ n) (hhigh : n ≤ (2 ^ 31 - 1) * 1000000000) :
    (Ros.Time.ofNanoseconds n).Valid := by
  obtain ⟨hn, hnanosec⟩ := nanoseconds_ofNanoseconds n
  refine ⟨?_, hnanosec, ?_⟩
  · unfold Ros.Time.ofNanoseconds
    dsimp only
    omega
  · rw [hn]
    exact hhigh

theorem stampBack_valid {stamp : Ros.Time} (h : stamp.Valid) :
    ∃ stamp', stampBack stamp = some stamp' ∧ stamp'.Valid ∧
      stamp'.nanoseconds = ⌊nanosecondsBack stamp.nanoseconds⌋ := by
  have hnonneg : (0 : Rat) ≤ stamp.nanoseconds := by exact_mod_cast nanoseconds_nonneg h
  refine ⟨_, stampBack_eq h, valid_ofNanoseconds ?_ ?_, (nanoseconds_ofNanoseconds _).1⟩
  · exact Int.floor_nonneg.mpr (nanosecondsBack_nonneg hnonneg)
  · have hlast : (stamp.nanoseconds : Rat) ≤ (2 ^ 31 - 1) * 1000000000 := by exact_mod_cast h.last
    have hback := Int.floor_le_floor (nanosecondsBack_mono hnonneg hlast)
    rw [nanosecondsBack_last] at hback
    refine hback.trans (le_of_eq ?_)
    norm_num

/-- **Nodes keep the order of stamps.** Through any number of nodes two stamps come out in the order in which
they went in, and none is rejected. -/
theorem relay_order {a b : Ros.Time} (ha : a.Valid) (hb : b.Valid) (hab : a.nanoseconds ≤ b.nanoseconds) (k : ℕ) :
    ∃ a' b', relay k a = some a' ∧ relay k b = some b' ∧ a'.Valid ∧ b'.Valid ∧
      a'.nanoseconds ≤ b'.nanoseconds := by
  induction k generalizing a b with
  | zero => exact ⟨a, b, rfl, rfl, ha, hb, hab⟩
  | succ k ih =>
    obtain ⟨a', hbackA, hvalidA, hna⟩ := stampBack_valid ha
    obtain ⟨b', hbackB, hvalidB, hnb⟩ := stampBack_valid hb
    have hnonneg : (0 : Rat) ≤ a.nanoseconds := by exact_mod_cast nanoseconds_nonneg ha
    have hle : a'.nanoseconds ≤ b'.nanoseconds := by
      rw [hna, hnb]
      apply Int.floor_le_floor
      exact nanosecondsBack_mono hnonneg (by exact_mod_cast hab)
    unfold relay
    rw [hbackA, hbackB, Option.bind_some, Option.bind_some]
    exact ih hvalidA hvalidB hle

theorem relay_order_thrice : ∃ a' b', relay 3 ⟨0, 16431387⟩ = some a' ∧ relay 3 ⟨1700000000, 1⟩ = some b' ∧
    a'.Valid ∧ b'.Valid ∧ a'.nanoseconds ≤ b'.nanoseconds :=
  relay_order ⟨by decide, by decide, by decide⟩ ⟨by decide, by decide, by decide⟩ (by decide) 3

theorem relay_fixed {stamp : Ros.Time} (h : stampBack stamp = some stamp) (k : ℕ) : relay k stamp = some stamp := by
  induction k with
  | zero => rfl
  | succ k ih =>
    unfold relay
    rw [h, Option.bind_some]
    exact ih

/-- **A stamp of today changes once.** From 15 July 2006 on the first node moves a stamp to a multiple of 256
nanoseconds, which is at most 128 nanoseconds away; all further nodes keep it. -/
theorem relay_recent {stamp : Ros.Time} (h : stamp.Valid) (hsec : 1152921505 ≤ stamp.sec) :
    ∃ stamp', stamp'.nanoseconds % 256 = 0 ∧ |stamp'.nanoseconds - stamp.nanoseconds| ≤ 128 ∧
      ∀ k, relay (k + 1) stamp = some stamp' := by
  have hfirst : 1152921505 * 1000000000 ≤ stamp.nanoseconds := by
    unfold Ros.Time.nanoseconds
    omega
  have hlow : (1152921505 * 1000000000 : Rat) ≤ stamp.nanoseconds := by exact_mod_cast hfirst
  have hhigh : (stamp.nanoseconds : Rat) ≤ (2 ^ 31 - 1) * 1000000000 := by exact_mod_cast h.last
  obtain ⟨q, hq, hnear, hlow', hhigh'⟩ := double_recent hlow hhigh
  obtain ⟨stamp', hback, hvalid, hn⟩ := stampBack_valid h
  have hmultiple : stamp'.nanoseconds = q * 256 := by
    rw [hn, nanosecondsBack_recent hlow hhigh, hq, ← Int.floor_intCast (R := Rat) (q * 256)]
    congr 1
    push_cast
    norm_num
  have hcast : (stamp'.nanoseconds : Rat) = double stamp.nanoseconds := by
    rw [hmultiple, hq]
    push_cast
    norm_num
  -- the multiple is exact, so that nothing is rounded any more
  have hfixed : stampBack stamp' = some stamp' := by
    rw [stampBack_eq hvalid, hcast, nanosecondsBack_recent hlow' hhigh', double_double_recent hlow hhigh,
      ← nanosecondsBack_recent hlow hhigh, ← stampBack_eq h, hback]
  refine ⟨stamp', ?_, ?_, ?_⟩
  · omega
  · have habs : |(stamp'.nanoseconds : Rat) - stamp.nanoseconds| ≤ 128 := by
      rw [hcast]
      exact hnear
    exact_mod_cast habs
  · intro k
    unfold relay
    rw [hback, Option.bind_some]
    exact relay_fixed hfixed k

theorem relay_recent_2023 : ∃ stamp', stamp'.nanoseconds % 256 = 0 ∧
    |stamp'.nanoseconds - Ros.Time.nanoseconds ⟨1700000000, 1⟩| ≤ 128 ∧
    ∀ k, relay (k + 1) ⟨1700000000, 1⟩ = some stamp' :=
  relay_recent ⟨by decide, by decide, by decide⟩ (by decide)

theorem stampBack_simulated {stamp : Ros.Time} (h : stamp.Valid) (hn : stamp.nanoseconds < 2 ^ 52) :
    ∃ stamp', stampBack stamp = some stamp' ∧ stamp'.Valid ∧
      stamp.nanoseconds - 1 ≤ stamp'.nanoseconds ∧ stamp'.nanoseconds ≤ stamp.nanoseconds := by
  obtain ⟨stamp', hback, hvalid, hn'⟩ := stampBack_valid h
  refine ⟨stamp', hback, hvalid, ?_⟩
  obtain ⟨m, hm⟩ := Int.eq_ofNat_of_zero_le (nanoseconds_nonneg h)
  rw [hm] at hn hn' ⊢
  have hnear := abs_nanosecondsBack_sub_lt_one (m := m) (by exact_mod_cast hn)
  rw [abs_lt] at hnear
  rw [hn']
  constructor
  · rw [Int.le_floor]
    push_cast
    linarith
  · rw [← Int.lt_add_one_iff, Int.floor_lt]
    push_cast
    linarith

/-- **A stamp of a simulated clock never gains, and loses at most a nanosecond in a node**, as long as the clock
runs for less than 52 days. -/
theorem relay_simulated {stamp : Ros.Time} (h : stamp.Valid) (hn : stamp.nanoseconds < 2 ^ 52) (k : ℕ) :
    ∃ stamp', relay k stamp = some stamp' ∧ stamp.nanoseconds - k ≤ stamp'.nanoseconds ∧
      stamp'.nanoseconds ≤ stamp.nanoseconds := by
  induction k generalizing stamp with
  | zero => exact ⟨stamp, rfl, by simp, le_rfl⟩
  | succ k ih =>
    obtain ⟨middle, hback, hvalid, hlow, hhigh⟩ := stampBack_simulated h hn
    obtain ⟨stamp', hrelay, hlow', hhigh'⟩ := ih hvalid (by omega)
    refine ⟨stamp', ?_, ?_, ?_⟩
    · unfold relay
      rw [hback, Option.bind_some]
      exact hrelay
    · push_cast
      omega
    · omega

theorem relay_simulated_thrice : ∃ stamp', relay 3 ⟨0, 16431387⟩ = some stamp' ∧
    Ros.Time.nanoseconds ⟨0, 16431387⟩ - (3 : ℕ) ≤ stamp'.nanoseconds ∧
    stamp'.nanoseconds ≤ Ros.Time.nanoseconds ⟨0, 16431387⟩ :=
  relay_simulated ⟨by decide, by decide, by decide⟩ (by decide) 3

-- Every node can cost a nanosecond.
example : relay 5 ⟨0, 128632863⟩ = some ⟨0, 128632858⟩ := by decide +kernel

end TranslateUtility
