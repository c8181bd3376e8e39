import Mathlib.Algebra.Order.Field.Basic
import Mathlib.Tactic.FieldSimp
import Mathlib.Tactic.Ring
import PulseGuard.ForStd.FloatRange

/-!
# The rounding of floats

How far a double is from the number it was rounded from (`PyFloat.ofRat_error`), and what follows
for decimals: a small decimal with two places is found again from the double nearest to it
(`PyFloat.hundredths_ofRat`).
-/

namespace PyFloat

/-- Rounding moves a number by one half at most. -/
theorem abs_roundHalfEven_sub_le (q : Rat) : |(roundHalfEven q : Rat) - q| ≤ 1 / 2 := by
  have hfloor : (q.floor : Rat) ≤ q := Rat.floor_le q
  have hnext : q < q.floor + 1 := by
    have hlt := Rat.lt_floor_add_one q
    push_cast at hlt
    exact hlt
  have hhalf : mkRat 1 2 = (1 / 2 : Rat) := by norm_num [Rat.mkRat_eq_div]
  unfold roundHalfEven
  simp only [hhalf]
  -- Down in the lower half, up in the upper one, and either way in the middle.
  split
  · rw [abs_le]
    constructor <;> linarith
  · split
    · push_cast
      rw [abs_le]
      constructor <;> linarith
    · split
      · rw [abs_le]
        constructor <;> linarith
      · push_cast
        rw [abs_le]
        constructor <;> linarith

/-- The integer that a number is nearest to. -/
theorem roundHalfEven_eq {q : Rat} {n : Int} (h : |q - n| < 1 / 2) : roundHalfEven q = n := by
  have hround := abs_le.mp (abs_roundHalfEven_sub_le q)
  have hnear := abs_lt.mp h
  have hlt : ((roundHalfEven q : Int) : Rat) < (n + 1 : Int) := by
    push_cast
    linarith
  have hgt : ((n - 1 : Int) : Rat) < (roundHalfEven q : Int) := by
    push_cast
    linarith
  have hlt' : roundHalfEven q < n + 1 := by exact_mod_cast hlt
  have hgt' : n - 1 < roundHalfEven q := by exact_mod_cast hgt
  omega

/-- The power of two below a positive number. -/
theorem pow2_log2Floor_le_of_pos {a : Rat} (ha : 0 < a) : pow2 (log2Floor a) ≤ a := by
  have hnum : 0 < a.num := Rat.num_pos.mpr ha
  have hnum0 : a.num.natAbs ≠ 0 := by omega
  have hle : ((2 ^ Nat.log2 a.num.natAbs : Nat) : Rat) ≤ a.num.natAbs := by
    exact_mod_cast Nat.log2_self_le hnum0
  have hlt : (a.den : Rat) < ((2 ^ (Nat.log2 a.den + 1) : Nat) : Rat) := by
    exact_mod_cast Nat.lt_log2_self
  have hden : (0 : Rat) < a.den := by exact_mod_cast a.den_pos
  have hvalue : a = (a.num.natAbs : Rat) / a.den := by
    have habs : ((a.num.natAbs : Int) : Rat) = a.num := by
      rw [Int.natAbs_of_nonneg hnum.le]
    rw [← Int.cast_natCast, habs]
    exact (Rat.num_div_den a).symm
  unfold log2Floor
  simp only
  split
  · -- The numerator is at least its power of two, the denominator below the next one of its own.
    rw [pow2_eq_zpow]
    have hpower : (2 : Rat) ^ ((Nat.log2 a.num.natAbs : Int) - Nat.log2 a.den - 1) =
        ((2 ^ Nat.log2 a.num.natAbs : Nat) : Rat) / ((2 ^ (Nat.log2 a.den + 1) : Nat) : Rat) := by
      rw [sub_sub, zpow_sub₀ (by norm_num)]
      push_cast
      rw [← zpow_natCast, ← zpow_natCast]
      push_cast
      rfl
    rw [hpower]
    refine le_of_le_of_eq ?_ hvalue.symm
    exact div_le_div₀ (by positivity) hle hden hlt.le
  · rename_i hnot
    exact not_lt.mp hnot

/-- What a double may be off, in parts of the number. -/
def epsilon : Rat := pow2 (-53)

theorem epsilon_pos : 0 < epsilon := pow2_pos _

theorem epsilon_lt : epsilon < 1 / 10 ^ 15 := by
  unfold epsilon
  rw [pow2_eq_zpow]
  norm_num

/-- A number in the normal range is rounded to a double close by. -/
theorem ofRat_error {q : Rat} (hlow : pow2 (-1022) ≤ q) (hhigh : q ≤ pow2 1022) :
    ∃ r, ofRat q = fin r ∧ |r - q| ≤ q * epsilon := by
  have hq : 0 < q := lt_of_lt_of_le (pow2_pos _) hlow
  unfold ofRat
  rw [if_neg hq.ne']
  simp only [if_neg (not_lt.mpr hq.le)]
  generalize hulp : pow2 (max (log2Floor q) (-1022) - 52) = ulp
  have hpos : 0 < ulp := hulp ▸ pow2_pos _
  -- A number has 53 digits from its leading power of two on, so half a unit of the last one is at
  -- most the relative error.
  have hle : ulp ≤ 2 * (q * epsilon) := by
    have hpower : pow2 (max (log2Floor q) (-1022)) ≤ q := by
      rcases le_total (log2Floor q) (-1022) with hsmall | hlarge
      · rw [max_eq_right hsmall]
        exact hlow
      · rw [max_eq_left hlarge]
        exact pow2_log2Floor_le_of_pos hq
    have hsplit : ulp = pow2 (max (log2Floor q) (-1022)) * (2 * epsilon) := by
      rw [← hulp, epsilon, pow2_eq_zpow, pow2_eq_zpow, pow2_eq_zpow, zpow_sub₀ (by norm_num)]
      norm_num
      ring
    rw [hsplit]
    nlinarith [epsilon_pos]
  have hround := abs_roundHalfEven_sub_le (q / ulp)
  have herror : |(roundHalfEven (q / ulp) : Rat) * ulp - q| ≤ q * epsilon := by
    have hfactor : (roundHalfEven (q / ulp) : Rat) * ulp - q =
        ((roundHalfEven (q / ulp) : Rat) - q / ulp) * ulp := by
      field_simp
    rw [hfactor, abs_mul, abs_of_pos hpos]
    nlinarith
  -- The rounded number is far below the largest power of two.
  have hfinite : ¬pow2 1024 ≤ (roundHalfEven (q / ulp) : Rat) * ulp := by
    have hbound := (abs_le.mp herror).2
    have htop : pow2 1024 = 4 * pow2 1022 := by
      rw [pow2_eq_zpow, pow2_eq_zpow, show (1024 : Int) = 2 + 1022 by norm_num,
        zpow_add₀ (by norm_num)]
      congr 1
    have hpos' := pow2_pos 1022
    have heps := epsilon_lt
    rw [not_le, htop]
    nlinarith
  rw [if_neg hfinite]
  exact ⟨_, rfl, herror⟩

/-- A number of ordinary size is moved by less than a hundredth of it. -/
theorem ofRat_near {q : Rat} (hlow : 1 / 2 ^ 70 ≤ q) (hhigh : q ≤ 2 ^ 80) :
    ∃ r, ofRat q = fin r ∧ q * (99 / 100) ≤ r ∧ r ≤ q * (101 / 100) := by
  have hmin : pow2 (-1022) ≤ q := by
    refine le_trans (pow2_le_pow2 (show (-1022 : Int) ≤ -70 by omega)) (le_trans ?_ hlow)
    rw [pow2_eq_zpow]
    norm_num
  have hmax : q ≤ pow2 1022 := by
    refine le_trans hhigh (le_trans ?_ (pow2_le_pow2 (show (80 : Int) ≤ 1022 by omega)))
    rw [pow2_eq_zpow]
    norm_num
  obtain ⟨r, hr, herror⟩ := ofRat_error hmin hmax
  clear hmin hmax
  have hq : 0 < q := lt_of_lt_of_le (by norm_num) hlow
  have hsmall : q * epsilon ≤ q * (1 / 100) := by
    refine mul_le_mul_of_nonneg_left ?_ hq.le
    have heps := epsilon_lt
    norm_num at heps ⊢
    linarith
  have hbounds := abs_le.mp herror
  exact ⟨r, hr, by linarith, by linarith⟩

/-! ## Two places -/

/-- The nearest hundredths of a finite number, ties to even. -/
def hundredths (q : Rat) : Int := roundHalfEven (q * 100)

theorem mkRat_hundred (k : Int) : mkRat k 100 = (k : Rat) / 100 := by
  rw [Rat.mkRat_eq_div]
  norm_num

/-- A decimal of two places, rounded to a double, is found again. -/
theorem hundredths_ofRat {k : Int} (hlow : 0 ≤ k) (hhigh : k ≤ 10 ^ 6) :
    ∃ x, ofRat (mkRat k 100) = fin x ∧ hundredths x = k := by
  by_cases hk : k = 0
  · subst hk
    exact ⟨0, by decide +kernel, by decide +kernel⟩
  have hpos : (1 : Rat) ≤ k := by exact_mod_cast (by omega : 1 ≤ k)
  have htop : (k : Rat) ≤ 10 ^ 6 := by exact_mod_cast hhigh
  have hone : pow2 0 = 1 := by simp [pow2_eq_zpow]
  -- All of these lie well inside the range in which the relative error is bounded.
  have hmin : pow2 (-1022) ≤ mkRat k 100 := by
    have hle := pow2_le_pow2 (show (-1022 : Int) ≤ -7 by omega)
    have hvalue : pow2 (-7) = 1 / 128 := by
      rw [pow2_eq_zpow]
      norm_num
    rw [mkRat_hundred]
    linarith
  have hmax : mkRat k 100 ≤ pow2 1022 := by
    have hle := pow2_le_pow2 (show (20 : Int) ≤ 1022 by omega)
    have hvalue : pow2 20 = 1048576 := by
      rw [pow2_eq_zpow]
      norm_num
    rw [mkRat_hundred]
    linarith
  obtain ⟨x, hx, herror⟩ := ofRat_error hmin hmax
  clear hmin hmax
  refine ⟨x, hx, roundHalfEven_eq ?_⟩
  rw [mkRat_hundred] at herror
  have hscaled : |x * 100 - k| = |x - k / 100| * 100 := by
    rw [← abs_of_pos (show (0 : Rat) < 100 by norm_num), ← abs_mul]
    congr 1
    rw [abs_of_pos (show (0 : Rat) < 100 by norm_num)]
    ring
  have heps := epsilon_lt
  -- The error, in hundredths, is far less than a half.
  have hsmall : (k : Rat) * epsilon ≤ 10 ^ 6 * (1 / 10 ^ 15) :=
    mul_le_mul htop heps.le epsilon_pos.le (by norm_num)
  rw [hscaled]
  have hlast : (k : Rat) / 100 * epsilon * 100 = k * epsilon := by ring
  have hbound : |x - k / 100| * 100 ≤ k * epsilon := by
    rw [← hlast]
    exact mul_le_mul_of_nonneg_right herror (by norm_num)
  norm_num at hsmall
  linarith

end PyFloat
