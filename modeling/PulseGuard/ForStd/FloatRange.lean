import Mathlib.Data.Rat.Floor
import Mathlib.Algebra.Order.Field.Power
import Mathlib.Tactic.Linarith
import PulseGuard.ForStd.PyVal

/-!
# Bounds on floats

What is below a float (`PyFloat.ble_fin_of_lt`), and the range of the doubles: an integer of 63
bits, which every length of a Python container is, is rounded to a finite double
(`PyVal.floatOfInt_natCast`).
-/

namespace PyFloat

theorem pow2_eq_zpow (k : Int) : pow2 k = (2 : Rat) ^ k := by
  unfold pow2
  split
  · rename_i h
    obtain ⟨n, rfl⟩ := Int.eq_ofNat_of_zero_le h
    rw [Rat.mkRat_eq_div]
    simp
  · rename_i h
    obtain ⟨n, hn⟩ := Int.eq_ofNat_of_zero_le (show 0 ≤ -k by omega)
    have hk : k = -(n : Int) := by omega
    subst hk
    rw [Rat.mkRat_eq_div]
    simp

theorem pow2_pos (k : Int) : 0 < pow2 k := by
  rw [pow2_eq_zpow]
  positivity

theorem pow2_le_pow2 {j k : Int} (h : j ≤ k) : pow2 j ≤ pow2 k := by
  rw [pow2_eq_zpow, pow2_eq_zpow]
  exact zpow_le_zpow_right₀ (by norm_num) h

/-- A float that is at least a number is at least a smaller one. -/
theorem ble_fin_of_lt {a b : Rat} {x : PyFloat} (hab : a < b) (h : (fin b).ble x = true) :
    (fin a).ble x = true := by
  unfold ble at h ⊢
  cases x with
  | fin q =>
    simp only [blt, beq, Bool.or_eq_true, decide_eq_true_eq] at h ⊢
    rcases h with hlt | heq
    · exact Or.inl (lt_trans hab hlt)
    · exact Or.inl (heq ▸ hab)
  | inf neg => exact h
  | nan => exact h

/-- Rounding moves a number up by one at most. -/
theorem roundHalfEven_le (q : Rat) : (roundHalfEven q : Rat) ≤ q + 1 := by
  have hfloor : (q.floor : Rat) ≤ q := Rat.floor_le q
  have hnext : ((q.floor + 1 : Int) : Rat) ≤ q + 1 := by
    push_cast
    linarith
  unfold roundHalfEven
  simp only
  split
  · linarith
  · split
    · exact hnext
    · split
      · linarith
      · exact hnext

/-- The power of two below a positive integer. -/
theorem pow2_log2Floor_le {n : Nat} (hn : n ≠ 0) : pow2 (log2Floor (n : Rat)) ≤ n := by
  have hlog : pow2 (Nat.log2 n : Int) ≤ n := by
    rw [pow2_eq_zpow, zpow_natCast]
    exact_mod_cast Nat.log2_self_le hn
  unfold log2Floor
  have hone : Nat.log2 1 = 0 := by decide
  have hk : ((Nat.log2 ((n : Rat).num.natAbs) : Int) - Nat.log2 (n : Rat).den) = Nat.log2 n := by
    simp [hone]
  simp only [hk]
  rw [if_neg (not_lt.mpr hlog)]
  exact hlog

/-- An integer of 63 bits is rounded to a double. -/
theorem ofRat_natCast {n : Nat} (hn : n < 2 ^ 63) : ∃ q, ofRat (n : Rat) = fin q := by
  unfold ofRat
  by_cases h0 : n = 0
  · subst h0
    exact ⟨0, by simp⟩
  have hpos : (0 : Rat) < n := by exact_mod_cast Nat.pos_of_ne_zero h0
  rw [if_neg (ne_of_gt hpos)]
  simp only [if_neg (not_lt.mpr hpos.le)]
  rw [if_neg]
  · exact ⟨_, rfl⟩
  · -- the rounded number is at most one unit in the last place above `n`, so below `2 * n`
    generalize hulp : pow2 (max (log2Floor (n : Rat)) (-1022) - 52) = ulp
    have hulppos : 0 < ulp := hulp ▸ pow2_pos _
    have hone : (1 : Rat) ≤ n := by exact_mod_cast Nat.one_le_iff_ne_zero.mpr h0
    have hulple : ulp ≤ n := by
      rw [← hulp]
      rcases le_total (log2Floor (n : Rat)) (-1022) with hsmall | hlarge
      · rw [max_eq_right hsmall]
        have hle := pow2_le_pow2 (show (-1022 - 52 : Int) ≤ 0 by omega)
        have hzero : pow2 0 = 1 := by simp [pow2_eq_zpow]
        linarith
      · rw [max_eq_left hlarge]
        exact le_trans (pow2_le_pow2 (by omega)) (pow2_log2Floor_le h0)
    have hround := roundHalfEven_le ((n : Rat) / ulp)
    have hmul : (roundHalfEven ((n : Rat) / ulp) : Rat) * ulp ≤ ((n : Rat) / ulp + 1) * ulp :=
      mul_le_mul_of_nonneg_right hround hulppos.le
    have hexpand : ((n : Rat) / ulp + 1) * ulp = n + ulp := by
      rw [add_mul, one_mul, div_mul_cancel₀ _ (ne_of_gt hulppos)]
    have hbound : (n : Rat) < 2 ^ 63 := by exact_mod_cast hn
    have htop : pow2 64 ≤ pow2 1024 := pow2_le_pow2 (by omega)
    have hvalue : pow2 64 = 2 * 2 ^ 63 := by
      rw [pow2_eq_zpow]
      norm_num
    rw [not_le]
    linarith

end PyFloat

/-- `float(n)` of an integer of 63 bits. -/
theorem PyVal.floatOfInt_natCast {n : Nat} (hn : n < 2 ^ 63) :
    ∃ q, PyVal.floatOfInt n = .ok (.fin q) := by
  obtain ⟨q, hq⟩ := PyFloat.ofRat_natCast hn
  refine ⟨q, ?_⟩
  unfold PyVal.floatOfInt
  rw [show (((n : Int) : Rat)) = (n : Rat) by simp, hq]
