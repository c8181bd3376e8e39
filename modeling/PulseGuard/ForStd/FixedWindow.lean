import Mathlib.Algebra.Order.Group.Defs
import Mathlib.Algebra.Order.Monoid.NatCast
import Mathlib.Data.List.Basic

/-!
# Fixed-window counters

A counter that starts over with the first hit a full window after the one it started with,
and lets a hit through while the count is within a limit. Windows do not overlap and are as
wide as they should be or wider, so that a period of `k` widths meets `k + 1` of them at most
(`countP_admitted_le`).
-/

namespace FixedWindow

variable {T : Type} [AddCommGroup T] [LinearOrder T]

/-- The hits of the current window, and when it started. -/
structure Window (T : Type) where
  count : Nat
  start : T

/-- The window after one more hit. -/
def hit (width : T) (x : Window T) (now : T) : Window T :=
  if width ≤ now - x.start then ⟨1, now⟩ else ⟨x.count + 1, x.start⟩

/-- The hits that are let through. -/
def admitted (width : T) (limit : Nat) (x : Window T) : List T → List T
  | [] => []
  | now :: rest =>
    if (hit width x now).count ≤ limit then now :: admitted width limit (hit width x now) rest
    else admitted width limit (hit width x now) rest

variable {width : T} {limit : Nat} {x : Window T} {now : T} {ts : List T}

theorem hit_of_le (h : width ≤ now - x.start) : hit width x now = ⟨1, now⟩ := if_pos h

theorem hit_of_lt (h : now - x.start < width) : hit width x now = ⟨x.count + 1, x.start⟩ :=
  if_neg (not_le.mpr h)

theorem admitted_sublist (width : T) (limit : Nat) (x : Window T) (ts : List T) :
    (admitted width limit x ts).Sublist ts := by
  induction ts generalizing x with
  | nil => exact .refl []
  | cons now rest ih =>
    unfold admitted
    split
    · exact (ih _).cons_cons now
    · exact (ih _).cons now

/-- What the first hit adds, and the rest. -/
theorem countP_admitted_cons (p : T → Bool) :
    (admitted width limit x (now :: ts)).countP p =
      (if p now = true ∧ (hit width x now).count ≤ limit then 1 else 0) +
        (admitted width limit (hit width x now) ts).countP p := by
  conv_lhs => unfold admitted
  by_cases hcount : (hit width x now).count ≤ limit
  · rw [if_pos hcount, List.countP_cons, Nat.add_comm]
    simp [hcount]
  · rw [if_neg hcount]
    simp [hcount]

/-- Hits that fit into the current window are let through. -/
theorem admitted_replicate (hopen : now - x.start < width) {n : Nat} (hfits : x.count + n ≤ limit)
    (rest : List T) : admitted width limit x (List.replicate n now ++ rest) =
      List.replicate n now ++ admitted width limit ⟨x.count + n, x.start⟩ rest := by
  induction n generalizing x with
  | zero => rfl
  | succ n ih =>
    rw [List.replicate_succ, List.cons_append, List.cons_append, admitted, hit_of_lt hopen,
      if_pos (by simp only; omega)]
    have hlater := ih (x := ⟨x.count + 1, x.start⟩) hopen (by simp only; omega)
    rw [hlater]
    simp only [Nat.add_assoc, Nat.add_comm 1 n]

/-- So are those that fit into a new one. -/
theorem admitted_replicate_of_le (hreset : width ≤ now - x.start) (hwidth : now - now < width)
    {n : Nat} (hfits : n ≤ limit) :
    admitted width limit x (List.replicate n now) = List.replicate n now := by
  cases n with
  | zero => rfl
  | succ n =>
    rw [List.replicate_succ, admitted, hit_of_le hreset, if_pos (by simp only; omega)]
    have hlater : admitted width limit ⟨1, now⟩ (List.replicate n now ++ []) = _ :=
      admitted_replicate hwidth (by simp only; omega) []
    rw [List.append_nil] at hlater
    rw [hlater]
    simp [admitted]

theorem countP_admitted_eq_zero {p : T → Bool} (h : ∀ t ∈ ts, ¬ p t = true) :
    (admitted width limit x ts).countP p = 0 := by
  rw [List.countP_eq_zero]
  intro t ht
  exact h t ((admitted_sublist width limit x ts).subset ht)

variable [IsOrderedAddMonoid T]

/-- Until `k` windows after the current one, what is left of its limit and `k` limits. -/
theorem countP_le_of_lt (hsorted : ts.Pairwise (· ≤ ·)) {c : T} {k : Nat}
    (hc : c < x.start + (k + 1) • width) :
    (admitted width limit x ts).countP (· ≤ c) ≤ (limit - x.count) + k * limit := by
  -- By induction on the hits, with `k` windows after the one that is open.
  induction ts generalizing x k with
  | nil => exact Nat.zero_le _
  | cons now rest ih =>
    obtain ⟨hfirst, hrest⟩ := List.pairwise_cons.mp hsorted
    by_cases hnow : now ≤ c
    · rw [countP_admitted_cons]
      by_cases hreset : width ≤ now - x.start
      · -- a new window, which leaves one fewer
        rw [hit_of_le hreset]
        rw [le_sub_iff_add_le'] at hreset
        cases k with
        | zero =>
          rw [Nat.zero_add, one_nsmul] at hc
          exact absurd (hc.trans_le hreset) (not_lt.mpr hnow)
        | succ k =>
          have hstart : c < now + (k + 1) • width := by
            calc c < x.start + (k + 1 + 1) • width := hc
              _ = x.start + width + (k + 1) • width := by rw [succ_nsmul', add_assoc]
              _ ≤ now + (k + 1) • width := by gcongr
          have hlater := ih (x := ⟨1, now⟩) hrest hstart
          have hmul : (k + 1) * limit = k * limit + limit := Nat.succ_mul k limit
          simp only at hlater ⊢
          split
          · next hfits => omega
          · omega
      · rw [hit_of_lt (not_le.mp hreset)]
        have hlater := ih (x := ⟨x.count + 1, x.start⟩) hrest hc
        simp only at hlater ⊢
        split
        · next hfits => omega
        · omega
    · -- nothing from here on is in time
      rw [countP_admitted_eq_zero]
      · exact Nat.zero_le _
      · intro t ht
        simp only [decide_eq_true_eq]
        cases List.mem_cons.mp ht with
        | inl heq => exact heq ▸ hnow
        | inr hmem => exact fun hle => hnow ((hfirst t hmem).trans hle)

/-- In a period of `k` widths, at most `k + 1` limits are let through. -/
theorem countP_admitted_le (hwidth : 0 < width) (hsorted : ts.Pairwise (· ≤ ·)) {a c : T} {k : Nat}
    (hc : c ≤ a + k • width) :
    (admitted width limit x ts).countP (fun t => a ≤ t ∧ t ≤ c) ≤ (k + 1) * limit := by
  -- By induction on the hits. The bound does not depend on the window that is open.
  induction ts generalizing x with
  | nil => exact Nat.zero_le _
  | cons now rest ih =>
    obtain ⟨hfirst, hrest⟩ := List.pairwise_cons.mp hsorted
    have hmul : (k + 1) * limit = k * limit + limit := Nat.succ_mul k limit
    -- Once the period has begun, what counts in it is what counts up to its end.
    have hweaken (y : Window T) (l : List T) :
        (admitted width limit y l).countP (fun t => a ≤ t ∧ t ≤ c) ≤
          (admitted width limit y l).countP (· ≤ c) := by
      refine List.countP_mono_left fun t _ ht => ?_
      simp only [decide_eq_true_eq] at ht ⊢
      exact ht.2
    by_cases ha : a ≤ now
    · by_cases hopen : a < x.start + width
      · -- the current window still counts in the period
        have hlate : c < x.start + (k + 1) • width := by
          calc c ≤ a + k • width := hc
            _ < x.start + width + k • width := by gcongr
            _ = x.start + (k + 1) • width := by rw [succ_nsmul', add_assoc]
        have hcount : (admitted width limit x (now :: rest)).countP (· ≤ c) ≤ _ :=
          countP_le_of_lt hsorted hlate
        have hless := hweaken x (now :: rest)
        omega
      · -- the period starts with a window of its own
        have hreset : width ≤ now - x.start := by
          rw [le_sub_iff_add_le']
          exact (not_lt.mp hopen).trans ha
        have hlate : c < now + (k + 1) • width := by
          calc c ≤ a + k • width := hc
            _ ≤ now + k • width := by gcongr
            _ < now + (k + 1) • width := by
              rw [succ_nsmul, ← add_assoc]
              exact lt_add_of_pos_right _ hwidth
        have hcount : (admitted width limit ⟨1, now⟩ rest).countP (· ≤ c) ≤ _ :=
          countP_le_of_lt hrest hlate
        have hless := hweaken ⟨1, now⟩ rest
        rw [countP_admitted_cons, hit_of_le hreset]
        simp only at hcount hless ⊢
        split
        · next hfits => omega
        · omega
    · -- a hit before the period
      rw [countP_admitted_cons, if_neg (by simp [ha]), Nat.zero_add]
      exact ih hrest

end FixedWindow
