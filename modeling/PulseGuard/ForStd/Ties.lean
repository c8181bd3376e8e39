import PulseGuard.ForStd.PyList

/-!
# Sorting with ties

Two orders of the same items that are both sorted by one key differ only in how items with one key
stand to each other. What is read off the items in turn is the same for both when tied items show
the same (`map_eq_of_ties`), and so is what is read off the first item with the greatest value
(`maxBy_congr`). Taking out the first item with a property is `Picks`.
-/

namespace PyList

variable {α : Type u} {β : Type v} {κ : Type w} {ι : Type x} [LinearOrder κ] [LinearOrder ι]

/-- Two sorted orders of the same items read the same where tied items do. -/
theorem map_eq_of_ties {key : α → κ} {g : α → β} {l l' : List α} (hperm : l.Perm l')
    (h : l.Pairwise fun a b => key a ≤ key b) (h' : l'.Pairwise fun a b => key a ≤ key b)
    (hties : ∀ a ∈ l, ∀ b ∈ l, key a = key b → g a = g b) : l.map g = l'.map g := by
  have hsorted : (l.map fun a => (key a, g a)).Pairwise fun p q => p.1 ≤ q.1 :=
    List.pairwise_map.mpr h
  have hsorted' : (l'.map fun a => (key a, g a)).Pairwise fun p q => p.1 ≤ q.1 :=
    List.pairwise_map.mpr h'
  have hpairs : (l.map fun a => (key a, g a)) = l'.map fun a => (key a, g a) := by
    refine List.Perm.eq_of_pairwise ?_ hsorted hsorted' (hperm.map _)
    intro p q hp hq hpq hqp
    obtain ⟨a, ha, rfl⟩ := List.mem_map.mp hp
    obtain ⟨b, hb, rfl⟩ := List.mem_map.mp hq
    have hkey : key a = key b := le_antisymm hpq hqp
    rw [hkey, hties a ha b (hperm.mem_iff.mpr hb) hkey]
  have hsnd := congrArg (List.map Prod.snd) hpairs
  rwa [List.map_map, List.map_map] at hsnd

/-- `max` keeps the first of the items with the greatest value. -/
theorem head?_filter_maxBy (val : α → ι) (x : α) (xs : List α) :
    ((x :: xs).filter fun y => val y = val (maxBy val x xs)).head? = some (maxBy val x xs) := by
  induction xs generalizing x with
  | nil => simp [maxBy]
  | cons y ys ih =>
    have hstep : maxBy val x (y :: ys) = maxBy val (if val x < val y then y else x) ys := rfl
    have hrest := ih (if val x < val y then y else x)
    have hbest := le_maxBy val (if val x < val y then y else x) ys _ List.mem_cons_self
    rw [hstep]
    generalize maxBy val (if val x < val y then y else x) ys = best at hrest hbest
    by_cases hlt : val x < val y
    · -- the first item is not among the greatest
      rw [if_pos hlt] at hrest hbest
      have hx : ¬val x = val best := (lt_of_lt_of_le hlt hbest).ne
      rw [List.filter_cons_of_neg (by simpa using hx)]
      exact hrest
    · rw [if_neg hlt] at hrest hbest
      by_cases hx : val x = val best
      · rw [List.filter_cons_of_pos (by simpa using hx)] at hrest ⊢
        exact hrest
      · -- nor is the second
        have hy : ¬val y = val best := (lt_of_le_of_lt (not_lt.mp hlt) (lt_of_le_of_ne hbest hx)).ne
        rw [List.filter_cons_of_neg (by simpa using hx)] at hrest ⊢
        rw [List.filter_cons_of_neg (by simpa using hy)]
        exact hrest

theorem head?_filter_minBy (val : α → ι) (x : α) (xs : List α) :
    ((x :: xs).filter fun y => val y = val (minBy val x xs)).head? = some (minBy val x xs) :=
  @head?_filter_maxBy _ (OrderDual ι) _ (fun y => OrderDual.toDual (val y)) x xs

/-- Dropping other items does not change what `max` keeps. -/
theorem maxBy_filter {val : α → ι} {p : α → Bool} {x y : α} {xs ys : List α}
    (h : (x :: xs).filter p = y :: ys) (hp : p (maxBy val x xs) = true) :
    maxBy val y ys = maxBy val x xs := by
  have hmem : ∀ a ∈ y :: ys, a ∈ x :: xs := by
    intro a ha
    rw [← h] at ha
    exact (List.mem_filter.mp ha).1
  have hbest : maxBy val x xs ∈ y :: ys := by
    rw [← h]
    exact List.mem_filter.mpr ⟨maxBy_mem val x xs, hp⟩
  have hval : val (maxBy val y ys) = val (maxBy val x xs) :=
    le_antisymm (le_maxBy val x xs _ (hmem _ (maxBy_mem val y ys))) (le_maxBy val y ys _ hbest)
  -- the first of the greatest items is still there
  have hfirst := head?_filter_maxBy val x xs
  have hfirst' := head?_filter_maxBy val y ys
  rw [hval, ← h, List.filter_filter] at hfirst'
  cases hgreatest : (x :: xs).filter fun a => val a = val (maxBy val x xs) with
  | nil =>
    rw [hgreatest] at hfirst
    cases hfirst
  | cons a as =>
    rw [hgreatest, List.head?_cons] at hfirst
    have hswap : ((x :: xs).filter fun a => decide (val a = val (maxBy val x xs)) && p a) =
        (a :: as).filter p := by
      rw [← hgreatest, List.filter_filter]
      apply List.filter_congr
      intro b _
      exact Bool.and_comm _ _
    rw [hswap, Option.some.inj hfirst, List.filter_cons_of_pos hp, List.head?_cons] at hfirst'
    exact (Option.some.inj hfirst').symm

/-- `min` is `max` of the opposite. -/
theorem minBy_eq_maxBy_neg (key : α → Int) (x : α) (xs : List α) :
    minBy key x xs = maxBy (fun a => -key a) x xs := by
  unfold minBy maxBy
  simp only [Int.neg_lt_neg_iff]

/-- What `max` keeps of two sorted orders of the same items reads the same, when the tied ones
    among the greatest items do. -/
theorem maxBy_congr {key : α → κ} (val : α → ι) {g : α → β} {x y : α} {xs ys : List α}
    (hperm : (x :: xs).Perm (y :: ys)) (h : (x :: xs).Pairwise fun a b => key a ≤ key b)
    (h' : (y :: ys).Pairwise fun a b => key a ≤ key b)
    (hties : ∀ a ∈ x :: xs, ∀ b ∈ x :: xs, key a = key b → (∀ c ∈ x :: xs, val c ≤ val a) →
      (∀ c ∈ x :: xs, val c ≤ val b) → g a = g b) :
    g (maxBy val x xs) = g (maxBy val y ys) := by
  have hval : val (maxBy val x xs) = val (maxBy val y ys) :=
    le_antisymm
      (le_maxBy val y ys _ (hperm.mem_iff.mp (maxBy_mem val x xs)))
      (le_maxBy val x xs _ (hperm.mem_iff.mpr (maxBy_mem val y ys)))
  have hgreatest := map_eq_of_ties (g := g)
    (hperm.filter fun a => val a = val (maxBy val x xs)) (h.filter _) (h'.filter _) (by
      intro a ha b hb hkey
      obtain ⟨ha, hva⟩ := List.mem_filter.mp ha
      obtain ⟨hb, hvb⟩ := List.mem_filter.mp hb
      refine hties a ha b hb hkey ?_ ?_
      · intro c hc
        rw [of_decide_eq_true hva]
        exact le_maxBy val x xs c hc
      · intro c hc
        rw [of_decide_eq_true hvb]
        exact le_maxBy val x xs c hc)
  have hheads := congrArg List.head? hgreatest
  rw [List.head?_map, List.head?_map, head?_filter_maxBy, hval, head?_filter_maxBy] at hheads
  exact Option.some.inj hheads

/-- The first item of a list with a property, and the other items. -/
inductive Picks (p : α → Prop) : List α → α → List α → Prop
  | here {a : α} {l : List α} (h : p a) : Picks p (a :: l) a l
  | later {a b : α} {l rest : List α} (h : ¬p b) (hrest : Picks p l a rest) :
      Picks p (b :: l) a (b :: rest)

section Picks

variable {p q : α → Prop} {l rest rest' : List α} {a b : α}

theorem Picks.perm (h : Picks p l a rest) : l.Perm (a :: rest) := by
  induction h with
  | here => exact .refl _
  | later _ _ ih => exact (ih.cons _).trans (.swap _ _ _)

theorem Picks.pos (h : Picks p l a rest) : p a := by
  induction h with
  | here h => exact h
  | later _ _ ih => exact ih

theorem Picks.unique (h : Picks p l a rest) (h' : Picks p l b rest') : a = b ∧ rest = rest' := by
  induction h generalizing rest' with
  | here h =>
    cases h' with
    | here => exact ⟨rfl, rfl⟩
    | later hnot => exact absurd h hnot
  | later hnot _ ih =>
    cases h' with
    | here h => exact absurd h hnot
    | later _ hrest =>
      obtain ⟨rfl, rfl⟩ := ih hrest
      exact ⟨rfl, rfl⟩

theorem Picks.congr (h : Picks p l a rest) (hiff : ∀ x ∈ l, p x ↔ q x) : Picks q l a rest := by
  induction h with
  | here h => exact .here ((hiff _ List.mem_cons_self).mp h)
  | later hnot _ ih =>
    have hnot' := (not_congr (hiff _ List.mem_cons_self)).mp hnot
    exact .later hnot' (ih fun x hx => hiff x (List.mem_cons_of_mem _ hx))

/-- `eraseP` takes out the first of the items it could take. -/
theorem picks_eraseP {p : α → Bool} (h : (l.filter p).head? = some a) :
    Picks (fun x => p x = true) l a (l.eraseP p) := by
  induction l with
  | nil => cases h
  | cons x xs ih =>
    by_cases hx : p x = true
    · rw [List.filter_cons_of_pos hx, List.head?_cons] at h
      rw [List.eraseP_cons_of_pos hx, ← Option.some.inj h]
      exact .here hx
    · rw [List.filter_cons_of_neg hx] at h
      rw [List.eraseP_cons_of_neg hx]
      exact .later hx (ih h)

end Picks

end PyList
