import Mathlib.Data.List.Induction
import Mathlib.Data.List.Perm.Basic
import Mathlib.Data.List.Sort
import Mathlib.Order.OrderDual

/-!
# `max` and `min` with a key, and sorting

Python's `max(xs, key=f)` keeps the first of the items with the greatest key, `min` the
first with the least. Both are taken on a head and a tail, so that an empty sequence
cannot be asked. `sorted`, which is stable, is insertion sort; it commutes with dropping items.
-/

namespace PyList

variable {α : Type u} {κ : Type v} [LinearOrder κ]

/-- `max([x, *xs], key=key)`: the first item with the greatest key. -/
def maxBy (key : α → κ) (x : α) (xs : List α) : α :=
  xs.foldl (fun best y => if key best < key y then y else best) x

/-- `min([x, *xs], key=key)`: the first item with the least key. -/
def minBy (key : α → κ) (x : α) (xs : List α) : α :=
  xs.foldl (fun best y => if key y < key best then y else best) x

theorem maxBy_mem (key : α → κ) (x : α) (xs : List α) : maxBy key x xs ∈ x :: xs := by
  induction xs generalizing x with
  | nil => exact List.mem_cons_self
  | cons y ys ih =>
    have hmem := ih (if key x < key y then y else x)
    simp only [maxBy, List.foldl_cons] at hmem ⊢
    split at hmem <;> rename_i hlt
    · rw [if_pos hlt]; exact List.mem_cons_of_mem _ hmem
    · rw [if_neg hlt]
      rcases List.mem_cons.mp hmem with h | h
      · rw [h]; exact List.mem_cons_self
      · exact List.mem_cons_of_mem _ (List.mem_cons_of_mem _ h)

/-- No item has a greater key than the one `max` keeps. -/
theorem le_maxBy (key : α → κ) (x : α) (xs : List α) :
    ∀ y ∈ x :: xs, key y ≤ key (maxBy key x xs) := by
  induction xs generalizing x with
  | nil => intro y hy; simp only [List.mem_singleton] at hy; rw [hy]; rfl
  | cons z zs ih =>
    intro y hy
    have hstep : maxBy key x (z :: zs) = maxBy key (if key x < key z then z else x) zs := rfl
    rw [hstep]
    have hhead := ih (if key x < key z then z else x) _ List.mem_cons_self
    rcases List.mem_cons.mp hy with rfl | hy
    · refine le_trans ?_ hhead
      split
      · rename_i hlt; exact le_of_lt hlt
      · exact le_refl _
    · rcases List.mem_cons.mp hy with rfl | hy
      · refine le_trans ?_ hhead
        split
        · exact le_refl _
        · rename_i hlt; exact not_lt.mp hlt
      · exact ih _ y (List.mem_cons_of_mem _ hy)

theorem minBy_mem (key : α → κ) (x : α) (xs : List α) : minBy key x xs ∈ x :: xs :=
  maxBy_mem (κ := OrderDual κ) (fun y => OrderDual.toDual (key y)) x xs

theorem minBy_le (key : α → κ) (x : α) (xs : List α) :
    ∀ y ∈ x :: xs, key (minBy key x xs) ≤ key y :=
  le_maxBy (κ := OrderDual κ) (fun y => OrderDual.toDual (key y)) x xs

/-- `max` of a list whose items were all changed, by a key that reads them as before. -/
theorem maxBy_map {β : Type w} (key : α → κ) (key' : β → κ) {f : α → β}
    (hkey : ∀ a, key' (f a) = key a) (x : α) (xs : List α) :
    maxBy key' (f x) (xs.map f) = f (maxBy key x xs) := by
  induction xs generalizing x with
  | nil => rfl
  | cons y ys ih =>
    have hstep : (if key' (f x) < key' (f y) then f y else f x) =
        f (if key x < key y then y else x) := by
      rw [hkey, hkey]
      exact (apply_ite f _ _ _).symm
    simp only [maxBy, List.map_cons, List.foldl_cons] at ih ⊢
    rw [hstep]
    exact ih _

theorem minBy_map {β : Type w} (key : α → κ) (key' : β → κ) {f : α → β}
    (hkey : ∀ a, key' (f a) = key a) (x : α) (xs : List α) :
    minBy key' (f x) (xs.map f) = f (minBy key x xs) :=
  maxBy_map (κ := OrderDual κ) (fun a => OrderDual.toDual (key a))
    (fun b => OrderDual.toDual (key' b)) hkey x xs

section

variable {r : α → α → Prop} [DecidableRel r] [IsTrans α r]

theorem filter_orderedInsert (p : α → Bool) (a : α) {l : List α} (h : l.Pairwise r) :
    (l.orderedInsert r a).filter p =
      if p a then (l.filter p).orderedInsert r a else l.filter p := by
  induction l with
  | nil => by_cases ha : p a = true <;> simp [ha]
  | cons b l ih =>
    obtain ⟨hb, hl⟩ := List.pairwise_cons.mp h
    by_cases hab : r a b
    · rw [List.orderedInsert_cons_of_le _ _ hab, List.filter_cons]
      split
      · -- `a` comes before everything that is left of the list
        have hbefore : ∀ c ∈ (b :: l).filter p, r a c := by
          intro c hc
          rcases List.mem_cons.mp (List.mem_of_mem_filter hc) with rfl | hc
          · exact hab
          · exact trans_of r hab (hb c hc)
        cases hrest : (b :: l).filter p with
        | nil => rfl
        | cons c rest =>
          rw [hrest] at hbefore
          rw [List.orderedInsert_cons_of_le _ _ (hbefore c List.mem_cons_self)]
      · rfl
    · rw [List.orderedInsert_of_not_le _ _ hab, List.filter_cons, ih hl, List.filter_cons]
      by_cases hb' : p b = true
      · rw [if_pos hb', if_pos hb']
        split
        · rw [List.orderedInsert_of_not_le _ _ hab]
        · rfl
      · rw [if_neg hb', if_neg hb']

/-- Dropping items and sorting the rest is sorting and then dropping. -/
theorem filter_insertionSort [Std.Total r] (p : α → Bool) (l : List α) :
    (l.insertionSort r).filter p = (l.filter p).insertionSort r := by
  induction l with
  | nil => rfl
  | cons a l ih =>
    rw [List.insertionSort_cons, filter_orderedInsert p a (List.pairwise_insertionSort r l), ih,
      List.filter_cons]
    split <;> rfl

end

/-- Items with keys of their own are sorted strictly. -/
theorem pairwise_lt_insertionSort (key : α → κ) {l : List α}
    (h : l.Pairwise fun a b => key a ≠ key b) :
    (l.insertionSort fun a b => key a ≤ key b).Pairwise fun a b => key a < key b := by
  have : IsTrans α fun a b => key a ≤ key b := ⟨fun _ _ _ => le_trans⟩
  have : Std.Total fun a b : α => key a ≤ key b := ⟨fun a b => le_total (key a) (key b)⟩
  have hsorted := List.pairwise_insertionSort (fun a b => key a ≤ key b) l
  have hperm := List.perm_insertionSort (fun a b => key a ≤ key b) l
  have hne := (hperm.pairwise_iff fun hab => hab.symm).mpr h
  exact (hsorted.and hne).imp fun hab => lt_of_le_of_ne hab.1 hab.2

/-- Sorting finds again the order of a list whose keys increase. -/
theorem insertionSort_eq_of_perm (key : α → κ) {l l' : List α} (hperm : l'.Perm l)
    (h : l.Pairwise fun a b => key a < key b) :
    (l'.insertionSort fun a b => key a ≤ key b) = l := by
  have hne : l'.Pairwise fun a b => key a ≠ key b :=
    (hperm.pairwise_iff fun hab => hab.symm).mpr (h.imp fun hab => hab.ne)
  have hsorted := pairwise_lt_insertionSort key hne
  refine List.Perm.eq_of_pairwise ?_ hsorted h ((List.perm_insertionSort _ l').trans hperm)
  intro a b _ _ hab hba
  exact absurd hab (lt_asymm hba)

/-- Sorting the other way turns such a list round. -/
theorem insertionSort_desc_of_perm (key : α → κ) {l l' : List α} (hperm : l'.Perm l)
    (h : l.Pairwise fun a b => key a < key b) :
    (l'.insertionSort fun a b => key b ≤ key a) = l.reverse :=
  insertionSort_eq_of_perm (κ := OrderDual κ) (fun a => OrderDual.toDual (key a))
    (hperm.trans (List.reverse_perm l).symm) (List.pairwise_reverse.mpr h)

/-- Two strictly sorted lists whose items correspond, correspond item by item. -/
theorem forall₂_of_sorted {β : Type w} {r : α → β → Prop} {f : α → κ} {g : β → κ} {l₁ : List α}
    {l₂ : List β} (hkey : ∀ a b, r a b → f a = g b) (h₁ : l₁.Pairwise fun a b => f a < f b)
    (h₂ : l₂.Pairwise fun a b => g a < g b) (hforth : ∀ a ∈ l₁, ∃ b ∈ l₂, r a b)
    (hback : ∀ b ∈ l₂, ∃ a ∈ l₁, r a b) : List.Forall₂ r l₁ l₂ := by
  induction l₁ generalizing l₂ with
  | nil =>
    cases l₂ with
    | nil => exact .nil
    | cons b l₂ =>
      obtain ⟨a, ha, -⟩ := hback b List.mem_cons_self
      cases ha
  | cons a l₁ ih =>
    cases l₂ with
    | nil =>
      obtain ⟨b, hb, -⟩ := hforth a List.mem_cons_self
      cases hb
    | cons b l₂ =>
      obtain ⟨ha, hl₁⟩ := List.pairwise_cons.mp h₁
      obtain ⟨hb, hl₂⟩ := List.pairwise_cons.mp h₂
      -- the heads have the least keys on both sides
      have hhead : r a b := by
        obtain ⟨b', hb', hab'⟩ := hforth a List.mem_cons_self
        rcases List.mem_cons.mp hb' with rfl | hb'
        · exact hab'
        · obtain ⟨a', ha', ha'b⟩ := hback b List.mem_cons_self
          rcases List.mem_cons.mp ha' with rfl | ha'
          · exact ha'b
          · have hlt := (ha a' ha').trans_eq (hkey a' b ha'b)
            exact absurd (hlt.trans (hb b' hb')) (not_lt_of_ge (hkey a b' hab').ge)
      refine .cons hhead (ih hl₁ hl₂ (fun x hx => ?_) fun y hy => ?_)
      · obtain ⟨y, hy, hxy⟩ := hforth x (List.mem_cons_of_mem _ hx)
        rcases List.mem_cons.mp hy with rfl | hy
        · have hsame := (hkey x y hxy).trans (hkey a y hhead).symm
          exact absurd hsame (ha x hx).ne'
        · exact ⟨y, hy, hxy⟩
      · obtain ⟨x, hx, hxy⟩ := hback y (List.mem_cons_of_mem _ hy)
        rcases List.mem_cons.mp hx with rfl | hx
        · have hsame := (hkey x b hhead).symm.trans (hkey x y hxy)
          exact absurd hsame (hb y hy).ne
        · exact ⟨x, hx, hxy⟩

/-! ## Two lists side by side -/

section

variable {α : Type u} {β : Type v} {γ : Type w} {δ : Type x} {r : α → β → Prop} {l₁ : List α}
  {l₂ : List β}

/-- Of two optional items that correspond both are there, or none is. -/
theorem rel_cases {x : Option α} {y : Option β} (h : Option.Rel r x y) :
    x = none ∧ y = none ∨ ∃ a b, x = some a ∧ y = some b ∧ r a b := by
  cases h with
  | none => exact .inl ⟨rfl, rfl⟩
  | some hab => exact .inr ⟨_, _, rfl, rfl, hab⟩

/-- A search through lists whose items correspond. -/
theorem forall₂_findSome? {r' : γ → δ → Prop} {f : α → Option γ} {g : β → Option δ}
    (h : List.Forall₂ r l₁ l₂) (hfg : ∀ a b, r a b → Option.Rel r' (f a) (g b)) :
    Option.Rel r' (l₁.findSome? f) (l₂.findSome? g) := by
  induction h with
  | nil => exact .none
  | @cons a b l₁ l₂ hab _ ih =>
    rw [List.findSome?_cons, List.findSome?_cons]
    rcases rel_cases (hfg a b hab) with ⟨hf, hg⟩ | ⟨c, d, hf, hg, hcd⟩
    · rw [hf, hg]
      exact ih
    · rw [hf, hg]
      exact .some hcd

/-- The last items correspond. -/
theorem forall₂_getLast? (h : List.Forall₂ r l₁ l₂) : Option.Rel r l₁.getLast? l₂.getLast? := by
  induction h with
  | nil => exact .none
  | cons hab hrest ih =>
    cases hrest with
    | nil => exact .some hab
    | cons _ _ => simpa using ih

/-- Every item on the right has its item on the left. -/
theorem exists_left_of_forall₂ (h : List.Forall₂ r l₁ l₂) {b : β} (hb : b ∈ l₂) :
    ∃ a ∈ l₁, r a b := by
  induction h with
  | nil => cases hb
  | cons hab _ ih =>
    rcases List.mem_cons.mp hb with rfl | hb
    · exact ⟨_, List.mem_cons_self, hab⟩
    · obtain ⟨a, ha, hab⟩ := ih hb
      exact ⟨a, List.mem_cons_of_mem _ ha, hab⟩

theorem forall₂_find? {p : α → Bool} {q : β → Bool} (h : List.Forall₂ r l₁ l₂)
    (hpq : ∀ a b, r a b → p a = q b) : Option.Rel r (l₁.find? p) (l₂.find? q) := by
  induction h with
  | nil => exact .none
  | @cons a b l₁ l₂ hab _ ih =>
    rw [List.find?_cons, List.find?_cons, hpq a b hab]
    cases q b with
    | true => exact .some hab
    | false => exact ih

end

/-! ## The last item with a property -/

section

variable {p : α → Bool}

/-- A loop that keeps the last item with a property keeps none exactly when no item has it. -/
theorem foldl_keep_eq_none_iff {l : List α} :
    l.foldl (fun kept a => if p a then some a else kept) none = none ↔ ∀ a ∈ l, p a = false := by
  induction l using List.reverseRecOn with
  | nil => simp
  | append_singleton l b ih =>
    rw [List.foldl_append, List.foldl_cons, List.foldl_nil]
    cases hb : p b with
    | true => simp [hb]
    | false =>
      rw [if_neg (by simp), ih]
      simp [or_imp, forall_and, hb]

/-- The item that such a loop keeps has the property, and no item after it has. -/
theorem foldl_keep_eq_some {l : List α} {a : α}
    (h : l.foldl (fun kept a => if p a then some a else kept) none = some a) :
    ∃ i, ∃ hi : i < l.length, l[i] = a ∧ p a = true ∧
      ∀ j, ∀ hj : j < l.length, i < j → p l[j] = false := by
  induction l using List.reverseRecOn with
  | nil => cases h
  | append_singleton l b ih =>
    rw [List.foldl_append, List.foldl_cons, List.foldl_nil] at h
    have hlength : (l ++ [b]).length = l.length + 1 := by simp
    cases hb : p b with
    | true =>
      rw [if_pos hb] at h
      cases h
      refine ⟨l.length, by omega, by simp, hb, ?_⟩
      intro j hj hlt
      omega
    | false =>
      rw [if_neg (by simp [hb])] at h
      obtain ⟨i, hi, hget, ha, hafter⟩ := ih h
      refine ⟨i, by omega, by rw [List.getElem_append_left hi, hget], ha, ?_⟩
      intro j hj hlt
      by_cases hend : j < l.length
      · rw [List.getElem_append_left hend]
        exact hafter j hend hlt
      · have hj' : j = l.length := by omega
        subst hj'
        simpa using hb

/-- The items with a property that is inherited by all items before are the first ones. -/
theorem getElem_iff_lt_countP {l : List α} (h : l.Pairwise fun a b => p b = true → p a = true)
    {i : Nat} (hi : i < l.length) : p l[i] = true ↔ i < l.countP p := by
  induction l generalizing i with
  | nil => cases hi
  | cons a l ih =>
    obtain ⟨hhead, htail⟩ := List.pairwise_cons.mp h
    cases ha : p a with
    | true =>
      rw [List.countP_cons_of_pos ha]
      cases i with
      | zero => simp [ha]
      | succ i =>
        rw [List.getElem_cons_succ, ih htail (by simpa using hi)]
        omega
    | false =>
      -- no later item has the property either
      have hnone : ∀ b ∈ l, p b = false := by
        intro b hb
        by_contra hpb
        have := hhead b hb (by simpa using hpb)
        simp [ha] at this
      have hcount : (a :: l).countP p = 0 := by
        rw [List.countP_eq_zero]
        intro b hb
        rcases List.mem_cons.mp hb with rfl | hb
        · simp [ha]
        · simp [hnone b hb]
      rw [hcount]
      have hmem := List.getElem_mem hi
      rcases List.mem_cons.mp hmem with heq | hmem
      · rw [heq]
        simp [ha]
      · simp [hnone _ hmem]

end

/-- As many items pass a test as a stronger one when they pass both. -/
theorem countP_eq_countP_iff {p q : α → Bool} {l : List α}
    (himp : ∀ a ∈ l, p a = true → q a = true) :
    l.countP q = l.countP p ↔ ∀ a ∈ l, q a = true → p a = true := by
  induction l with
  | nil => simp
  | cons a l ih =>
    have hle : l.countP p ≤ l.countP q :=
      List.countP_mono_left fun b hb => himp b (List.mem_cons_of_mem _ hb)
    have hrest := ih fun b hb => himp b (List.mem_cons_of_mem _ hb)
    have ha := himp a List.mem_cons_self
    rw [List.forall_mem_cons, ← hrest, List.countP_cons, List.countP_cons]
    cases hp : p a with
    | true => simp [ha hp]
    | false =>
      cases hq : q a with
      | true => simp; omega
      | false => simp

theorem exists_of_mem_left {R : α → β → Prop} {xs : List α} {ys : List β}
    (h : List.Forall₂ R xs ys) {x : α} (hx : x ∈ xs) : ∃ y ∈ ys, R x y := by
  induction h with
  | nil => cases hx
  | cons hxy _ ih =>
    rcases List.mem_cons.mp hx with rfl | hx
    · exact ⟨_, List.mem_cons_self, hxy⟩
    · obtain ⟨y, hy, hR⟩ := ih hx
      exact ⟨y, List.mem_cons_of_mem _ hy, hR⟩

/-! ## The item with a key -/

theorem find?_eq_some_of_unique {p : α → Bool} {l : List α} {a : α} (hmem : a ∈ l)
    (hp : p a = true) (hunique : ∀ b ∈ l, p b = true → b = a) : l.find? p = some a := by
  cases hfind : l.find? p with
  | none =>
    have hnone := List.find?_eq_none.mp hfind a hmem
    exact absurd hp hnone
  | some b => rw [hunique b (List.mem_of_find?_eq_some hfind) (List.find?_some hfind)]

/-- A key that no two items share finds the item with it. -/
theorem find?_key_eq_some_iff [BEq β] [LawfulBEq β] {key : α → β} {l : List α}
    (hnodup : (l.map key).Nodup) {k : β} {a : α} :
    l.find? (fun b => key b == k) = some a ↔ a ∈ l ∧ key a = k := by
  constructor
  · intro h
    have hkey := List.find?_some h
    exact ⟨List.mem_of_find?_eq_some h, eq_of_beq hkey⟩
  · intro h
    obtain ⟨hmem, rfl⟩ := h
    refine find?_eq_some_of_unique hmem BEq.rfl fun b hb hkey => ?_
    exact List.inj_on_of_nodup_map hnodup hb hmem (eq_of_beq hkey)

end PyList
