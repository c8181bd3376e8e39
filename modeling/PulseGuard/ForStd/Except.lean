import Mathlib.Data.List.Forall2
import Mathlib.Data.List.Perm.Basic

/-!
# `Except` computations that succeed

A computation in `Except` succeeds when each of its steps does. These lemmas take a
successful result apart, so that proofs about a translated function never unfold the
monad.
-/

namespace Except

variable {ε : Type u} {α β : Type v}

theorem ok_bind (a : α) (f : α → Except ε β) : ((.ok a : Except ε α) >>= f) = f a := rfl

theorem bind_ok_iff {x : Except ε α} {f : α → Except ε β} {b : β} :
    (x >>= f) = .ok b ↔ ∃ a, x = .ok a ∧ f a = .ok b := by
  cases x <;> simp [bind, Except.bind]

/-- A computation returns when its first step does and the rest does from there. -/
theorem exists_bind_ok {x : Except ε α} {f : α → Except ε β} {a : α} (hx : x = .ok a)
    (hf : ∃ b, f a = .ok b) : ∃ b, (x >>= f) = .ok b := by
  obtain ⟨b, hb⟩ := hf
  exact ⟨b, bind_ok_iff.mpr ⟨a, hx, hb⟩⟩

theorem pure_ok_iff {a b : α} : (pure a : Except ε α) = .ok b ↔ a = b := by
  simp [pure, Except.pure]

/-- A computation followed by one that cannot fail succeeds when it does itself. -/
theorem map_ok_iff {f : α → β} {x : Except ε α} {b : β} :
    (f <$> x) = .ok b ↔ ∃ a, x = .ok a ∧ f a = b := by
  cases x <;> simp [Functor.map, Except.map]

/-- A computation either succeeds or raises. -/
theorem isOk_iff {x : Except ε α} : x.isOk = true ↔ ∃ a, x = .ok a := by
  cases x <;> simp [Except.isOk, Except.toBool]

/-- A computation over a list of items succeeds when each item does, item by item. -/
theorem mapM_ok_iff {f : α → Except ε β} {xs : List α} {ys : List β} :
    xs.mapM f = .ok ys ↔ List.Forall₂ (fun x y => f x = .ok y) xs ys := by
  induction xs generalizing ys with
  | nil =>
    rw [List.mapM_nil, pure_ok_iff, List.forall₂_nil_left_iff]
    exact eq_comm
  | cons x xs ih =>
    rw [List.mapM_cons, bind_ok_iff]
    constructor
    · intro ⟨y, hy, h⟩
      obtain ⟨zs, hzs, h⟩ := bind_ok_iff.mp h
      rw [pure_ok_iff] at h
      subst h
      exact .cons hy (ih.mp hzs)
    · intro h
      cases h with
      | cons hy hys =>
        refine ⟨_, hy, ?_⟩
        rw [bind_ok_iff]
        exact ⟨_, ih.mpr hys, rfl⟩

/-- Every item of a list that `mapM` gets through succeeds on its own. -/
theorem ok_of_mapM_ok {f : α → Except ε β} {xs : List α} {ys : List β}
    (h : xs.mapM f = .ok ys) : ∀ x ∈ xs, ∃ y ∈ ys, f x = .ok y := by
  have hall := mapM_ok_iff.mp h
  clear h
  induction hall with
  | nil => intro x hx; cases hx
  | cons hxy _ ih =>
    intro x hx
    rcases List.mem_cons.mp hx with rfl | hx
    · exact ⟨_, List.mem_cons_self, hxy⟩
    · obtain ⟨y, hy, hf⟩ := ih x hx
      exact ⟨y, List.mem_cons_of_mem _ hy, hf⟩

/-- Every result of a `mapM` is the result of one of the items. -/
theorem exists_of_mem_mapM {f : α → Except ε β} {xs : List α} {ys : List β}
    (h : xs.mapM f = .ok ys) {y : β} (hy : y ∈ ys) : ∃ x ∈ xs, f x = .ok y := by
  have hall := mapM_ok_iff.mp h
  clear h
  induction hall with
  | nil => cases hy
  | cons hxy _ ih =>
    rcases List.mem_cons.mp hy with rfl | hy
    · exact ⟨_, List.mem_cons_self, hxy⟩
    · obtain ⟨x, hx, hf⟩ := ih hy
      exact ⟨x, List.mem_cons_of_mem _ hx, hf⟩

/-- Conversely `mapM` gets through a list whose items all succeed. -/
theorem exists_mapM_ok {f : α → Except ε β} {xs : List α} (h : ∀ x ∈ xs, ∃ y, f x = .ok y) :
    ∃ ys, xs.mapM f = .ok ys := by
  induction xs with
  | nil => exact ⟨[], rfl⟩
  | cons x xs ih =>
    obtain ⟨y, hy⟩ := h x List.mem_cons_self
    obtain ⟨ys, hys⟩ := ih fun z hz => h z (List.mem_cons_of_mem _ hz)
    refine ⟨y :: ys, ?_⟩
    rw [List.mapM_cons, bind_ok_iff]
    refine ⟨y, hy, ?_⟩
    rw [bind_ok_iff]
    exact ⟨ys, hys, rfl⟩

/-- A computation over a list of items, each of which succeeds as `q` says or fails as `p`
    says, gets through or stops at the first item that fails. -/
theorem mapM_cases {f : α → Except ε β} {p : α → ε → Prop} {q : α → β → Prop} {xs : List α}
    (h : ∀ x ∈ xs, (∃ e, f x = .error e ∧ p x e) ∨ ∃ y, f x = .ok y ∧ q x y) :
    (∃ ys, xs.mapM f = .ok ys ∧ List.Forall₂ q xs ys) ∨
      ∃ before x after e, xs = before ++ x :: after ∧ (∀ x' ∈ before, ∃ y, q x' y) ∧ p x e ∧
        xs.mapM f = .error e := by
  induction xs with
  | nil => exact .inl ⟨[], rfl, .nil⟩
  | cons x xs ih =>
    rw [List.mapM_cons]
    cases h x List.mem_cons_self with
    | inl herror =>
      obtain ⟨e, he, hp⟩ := herror
      rw [he]
      exact .inr ⟨[], x, xs, e, rfl, fun _ hx' => absurd hx' List.not_mem_nil, hp, rfl⟩
    | inr hok =>
      obtain ⟨y, hy, hq⟩ := hok
      rw [hy]
      cases ih fun x' hx' => h x' (List.mem_cons_of_mem _ hx') with
      | inl hrest =>
        obtain ⟨ys, hys, hqs⟩ := hrest
        rw [hys]
        exact .inl ⟨y :: ys, rfl, .cons hq hqs⟩
      | inr hrest =>
        obtain ⟨before, x', after, e, rfl, hbefore, hp, he⟩ := hrest
        rw [he]
        have hall : ∀ z ∈ x :: before, ∃ y, q z y := List.forall_mem_cons.mpr ⟨⟨y, hq⟩, hbefore⟩
        exact .inr ⟨x :: before, x', after, e, rfl, hall, hp, rfl⟩

/-! ## Two computations side by side -/

/-- Two computations that both succeed, with related results, or both raise. -/
inductive Both {α : Type v} {β : Type w} (r : α → β → Prop) : Except ε α → Except ε β → Prop where
  | ok {a : α} {b : β} (h : r a b) : Both r (.ok a) (.ok b)
  | error {e e' : ε} : Both r (.error e) (.error e')

theorem Both.of_ok {α : Type v} {β : Type w} {r : α → β → Prop} {x : Except ε α} {y : Except ε β}
    {a : α} {b : β} (hx : x = .ok a) (hy : y = .ok b) (h : r a b) : Both r x y := by
  rw [hx, hy]
  exact .ok h

/-- A computation beside itself. -/
theorem Both.self (x : Except ε α) : Both (fun a b => a = b ∧ x = .ok b) x x := by
  cases x with
  | ok => exact .ok ⟨rfl, rfl⟩
  | error => exact .error

/-- Two checks that pass together. -/
theorem Both.of_iff {x y : Except ε Unit} (h : x = .ok () ↔ y = .ok ()) :
    Both (fun _ _ => y = .ok ()) x y := by
  cases x with
  | ok => exact .of_ok rfl (h.mp rfl) (h.mp rfl)
  | error e =>
    cases y with
    | ok => cases h.mpr rfl
    | error e' => exact .error

theorem Both.bind {α γ : Type v} {β δ : Type w} {r : α → β → Prop} {r' : γ → δ → Prop}
    {x : Except ε α} {y : Except ε β} {f : α → Except ε γ} {g : β → Except ε δ} (h : Both r x y)
    (hf : ∀ a b, r a b → Both r' (f a) (g b)) : Both r' (x >>= f) (y >>= g) := by
  cases h with
  | ok h => exact hf _ _ h
  | error => exact .error

theorem Both.mono {α : Type v} {β : Type w} {r r' : α → β → Prop} {x : Except ε α}
    {y : Except ε β} (h : Both r x y) (hr : ∀ a b, r a b → r' a b) : Both r' x y := by
  cases h with
  | ok h => exact .ok (hr _ _ h)
  | error => exact .error

theorem Both.isOk {α : Type v} {β : Type w} {r : α → β → Prop} {x : Except ε α} {y : Except ε β}
    (h : Both r x y) : x.isOk = y.isOk := by
  cases h with
  | ok => rfl
  | error => rfl

/-- The same loop over computations that succeed together. -/
theorem Both.mapM {ι : Type u} {α β : Type v} {f : ι → Except ε α} {g : ι → Except ε β} {xs : List ι}
    (h : ∀ x, Both (fun _ _ => True) (f x) (g x)) :
    Both (fun _ _ => True) (xs.mapM f) (xs.mapM g) := by
  induction xs with
  | nil => exact .ok trivial
  | cons x xs ih =>
    rw [List.mapM_cons, List.mapM_cons]
    apply (h x).bind
    intro _ _ _
    apply ih.bind
    intro _ _ _
    exact .ok trivial

end Except
