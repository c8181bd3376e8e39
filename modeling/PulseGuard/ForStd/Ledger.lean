import Mathlib.Data.List.Basic
import Mathlib.Logic.Function.Basic

/-!
# Ledgers

A ledger lists the changes of a keyed store, oldest first, each with the value of its key before
and after. It is sound when every change shows the value that the changes before it lead to. Then
the changes of one key form a chain from its first value to its last (`Sound.chain`), whatever was
changed in between.
-/

namespace Ledger

variable {κ : Type u} {β : Type v} [DecidableEq κ]

/-- One change of a key; a missing value is `none`. -/
structure Change (κ : Type u) (β : Type v) where
  key : κ
  before : Option β
  after : Option β

/-- The values of the keys. -/
abbrev Store (κ : Type u) (β : Type v) := κ → Option β

/-- The store after a change. -/
def Change.apply (c : Change κ β) (s : Store κ β) : Store κ β := Function.update s c.key c.after

@[simp] theorem Change.apply_key (c : Change κ β) (s : Store κ β) : c.apply s c.key = c.after :=
  Function.update_self ..

theorem Change.apply_of_ne {c : Change κ β} {k : κ} (h : k ≠ c.key) (s : Store κ β) :
    c.apply s k = s k := Function.update_of_ne h ..

/-- The store that some changes lead to. -/
def replay (s : Store κ β) : List (Change κ β) → Store κ β
  | [] => s
  | c :: cs => replay (c.apply s) cs

/-- Every change shows, before, the value that its key has by then. -/
def Sound (s : Store κ β) : List (Change κ β) → Prop
  | [] => True
  | c :: cs => c.before = s c.key ∧ Sound (c.apply s) cs

/-- The changes of one key: each shows, before, what the one before it shows after. -/
def Chain : Option β → List (Change κ β) → Option β → Prop
  | start, [], last => start = last
  | start, c :: cs, last => c.before = start ∧ Chain c.after cs last

theorem replay_append (s : Store κ β) (cs cs' : List (Change κ β)) :
    replay s (cs ++ cs') = replay (replay s cs) cs' := by
  induction cs generalizing s with
  | nil => rfl
  | cons c cs ih => exact ih (c.apply s)

theorem replay_concat (s : Store κ β) (cs : List (Change κ β)) (c : Change κ β) :
    replay s (cs ++ [c]) = c.apply (replay s cs) := replay_append s cs [c]

theorem Sound.append {s : Store κ β} {cs cs' : List (Change κ β)} (h : Sound s cs)
    (h' : Sound (replay s cs) cs') : Sound s (cs ++ cs') := by
  induction cs generalizing s with
  | nil => exact h'
  | cons c cs ih => exact ⟨h.1, ih h.2 h'⟩

/-- In a sound ledger the changes of a key lead from its first value to its last. -/
theorem Sound.chain {s : Store κ β} {cs : List (Change κ β)} (h : Sound s cs) (k : κ) :
    Chain (s k) (cs.filter fun c => c.key = k) (replay s cs k) := by
  induction cs generalizing s with
  | nil => exact rfl
  | cons c cs ih =>
    have hrest := ih h.2
    by_cases hk : c.key = k
    · rw [List.filter_cons_of_pos (by simpa using hk)]
      rw [← hk, Change.apply_key] at hrest
      subst hk
      exact ⟨h.1, hrest⟩
    · -- A change of another key is no step of the chain.
      rw [List.filter_cons_of_neg (by simpa using hk)]
      rw [Change.apply_of_ne (Ne.symm hk)] at hrest
      exact hrest

end Ledger
