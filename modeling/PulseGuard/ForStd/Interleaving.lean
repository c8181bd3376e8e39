import Mathlib.Logic.Function.Basic
import PulseGuard.ForStd.Run

/-!
# Requests in two atomic sections

Requests that each read a shared state in one atomic section and write it in another, with
any other sections in between. A schedule is a list of requests, each entry of which lets the
request make its next section; every interleaving of the sections is one. A property that
every section preserves under a condition, a schedule preserves whose sections all meet the
condition.
-/

namespace Interleaving

/-- Where a request stands: before its first section, between its sections with what it read,
    refused by what it read, or after its second section. -/
inductive Phase (ε β α : Type) where
  | ready
  | holds (held : β)
  | refused (error : ε)
  | wrote (held : β) (result : Except ε α)

/-- The sections of the requests: what each reads, and the write that follows from it. -/
structure System (ι σ ε β α : Type) where
  read : ι → σ → Except ε (β × σ)
  write : β → σ → Except ε (α × σ)

/-- The shared state, and where each request stands. -/
structure Config (ι σ ε β α : Type) where
  state : σ
  phase : ι → Phase ε β α

variable {ι σ ε β α : Type}

/-- No request has begun. -/
def Config.start (s : σ) : Config ι σ ε β α where
  state := s
  phase := fun _ => .ready

namespace System

/-- Both sections of a request, with nothing in between. -/
def alone (sys : System ι σ ε β α) (i : ι) (s : σ) : Except ε (α × σ) := do
  let (held, s) ← sys.read i s
  sys.write held s

variable [DecidableEq ι]

/-- The next section of a request. -/
def advance (sys : System ι σ ε β α) (i : ι) (x : Config ι σ ε β α) : Config ι σ ε β α :=
  match x.phase i with
  | .ready =>
    match sys.read i x.state with
    | .ok (held, s) => { state := s, phase := Function.update x.phase i (.holds held) }
    | .error e => { x with phase := Function.update x.phase i (.refused e) }
  | .holds held =>
    match sys.write held x.state with
    | .ok (a, s) => { state := s, phase := Function.update x.phase i (.wrote held (.ok a)) }
    | .error e => { x with phase := Function.update x.phase i (.wrote held (.error e)) }
  | .refused _ => x
  | .wrote .. => x

/-- The sections of a schedule, one after another. -/
def run (sys : System ι σ ε β α) : List ι → Config ι σ ε β α → Config ι σ ε β α
  | [], x => x
  | i :: rest, x => run sys rest (sys.advance i x)

/-- What one section does. -/
inductive Step (sys : System ι σ ε β α) (x : Config ι σ ε β α) (i : ι) :
    Config ι σ ε β α → Prop where
  | read {held : β} {s : σ} (hphase : x.phase i = .ready)
      (h : sys.read i x.state = .ok (held, s)) :
      Step sys x i { state := s, phase := Function.update x.phase i (.holds held) }
  | refuse {e : ε} (hphase : x.phase i = .ready) (h : sys.read i x.state = .error e) :
      Step sys x i { x with phase := Function.update x.phase i (.refused e) }
  | write {held : β} {a : α} {s : σ} (hphase : x.phase i = .holds held)
      (h : sys.write held x.state = .ok (a, s)) :
      Step sys x i { state := s, phase := Function.update x.phase i (.wrote held (.ok a)) }
  | fail {held : β} {e : ε} (hphase : x.phase i = .holds held)
      (h : sys.write held x.state = .error e) :
      Step sys x i { x with phase := Function.update x.phase i (.wrote held (.error e)) }
  | idle : Step sys x i x

theorem advance_step (sys : System ι σ ε β α) (i : ι) (x : Config ι σ ε β α) :
    Step sys x i (sys.advance i x) := by
  unfold advance
  split
  · rename_i hphase
    split
    · rename_i h
      exact .read hphase h
    · rename_i h
      exact .refuse hphase h
  · rename_i hphase
    split
    · rename_i h
      exact .write hphase h
    · rename_i h
      exact .fail hphase h
  · exact .idle
  · exact .idle

/-- Every section of a schedule meets a condition in the state it is made in. -/
def Meets (sys : System ι σ ε β α) (P : Config ι σ ε β α → ι → Prop) :
    List ι → Config ι σ ε β α → Prop
  | [], _ => True
  | i :: rest, x => P x i ∧ Meets sys P rest (sys.advance i x)

/-- A schedule whose sections all meet a condition is a run of such sections. -/
theorem run_where (sys : System ι σ ε β α) {P : Config ι σ ε β α → ι → Prop} {schedule : List ι}
    {x : Config ι σ ε β α} (h : sys.Meets P schedule x) :
    Run.RunWhere sys.Step P x (sys.run schedule x) := by
  induction schedule generalizing x with
  | nil => exact .refl
  | cons i rest ih => exact .head ⟨i, h.1, sys.advance_step i x⟩ (ih h.2)

end System

/-- The phases after one of them changed. -/
theorem phase_update [DecidableEq ι] {f : ι → Phase ε β α} {i j : ι} {p q : Phase ε β α}
    (h : Function.update f i p j = q) : j = i ∧ q = p ∨ j ≠ i ∧ f j = q := by
  by_cases hj : j = i
  · subst hj
    rw [Function.update_self] at h
    exact Or.inl ⟨rfl, h.symm⟩
  · rw [Function.update_of_ne hj] at h
    exact Or.inr ⟨hj, h⟩

end Interleaving
