import Mathlib.Data.Option.Basic

/-!
# Refinement of labelled systems

Systems whose steps carry labels, some of which are seen from outside; the histories of what
is seen; and forward simulations, by which every history of one system is one of another.
-/

namespace Refinement

/-- A system that goes in labelled steps, and what is seen of each from the state it leaves. -/
structure System (σ κ ε : Type) where
  step : σ → κ → σ → Prop
  seen : σ → κ → Option ε

variable {σ τ κ μ ε : Type}

/-- From one state to another, with the events that are seen on the way. -/
inductive Trace (sys : System σ κ ε) (s : σ) : List ε → σ → Prop where
  | refl : Trace sys s [] s
  | tail {h : List ε} {t u : σ} {l : κ} (htrace : Trace sys s h t) (hstep : sys.step t l u) :
      Trace sys s (h ++ (sys.seen t l).toList) u

theorem Trace.trans {sys : System σ κ ε} {s t u : σ} {h h' : List ε} (hst : Trace sys s h t)
    (htu : Trace sys t h' u) : Trace sys s (h ++ h') u := by
  induction htu with
  | refl => simpa using hst
  | tail _ hstep ih =>
    rw [← List.append_assoc]
    exact ih.tail hstep

/-- One step, of which `event` is seen. -/
theorem Trace.one {sys : System σ κ ε} {s t : σ} {l : κ} {event : Option ε}
    (hstep : sys.step s l t) (hseen : sys.seen s l = event) : Trace sys s event.toList t := by
  subst hseen
  exact Trace.refl.tail hstep

/-- One step that is not seen. -/
theorem Trace.hidden {sys : System σ κ ε} {s t : σ} {l : κ} (hstep : sys.step s l t)
    (hseen : sys.seen s l = none) : Trace sys s [] t := Trace.one hstep hseen

/-- One step that is seen. -/
theorem Trace.shown {sys : System σ κ ε} {s t : σ} {l : κ} {event : ε} (hstep : sys.step s l t)
    (hseen : sys.seen s l = some event) : Trace sys s [event] t := Trace.one hstep hseen

theorem Trace.head {sys : System σ κ ε} {s t u : σ} {l : κ} {h : List ε} {event : Option ε}
    (hstep : sys.step s l t) (hseen : sys.seen s l = event) (htrace : Trace sys t h u) :
    Trace sys s (event.toList ++ h) u := (Trace.one hstep hseen).trans htrace

/-- What holds at the start and is preserved by every step, along with what is seen of it. -/
theorem Trace.invariant {sys : System σ κ ε} (Inv : List ε → σ → Prop)
    (hstep : ∀ h s l t, Inv h s → sys.step s l t → Inv (h ++ (sys.seen s l).toList) t)
    {s t : σ} {h : List ε} (hs : Inv [] s) (htrace : Trace sys s h t) : Inv h t := by
  induction htrace with
  | refl => exact hs
  | tail _ hlast ih => exact hstep _ _ _ _ ih hlast

/-- Every step of one system is matched by steps of the other of which the same is seen. -/
def Simulates (sys : System σ κ ε) (spec : System τ μ ε) (R : σ → τ → Prop) : Prop :=
  ∀ s l s' t, R s t → sys.step s l s' → ∃ t', Trace spec t (sys.seen s l).toList t' ∧ R s' t'

/-- A forward simulation carries histories over. -/
theorem Simulates.trace {sys : System σ κ ε} {spec : System τ μ ε} {R : σ → τ → Prop}
    (hsim : Simulates sys spec R) {s s' : σ} {t : τ} {h : List ε} (hR : R s t)
    (htrace : Trace sys s h s') : ∃ t', Trace spec t h t' ∧ R s' t' := by
  induction htrace with
  | refl => exact ⟨t, .refl, hR⟩
  | tail _ hstep ih =>
    obtain ⟨t₁, htrace₁, hR₁⟩ := ih
    obtain ⟨t₂, htrace₂, hR₂⟩ := hsim _ _ _ _ hR₁ hstep
    exact ⟨t₂, htrace₁.trans htrace₂, hR₂⟩

end Refinement
