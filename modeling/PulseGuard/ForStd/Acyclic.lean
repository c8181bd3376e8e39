import Mathlib.Logic.Relation
import Mathlib.Order.WellFounded

/-!
# Acyclic step relations

A step relation without an infinite path, and the rule for a step that is added: it closes
no cycle when its end does not lead back to its start.
-/

namespace Acyclic

variable {α : Type u} {step step' : α → α → Prop} {a b : α}

/-- No path of steps is infinite. -/
def Terminating (step : α → α → Prop) : Prop := WellFounded (Function.swap step)

/-- No path of a terminating relation returns to where it was. -/
theorem Terminating.no_return (h : Terminating step) (x : α) : ¬Relation.TransGen step x x := by
  intro hcycle
  have hwf : WellFounded (Relation.TransGen (Function.swap step)) := WellFounded.transGen h
  exact hwf.irrefl.irrefl x (Relation.transGen_swap.mpr hcycle)

theorem Terminating.mono (h : Terminating step) (hsub : ∀ x y, step' x y → step x y) :
    Terminating step' :=
  Subrelation.wf (fun hxy => hsub _ _ hxy) h

/-- What does not lead to the start of the new step has the paths it had. -/
private theorem acc_of_far (h : Terminating step)
    (hadd : ∀ x y, step' x y → step x y ∨ x = a ∧ y = b) (x : α)
    (hfar : ¬Relation.ReflTransGen step x a) : Acc (Function.swap step') x := by
  induction x using h.induction with
  | h x ih =>
    refine .intro x fun y hstep => ?_
    rcases hadd x y hstep with hold | ⟨rfl, -⟩
    · exact ih y hold fun hpath => hfar (.head hold hpath)
    · exact absurd .refl hfar

/-- A step whose end does not lead back to its start. -/
theorem Terminating.addStep (h : Terminating step)
    (hadd : ∀ x y, step' x y → step x y ∨ x = a ∧ y = b)
    (hfar : ¬Relation.ReflTransGen step b a) : Terminating step' := by
  refine ⟨fun x => ?_⟩
  induction x using h.induction with
  | h x ih =>
    refine .intro x fun y hstep => ?_
    rcases hadd x y hstep with hold | ⟨-, rfl⟩
    · exact ih y hold
    · exact acc_of_far h hadd y hfar

end Acyclic
