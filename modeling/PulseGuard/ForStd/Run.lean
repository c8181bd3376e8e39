import Mathlib.Logic.Relation

/-!
# Runs of labelled steps

A transition system whose steps carry a label, the runs whose steps all meet a condition,
and the rules by which a property of one step becomes one of a run: an invariant, and a
relation between two sightings of one entity, which may come into being and go but never
comes back.
-/

namespace Run

variable {σ : Type u} {ι : Type v}

/-- A step whose label meets a condition in the state it is taken in. -/
def StepWhere (step : σ → ι → σ → Prop) (P : σ → ι → Prop) (s t : σ) : Prop :=
  ∃ l, P s l ∧ step s l t

/-- A run whose steps all meet a condition. -/
abbrev RunWhere (step : σ → ι → σ → Prop) (P : σ → ι → Prop) : σ → σ → Prop :=
  Relation.ReflTransGen (StepWhere step P)

variable {step : σ → ι → σ → Prop} {P Q : σ → ι → Prop}

theorem StepWhere.mono (h : ∀ s l, P s l → Q s l) {s t : σ} (hstep : StepWhere step P s t) :
    StepWhere step Q s t := by
  obtain ⟨l, hl, hst⟩ := hstep
  exact ⟨l, h s l hl, hst⟩

theorem RunWhere.mono (h : ∀ s l, P s l → Q s l) {s t : σ} (hrun : RunWhere step P s t) :
    RunWhere step Q s t :=
  hrun.lift id fun _ _ => StepWhere.mono h

/-- A run is one of another system that can take its steps where the condition holds. -/
theorem RunWhere.mono_step {step' : σ → ι → σ → Prop}
    (h : ∀ s l t, P s l → step s l t → step' s l t) {s t : σ} (hrun : RunWhere step P s t) :
    RunWhere step' P s t := by
  refine hrun.lift id ?_
  intro s t h
  obtain ⟨l, hl, hst⟩ := h
  exact ⟨l, hl, h s l t hl hst⟩

/-- What every step preserves, a run preserves. -/
theorem RunWhere.invariant (Inv : σ → Prop)
    (hstep : ∀ s l t, step s l t → P s l → Inv s → Inv t) {s t : σ} (hrun : RunWhere step P s t)
    (hs : Inv s) : Inv t := by
  induction hrun with
  | refl => exact hs
  | tail _ hlast ih =>
    obtain ⟨l, hl, hst⟩ := hlast
    exact hstep _ l _ hst hl ih

/-- An entity seen at the end of a run, and old enough at its start, was there at the start,
    and the two sightings are related as those around single steps are. -/
theorem RunWhere.tracked {α : Type w} (old : σ → Prop) (view : σ → Option α) (R : α → α → Prop)
    (hrefl : ∀ a, R a a) (htrans : ∀ a b c, R a b → R b c → R a c)
    (hold : ∀ s l t, step s l t → old s → old t)
    (hstep : ∀ s l t, step s l t → P s l → old s →
      ∀ b, view t = some b → ∃ a, view s = some a ∧ R a b)
    {s t : σ} (hrun : RunWhere step P s t) (hs : old s) :
    old t ∧ ∀ b, view t = some b → ∃ a, view s = some a ∧ R a b := by
  induction hrun with
  | refl => exact ⟨hs, fun b hb => ⟨b, hb, hrefl b⟩⟩
  | tail _ hlast ih =>
    obtain ⟨l, hl, hst⟩ := hlast
    refine ⟨hold _ l _ hst ih.1, ?_⟩
    intro c hc
    obtain ⟨b, hb, hbc⟩ := hstep _ l _ hst hl ih.1 c hc
    obtain ⟨a, ha, hab⟩ := ih.2 b hb
    exact ⟨a, ha, htrans a b c hab hbc⟩

end Run
