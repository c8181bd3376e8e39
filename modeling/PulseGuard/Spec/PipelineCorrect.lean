import PulseGuard.Native.Pipeline
import PulseGuard.Spec.ConflictResolverCorrect

/-!
# What a run of the pipeline computes

One lemma for each stage of `PipelineOrchestrator.run`, and `run_ok`, which takes a
successful run apart into its stages.
-/

namespace PulseGuard

namespace PolicyEngine

/-- The rules a successful evaluation matches: those it judges `matched`, in order. -/
theorem evaluateRules_ok {data : PyVal} {rules matched : List Rule}
    {rejected : List RejectedRuleTrace} (h : evaluateRules data rules = .ok (matched, rejected)) :
    (∀ r ∈ rules, ∃ verdict, judge data r = .ok verdict) ∧
      ∀ r, r ∈ matched ↔ r ∈ rules ∧ judge data r = .ok .matched := by
  induction rules generalizing matched rejected with
  | nil =>
    cases h
    simp
  | cons rule rest ih =>
    unfold evaluateRules at h
    obtain ⟨verdict, hverdict, h⟩ := Except.bind_ok_iff.mp h
    obtain ⟨⟨matched', rejected'⟩, hrest, h⟩ := Except.bind_ok_iff.mp h
    rw [Except.pure_ok_iff] at h
    obtain ⟨hall, hiff⟩ := ih hrest
    refine ⟨?_, ?_⟩
    · intro r hr
      rcases List.mem_cons.mp hr with rfl | hr
      · exact ⟨verdict, hverdict⟩
      · exact hall r hr
    · intro r
      -- the first rule's verdict says which list it joins
      cases verdict with
      | matched =>
        obtain ⟨rfl, -⟩ := Prod.mk.inj h
        rw [List.mem_cons, List.mem_cons, hiff]
        constructor
        · rintro (rfl | ⟨hr, hj⟩)
          · exact ⟨Or.inl rfl, hverdict⟩
          · exact ⟨Or.inr hr, hj⟩
        · intro h
          obtain ⟨rfl | hr, hj⟩ := h
          · exact Or.inl rfl
          · exact Or.inr ⟨hr, hj⟩
      | skipped =>
        obtain ⟨rfl, -⟩ := Prod.mk.inj h
        rw [hiff, List.mem_cons]
        constructor
        · intro ⟨hr, hj⟩
          exact ⟨Or.inr hr, hj⟩
        · intro h
          obtain ⟨rfl | hr, hj⟩ := h
          · rw [hverdict] at hj
            cases hj
          · exact ⟨hr, hj⟩
      | rejected reason =>
        obtain ⟨rfl, -⟩ := Prod.mk.inj h
        rw [hiff, List.mem_cons]
        constructor
        · intro ⟨hr, hj⟩
          exact ⟨Or.inr hr, hj⟩
        · intro h
          obtain ⟨rfl | hr, hj⟩ := h
          · rw [hverdict] at hj
            cases hj
          · exact ⟨hr, hj⟩

end PolicyEngine

namespace ComplianceApplier

/-- The compliance pass leaves a field alone that no compliance rule writes. -/
theorem get?_applyRules {data : PyVal} {rules : List Rule} {actions actions' : Dict String PyVal}
    {constraints constraints' : List ComplianceConstraint}
    (h : applyRules data actions constraints rules = .ok (actions', constraints'))
    {f : String} (hf : ∀ r ∈ rules, f ∉ r.actions.keys) :
    actions'.get? f = actions.get? f := by
  induction rules generalizing actions constraints with
  | nil =>
    cases h
    rfl
  | cons rule rest ih =>
    unfold applyRules at h
    obtain ⟨satisfied, -, h⟩ := Except.bind_ok_iff.mp h
    have hrest := fun r hr => hf r (List.mem_cons_of_mem _ hr)
    cases satisfied with
    | true =>
      have hnone : rule.actions.get? f = none :=
        (Dict.get?_eq_none_iff _).mpr (hf rule List.mem_cons_self)
      rw [ih h hrest, Dict.get?_update, hnone, Option.none_or]
    | false => exact ih h hrest

end ComplianceApplier

namespace PipelineOrchestrator

/-- The stages of a run that completes. -/
theorem run_ok {matrix : Option SlaMatrix} {incident : Incident} {pack : RulePack}
    {decision : Decision} (h : run matrix incident pack = .ok decision) :
    ∃ matched rejected resolution actions constraints,
      PolicyEngine.evaluate pack incident = .ok (matched, rejected) ∧
      ConflictResolver.resolve matched = .ok resolution ∧
      ComplianceApplier.apply pack incident resolution.actions = .ok (actions, constraints) ∧
      fillSla matrix incident actions = .ok decision.actions ∧
      decision.priority = (decision.actions.get? "priority").getD .none ∧
      decision.mitigations = resolution.mitigations ∧
      decision.suppressedRules = resolution.suppressed ∧
      decision.matchedRules = ExplainabilityBuilder.matchedTrace matched ∧
      (decision.riskScore, decision.riskBand) =
        RiskScorer.score matched (resolution.suppressed.map SuppressedEntry.ruleCode) ∧
      ExecutionPlanBuilder.build decision.actions matched = .ok decision.executionPlan := by
  unfold run at h
  obtain ⟨⟨matched, rejected⟩, hmatched, h⟩ := Except.bind_ok_iff.mp h
  obtain ⟨resolution, hresolve, h⟩ := Except.bind_ok_iff.mp h
  obtain ⟨⟨actions, constraints⟩, hcompliance, h⟩ := Except.bind_ok_iff.mp h
  obtain ⟨final, hfill, h⟩ := Except.bind_ok_iff.mp h
  obtain ⟨plan, hplan, h⟩ := Except.bind_ok_iff.mp h
  obtain ⟨confidence, -, h⟩ := Except.bind_ok_iff.mp h
  rw [Except.pure_ok_iff] at h
  subst h
  exact ⟨matched, rejected, resolution, actions, constraints, hmatched, hresolve, hcompliance,
    hfill, rfl, rfl, rfl, rfl, rfl, hplan⟩

/-- The SLA fill writes no field but its own two. -/
theorem get?_fillSla {matrix : Option SlaMatrix} {incident : Incident}
    {actions actions' : Dict String PyVal} (h : fillSla matrix incident actions = .ok actions')
    {f : String} (htarget : f ≠ "targetSLA") (hresolution : f ≠ "slaResolutionMinutes") :
    actions'.get? f = actions.get? f := by
  unfold fillSla at h
  cases matrix with
  | none =>
    cases h
    rfl
  | some matrix =>
    simp only at h
    split at h
    · rw [← Except.pure_ok_iff.mp h]
    · obtain ⟨entry, -, h⟩ := Except.bind_ok_iff.mp h
      cases entry with
      | none => rw [← Except.pure_ok_iff.mp h]
      | some entry =>
        rw [← Except.pure_ok_iff.mp h, Dict.get?_set_of_ne _ _ (Ne.symm hresolution),
          Dict.get?_set_of_ne _ _ (Ne.symm htarget)]

end PipelineOrchestrator

end PulseGuard
