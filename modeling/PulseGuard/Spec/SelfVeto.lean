import PulseGuard.Spec.ExportImport
import PulseGuard.Spec.RunStages

/-!
# Vetoed rules

A rule whose exceptions clause holds for an incident is meant to count for nothing there. The
evaluation rejects it. The compliance pass never looks at the clause, so that a rule of that
family applies all the same when its conditions hold: a vetoed rule can be taken out of its pack
exactly when that is not so (`vetoed_removed_iff`).
-/

namespace PulseGuard

/-- The exceptions clause of a rule holds. -/
def Rule.Vetoed (data : PyVal) (rule : Rule) : Prop :=
  ∃ exceptions, rule.exceptions = some exceptions ∧ exceptions.isSatisfiedBy data = .ok true

/-- Two decisions that decide the same, and list the same suppressions and constraints. -/
structure Decision.SameOutcome (d d' : Decision) : Prop where
  priority : d.priority = d'.priority
  riskScore : d.riskScore = d'.riskScore
  riskBand : d.riskBand = d'.riskBand
  actions : d.actions = d'.actions
  mitigations : d.mitigations = d'.mitigations
  executionPlan : d.executionPlan = d'.executionPlan
  suppressedRules : d.suppressedRules = d'.suppressedRules
  complianceConstraints : d.complianceConstraints = d'.complianceConstraints

/-- A vetoed rule does not match. -/
theorem PolicyEngine.isMatch_of_vetoed {data : PyVal} {rule : Rule} (h : rule.Vetoed data) :
    isMatch data rule = false := by
  obtain ⟨exceptions, hexceptions, hveto⟩ := h
  unfold isMatch judge
  rw [hexceptions]
  simp only [hveto]
  cases rule.family == complianceFamily <;> rfl

namespace PipelineOrchestrator

/-- A rule that is rejected and does not apply is not missed. -/
theorem sameOutcome_of_removed {matrix : Option SlaMatrix} {incident : Incident} {pack : RulePack}
    {before after : List Rule} {rule : Rule} {decision : Decision}
    (hrules : pack.rules = before ++ rule :: after) (hrun : run matrix incident pack = .ok decision)
    (hmatch : PolicyEngine.isMatch incident.asEvaluationData rule = false)
    (happlies : rule.family ≠ PolicyEngine.complianceFamily ∨
      rule.conditions.isSatisfiedBy incident.asEvaluationData = .ok false) :
    ∃ decision', run matrix incident { pack with rules := before ++ after } = .ok decision' ∧
      decision'.SameOutcome decision := by
  obtain ⟨matched, rejected, resolution, actions, constraints, final, plan, confidence, hevaluate, hresolve,
    happly, hfill, hplan, hconfidence, rfl⟩ := run_ok_iff.mp hrun
  have hsub : ∀ r ∈ before ++ after, r ∈ pack.rules := by
    intro r hr
    rw [hrules, List.mem_append, List.mem_cons]
    exact (List.mem_append.mp hr).imp_right Or.inr
  -- what is left of the rules after each filter is the same
  have hfilter : ∀ p : Rule → Bool, p rule = false →
      (before ++ after).filter p = pack.rules.filter p := by
    intro p hp
    rw [hrules, List.filter_append, List.filter_append, List.filter_cons_of_neg (by simp [hp])]
  obtain ⟨hjudged, hmatched⟩ := PolicyEngine.evaluate_ok_iff.mp ⟨rejected, hevaluate⟩
  obtain ⟨rejected', hevaluate'⟩ : ∃ rejected', PolicyEngine.evaluate
      { pack with rules := before ++ after } incident = .ok (matched, rejected') := by
    refine PolicyEngine.evaluate_ok_iff.mpr ⟨fun r hr => hjudged r (hsub r hr), ?_⟩
    rw [hmatched]
    unfold PolicyEngine.matching
    rw [hfilter _ (by rw [hmatch, Bool.and_false])]
  obtain ⟨hsatisfied, hactions, hconstraints⟩ := ComplianceApplier.apply_ok_iff.mp happly
  have happlying : ComplianceApplier.applying incident.asEvaluationData (before ++ after) =
      ComplianceApplier.applying incident.asEvaluationData pack.rules := by
    unfold ComplianceApplier.applying
    rw [hfilter]
    rcases happlies with hfamily | hconditions
    · rw [beq_false_of_ne hfamily, Bool.and_false, Bool.false_and]
    · have happlies : ComplianceApplier.applies incident.asEvaluationData rule = false := by
        unfold ComplianceApplier.applies
        rw [hconditions]
      rw [happlies, Bool.and_false]
  have happly' : ComplianceApplier.apply { pack with rules := before ++ after } incident
      resolution.actions = .ok (actions, constraints) := by
    apply ComplianceApplier.apply_ok_iff.mpr
    rw [happlying]
    exact ⟨fun r hr => hsatisfied r (hsub r hr), hactions, hconstraints⟩
  exact ⟨_, run_ok_iff.mpr ⟨matched, rejected', resolution, actions, constraints, final, plan, confidence,
    hevaluate', hresolve, happly', hfill, hplan, hconfidence, rfl⟩, ⟨rfl, rfl, rfl, rfl, rfl, rfl, rfl, rfl⟩⟩

/-- A compliance rule that applies is missed in the list of the constraints. -/
theorem constraints_of_removed {matrix : Option SlaMatrix} {incident : Incident} {pack : RulePack}
    {before after : List Rule} {rule : Rule} {decision decision' : Decision}
    (hrules : pack.rules = before ++ rule :: after) (hactive : rule.isActive = true)
    (hfamily : rule.family = PolicyEngine.complianceFamily)
    (hconditions : rule.conditions.isSatisfiedBy incident.asEvaluationData = .ok true)
    (hrun : run matrix incident pack = .ok decision)
    (hrun' : run matrix incident { pack with rules := before ++ after } = .ok decision') :
    decision'.complianceConstraints ≠ decision.complianceConstraints := by
  obtain ⟨_, _, _, _, constraints, _, _, _, -, -, happly, -, -, -, rfl⟩ := run_ok_iff.mp hrun
  obtain ⟨_, _, _, _, constraints', _, _, _, -, -, happly', -, -, -, rfl⟩ := run_ok_iff.mp hrun'
  obtain ⟨-, -, rfl⟩ := ComplianceApplier.apply_ok_iff.mp happly
  obtain ⟨-, -, rfl⟩ := ComplianceApplier.apply_ok_iff.mp happly'
  intro hsame
  have hlength := congrArg List.length hsame
  have happlies : ComplianceApplier.applies incident.asEvaluationData rule = true := by
    unfold ComplianceApplier.applies
    rw [hconditions]
  unfold ComplianceApplier.applying RulePack.sortRules at hlength
  simp only [List.length_map, List.length_insertionSort] at hlength
  rw [hrules, List.filter_append, List.filter_append, List.length_append, List.length_append,
    List.filter_cons_of_pos (by rw [hactive, hfamily, happlies]; rfl), List.length_cons] at hlength
  omega

/-- An active rule that is vetoed can be taken out of its pack exactly when it is of another
    family than the compliance rules, or its conditions do not hold. -/
theorem vetoed_removed_iff (matrix : Option SlaMatrix) (incident : Incident) (pack : RulePack)
    (before after : List Rule) (rule : Rule) (decision : Decision)
    (hrules : pack.rules = before ++ rule :: after) (hactive : rule.isActive = true)
    (hveto : rule.Vetoed incident.asEvaluationData)
    (hrun : run matrix incident pack = .ok decision) :
    (∃ decision', run matrix incident { pack with rules := before ++ after } = .ok decision' ∧
        decision'.SameOutcome decision) ↔
      rule.family ≠ PolicyEngine.complianceFamily ∨
        rule.conditions.isSatisfiedBy incident.asEvaluationData = .ok false := by
  constructor
  · intro h
    obtain ⟨decision', hrun', hsame⟩ := h
    by_contra hno
    rw [not_or, not_not] at hno
    obtain ⟨hfamily, hconditions⟩ := hno
    -- the run has evaluated the conditions, which then hold
    have hmem : rule ∈ pack.rules := by
      rw [hrules]
      exact List.mem_append_right _ List.mem_cons_self
    obtain ⟨_, _, _, _, _, _, _, _, -, -, happly, -, -, -, -⟩ := run_ok_iff.mp hrun
    obtain ⟨satisfied, hsatisfied⟩ := (ComplianceApplier.apply_ok_iff.mp happly).1 rule hmem hactive hfamily
    cases satisfied with
    | true =>
      exact constraints_of_removed hrules hactive hfamily hsatisfied hrun hrun'
        hsame.complianceConstraints
    | false => exact hconditions hsatisfied
  · intro happlies
    exact sameOutcome_of_removed hrules hrun (PolicyEngine.isMatch_of_vetoed hveto) happlies

/-- A rule whose exceptions clause holds whenever its conditions do. -/
def exemptRule (family : String) : Rule :=
  { plainRule "R2" with family, exceptions := some (plainRule "R2").conditions }

/-- The pack of a plain rule and an exempt one. -/
def exemptPack (family : String) : RulePack :=
  { plainVersion 1 none .active 0 3 with rules := [plainRule "R1", exemptRule family] }

theorem exemptRule_vetoed (family : String) : (exemptRule family).Vetoed severeIncident.asEvaluationData :=
  ⟨_, rfl, rfl⟩

/-- An operational rule that is vetoed is not missed. -/
theorem vetoed_removed_operational :
    ∃ decision decision', run none severeIncident (exemptPack "OPERATIONAL_FEASIBILITY") = .ok decision ∧
      run none severeIncident { exemptPack "OPERATIONAL_FEASIBILITY" with rules := [plainRule "R1"] } =
        .ok decision' ∧ decision'.SameOutcome decision := by
  have hruns : (run none severeIncident (exemptPack "OPERATIONAL_FEASIBILITY")).isOk = true := by
    decide +kernel
  obtain ⟨decision, hrun⟩ := Except.isOk_iff.mp hruns
  obtain ⟨decision', hrun', hsame⟩ := (vetoed_removed_iff none severeIncident
    (exemptPack "OPERATIONAL_FEASIBILITY") [plainRule "R1"] [] (exemptRule "OPERATIONAL_FEASIBILITY")
    decision rfl rfl (exemptRule_vetoed _) hrun).mpr (Or.inl (by decide))
  exact ⟨decision, decision', hrun, hrun', hsame⟩

/-- A compliance rule that is vetoed is applied all the same. -/
theorem vetoed_compliance_rule_applied :
    ¬∀ (matrix : Option SlaMatrix) (incident : Incident) (pack : RulePack) (before after : List Rule)
      (rule : Rule) (decision : Decision), pack.rules = before ++ rule :: after →
      rule.isActive = true → rule.Vetoed incident.asEvaluationData →
      run matrix incident pack = .ok decision →
      ∃ decision', run matrix incident { pack with rules := before ++ after } = .ok decision' ∧
        decision'.SameOutcome decision := by
  intro h
  have hruns : (run none severeIncident (exemptPack PolicyEngine.complianceFamily)).isOk = true := by
    decide +kernel
  obtain ⟨decision, hrun⟩ := Except.isOk_iff.mp hruns
  obtain ⟨decision', hrun', hsame⟩ := h none severeIncident (exemptPack PolicyEngine.complianceFamily)
    [plainRule "R1"] [] (exemptRule PolicyEngine.complianceFamily) decision rfl rfl
    (exemptRule_vetoed _) hrun
  exact constraints_of_removed rfl rfl rfl rfl hrun hrun' hsame.complianceConstraints

end PipelineOrchestrator

end PulseGuard
