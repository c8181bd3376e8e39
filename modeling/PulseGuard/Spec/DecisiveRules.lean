import PulseGuard.Native.Pipeline
import PulseGuard.Spec.UnseenChanges

/-!
# What a decision reads of a rule

`Rule.decisive` forgets what the pipeline never looks at: the identifier, an empty exceptions
clause, and by which of its two flags a rule is not active. Every stage of the pipeline gives
the same on the rules as on what is left of them, so that packs whose rules leave the same
decide alike on every incident (`run_congr`).
-/

namespace PulseGuard

/-- A rule without what no decision reads. -/
def Rule.decisive (rule : Rule) : Rule :=
  { rule with
    id := none
    exceptions := rule.exceptions.filter (·.tree.truthy)
    ruleStatus := if rule.isActive then "ACTIVE" else ""
    enabled := rule.isActive }

namespace Rule

@[simp] theorem ruleCode_decisive (r : Rule) : r.decisive.ruleCode = r.ruleCode := rfl

@[simp] theorem name_decisive (r : Rule) : r.decisive.name = r.name := rfl

@[simp] theorem family_decisive (r : Rule) : r.decisive.family = r.family := rfl

@[simp] theorem priorityWeight_decisive (r : Rule) :
    r.decisive.priorityWeight = r.priorityWeight := rfl

@[simp] theorem sortKey_decisive (r : Rule) : r.decisive.sortKey = r.sortKey := rfl

@[simp] theorem conditions_decisive (r : Rule) : r.decisive.conditions = r.conditions := rfl

@[simp] theorem isSuppressor_decisive (r : Rule) : r.decisive.isSuppressor = r.isSuppressor := rfl

@[simp] theorem nonSuppressible_decisive (r : Rule) :
    r.decisive.nonSuppressible = r.nonSuppressible := rfl

@[simp] theorem conflictGroup_decisive (r : Rule) : r.decisive.conflictGroup = r.conflictGroup := rfl

@[simp] theorem actions_decisive (r : Rule) : r.decisive.actions = r.actions := rfl

@[simp] theorem mitigations_decisive (r : Rule) : r.decisive.mitigations = r.mitigations := rfl

@[simp] theorem sequencing_decisive (r : Rule) : r.decisive.sequencing = r.sequencing := rfl

@[simp] theorem contributionScore_decisive (r : Rule) :
    r.decisive.contributionScore = r.contributionScore := rfl

@[simp] theorem isActive_decisive (r : Rule) : r.decisive.isActive = r.isActive := by
  unfold decisive isActive
  cases r.enabled && r.ruleStatus == "ACTIVE" <;> simp

end Rule

/-- A condition tree without a truth value is satisfied by nothing, and raises nothing. -/
theorem RuleCondition.isSatisfiedBy_of_not_truthy {condition : RuleCondition}
    (h : condition.tree.truthy = false) (data : PyVal) : condition.isSatisfiedBy data = .ok false := by
  obtain ⟨tree⟩ := condition
  have h : tree.truthy = false := h
  unfold isSatisfiedBy
  cases tree with
  | dict entries =>
    cases entries with
    | nil => rfl
    | cons e es => cases h
  | _ => simp [RuleEngine.evaluate, h]

/-! ## Evaluation -/

namespace RulePack

theorem sortRules_decisive (rules : List Rule) :
    sortRules (rules.map Rule.decisive) = (sortRules rules).map Rule.decisive :=
  (List.map_insertionSort _ _ Rule.decisive rules fun _ _ _ _ => Iff.rfl).symm

theorem activeRules_decisive {p q : RulePack}
    (h : p.rules.map Rule.decisive = q.rules.map Rule.decisive) (family : Option String) :
    (p.activeRules family).map Rule.decisive = (q.activeRules family).map Rule.decisive := by
  have hfilter : ∀ (f : Rule → Bool), (∀ r, f r.decisive = f r) → ∀ rules : List Rule,
      (rules.filter f).map Rule.decisive = (rules.map Rule.decisive).filter f := by
    intro f hf rules
    rw [List.filter_map, show f ∘ Rule.decisive = f from funext hf]
  unfold activeRules
  rw [← sortRules_decisive, ← sortRules_decisive]
  cases family with
  | none => simp only [hfilter _ Rule.isActive_decisive, h]
  | some family =>
    simp only [hfilter _ Rule.isActive_decisive, hfilter (fun r => r.family == family) fun _ => rfl, h]

end RulePack

namespace PolicyEngine

/-- The exceptions clause of a rule, applied. -/
def vetoes (data : PyVal) : Option RuleCondition → Except PyError Bool
  | none => .ok false
  | some exceptions => exceptions.isSatisfiedBy data

theorem vetoes_filter (data : PyVal) (exceptions : Option RuleCondition) :
    vetoes data (exceptions.filter (·.tree.truthy)) = vetoes data exceptions := by
  cases exceptions with
  | none => rfl
  | some exceptions =>
    cases htruthy : exceptions.tree.truthy with
    | true => simp [Option.filter, htruthy]
    | false =>
      simp [Option.filter, htruthy, vetoes,
        RuleCondition.isSatisfiedBy_of_not_truthy htruthy]

/-- A judgement looks at the exceptions clause first, and at the conditions of what is left. -/
theorem judge_eq (data : PyVal) (rule : Rule) : judge data rule = (do
    if rule.family == complianceFamily then return .skipped
    if ← vetoes data rule.exceptions then return .rejected "self-vetoed by exceptions clause"
    if ← rule.conditions.isSatisfiedBy data then return .matched
    return .rejected "conditions not satisfied") := by
  unfold judge
  cases rule.exceptions <;> rfl

theorem judge_decisive (data : PyVal) (rule : Rule) : judge data rule.decisive = judge data rule := by
  rw [judge_eq, judge_eq, show rule.decisive.exceptions =
    rule.exceptions.filter (·.tree.truthy) from rfl, vetoes_filter]
  rfl

/-- The matched rules, without what no decision reads; the rejected ones are traces. -/
theorem evaluateRules_decisive (data : PyVal) (rules : List Rule) :
    evaluateRules data (rules.map Rule.decisive) =
      (fun result => (result.1.map Rule.decisive, result.2)) <$> evaluateRules data rules := by
  induction rules with
  | nil => rfl
  | cons rule rest ih =>
    rw [List.map_cons, evaluateRules, evaluateRules, judge_decisive, ih]
    cases judge data rule with
    | error e => rfl
    | ok verdict =>
      cases evaluateRules data rest with
      | error e => rfl
      | ok result => cases verdict <;> rfl

end PolicyEngine

theorem ComplianceApplier.applyRules_decisive (data : PyVal) (actions : Dict String PyVal)
    (constraints : List ComplianceConstraint) (rules : List Rule) :
    applyRules data actions constraints (rules.map Rule.decisive) =
      applyRules data actions constraints rules := by
  induction rules generalizing actions constraints with
  | nil => rfl
  | cons rule rest ih =>
    rw [List.map_cons, applyRules, applyRules]
    simp only [ih]
    rfl

/-! ## Conflict resolution -/

namespace ConflictResolver

/-- The writers of each field, without what no decision reads. -/
def decisiveWriters (writers : List (String × List Rule)) : List (String × List Rule) :=
  writers.map fun entry => (entry.1, entry.2.map Rule.decisive)

theorem get?_decisiveWriters (field : String) (writers : List (String × List Rule)) :
    Assoc.get? field (decisiveWriters writers) =
      (Assoc.get? field writers).map (List.map Rule.decisive) := by
  induction writers with
  | nil => rfl
  | cons entry rest ih =>
    obtain ⟨k, rules⟩ := entry
    rw [decisiveWriters, List.map_cons, Assoc.get?_cons, Assoc.get?_cons]
    split
    · rfl
    · exact ih

theorem set_decisiveWriters (field : String) (rules : List Rule)
    (writers : List (String × List Rule)) :
    Assoc.set field (rules.map Rule.decisive) (decisiveWriters writers) =
      decisiveWriters (Assoc.set field rules writers) := by
  induction writers with
  | nil => rfl
  | cons entry rest ih =>
    obtain ⟨k, old⟩ := entry
    simp only [decisiveWriters, List.map_cons, Assoc.set] at ih ⊢
    split
    · rfl
    · rw [List.map_cons, ih]

theorem addWriter_decisive {writers writers' : Dict String (List Rule)}
    (h : writers'.entries = decisiveWriters writers.entries) (rule : Rule) (field : String) :
    (addWriter rule.decisive writers' field).entries =
      decisiveWriters (addWriter rule writers field).entries := by
  unfold addWriter
  split
  · exact h
  · have hget : (writers'.get? field).getD [] = ((writers.get? field).getD []).map Rule.decisive := by
      rw [Dict.get?, h, get?_decisiveWriters]
      cases hrules : Assoc.get? field writers.entries with
      | none => simp [Dict.get?, hrules]
      | some rules => simp [Dict.get?, hrules]
    have happend : (writers'.get? field).getD [] ++ [rule.decisive] =
        ((writers.get? field).getD [] ++ [rule]).map Rule.decisive := by
      rw [hget, List.map_append]
      rfl
    change Assoc.set field _ writers'.entries = decisiveWriters (Assoc.set field _ writers.entries)
    rw [happend, h, set_decisiveWriters]

theorem fieldWriters_decisive (matched : List Rule) :
    (fieldWriters (matched.map Rule.decisive)).entries =
      decisiveWriters (fieldWriters matched).entries := by
  have hkeys : ∀ (rule : Rule) (fields : List String) (writers writers' : Dict String (List Rule)),
      writers'.entries = decisiveWriters writers.entries →
      (fields.foldl (addWriter rule.decisive) writers').entries =
        decisiveWriters (fields.foldl (addWriter rule) writers).entries := by
    intro rule fields
    induction fields with
    | nil => exact fun _ _ h => h
    | cons field rest ih => exact fun _ _ h => ih _ _ (addWriter_decisive h rule field)
  have hrules : ∀ (rules : List Rule) (writers writers' : Dict String (List Rule)),
      writers'.entries = decisiveWriters writers.entries →
      ((rules.map Rule.decisive).foldl
        (fun writers rule => rule.actions.keys.foldl (addWriter rule) writers) writers').entries =
        decisiveWriters (rules.foldl
          (fun writers rule => rule.actions.keys.foldl (addWriter rule) writers) writers).entries := by
    intro rules
    induction rules with
    | nil => exact fun _ _ h => h
    | cons rule rest ih => exact fun _ _ h => ih _ _ (hkeys rule rule.actions.keys _ _ h)
  exact hrules matched Dict.empty Dict.empty rfl

theorem unseen_decisive (field : String) : Unseen field Rule.decisive :=
  ⟨fun _ => rfl, fun _ => rfl, fun _ => rfl, fun _ => rfl, fun _ => rfl, fun _ => rfl, fun _ => rfl⟩

theorem resolveFields_decisive (actions : Dict String PyVal) (suppressed : List SuppressedEntry)
    (writers : List (String × List Rule)) :
    resolveFields actions suppressed (decisiveWriters writers) =
      resolveFields actions suppressed writers := by
  induction writers generalizing actions suppressed with
  | nil => rfl
  | cons entry rest ih =>
    obtain ⟨field, rules⟩ := entry
    change resolveFields actions suppressed
      ((field, rules.map Rule.decisive) :: decisiveWriters rest) = _
    rw [resolveFields, resolveFields, resolveField_map (unseen_decisive field)]
    simp only [ih]

theorem applyPriorityPostprocessing_decisive (actions : Dict String PyVal) (matched : List Rule) :
    applyPriorityPostprocessing actions (matched.map Rule.decisive) =
      applyPriorityPostprocessing actions matched := by
  have hfloors : floors (matched.map Rule.decisive) = floors matched := by
    unfold floors
    rw [List.filterMap_map]
    rfl
  have hbumps : bumps (matched.map Rule.decisive) = bumps matched := by
    unfold bumps
    rw [List.countP_map]
    rfl
  unfold applyPriorityPostprocessing
  rw [hfloors, hbumps]

/-- Conflict resolution reads of the matched rules what decisions read. -/
theorem resolve_decisive (matched : List Rule) :
    resolve (matched.map Rule.decisive) = resolve matched := by
  have hmitigations : mergeMitigations (matched.map Rule.decisive) = mergeMitigations matched := by
    unfold mergeMitigations
    rw [List.foldl_map]
    rfl
  unfold resolve
  simp only [fieldWriters_decisive, resolveFields_decisive, applyPriorityPostprocessing_decisive,
    hmitigations]

end ConflictResolver

/-! ## Risk, plan and explanation -/

theorem RiskScorer.total_decisive (matched : List Rule) (suppressedCodes : List String) :
    total (matched.map Rule.decisive) suppressedCodes = total matched suppressedCodes := by
  have hfilter := @ConflictResolver.filter_map_unseen Rule.decisive
    (fun r => !suppressedCodes.contains r.ruleCode) (fun _ => rfl) matched
  unfold total
  simp only [hfilter, List.map_map]
  rfl

namespace ExecutionPlanBuilder

theorem sequencedPlan_decisive (plan : List PlanStep) (types : List PyVal) (rules : List Rule) :
    sequencedPlan plan types (rules.map Rule.decisive) = sequencedPlan plan types rules := by
  induction rules generalizing plan types with
  | nil => rfl
  | cons rule rest ih =>
    rw [List.map_cons, sequencedPlan, sequencedPlan, Rule.sequencing_decisive]
    cases rule.sequencing.filter (!·.isEmpty) with
    | none => exact ih plan types
    | some sequencing =>
      simp only [ih]
      rfl

theorem build_decisive (actions : Dict String PyVal) (matched : List Rule) :
    build actions (matched.map Rule.decisive) = build actions matched := by
  unfold build
  rw [sequencedPlan_decisive]

end ExecutionPlanBuilder

namespace ExplainabilityBuilder

theorem build_decisive (matched : List Rule) (riskScore : Int) (riskBand : String)
    (finalActions : Dict String PyVal) :
    build (matched.map Rule.decisive) riskScore riskBand finalActions =
      build matched riskScore riskBand finalActions := by
  unfold build
  rw [List.isEmpty_map, List.map_map]
  rfl

theorem matchedTrace_decisive (matched : List Rule) :
    matchedTrace (matched.map Rule.decisive) = matchedTrace matched := by
  unfold matchedTrace
  rw [List.map_map]
  rfl

end ExplainabilityBuilder

/-! ## The pipeline -/

namespace PipelineOrchestrator

/-- What a run does with the matched and the rejected rules. -/
def afterEvaluation (matrix : Option SlaMatrix) (incident : Incident) (rulePack : RulePack)
    (evaluation : List Rule × List RejectedRuleTrace) : Except PyError Decision := do
  let (matched, rejected) := evaluation
  let resolution ← ConflictResolver.resolve matched
  let (actions, complianceConstraints) ←
    ComplianceApplier.apply rulePack incident resolution.actions
  let actions ← fillSla matrix incident actions
  let suppressedCodes := resolution.suppressed.map SuppressedEntry.ruleCode
  let (riskScore, riskBand) := RiskScorer.score matched suppressedCodes
  let executionPlan ← ExecutionPlanBuilder.build actions matched
  let confidenceScore ←
    ConfidenceCalculator.compute (totalSources incident) (degradedSources incident)
  return {
    incidentId := incident.incidentId
    priority := (actions.get? "priority").getD .none
    riskScore
    riskBand
    actions
    mitigations := resolution.mitigations
    executionPlan
    matchedRules := ExplainabilityBuilder.matchedTrace matched
    rejectedRules := rejected
    suppressedRules := resolution.suppressed
    complianceConstraints
    confidenceScore
    degradedContext := incident.degradedContext
    explanation := ExplainabilityBuilder.build matched riskScore riskBand actions }

theorem run_eq (matrix : Option SlaMatrix) (incident : Incident) (rulePack : RulePack) :
    run matrix incident rulePack =
      PolicyEngine.evaluate rulePack incident >>= afterEvaluation matrix incident rulePack := rfl

theorem afterEvaluation_decisive (matrix : Option SlaMatrix) (incident : Incident)
    (rulePack : RulePack) (matched : List Rule) (rejected : List RejectedRuleTrace) :
    afterEvaluation matrix incident rulePack (matched.map Rule.decisive, rejected) =
      afterEvaluation matrix incident rulePack (matched, rejected) := by
  unfold afterEvaluation RiskScorer.score
  simp only [ConflictResolver.resolve_decisive, RiskScorer.total_decisive,
    ExecutionPlanBuilder.build_decisive, ExplainabilityBuilder.matchedTrace_decisive,
    ExplainabilityBuilder.build_decisive]

/-- Packs whose rules leave the same for a decision to read decide alike. -/
theorem run_congr {p q : RulePack} (h : p.rules.map Rule.decisive = q.rules.map Rule.decisive)
    (matrix : Option SlaMatrix) (incident : Incident) :
    run matrix incident p = run matrix incident q := by
  have hcompliance : ∀ actions, ComplianceApplier.apply p incident actions =
      ComplianceApplier.apply q incident actions := by
    intro actions
    unfold ComplianceApplier.apply
    rw [← ComplianceApplier.applyRules_decisive, RulePack.activeRules_decisive h,
      ComplianceApplier.applyRules_decisive]
  have hafter : afterEvaluation matrix incident p = afterEvaluation matrix incident q := by
    funext evaluation
    unfold afterEvaluation
    simp only [hcompliance]
  -- the continuation reads of the matched rules what decisions read
  have hevaluate : ∀ r : RulePack, run matrix incident r =
      PolicyEngine.evaluateRules incident.asEvaluationData
        ((r.activeRules none).map Rule.decisive) >>= afterEvaluation matrix incident r := by
    intro r
    rw [run_eq, PolicyEngine.evaluateRules_decisive, bind_map_left]
    simp only [afterEvaluation_decisive]
    rfl
  rw [hevaluate p, hevaluate q, RulePack.activeRules_decisive h, hafter]

end PipelineOrchestrator

end PulseGuard
