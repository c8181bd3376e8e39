import PulseGuard.Spec.DormantRules
import PulseGuard.Spec.PipelineCorrect

/-!
# The stages of a run, as functions of the rules

A run evaluates every active rule of a pack once or twice and goes on with the rules that match
and the compliance rules that apply. Both are filters of the pack's rules, sorted
(`evaluate_ok_iff`, `apply_ok_iff`), so that two packs are compared by comparing two lists, and
`run_ok_iff` says that a run is its stages.
-/

namespace PulseGuard

namespace RulePack

theorem filter_sortRules (p : Rule → Bool) (rules : List Rule) :
    (sortRules rules).filter p = sortRules (rules.filter p) := by
  have htotal : Std.Total fun a b : Rule => a.sortKey ≤ b.sortKey := ⟨fun a b => le_total _ _⟩
  have htrans : IsTrans Rule fun a b => a.sortKey ≤ b.sortKey := ⟨fun _ _ _ => le_trans⟩
  exact PyList.filter_insertionSort _ _

end RulePack

/-! ## Evaluation -/

namespace PolicyEngine

/-- The rule matches. -/
def isMatch (data : PyVal) (rule : Rule) : Bool :=
  match judge data rule with
  | .ok .matched => true
  | _ => false

theorem isMatch_iff {data : PyVal} {rule : Rule} :
    isMatch data rule = true ↔ judge data rule = .ok .matched := by
  unfold isMatch
  split
  · rename_i h
    simp [h]
  · rename_i h
    simpa using h

/-- A list of rules is evaluated when each of them is, and the matching ones are its result. -/
theorem matchedRules_ok_iff {data : PyVal} {rules matched : List Rule} :
    matchedRules data rules = .ok matched ↔
      (∀ r ∈ rules, ∃ verdict, judge data r = .ok verdict) ∧
        matched = rules.filter (isMatch data) := by
  induction rules generalizing matched with
  | nil =>
    rw [List.filter_nil]
    constructor
    · intro h
      cases h
      exact ⟨fun _ hr => absurd hr List.not_mem_nil, rfl⟩
    · intro h
      obtain ⟨-, rfl⟩ := h
      rfl
  | cons rule rest ih =>
    rw [matchedRules_cons, Except.bind_ok_iff, List.forall_mem_cons]
    constructor
    · intro h
      obtain ⟨verdict, hjudge, h⟩ := h
      obtain ⟨matched', hrest, h⟩ := Except.bind_ok_iff.mp h
      rw [Except.pure_ok_iff] at h
      obtain ⟨hall, rfl⟩ := ih.mp hrest
      refine ⟨⟨⟨verdict, hjudge⟩, hall⟩, ?_⟩
      rw [← h, List.filter_cons]
      by_cases hverdict : verdict = .matched
      · subst hverdict
        rw [if_pos rfl, if_pos (isMatch_iff.mpr hjudge)]
      · have hmatch : ¬isMatch data rule = true := by
          rw [isMatch_iff, hjudge]
          simpa using hverdict
        rw [if_neg hverdict, if_neg hmatch]
    · intro h
      obtain ⟨⟨⟨verdict, hjudge⟩, hall⟩, rfl⟩ := h
      refine ⟨verdict, hjudge, ?_⟩
      rw [Except.bind_ok_iff]
      refine ⟨_, ih.mpr ⟨hall, rfl⟩, ?_⟩
      rw [Except.pure_ok_iff, List.filter_cons]
      by_cases hverdict : verdict = .matched
      · subst hverdict
        rw [if_pos rfl, if_pos (isMatch_iff.mpr hjudge)]
      · have hmatch : ¬isMatch data rule = true := by
          rw [isMatch_iff, hjudge]
          simpa using hverdict
        rw [if_neg hverdict, if_neg hmatch]

/-- The rules of a list that are active and match, in the order of evaluation. -/
def matching (data : PyVal) (rules : List Rule) : List Rule :=
  RulePack.sortRules (rules.filter fun r => r.isActive && isMatch data r)

theorem mem_matching {data : PyVal} {rules : List Rule} {r : Rule} :
    r ∈ matching data rules ↔ r ∈ rules ∧ r.isActive = true ∧ isMatch data r = true := by
  rw [matching, RulePack.mem_sortRules, List.mem_filter, Bool.and_eq_true]

theorem evaluate_ok_iff {pack : RulePack} {incident : Incident} {matched : List Rule} :
    (∃ rejected, evaluate pack incident = .ok (matched, rejected)) ↔
      (∀ r ∈ pack.rules, r.isActive = true → ∃ verdict, judge incident.asEvaluationData r = .ok verdict) ∧
        matched = matching incident.asEvaluationData pack.rules := by
  have hmatching : (pack.activeRules none).filter (isMatch incident.asEvaluationData) =
      matching incident.asEvaluationData pack.rules := by
    unfold matching
    rw [RulePack.activeRules, RulePack.filter_sortRules, List.filter_filter]
    simp only [Bool.and_comm]
  have hall : (∀ r ∈ pack.activeRules none, ∃ verdict, judge incident.asEvaluationData r = .ok verdict) ↔
      ∀ r ∈ pack.rules, r.isActive = true → ∃ verdict, judge incident.asEvaluationData r = .ok verdict := by
    simp only [RulePack.mem_activeRules, and_imp]
  rw [← hmatching, ← hall, ← matchedRules_ok_iff, matchedRules, Except.map_ok_iff]
  constructor
  · intro h
    obtain ⟨rejected, h⟩ := h
    exact ⟨_, h, rfl⟩
  · intro h
    obtain ⟨⟨matched', rejected⟩, h, rfl⟩ := h
    exact ⟨rejected, h⟩

end PolicyEngine

/-! ## The compliance pass -/

namespace ComplianceApplier

/-- The compliance rule applies. -/
def applies (data : PyVal) (rule : Rule) : Bool :=
  match rule.conditions.isSatisfiedBy data with
  | .ok satisfied => satisfied
  | .error _ => false

/-- What a rule that applies is listed with. -/
def constraint (rule : Rule) : ComplianceConstraint := ⟨rule.ruleCode, rule.name, rule.actions⟩

/-- The actions after some compliance rules. -/
def narrow (actions : Dict String PyVal) (rules : List Rule) : Dict String PyVal :=
  rules.foldl (fun actions rule => actions.update rule.actions) actions

/-- What the last of some rules to write a field writes. -/
def lastWritten (field : String) (rules : List Rule) : Option PyVal :=
  rules.reverse.findSome? fun rule => rule.actions.get? field

theorem get?_narrow (actions : Dict String PyVal) (rules : List Rule) (f : String) :
    (narrow actions rules).get? f = (lastWritten f rules).or (actions.get? f) := by
  unfold narrow lastWritten
  induction rules generalizing actions with
  | nil => rfl
  | cons rule rest ih =>
    rw [List.foldl_cons, ih, Dict.get?_update, List.reverse_cons, List.findSome?_append,
      List.findSome?_singleton, Option.or_assoc]

theorem applyRules_ok_iff {data : PyVal} {rules : List Rule} {actions actions' : Dict String PyVal}
    {constraints constraints' : List ComplianceConstraint} :
    applyRules data actions constraints rules = .ok (actions', constraints') ↔
      (∀ r ∈ rules, ∃ satisfied, r.conditions.isSatisfiedBy data = .ok satisfied) ∧
        actions' = narrow actions (rules.filter (applies data)) ∧
        constraints' = constraints ++ (rules.filter (applies data)).map constraint := by
  induction rules generalizing actions constraints with
  | nil =>
    rw [List.filter_nil, List.map_nil, List.append_nil]
    constructor
    · intro h
      cases h
      exact ⟨fun _ hr => absurd hr List.not_mem_nil, rfl, rfl⟩
    · intro h
      obtain ⟨-, rfl, rfl⟩ := h
      rfl
  | cons rule rest ih =>
    rw [applyRules, Except.bind_ok_iff, List.forall_mem_cons, List.filter_cons]
    have happlies : ∀ satisfied, rule.conditions.isSatisfiedBy data = .ok satisfied →
        applies data rule = satisfied := by
      intro satisfied h
      unfold applies
      rw [h]
    constructor
    · intro h
      obtain ⟨satisfied, hsatisfied, h⟩ := h
      rw [happlies satisfied hsatisfied]
      cases satisfied with
      | true =>
        obtain ⟨hall, hactions, hconstraints⟩ := ih.mp h
        refine ⟨⟨⟨true, hsatisfied⟩, hall⟩, hactions, ?_⟩
        rw [hconstraints, List.append_assoc]
        rfl
      | false =>
        obtain ⟨hall, hactions, hconstraints⟩ := ih.mp h
        exact ⟨⟨⟨false, hsatisfied⟩, hall⟩, hactions, hconstraints⟩
    · intro h
      obtain ⟨⟨⟨satisfied, hsatisfied⟩, hall⟩, hactions, hconstraints⟩ := h
      refine ⟨satisfied, hsatisfied, ?_⟩
      rw [happlies satisfied hsatisfied] at hactions hconstraints
      cases satisfied with
      | true =>
        refine ih.mpr ⟨hall, hactions, ?_⟩
        rw [hconstraints, List.append_assoc]
        rfl
      | false => exact ih.mpr ⟨hall, hactions, hconstraints⟩

/-- The compliance rules of a list that are active and apply, in the order of application. -/
def applying (data : PyVal) (rules : List Rule) : List Rule :=
  RulePack.sortRules (rules.filter fun r =>
    r.isActive && r.family == PolicyEngine.complianceFamily && applies data r)

theorem mem_applying {data : PyVal} {rules : List Rule} {r : Rule} :
    r ∈ applying data rules ↔
      r ∈ rules ∧ r.isActive = true ∧ r.family = PolicyEngine.complianceFamily ∧
        r.conditions.isSatisfiedBy data = .ok true := by
  have happlies : applies data r = true ↔ r.conditions.isSatisfiedBy data = .ok true := by
    unfold applies
    split
    · rename_i h
      rw [h]
      simp
    · rename_i h
      rw [h]
      simp
  rw [applying, RulePack.mem_sortRules, List.mem_filter, Bool.and_eq_true, Bool.and_eq_true, beq_iff_eq,
    happlies, and_assoc]

theorem apply_ok_iff {pack : RulePack} {incident : Incident} {actions actions' : Dict String PyVal}
    {constraints : List ComplianceConstraint} :
    apply pack incident actions = .ok (actions', constraints) ↔
      (∀ r ∈ pack.rules, r.isActive = true → r.family = PolicyEngine.complianceFamily →
        ∃ satisfied, r.conditions.isSatisfiedBy incident.asEvaluationData = .ok satisfied) ∧
      actions' = narrow actions (applying incident.asEvaluationData pack.rules) ∧
      constraints = (applying incident.asEvaluationData pack.rules).map constraint := by
  have happlying : (pack.activeRules (some PolicyEngine.complianceFamily)).filter
      (applies incident.asEvaluationData) = applying incident.asEvaluationData pack.rules := by
    unfold applying
    simp only [RulePack.activeRules]
    rw [RulePack.filter_sortRules, List.filter_filter, List.filter_filter]
    congr 1
    apply List.filter_congr
    intro r _
    rw [Bool.and_comm, Bool.and_comm (applies _ _), Bool.and_assoc]
  unfold apply
  rw [applyRules_ok_iff, happlying, List.nil_append]
  simp only [RulePack.mem_activeRules_family, and_imp]

end ComplianceApplier

/-! ## The run -/

namespace PipelineOrchestrator

/-- A run completes when its stages do, and its decision is what they give. -/
theorem run_ok_iff {matrix : Option SlaMatrix} {incident : Incident} {pack : RulePack}
    {decision : Decision} :
    run matrix incident pack = .ok decision ↔
      ∃ matched rejected resolution actions constraints final plan confidence,
        PolicyEngine.evaluate pack incident = .ok (matched, rejected) ∧
        ConflictResolver.resolve matched = .ok resolution ∧
        ComplianceApplier.apply pack incident resolution.actions = .ok (actions, constraints) ∧
        fillSla matrix incident actions = .ok final ∧
        ExecutionPlanBuilder.build final matched = .ok plan ∧
        ConfidenceCalculator.compute (totalSources incident) (degradedSources incident) =
          .ok confidence ∧
        decision = {
          incidentId := incident.incidentId
          priority := (final.get? "priority").getD .none
          riskScore := RiskScorer.total matched (resolution.suppressed.map SuppressedEntry.ruleCode)
          riskBand := RiskScorer.band
            (RiskScorer.total matched (resolution.suppressed.map SuppressedEntry.ruleCode))
          actions := final
          mitigations := resolution.mitigations
          executionPlan := plan
          matchedRules := ExplainabilityBuilder.matchedTrace matched
          rejectedRules := rejected
          suppressedRules := resolution.suppressed
          complianceConstraints := constraints
          confidenceScore := confidence
          degradedContext := incident.degradedContext
          explanation := ExplainabilityBuilder.build matched
            (RiskScorer.total matched (resolution.suppressed.map SuppressedEntry.ruleCode))
            (RiskScorer.band
              (RiskScorer.total matched (resolution.suppressed.map SuppressedEntry.ruleCode))) final } := by
  unfold run
  constructor
  · intro h
    obtain ⟨⟨matched, rejected⟩, hmatched, h⟩ := Except.bind_ok_iff.mp h
    obtain ⟨resolution, hresolve, h⟩ := Except.bind_ok_iff.mp h
    obtain ⟨⟨actions, constraints⟩, hcompliance, h⟩ := Except.bind_ok_iff.mp h
    obtain ⟨final, hfill, h⟩ := Except.bind_ok_iff.mp h
    obtain ⟨plan, hplan, h⟩ := Except.bind_ok_iff.mp h
    obtain ⟨confidence, hconfidence, h⟩ := Except.bind_ok_iff.mp h
    rw [Except.pure_ok_iff] at h
    exact ⟨matched, rejected, resolution, actions, constraints, final, plan, confidence, hmatched,
      hresolve, hcompliance, hfill, hplan, hconfidence, h.symm⟩
  · rintro ⟨matched, rejected, resolution, actions, constraints, final, plan, confidence, hmatched,
      hresolve, hcompliance, hfill, hplan, hconfidence, rfl⟩
    simp only [hmatched, hresolve, hcompliance, hfill, hplan, hconfidence, bind, Except.bind]
    rfl

end PipelineOrchestrator

end PulseGuard
