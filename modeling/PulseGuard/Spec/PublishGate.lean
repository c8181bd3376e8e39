import PulseGuard.Native.ValidateRulePack
import PulseGuard.Spec.ConflictResolverTotal
import PulseGuard.Spec.PipelineCorrect

/-!
# The publish gate

`ValidateRulePackUseCase` stands in front of publishing. It counts the leaves of the
conditions trees and checks the declared conflicts; it never looks at operators, arities,
exceptions or action values. `RunsClean` says what a pack should be like for the pipeline
to run without surprises, and `runsClean_iff` that this is the absence of the defects that
`ruleDefects` computes. `gate_sound_iff` says on which packs the gate keeps its promise.
-/

namespace PulseGuard

/-- A pack the pipeline can run on any incident: active rules with well-formed trees and
    usable actions, an evaluation that meets no unknown operator and no malformed node, a
    resolution and a plan that never raise. -/
structure RunsClean (pack : RulePack) : Prop where
  trees : ∀ rule ∈ pack.rules, rule.isActive = true →
    WellFormed rule.conditions.tree ∧ ∀ x, rule.exceptions = some x → WellFormed x.tree
  actions : ∀ rule ∈ pack.rules, rule.isActive = true → UsableActions rule
  evaluation : ∀ rule ∈ pack.rules, rule.isActive = true → ∀ (incident : Incident) (e : PyError),
    (RuleEngine.evaluate incident.asEvaluationData rule.conditions.tree = .error e →
      e.isValueError = false) ∧
    ∀ x, rule.exceptions = some x →
      RuleEngine.evaluate incident.asEvaluationData x.tree = .error e → e.isValueError = false
  resolution : ∀ (incident : Incident) matched rejected,
    PolicyEngine.evaluate pack incident = .ok (matched, rejected) →
      (∃ res, ConflictResolver.resolve matched = .ok res) ∧
      ∀ actions, ∃ plan, ExecutionPlanBuilder.build actions matched = .ok plan

/-! ## The defects of a rule -/

/-- The field of a rule's actions that is not on the priority scale. -/
def priorityDefects (rule : Rule) (field : String) : List Defect :=
  match rule.actions.get? field with
  | none => []
  | some (.str s) => if ConflictResolver.order.contains s then [] else [.priority (.str s)]
  | some v => [.priority v]

/-- The field of a rule's actions that is no duration. -/
def durationDefects (rule : Rule) (field : String) : List Defect :=
  match rule.actions.get? field with
  | none => []
  | some v => match ConflictResolver.parseDurationMinutes v with
    | .ok _ => []
    | .error _ => [.duration field v]

/-- The keys a non-empty `sequencing` lacks, or holds with a value that has no hash. -/
def sequencingDefects (rule : Rule) : List Defect :=
  match rule.sequencing.filter (!·.isEmpty) with
  | none => []
  | some seq => ["tryFirst", "fallbackTo"].flatMap fun key =>
    if ((seq.get? key).map PyVal.hashable).getD false then [] else [.sequencing key]

/-- Everything that can go wrong when the pipeline runs a rule. -/
def ruleDefects (rule : Rule) : List Defect :=
  RuleCondition.treeDefects rule.conditions.tree ++
    (rule.exceptions.map fun x => RuleCondition.treeDefects x.tree).getD [] ++
    ["priority", "priorityFloor"].flatMap (priorityDefects rule) ++
    ["targetSLA", "slaTarget"].flatMap (durationDefects rule) ++
    sequencingDefects rule

private theorem priorityDefects_eq_nil_iff (rule : Rule) (field : String) :
    priorityDefects rule field = [] ↔ ∀ v, rule.actions.get? field = some v →
      ∃ s ∈ ConflictResolver.order, v = .str s := by
  unfold priorityDefects
  cases hget : rule.actions.get? field with
  | none => simp
  | some v =>
    cases v with
    | str s =>
      by_cases hs : s ∈ ConflictResolver.order
      · simp [hs]
      · simp [hs]
    | _ => simp

private theorem durationDefects_eq_nil_iff (rule : Rule) (field : String) :
    durationDefects rule field = [] ↔ ∀ v, rule.actions.get? field = some v →
      ∃ n, ConflictResolver.parseDurationMinutes v = .ok n := by
  unfold durationDefects
  cases hget : rule.actions.get? field with
  | none => simp
  | some v =>
    cases hparse : ConflictResolver.parseDurationMinutes v with
    | ok n => simp [hparse]
    | error e => simp [hparse]

private theorem sequencingDefects_eq_nil_iff (rule : Rule) :
    sequencingDefects rule = [] ↔ ∀ seq, rule.sequencing = some seq → seq.isEmpty = false →
      ∀ key ∈ ["tryFirst", "fallbackTo"], ∃ v, seq.get? key = some v ∧ v.hashable = true := by
  have hkey (seq : Dict String PyVal) (key : String) :
      ((seq.get? key).map PyVal.hashable).getD false = true ↔
        ∃ v, seq.get? key = some v ∧ v.hashable = true := by
    cases seq.get? key <;> simp
  unfold sequencingDefects
  cases hseq : rule.sequencing with
  | none => simp
  | some seq =>
    by_cases hempty : seq.isEmpty = true
    · simp [Option.filter, hempty]
    · simp [Option.filter, hempty, hkey]

/-- A rule without defects is one with well-formed trees and usable actions. -/
theorem ruleDefects_eq_nil_iff (rule : Rule) :
    ruleDefects rule = [] ↔
      (WellFormed rule.conditions.tree ∧ ∀ x, rule.exceptions = some x → WellFormed x.tree) ∧
        UsableActions rule := by
  have hexceptions : (rule.exceptions.map fun x => RuleCondition.treeDefects x.tree).getD [] = [] ↔
      ∀ x, rule.exceptions = some x → WellFormed x.tree := by
    cases rule.exceptions with
    | none => simp
    | some x => simp [RuleCondition.treeDefects_eq_nil_iff]
  have husable : UsableActions rule ↔
      (∀ field ∈ ["priority", "priorityFloor"], priorityDefects rule field = []) ∧
      (∀ field ∈ ["targetSLA", "slaTarget"], durationDefects rule field = []) ∧
      sequencingDefects rule = [] := by
    simp only [priorityDefects_eq_nil_iff, durationDefects_eq_nil_iff,
      sequencingDefects_eq_nil_iff]
    exact ⟨fun h => ⟨h.priority, h.duration, h.sequencing⟩, fun ⟨p, d, s⟩ => ⟨p, d, s⟩⟩
  simp only [ruleDefects, List.append_eq_nil_iff, RuleCondition.treeDefects_eq_nil_iff,
    hexceptions, List.flatMap_eq_nil_iff, husable, and_assoc]

/-! ## Clean packs -/

/-- Well-formed trees and usable actions are all it takes: the engine then raises no
    `ValueError`, and neither resolution nor plan building raises at all. -/
theorem runsClean_iff (pack : RulePack) :
    RunsClean pack ↔ ∀ rule ∈ pack.rules, rule.isActive = true → ruleDefects rule = [] := by
  constructor
  · intro h rule hmem hactive
    exact (ruleDefects_eq_nil_iff rule).mpr ⟨h.trees rule hmem hactive, h.actions rule hmem hactive⟩
  · intro h
    have hclean := fun rule hmem hactive =>
      (ruleDefects_eq_nil_iff rule).mp (h rule hmem hactive)
    refine ⟨fun r hr ha => (hclean r hr ha).1, fun r hr ha => (hclean r hr ha).2, ?_, ?_⟩
    · intro rule hmem hactive incident e
      obtain ⟨⟨hconditions, hexceptions⟩, -⟩ := hclean rule hmem hactive
      refine ⟨fun he => RuleEngine.evaluate_wellFormed hconditions he, ?_⟩
      intro x hx he
      exact RuleEngine.evaluate_wellFormed (hexceptions x hx) he
    · intro incident matched rejected heval
      -- Every matched rule is an active rule of the pack.
      have hmatched : ∀ r ∈ matched, UsableActions r ∧
          ∃ n, r.conditions.specificity = .ok n := by
        intro r hr
        rw [(PolicyEngine.evaluateRules_ok heval).2, RulePack.mem_activeRules] at hr
        obtain ⟨⟨hconditions, -⟩, husable⟩ := hclean r hr.1.1 hr.1.2
        exact ⟨husable, RuleCondition.countLeaves_wellFormed hconditions⟩
      exact ⟨ConflictResolver.resolve_total hmatched,
        fun actions => ExecutionPlanBuilder.build_total (fun r hr => (hmatched r hr).1) actions⟩

/-! ## What the gate turns away -/

/-- A declared conflict the gate turns a pack away for: the code belongs to no rule of the
    pack, or to one of the same conflict group that nothing resolves the conflict with. -/
def BadConflict (rules : List Rule) (rule : Rule) (code : String) : Prop :=
  ∀ other, ValidateRulePackUseCase.byCode rules code = some other →
    ValidateRulePackUseCase.sharesGroup rule other = true ∧
      ValidateRulePackUseCase.eitherResolvesIt rule other = false

/-- The packs the gate turns away: no rules, a conditions tree with an `and` or `or` over
    something that has no items, or a bad conflict. -/
def TurnedAway (rules : List Rule) : Prop :=
  rules = [] ∨ ∃ rule ∈ rules, (∃ e, rule.conditions.specificity = .error e) ∨
    ∃ code ∈ rule.conflictsWith, BadConflict rules rule code

theorem not_isValid_iff (pack : RulePack) :
    ¬ (ValidateRulePackUseCase.execute pack).isValid = true ↔ TurnedAway pack.rules := by
  rw [ValidateRulePackUseCase.execute, ValidateRulePackUseCase.executeOn_isValid_iff, not_and_or,
    not_not, TurnedAway]
  have hspec (rule : Rule) : (¬ ∃ n, rule.conditions.specificity = .ok n) ↔
      ∃ e, rule.conditions.specificity = .error e := by
    cases rule.conditions.specificity <;> simp
  have hconflict (rule : Rule) (code : String) : (¬ ∃ other,
      ValidateRulePackUseCase.byCode pack.rules code = some other ∧
        (ValidateRulePackUseCase.sharesGroup rule other = true →
          ValidateRulePackUseCase.eitherResolvesIt rule other = true)) ↔
      BadConflict pack.rules rule code := by
    simp only [BadConflict, not_exists, not_and, Classical.not_imp, Bool.not_eq_true]
  simp only [not_forall, not_and_or, hspec, hconflict, exists_prop]

/-- The gate keeps its promise on exactly the packs that it turns away and those whose
    active rules have no defect. -/
theorem gate_sound_iff (pack : RulePack) :
    ((ValidateRulePackUseCase.execute pack).isValid = true → RunsClean pack) ↔
      TurnedAway pack.rules ∨
        ∀ rule ∈ pack.rules, rule.isActive = true → ruleDefects rule = [] := by
  rw [← not_isValid_iff, ← runsClean_iff, imp_iff_not_or]

/-- A rule with an operator that no evaluator is registered for, a priority off the scale
    and a target that is no duration. -/
def unknownOperatorRule : Rule where
  ruleCode := "R100"
  name := "Core host"
  description := ""
  family := "NETWORK_IMPACT"
  familyOrder := 2
  priorityWeight := 50
  severityBand := none
  contributionScore := none
  conditions := ⟨.dict [("startsWith", .list [.dict [("var", .str "host")], .str "core"])]⟩
  exceptions := none
  conflictGroup := none
  conflictsWith := []
  isSuppressor := false
  nonSuppressible := false
  cooldownMinutes := 0
  actions := Dict.ofList [("priority", .str "Urgent"), ("targetSLA", .str "soon")]
  mitigations := Dict.empty
  sequencing := none
  slaTarget := none
  ruleStatus := "ACTIVE"
  enabled := true
  id := none

/-- The draft with that rule only. -/
def unknownOperatorPack : RulePack where
  name := "noc-default"
  version := 4
  status := .draft
  region := none
  rules := [unknownOperatorRule]
  parentVersion := none
  id := none
  tenantId := none
  createdBy := "system"
  lockVersion := 1

/-- The gate accepts the draft, and its rule is not one the pipeline can run. -/
theorem gate_unsound :
    ¬ ∀ pack : RulePack, (ValidateRulePackUseCase.execute pack).isValid = true →
      RunsClean pack := by
  intro h
  have hclean := (runsClean_iff _).mp (h unknownOperatorPack (by decide))
  have hdefects := hclean unknownOperatorRule List.mem_cons_self (by decide)
  have hsome : (ruleDefects unknownOperatorRule).isEmpty = false := by decide
  rw [hdefects] at hsome
  cases hsome

end PulseGuard
