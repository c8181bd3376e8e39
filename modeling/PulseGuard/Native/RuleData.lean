import PulseGuard.Native.Rule

/-!
# Rules as JSON payloads

`_rule_to_json` and `_rule_from_json`
(`app/application/use_cases/rule_pack_lifecycle.py`). A payload is a dictionary with the
keys of `_rule_to_json`, each of which may be absent; a key whose value may be `null` has
an optional value besides. The key `id`, which `_rule_from_json` does not read, is left out.
-/

namespace PulseGuard

/-- The JSON payload of a rule. -/
structure RuleData where
  ruleCode : Option String := none
  name : Option String := none
  description : Option String := none
  family : Option String := none
  familyOrder : Option Int := none
  priorityWeight : Option Int := none
  severityBand : Option (Option String) := none
  contributionScore : Option (Option Int) := none
  conditions : Option PyVal := none
  exceptions : Option PyVal := none
  conflictGroup : Option (Option String) := none
  conflictsWith : Option (List String) := none
  isSuppressor : Option Bool := none
  nonSuppressible : Option Bool := none
  cooldownMinutes : Option Int := none
  actions : Option (Dict String PyVal) := none
  mitigations : Option (Dict String PyVal) := none
  sequencing : Option (Option (Dict String PyVal)) := none
  slaTarget : Option (Option String) := none
  ruleStatus : Option String := none
  enabled : Option Bool := none

namespace RuleData

/-- `data[key]` -/
def required (key : String) : Option α → Except PyError α
  | some v => .ok v
  | none => .error (.keyError key)

/-- `{**before, **after}` -/
def override (before after : RuleData) : RuleData where
  ruleCode := after.ruleCode <|> before.ruleCode
  name := after.name <|> before.name
  description := after.description <|> before.description
  family := after.family <|> before.family
  familyOrder := after.familyOrder <|> before.familyOrder
  priorityWeight := after.priorityWeight <|> before.priorityWeight
  severityBand := after.severityBand <|> before.severityBand
  contributionScore := after.contributionScore <|> before.contributionScore
  conditions := after.conditions <|> before.conditions
  exceptions := after.exceptions <|> before.exceptions
  conflictGroup := after.conflictGroup <|> before.conflictGroup
  conflictsWith := after.conflictsWith <|> before.conflictsWith
  isSuppressor := after.isSuppressor <|> before.isSuppressor
  nonSuppressible := after.nonSuppressible <|> before.nonSuppressible
  cooldownMinutes := after.cooldownMinutes <|> before.cooldownMinutes
  actions := after.actions <|> before.actions
  mitigations := after.mitigations <|> before.mitigations
  sequencing := after.sequencing <|> before.sequencing
  slaTarget := after.slaTarget <|> before.slaTarget
  ruleStatus := after.ruleStatus <|> before.ruleStatus
  enabled := after.enabled <|> before.enabled

end RuleData

/-- `_rule_to_json` -/
def ruleToJson (rule : Rule) : RuleData where
  ruleCode := some rule.ruleCode
  name := some rule.name
  description := some rule.description
  family := some rule.family
  familyOrder := some rule.familyOrder
  priorityWeight := some rule.priorityWeight
  severityBand := some rule.severityBand
  contributionScore := some rule.contributionScore
  conditions := some rule.conditions.tree
  exceptions := some ((rule.exceptions.map RuleCondition.tree).getD .none)
  conflictGroup := some rule.conflictGroup
  conflictsWith := some rule.conflictsWith
  isSuppressor := some rule.isSuppressor
  nonSuppressible := some rule.nonSuppressible
  cooldownMinutes := some rule.cooldownMinutes
  actions := some rule.actions
  mitigations := some rule.mitigations
  sequencing := some rule.sequencing
  slaTarget := some rule.slaTarget
  ruleStatus := some rule.ruleStatus
  enabled := some rule.enabled

/-- `_rule_from_json` -/
def ruleFromJson (data : RuleData) : Except PyError Rule := do
  return {
    ruleCode := ← RuleData.required "ruleCode" data.ruleCode
    name := ← RuleData.required "name" data.name
    description := data.description.getD ""
    family := data.family.getD "OPERATIONAL_FEASIBILITY"
    familyOrder := data.familyOrder.getD 99
    priorityWeight := data.priorityWeight.getD 50
    severityBand := data.severityBand.getD none
    contributionScore := data.contributionScore.getD none
    conditions := ⟨← RuleData.required "conditions" data.conditions⟩
    exceptions :=
      let tree := data.exceptions.getD .none
      if tree.truthy then some ⟨tree⟩ else none
    conflictGroup := data.conflictGroup.getD none
    conflictsWith := data.conflictsWith.getD []
    isSuppressor := data.isSuppressor.getD false
    nonSuppressible := data.nonSuppressible.getD false
    cooldownMinutes := data.cooldownMinutes.getD 0
    actions := data.actions.getD Dict.empty
    mitigations := data.mitigations.getD Dict.empty
    sequencing := data.sequencing.getD none
    slaTarget := data.slaTarget.getD none
    ruleStatus := data.ruleStatus.getD "ACTIVE"
    enabled := data.enabled.getD true
    id := none }

/-- A rule survives the trip through its payload, but for its id and an empty exceptions
    clause. -/
theorem ruleFromJson_ruleToJson (rule : Rule) :
    ruleFromJson (ruleToJson rule) =
      .ok { rule with exceptions := rule.exceptions.filter (·.tree.truthy), id := none } := by
  have hexceptions : (if ((rule.exceptions.map RuleCondition.tree).getD .none).truthy then
      some (RuleCondition.mk ((rule.exceptions.map RuleCondition.tree).getD .none))
      else none) = rule.exceptions.filter (·.tree.truthy) := by
    cases rule.exceptions with
    | none => rfl
    | some x => by_cases hx : x.tree.truthy = true <;> simp [Option.filter, hx]
  rw [← hexceptions]
  rfl

end PulseGuard
