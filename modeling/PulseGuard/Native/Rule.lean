import Mathlib.Data.List.Sort
import Mathlib.Data.Prod.Lex
import PulseGuard.Native.Engine

/-!
# Rules and rule packs

`RuleCondition`, `Rule`, `RulePack` and the lifecycle table of `RulePack.status`
(`app/domain/entities/rule.py`, `rule_pack.py`, `app/domain/value_objects/rule_condition.py`).
-/

namespace PulseGuard

/-- An identifier drawn by `uuid.uuid4()`. The model draws them from a counter, so that
    a new one differs from every earlier one. -/
abbrev Uuid := Nat

/-- A condition tree wrapped for the engine. -/
structure RuleCondition where
  tree : PyVal

namespace RuleCondition

/-- `is_satisfied_by`: a `ValueError` of the engine counts as "not satisfied", every
    other exception escapes. -/
def isSatisfiedBy (condition : RuleCondition) (data : PyVal) : Except PyError Bool :=
  match RuleEngine.evaluate data condition.tree with
  | .ok result => .ok result.truthy
  | .error e => if e.isValueError then .ok false else .error e

mutual

/-- `_count_leaves` -/
def countLeaves : PyVal → Except PyError Nat
  | .dict [(operator, args)] =>
    if operator == "and" || operator == "or" then countArgs args else .ok 1
  | _ => .ok 0

/-- `sum(_count_leaves(child) for child in args)`: the characters of a string and the
    keys of a dictionary have no leaves. -/
def countArgs : PyVal → Except PyError Nat
  | .list children => countChildren children
  | .str _ => .ok 0
  | .dict _ => .ok 0
  | v => .error v.notIterable

def countChildren : List PyVal → Except PyError Nat
  | [] => .ok 0
  | child :: rest => do return (← countLeaves child) + (← countChildren rest)

end

/-- `specificity` -/
def specificity (condition : RuleCondition) : Except PyError Nat := countLeaves condition.tree

end RuleCondition

/-- `Rule` -/
structure Rule where
  ruleCode : String
  name : String
  description : String
  family : String
  familyOrder : Int
  priorityWeight : Int
  severityBand : Option String
  contributionScore : Option Int
  conditions : RuleCondition
  exceptions : Option RuleCondition
  conflictGroup : Option String
  conflictsWith : List String
  isSuppressor : Bool
  nonSuppressible : Bool
  cooldownMinutes : Int
  actions : Dict String PyVal
  mitigations : Dict String PyVal
  sequencing : Option (Dict String PyVal)
  slaTarget : Option String
  ruleStatus : String
  enabled : Bool
  id : Option Uuid

namespace Rule

/-- `is_active` -/
def isActive (rule : Rule) : Bool := rule.enabled && rule.ruleStatus == "ACTIVE"

/-- The key `active_rules` sorts by: `(family_order, -priority_weight)`. -/
def sortKey (rule : Rule) : Int ×ₗ Int := toLex (rule.familyOrder, -rule.priorityWeight)

end Rule

/-- The lifecycle states of a pack. The field is a plain string in the source: `shadow`
    is what promotion to shadow writes, `other` every further string. -/
inductive PackStatus where
  | draft | published | active | deprecated | archived | shadow
  | other (status : String)
deriving DecidableEq

namespace PackStatus

/-- The string stored in `RulePack.status`. -/
def text : PackStatus → String
  | draft => "draft"
  | published => "published"
  | active => "active"
  | deprecated => "deprecated"
  | archived => "archived"
  | shadow => "shadow"
  | other status => status

/-- `_ALLOWED_TRANSITIONS` -/
def allowedTransitions : PackStatus → List PackStatus
  | draft => [published, archived]
  | published => [active, archived, draft]
  | active => [deprecated, archived]
  | deprecated => [active, archived]
  | archived => []
  | shadow => []
  | other _ => []

end PackStatus

/-- `can_transition` -/
def canTransition (current target : PackStatus) : Bool :=
  current.allowedTransitions.contains target

/-- `RulePack` -/
structure RulePack where
  name : String
  version : Int
  status : PackStatus
  region : Option String
  rules : List Rule
  parentVersion : Option Int
  id : Option Uuid
  tenantId : Option String
  createdBy : String
  lockVersion : Nat

namespace RulePack

/-- `sorted(rules, key=lambda r: (r.family_order, -r.priority_weight))`, which is stable. -/
def sortRules (rules : List Rule) : List Rule :=
  rules.insertionSort fun a b => a.sortKey ≤ b.sortKey

/-- `active_rules` -/
def activeRules (pack : RulePack) (family : Option String) : List Rule :=
  let rules := pack.rules.filter Rule.isActive
  let rules := match family with
    | none => rules
    | some family => rules.filter fun r => r.family == family
  sortRules rules

theorem mem_sortRules {rules : List Rule} {rule : Rule} : rule ∈ sortRules rules ↔ rule ∈ rules :=
  List.mem_insertionSort _

theorem mem_activeRules {pack : RulePack} {rule : Rule} :
    rule ∈ pack.activeRules none ↔ rule ∈ pack.rules ∧ rule.isActive = true := by
  rw [activeRules, mem_sortRules, List.mem_filter]

theorem mem_activeRules_family {pack : RulePack} {family : String} {rule : Rule} :
    rule ∈ pack.activeRules (some family) ↔
      rule ∈ pack.rules ∧ rule.isActive = true ∧ rule.family = family := by
  rw [activeRules, mem_sortRules, List.mem_filter, List.mem_filter, beq_iff_eq, and_assoc]

end RulePack

end PulseGuard
