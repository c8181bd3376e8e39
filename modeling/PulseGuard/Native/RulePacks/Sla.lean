import PulseGuard.Native.Pipeline
import PulseGuard.Native.RulePacks.Base

/-!
# The customer SLA rules

`customer_sla_rules_telecom.json`, transpiled to rules, and its SLA matrix
(`app/infrastructure/repositories/sla_rule_pack_loader.py`).
-/

namespace PulseGuard

namespace SlaRulePack

open Fixture

/-- One condition of the source format. -/
structure Condition where
  field : String
  operator : String
  value : PyVal

/-- One rule of the source format, with the keys the loader reads; `weight` is the
    `weight` of `onMatch`. -/
structure SlaRule where
  id : String
  name : String
  description : String
  conditions : List Condition
  logicalOperator : String
  weight : Int := 0
  weightTable : List (String × Int) := []

/-- `_OPERATOR_MAP` -/
def operatorMap : List (String × String) :=
  [("equals", "=="), ("notEquals", "!="), ("in", "in"), ("greaterThan", ">"),
    ("greaterThanOrEqual", ">="), ("lessThan", "<"), ("lessThanOrEqual", "<=")]

/-- The value of a condition: a text `field * number` stands for a product. -/
def conditionValue (value : PyVal) : Except PyError PyVal :=
  match value with
  | .str text =>
    if PyStr.contains text "*" then
      let (fieldName, multiplier) := PyStr.partition '*' text
      match PyFloat.parse? (PyStr.strip multiplier) with
      | some x => .ok (node "*" [var (PyStr.strip fieldName), .float x])
      | none => .error (.valueError ("could not convert string to float: " ++ PyVal.reprStr text))
    else .ok (.str text)
  | v => .ok v

/-- `_condition_node` -/
def conditionNode (cond : Condition) : Except PyError PyVal := do
  match Assoc.get? cond.operator operatorMap with
  | none => .error (.valueError ("Unsupported condition operator '" ++ cond.operator ++
      "' in customer_sla_rules_telecom.json"))
  | some op => return node op [var cond.field, ← conditionValue cond.value]

/-- `_conditions_to_jsonlogic` -/
def conditionsToJsonlogic (conditions : List Condition) (logicalOperator : String) :
    Except PyError PyVal := do
  let nodes ← conditions.mapM conditionNode
  match nodes with
  | [n] => return n
  | nodes => return node (if PyStr.upper logicalOperator == "AND" then "and" else "or") nodes

/-- `_rule`, with the defaults it supplies. -/
def rule (r : SlaRule) (code name family : String) (familyOrder priorityWeight : Int)
    (severityBand : Option String) (contributionScore : Option Int) (conditions : PyVal)
    (actions : List (String × PyVal)) (nonSuppressible isSuppressor : Bool)
    (conflictGroup : Option String) : Rule where
  ruleCode := code
  name := name
  description := r.description
  family := family
  familyOrder := familyOrder
  priorityWeight := priorityWeight
  severityBand := severityBand
  contributionScore := contributionScore
  conditions := ⟨conditions⟩
  exceptions := none
  conflictGroup := conflictGroup
  conflictsWith := []
  isSuppressor := isSuppressor
  nonSuppressible := nonSuppressible
  cooldownMinutes := 0
  actions := Dict.ofList actions
  mitigations := Dict.empty
  sequencing := none
  slaTarget := none
  ruleStatus := "ACTIVE"
  enabled := true
  id := none

/-- `SLA-RULE-001` -/
def slaRule001 : SlaRule :=
  { id := "SLA-RULE-001", name := "Platinum Tier Critical Escalation",
    description :=
      "Any incident affecting a Platinum-tier customer's core service is auto-escalated " ++
        "regardless of raw severity score",
    conditions := [⟨"customerTier", "equals", .str "PLATINUM"⟩, ⟨"affectedLayer", "in",
      .list [.str "CORE", .str "TRANSPORT"]⟩],
    logicalOperator := "AND" }

/-- `SLA-RULE-002` -/
def slaRule002 : SlaRule :=
  { id := "SLA-RULE-002", name := "Customer Tier Base Weight",
    description := "Assigns a base priority weight according to customer tier",
    conditions := [⟨"customerTier", "in", .list [.str "PLATINUM", .str "GOLD", .str "SILVER",
      .str "BRONZE", .str "RESIDENTIAL"]⟩],
    logicalOperator := "AND",
    weightTable := [("PLATINUM", 40), ("GOLD", 30), ("SILVER", 20), ("BRONZE", 10),
      ("RESIDENTIAL", 5)] }

/-- `SLA-RULE-003` -/
def slaRule003 : SlaRule :=
  { id := "SLA-RULE-003", name := "Affected Customer Count Multiplier",
    description := "Incidents impacting a large number of customers receive a scaling multiplier",
    conditions := [⟨"affectedCustomerCount", "greaterThanOrEqual", .int 1000⟩],
    logicalOperator := "AND", weight := 35 }

/-- `SLA-RULE-004` -/
def slaRule004 : SlaRule :=
  { id := "SLA-RULE-004", name := "Contractual SLA Breach Risk",
    description :=
      "Flags incidents at risk of breaching the customer's contracted SLA response window",
    conditions := [⟨"minutesSinceIncidentOpened", "greaterThanOrEqual",
      .str "slaResponseMinutes * 0.8"⟩],
    logicalOperator := "AND", weight := 25 }

/-- `SLA-RULE-005` -/
def slaRule005 : SlaRule :=
  { id := "SLA-RULE-005", name := "Business-Critical Service Type",
    description :=
      "Boosts priority for services tied to business-critical customer operations (e.g. " ++
        "enterprise leased lines, hospital connectivity)",
    conditions := [⟨"isBusinessCriticalService", "equals", .bool true⟩],
    logicalOperator := "AND", weight := 20 }

/-- `SLA-RULE-006` -/
def slaRule006 : SlaRule :=
  { id := "SLA-RULE-006", name := "Repeat Incident Penalty",
    description :=
      "Increases priority for customers with repeated unresolved incidents within a rolling " ++
        "window, to prevent chronic issues being deprioritized",
    conditions := [⟨"incidentCountLast30Days", "greaterThanOrEqual", .int 3⟩],
    logicalOperator := "AND", weight := 15 }

/-- `SLA-RULE-007` -/
def slaRule007 : SlaRule :=
  { id := "SLA-RULE-007", name := "Maintenance Window Suppression",
    description :=
      "Suppresses or downgrades incident priority if it falls within a pre-approved planned " ++
        "maintenance window",
    conditions := [⟨"isDuringPlannedMaintenance", "equals", .bool true⟩, ⟨"customerTier",
      "notEquals", .str "PLATINUM"⟩],
    logicalOperator := "AND", weight := (-100) }

/-- `SLA-RULE-008` -/
def slaRule008 : SlaRule :=
  { id := "SLA-RULE-008", name := "Regulatory / Emergency Service Line",
    description :=
      "Hard override for incidents affecting emergency services or regulatory-mandated lines " ++
        "(e.g. E911, public safety)",
    conditions := [⟨"isEmergencyServiceLine", "equals", .bool true⟩],
    logicalOperator := "AND" }

/-- The rules `SLA-RULE-002` expands into, one for each tier of its weight table. -/
def tierRules : List Rule :=
  slaRule002.weightTable.map fun (tier, weight) =>
    rule slaRule002 (slaRule002.id ++ "-" ++ tier) (slaRule002.name ++ " (" ++ tier ++ ")")
      "CUSTOMER_VALUE" 3 10 none (some weight) (node "==" [var "customerTier", .str tier]) []
      false false none

/-- `load_sla_rules` -/
def loadSlaRules : Except PyError (List Rule) := do
  let conditions (r : SlaRule) := conditionsToJsonlogic r.conditions r.logicalOperator
  let c8 ← conditions slaRule008
  let c1 ← conditions slaRule001
  let c3 ← conditions slaRule003
  let c4 ← conditions slaRule004
  let c5 ← conditions slaRule005
  let c6 ← conditions slaRule006
  let c7 ← conditions slaRule007
  return [
    rule slaRule008 slaRule008.id slaRule008.name "SAFETY_REGULATORY" 1 100 (some "Critical") none
      c8 [("priority", .str "Critical"), ("dispatchEngineer", .bool true),
        ("notifyNOC", .bool true), ("regulatoryOverride", .bool true)] true false
      (some "priority"),
    rule slaRule001 slaRule001.id slaRule001.name "CUSTOMER_VALUE" 3 88 (some "Critical") none
      c1 [("priority", .str "Critical"), ("notifyAccountManager", .bool true)] false false
      (some "priority")] ++ tierRules ++ [
    rule slaRule003 slaRule003.id slaRule003.name "NETWORK_IMPACT" 2 15 none
      (some slaRule003.weight) c3 [] false false none,
    rule slaRule004 slaRule004.id slaRule004.name "CUSTOMER_VALUE" 3 20 none
      (some slaRule004.weight) c4
      [("priorityBumpOneLevel", .bool true), ("slaBreachImminent", .bool true)] false false none,
    rule slaRule005 slaRule005.id slaRule005.name "CUSTOMER_VALUE" 3 10 none
      (some slaRule005.weight) c5 [] false false none,
    rule slaRule006 slaRule006.id slaRule006.name "REPETITION_ESCALATION" 6 10 none
      (some slaRule006.weight) c6 [("chronicCustomerFlag", .bool true)] false false none,
    rule slaRule007 slaRule007.id slaRule007.name "SUPPRESSION" 7 90 none
      (some slaRule007.weight) c7
      [("dispatchEngineer", .bool false), ("customerNotification", .bool false)] false true
      (some "dispatch-suppression")]

/-- `load_sla_matrix`: the rows by customer tier. The matrix also holds a text under
    `description`, a key that no tier in upper case can equal. -/
def loadSlaMatrix : SlaMatrix := Dict.ofList [
  ("PLATINUM", Dict.ofList [
    ("SEV1_CRITICAL", ⟨15, 240⟩),
    ("SEV2_MAJOR", ⟨30, 480⟩),
    ("SEV3_MINOR", ⟨120, 1440⟩),
    ("SEV4_INFORMATIONAL", ⟨480, 4320⟩)]),
  ("GOLD", Dict.ofList [
    ("SEV1_CRITICAL", ⟨30, 360⟩),
    ("SEV2_MAJOR", ⟨60, 720⟩),
    ("SEV3_MINOR", ⟨240, 2160⟩),
    ("SEV4_INFORMATIONAL", ⟨960, 5760⟩)]),
  ("SILVER", Dict.ofList [
    ("SEV1_CRITICAL", ⟨60, 480⟩),
    ("SEV2_MAJOR", ⟨120, 1440⟩),
    ("SEV3_MINOR", ⟨480, 2880⟩),
    ("SEV4_INFORMATIONAL", ⟨1440, 7200⟩)]),
  ("BRONZE", Dict.ofList [
    ("SEV1_CRITICAL", ⟨120, 720⟩),
    ("SEV2_MAJOR", ⟨240, 1920⟩),
    ("SEV3_MINOR", ⟨720, 4320⟩),
    ("SEV4_INFORMATIONAL", ⟨2880, 10080⟩)]),
  ("RESIDENTIAL", Dict.ofList [
    ("SEV1_CRITICAL", ⟨240, 1440⟩),
    ("SEV2_MAJOR", ⟨480, 2880⟩),
    ("SEV3_MINOR", ⟨1440, 7200⟩),
    ("SEV4_INFORMATIONAL", ⟨4320, 14400⟩)])]

end SlaRulePack

end PulseGuard
