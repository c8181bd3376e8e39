import PulseGuard.Native.RulePacks.Base

/-!
# The customer request rules

`customer_sla_rules_vast.json`, transpiled to rules
(`app/infrastructure/repositories/vast_rule_pack_loader.py`).
-/

namespace PulseGuard

namespace VastRulePack

open Fixture

/-- One condition of the source format. -/
structure Condition where
  field : String
  op : String
  value : PyVal

/-- The `when` part of a rule. -/
inductive When where
  | all (conditions : List Condition)
  | any (conditions : List Condition)

/-- One rule of the source format; the last four fields are its `then` part. -/
structure VastRule where
  ruleId : String
  name : String
  priority : Int
  condition : When
  enabled : Bool := true
  decision : String
  action : String
  scoreDelta : Int
  reason : String

/-- `_OPERATOR_MAP` -/
def operatorMap : List (String × String) :=
  [("equals", "=="), ("lte", "<="), ("gte", ">="), ("lt", "<"), ("gt", ">"), ("in", "in"),
    ("contains", "contains"), ("in_holiday_period", "in_holiday_period")]

/-- `_PRIORITY_OVERRIDES` -/
def priorityOverrides : List (String × Int) := [("CSR-021", 105)]

/-- `_condition_node` -/
def conditionNode (cond : Condition) : Except PyError PyVal :=
  match Assoc.get? cond.op operatorMap with
  | none => .error (.valueError ("Unsupported condition operator '" ++ cond.op ++
      "' in customer_sla_rules_vast.json"))
  | some op => .ok (node op [var cond.field, cond.value])

/-- `_when_to_jsonlogic` -/
def whenToJsonlogic (w : When) : Except PyError PyVal := do
  let (combinator, conditions) := match w with
    | .all conditions => ("and", conditions)
    | .any conditions => ("or", conditions)
  match ← conditions.mapM conditionNode with
  | [n] => return n
  | nodes => return node combinator nodes

/-- The rules of `customer_sla_rules_vast.json`. -/
def vastRules : List VastRule := [
    { ruleId := "CSR-001", name := "Enterprise Priority", priority := 100,
      condition := .all [⟨"customer.segment", "equals", .str "enterprise"⟩],
      decision := "approve", action := "escalate", scoreDelta := 30,
      reason := "Enterprise customers receive priority handling." },
    { ruleId := "CSR-002", name := "Gold Priority", priority := 95,
      condition := .all [⟨"customer.tier", "equals", .str "gold"⟩],
      decision := "approve", action := "fast_track", scoreDelta := 20,
      reason := "Gold tier customers get faster processing." },
    { ruleId := "CSR-003", name := "Platinum Priority", priority := 98,
      condition := .all [⟨"customer.tier", "equals", .str "platinum"⟩],
      decision := "approve", action := "fast_track", scoreDelta := 35,
      reason := "Platinum customers receive top priority." },
    { ruleId := "CSR-004", name := "SLA Critical Window", priority := 90,
      condition := .all [⟨"sla.hours_remaining", "lte", .int 2⟩],
      decision := "approve", action := "urgent_review", scoreDelta := 25,
      reason := "Requests near SLA expiry need urgent attention." },
    { ruleId := "CSR-005", name := "SLA Warning Window", priority := 80,
      condition := .all [⟨"sla.hours_remaining", "lte", .int 8⟩],
      decision := "review", action := "prioritize", scoreDelta := 15,
      reason := "Requests with limited SLA time should be prioritized." },
    { ruleId := "CSR-006", name := "Business Hours Processing", priority := 60,
      condition := .all [⟨"request.submitted_hour", "gte", .int 9⟩, ⟨"request.submitted_hour", "lt",
        .int 18⟩],
      decision := "approve", action := "normal_queue", scoreDelta := 5,
      reason := "Requests submitted during business hours are handled normally." },
    { ruleId := "CSR-007", name := "After Hours Delay", priority := 55,
      condition := .any [⟨"request.submitted_hour", "lt", .int 9⟩, ⟨"request.submitted_hour", "gte",
        .int 18⟩],
      decision := "review", action := "queue_for_next_day", scoreDelta := (-5),
      reason := "After-hours requests are deferred unless urgent." },
    { ruleId := "CSR-008", name := "High Severity Incident", priority := 99,
      condition := .all [⟨"request.severity", "equals", .str "critical"⟩],
      decision := "approve", action := "escalate_immediately", scoreDelta := 40,
      reason := "Critical incidents require immediate escalation." },
    { ruleId := "CSR-009", name := "Medium Severity Incident", priority := 70,
      condition := .all [⟨"request.severity", "equals", .str "medium"⟩],
      decision := "review", action := "assign_to_specialist", scoreDelta := 10,
      reason := "Medium severity incidents should be reviewed by a specialist." },
    { ruleId := "CSR-010", name := "Low Severity Incident", priority := 40,
      condition := .all [⟨"request.severity", "equals", .str "low"⟩],
      decision := "approve", action := "standard_processing", scoreDelta := 0,
      reason := "Low severity incidents can follow the standard path." },
    { ruleId := "CSR-011", name := "Repeated SLA Breach", priority := 92,
      condition := .all [⟨"customer.sla_breaches_30d", "gte", .int 2⟩],
      decision := "review", action := "manual_review", scoreDelta := (-10),
      reason := "Repeated recent SLA breaches require manual review." },
    { ruleId := "CSR-012", name := "Frequent Support Contact", priority := 65,
      condition := .all [⟨"customer.tickets_7d", "gte", .int 5⟩],
      decision := "review", action := "investigate_patterns", scoreDelta := 8,
      reason := "High ticket volume may indicate a broader issue." },
    { ruleId := "CSR-013", name := "Payment Risk Hold", priority := 85,
      condition := .all [⟨"customer.payment_status", "equals", .str "delinquent"⟩],
      decision := "deny", action := "hold_processing", scoreDelta := (-30),
      reason := "Delinquent accounts are placed on hold." },
    { ruleId := "CSR-014", name := "Verified Account Bonus", priority := 50,
      condition := .all [⟨"customer.verified", "equals", .bool true⟩],
      decision := "approve", action := "increase_trust", scoreDelta := 12,
      reason := "Verified customers receive a trust bonus." },
    { ruleId := "CSR-015", name := "Unverified Account Review", priority := 72,
      condition := .all [⟨"customer.verified", "equals", .bool false⟩],
      decision := "review", action := "manual_check", scoreDelta := (-8),
      reason := "Unverified accounts need manual check." },
    { ruleId := "CSR-016", name := "Large Amount Threshold", priority := 88,
      condition := .all [⟨"request.amount", "gt", .int 100000⟩],
      decision := "review", action := "high_value_review", scoreDelta := (-5),
      reason := "High-value requests require additional review." },
    { ruleId := "CSR-017", name := "Small Amount Auto Process", priority := 45,
      condition := .all [⟨"request.amount", "lte", .int 5000⟩],
      decision := "approve", action := "auto_process", scoreDelta := 10,
      reason := "Low-value requests can be auto-processed." },
    { ruleId := "CSR-018", name := "Recurring Customer Boost", priority := 58,
      condition := .all [⟨"customer.orders_90d", "gte", .int 3⟩],
      decision := "approve", action := "reward_loyalty", scoreDelta := 14,
      reason := "Repeat customers get a modest boost." },
    { ruleId := "CSR-019", name := "New Customer Caution", priority := 57,
      condition := .all [⟨"customer.account_age_days", "lt", .int 30⟩],
      decision := "review", action := "watchlist", scoreDelta := (-12),
      reason := "Very new accounts may need extra scrutiny." },
    { ruleId := "CSR-020", name := "VIP Escalation", priority := 97,
      condition := .all [⟨"customer.tags", "contains", .str "vip"⟩],
      decision := "approve", action := "vip_queue", scoreDelta := 28,
      reason := "VIP customers are routed to the VIP queue." },
    { ruleId := "CSR-021", name := "Fraud Risk Block", priority := 100,
      condition := .all [⟨"risk.fraud_score", "gte", .int 90⟩],
      decision := "deny", action := "block", scoreDelta := (-50),
      reason := "Very high fraud risk is blocked." },
    { ruleId := "CSR-022", name := "Moderate Fraud Risk Review", priority := 89,
      condition := .all [⟨"risk.fraud_score", "gte", .int 60⟩, ⟨"risk.fraud_score", "lt", .int 90⟩],
      decision := "review", action := "risk_check", scoreDelta := (-20),
      reason := "Moderate fraud risk needs manual review." },
    { ruleId := "CSR-023", name := "Healthy Risk Bonus", priority := 52,
      condition := .all [⟨"risk.fraud_score", "lt", .int 30⟩],
      decision := "approve", action := "trust_bonus", scoreDelta := 16,
      reason := "Low risk requests gain trust points." },
    { ruleId := "CSR-024", name := "Holiday Delay", priority := 35,
      condition := .all [⟨"request.date", "in_holiday_period", .bool true⟩],
      decision := "review", action := "defer_if_nonurgent", scoreDelta := (-4),
      reason := "Holiday-period requests may be deferred." },
    { ruleId := "CSR-025", name := "Weekend Delay", priority := 34,
      condition := .all [⟨"request.day_of_week", "in", .list [.str "saturday", .str "sunday"]⟩],
      decision := "review", action := "defer", scoreDelta := (-3),
      reason := "Weekend submissions may wait until business hours." },
    { ruleId := "CSR-026", name := "Urgent Keyword Match", priority := 75,
      condition := .any [⟨"request.title", "contains", .str "urgent"⟩, ⟨"request.description",
        "contains", .str "urgent"⟩],
      decision := "approve", action := "raise_priority", scoreDelta := 18,
      reason := "Urgent requests are prioritized." },
    { ruleId := "CSR-027", name := "Escalation Keyword Match", priority := 76,
      condition := .any [⟨"request.title", "contains", .str "escalate"⟩, ⟨"request.description",
        "contains", .str "escalate"⟩],
      decision := "review", action := "route_to_manager", scoreDelta := 9,
      reason := "Escalation keywords trigger manager review." },
    { ruleId := "CSR-028", name := "Duplicate Request Guard", priority := 93,
      condition := .all [⟨"request.is_duplicate", "equals", .bool true⟩],
      decision := "deny", action := "reject_duplicate", scoreDelta := (-25),
      reason := "Duplicate requests are rejected." },
    { ruleId := "CSR-029", name := "Missing Required Data", priority := 94,
      condition := .all [⟨"request.is_complete", "equals", .bool false⟩],
      decision := "review", action := "request_more_info", scoreDelta := (-15),
      reason := "Incomplete requests need more information." },
    { ruleId := "CSR-030", name := "SLA Compliant Fast Path", priority := 77,
      condition := .all [⟨"sla.breached", "equals", .bool false⟩, ⟨"sla.hours_remaining", "gt",
        .int 24⟩],
      decision := "approve", action := "fast_path", scoreDelta := 12,
      reason := "Healthy SLA buffer allows fast processing." }
  ]

/-- The body of the loop of `load_vast_rules`. -/
def transpile (r : VastRule) : Except PyError Rule := do
  return {
    ruleCode := r.ruleId
    name := r.name
    description := r.reason
    family := "CUSTOMER_REQUEST_WORKFLOW"
    familyOrder := 10
    priorityWeight := (Assoc.get? r.ruleId priorityOverrides).getD r.priority
    severityBand := none
    contributionScore := some r.scoreDelta
    conditions := ⟨← whenToJsonlogic r.condition⟩
    exceptions := none
    conflictGroup := some "customer-decision"
    conflictsWith := []
    isSuppressor := false
    nonSuppressible := false
    cooldownMinutes := 0
    actions :=
      Dict.ofList [("customerDecision", .str r.decision), ("customerAction", .str r.action)]
    mitigations := Dict.empty
    sequencing := none
    slaTarget := none
    ruleStatus := "ACTIVE"
    enabled := r.enabled
    id := none }

/-- `load_vast_rules` -/
def loadVastRules : Except PyError (List Rule) := vastRules.mapM transpile

end VastRulePack

end PulseGuard
