import PulseGuard.Native.RulePacks.Base

/-!
# The CSR SLA rules

`csr_sla_decision_rules.json`, whose condition trees are used as they are once the prefix
`incident.` is stripped from their paths
(`app/infrastructure/repositories/csr_sla_rule_pack_loader.py`).
-/

namespace PulseGuard

/-- One rule of the source format of the CSR SLA and the network infrastructure files; the
    last six fields are its `then` part. -/
structure RoutingRule where
  ruleId : String
  name : String
  priority : Int
  condition : PyVal
  enabled : Bool := true
  decision : String
  action : String
  escalationTarget : String
  priorityScore : Int
  confidence : PyVal
  explanation : String

namespace IncidentPrefix

/-- `_PREFIX` -/
def incidentPrefix : String := "incident."

mutual

/-- `_strip_incident_prefix`, which three loaders define in the same words. -/
def stripIncidentPrefix : PyVal → PyVal
  | .dict [("var", .str path)] =>
    if incidentPrefix.toList.isPrefixOf path.toList then
      .dict [("var", .str (String.ofList (path.toList.drop incidentPrefix.length)))]
    else .dict [("var", .str path)]
  | .dict entries => .dict (stripEntries entries)
  | .list xs => .list (stripItems xs)
  | v => v

def stripItems : List PyVal → List PyVal
  | [] => []
  | x :: xs => stripIncidentPrefix x :: stripItems xs

def stripEntries : List (String × PyVal) → List (String × PyVal)
  | [] => []
  | (k, v) :: rest => (k, stripIncidentPrefix v) :: stripEntries rest

end

end IncidentPrefix

namespace CsrSlaRulePack

open Fixture

/-- The rules of `csr_sla_decision_rules.json`. -/
def csrSlaRules : List RoutingRule := [
    { ruleId := "CSR-SLA-001", name := "Gold Customer Priority Escalation", priority := 900,
      condition := node "and" [node "==" [var "incident.customerTier", .str "gold"],
        node "==" [var "incident.customerImpact", .bool true], node "in" [var "incident.severity",
        .list [.str "major", .str "critical"]]],
      decision := "escalate", action := "route_to_l2_and_cse",
        escalationTarget := "customer_service_engineering", priorityScore := 900,
        confidence := decimal 96 2,
      explanation :=
        "Gold customers with major or critical impact should be escalated immediately." },
    { ruleId := "CSR-SLA-002", name := "Platinum Customer Major Incident", priority := 920,
      condition := node "and" [node "==" [var "incident.customerTier", .str "platinum"],
        node "==" [var "incident.customerImpact", .bool true],
        node "==" [var "incident.serviceImpact", .bool true]],
      decision := "escalate", action := "page_engineering_and_account_team",
        escalationTarget := "engineering_oncall", priorityScore := 920, confidence := decimal 97 2,
      explanation :=
        "Platinum customers with service impact require urgent engineering escalation." },
    { ruleId := "CSR-SLA-003", name := "SLA Breach Imminent", priority := 880,
      condition := node "and" [node "<=" [var "incident.slaMinutesRemaining", .int 30],
        node "==" [var "incident.isOpen", .bool true]],
      decision := "escalate", action := "accelerate_resolution", escalationTarget := "shift_lead",
        priorityScore := 880, confidence := decimal 95 2,
      explanation := "Incidents within 30 minutes of SLA breach should be accelerated." },
    { ruleId := "CSR-SLA-004", name := "SLA Breach Already Occurred", priority := 950,
      condition := node "and" [node "==" [var "incident.slaBreached", .bool true],
        node "==" [var "incident.isClosed", .bool false]],
      decision := "escalate", action := "major_incident_process", escalationTarget := "noc_level_3",
        priorityScore := 950, confidence := decimal 99 2,
      explanation := "An active SLA breach requires immediate major-incident handling." },
    { ruleId := "CSR-SLA-005", name := "Same Tower Repeated Failures", priority := 910,
      condition := node "and" [node "==" [var "incident.assetType", .str "tower"],
        node ">=" [var "incident.failuresSameAsset7d", .int 3],
        node ">=" [var "incident.failuresSameAsset30d", .int 5]],
      decision := "escalate", action := "open_chronic_fault_investigation",
        escalationTarget := "engineering_oncall", priorityScore := 910, confidence := decimal 96 2,
      explanation :=
        "A tower failing repeatedly within 7 and 30 days indicates a chronic asset problem." },
    { ruleId := "CSR-SLA-006", name := "Incident Reopened Quickly", priority := 870,
      condition := node "and" [node "==" [var "incident.reopened", .bool true],
        node "<=" [var "incident.hoursSinceClosure", .int 72]],
      decision := "escalate", action := "route_to_problem_management",
        escalationTarget := "problem_management", priorityScore := 870, confidence := decimal 94 2,
      explanation :=
        "An incident reopened within 72 hours should be investigated for unresolved root cause." },
    { ruleId := "CSR-SLA-007", name := "Similar Incident Within One Hour", priority := 860,
      condition := node "and" [node "==" [var "incident.similarIncidentExists", .bool true],
        node "<=" [var "incident.similarIncidentAgeMinutes", .int 60],
        node "==" [var "incident.similarIncidentServiceId", var "incident.serviceId"]],
      decision := "merge", action := "attach_to_existing_incident",
        escalationTarget := "current_owner", priorityScore := 860, confidence := decimal 93 2,
      explanation :=
        "Similar incidents within one hour on the same service should be merged to avoid " ++
          "duplicate handling." },
    { ruleId := "CSR-SLA-008", name := "Historical Outage Frequency High", priority := 890,
      condition := node "and" [node ">=" [var "incident.outagesSameService30d", .int 4],
        node ">=" [var "incident.outageMinutes30d", .int 180]],
      decision := "escalate", action := "problem_record_required",
        escalationTarget := "engineering_oncall", priorityScore := 890, confidence := decimal 95 2,
      explanation :=
        "Repeated outages on the same service indicate a persistent defect requiring " ++
          "engineering review." },
    { ruleId := "CSR-SLA-009", name := "Low MTTR Better Priority", priority := 700,
      condition := node "and" [node "<=" [var "incident.mttrHours", .int 2],
        node "<=" [var "incident.impactScope", .str "site"]],
      decision := "route", action := "standard_priority_queue", escalationTarget := "noc_level_2",
        priorityScore := 700, confidence := decimal 85 2,
      explanation :=
        "Incidents with historically low MTTR and limited scope can stay in the standard queue." },
    { ruleId := "CSR-SLA-010", name := "Low MTBF Chronic Equipment", priority := 940,
      condition := node "and" [node "<=" [var "incident.mtbfHours", .int 72],
        node ">=" [var "incident.equipmentFailures30d", .int 4]],
      decision := "escalate", action := "chronic_equipment_investigation",
        escalationTarget := "engineering_oncall", priorityScore := 940, confidence := decimal 96 2,
      explanation :=
        "Low MTBF with repeated failures is a strong signal of chronic equipment deterioration." },
    { ruleId := "CSR-SLA-011", name := "Previous RCA Indicates Known Issue", priority := 845,
      condition := node "and" [node "==" [var "incident.previousRcaExists", .bool true],
        node "in" [var "incident.previousRcaType", .list [.str "power", .str "fiber_cut",
        .str "software_defect", .str "backhaul_congestion"]]],
      decision := "route", action := "apply_known_fix_playbook", escalationTarget := "noc_level_2",
        priorityScore := 845, confidence := decimal 9 1,
      explanation :=
        "Historical RCA matching a known fault pattern should reuse the corresponding " ++
          "remediation playbook." },
    { ruleId := "CSR-SLA-012", name := "Maintenance Window Suppression", priority := 600,
      condition := node "and" [node "==" [var "incident.inMaintenanceWindow", .bool true],
        node "==" [var "incident.changeApproved", .bool true],
        node "==" [var "incident.customerImpact", .bool false]],
      decision := "suppress", action := "link_to_change_record",
        escalationTarget := "change_management", priorityScore := 600, confidence := decimal 92 2,
      explanation :=
        "Incidents during approved maintenance windows with no customer impact can be " ++
          "suppressed and linked to change." },
    { ruleId := "CSR-SLA-013", name := "Unapproved Maintenance With Impact", priority := 930,
      condition := node "and" [node "==" [var "incident.inMaintenanceWindow", .bool true],
        node "==" [var "incident.changeApproved", .bool false],
        node "==" [var "incident.customerImpact", .bool true]],
      decision := "escalate", action := "change_violation_alert", escalationTarget := "noc_level_3",
        priorityScore := 930, confidence := decimal 96 2,
      explanation :=
        "Customer-impacting incidents in an unapproved maintenance window need immediate " ++
          "escalation." },
    { ruleId := "CSR-SLA-014", name := "Customer Complaint Received", priority := 800,
      condition := node "and" [node "==" [var "incident.customerComplaintReceived", .bool true],
        node "==" [var "incident.isOpen", .bool true]],
      decision := "route", action := "customer_visible_priority", escalationTarget := "noc_level_2",
        priorityScore := 800, confidence := decimal 89 2,
      explanation :=
        "An active incident with customer complaints should receive elevated operational " ++
          "attention." },
    { ruleId := "CSR-SLA-015", name := "Enterprise Customer With Repeated Incidents",
        priority := 915,
      condition := node "and" [node "==" [var "incident.customerTier", .str "enterprise"],
        node ">=" [var "incident.customerIncidents30d", .int 3],
        node "==" [var "incident.customerImpact", .bool true]],
      decision := "escalate", action := "create_customer_problem_case",
        escalationTarget := "engineering_oncall", priorityScore := 915, confidence := decimal 95 2,
      explanation :=
        "Repeated incidents affecting an enterprise customer warrant problem management and " ++
          "engineering escalation." },
    { ruleId := "CSR-SLA-016", name := "Weekend Low-Impact Defer", priority := 300,
      condition := node "and" [node "in" [var "incident.dayOfWeek", .list [.str "saturday",
        .str "sunday"]], node "==" [var "incident.customerImpact", .bool false],
        node "==" [var "incident.severity", .str "minor"]],
      decision := "defer", action := "next_business_day_queue", escalationTarget := "noc_level_1",
        priorityScore := 300, confidence := decimal 8 1,
      explanation :=
        "Minor incidents without customer impact can be deferred to the next business day." },
    { ruleId := "CSR-SLA-017", name := "High Revenue Risk", priority := 905,
      condition := node "and" [node ">=" [var "incident.revenueAtRiskUsd", .int 50000],
        node "==" [var "incident.isOpen", .bool true]],
      decision := "escalate", action := "priority_business_review",
        escalationTarget := "engineering_oncall", priorityScore := 905, confidence := decimal 94 2,
      explanation :=
        "Incidents with significant revenue risk should be handled as high-priority " ++
          "business-impacting issues." },
    { ruleId := "CSR-SLA-018", name := "Engineering Escalation for Chronic Fault", priority := 960,
      condition := node "and" [node ">=" [var "incident.repeatFailures90d", .int 4],
        node "<=" [var "incident.mtbfHours", .int 48], node "==" [var "incident.previousRcaExists",
        .bool true]],
      decision := "escalate", action := "engineering_root_cause_review",
        escalationTarget := "engineering_oncall", priorityScore := 960, confidence := decimal 97 2,
      explanation :=
        "A recurring fault with low MTBF and prior RCA evidence should be escalated to " ++
          "engineering." }
  ]

/-- The body of the loop of `load_csr_sla_rules`. -/
def transpile (r : RoutingRule) : Rule where
  ruleCode := r.ruleId
  name := r.name
  description := r.explanation
  family := "CUSTOMER_SLA_PRIORITY"
  familyOrder := 11
  priorityWeight := r.priority
  severityBand := none
  contributionScore := none
  conditions := ⟨IncidentPrefix.stripIncidentPrefix r.condition⟩
  exceptions := none
  conflictGroup := some "csr-sla-priority-decision"
  conflictsWith := []
  isSuppressor := false
  nonSuppressible := false
  cooldownMinutes := 0
  actions := Dict.ofList [("decision", .str r.decision), ("csrSlaAction", .str r.action),
    ("escalationTarget", .str r.escalationTarget), ("csrSlaPriorityScore", .int r.priorityScore),
    ("csrSlaConfidence", r.confidence), ("csrSlaExplanation", .str r.explanation)]
  mitigations := Dict.empty
  sequencing := none
  slaTarget := none
  ruleStatus := "ACTIVE"
  enabled := r.enabled
  id := none

/-- `load_csr_sla_rules` -/
def loadCsrSlaRules : List Rule := csrSlaRules.map transpile

end CsrSlaRulePack

end PulseGuard
