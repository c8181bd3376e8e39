import PulseGuard.Native.RulePacks.CsrSla

/-!
# The network infrastructure rules

`telecom_network_infrastructure_rules.json`, less the rules that the CSR SLA file already
covers (`app/infrastructure/repositories/net_inf_rule_pack_loader.py`).
-/

namespace PulseGuard

namespace NetInfRulePack

open Fixture

/-- The keys of `SKIPPED_RULE_IDS`. -/
def skippedRuleIds : List String :=
  ["NET-INF-003", "NET-INF-004", "NET-INF-005", "NET-INF-006", "NET-INF-009", "NET-INF-011"]

/-- The rules of `telecom_network_infrastructure_rules.json`. -/
def netInfRules : List RoutingRule := [
    { ruleId := "NET-INF-001", name := "Critical Core Outage", priority := 1000,
      condition := node "and" [node "==" [var "incident.networkLayer", .str "core"],
        node "in" [var "incident.severity", .list [.str "critical", .str "major"]],
        node "==" [var "incident.serviceImpact", .bool true]],
      decision := "escalate", action := "activate_major_incident_bridge",
        escalationTarget := "engineering_oncall", priorityScore := 1000, confidence := decimal 99 2,
      explanation :=
        "Core network outages with service impact require immediate engineering escalation." },
    { ruleId := "NET-INF-002", name := "Same Tower Repeated Failure", priority := 980,
      condition := node "and" [node "==" [var "incident.assetType", .str "tower"],
        node ">=" [var "incident.failuresSameAsset7d", .int 3],
        node ">=" [var "incident.failuresSameAsset30d", .int 5],
        node "<=" [var "incident.mtbfHours", .int 72]],
      decision := "escalate", action := "open_chronic_site_investigation",
        escalationTarget := "ran_engineering", priorityScore := 980, confidence := decimal 98 2,
      explanation :=
        "A tower failing repeatedly over 7 and 30 days with low MTBF indicates chronic site " ++
          "instability." },
    { ruleId := "NET-INF-003", name := "Incident Reopened Quickly", priority := 950,
      condition := node "and" [node "==" [var "incident.reopened", .bool true],
        node "<=" [var "incident.hoursSinceClosure", .int 48]],
      decision := "escalate", action := "route_to_problem_management",
        escalationTarget := "problem_management", priorityScore := 950, confidence := decimal 96 2,
      explanation := "A quick reopen suggests incomplete remediation or an unresolved root cause." },
    { ruleId := "NET-INF-004", name := "Similar Incident Within One Hour", priority := 940,
      condition := node "and" [node "==" [var "incident.similarIncidentExists", .bool true],
        node "<=" [var "incident.similarIncidentAgeMinutes", .int 60],
        node "==" [var "incident.similarIncidentServiceId", var "incident.serviceId"]],
      decision := "merge", action := "attach_to_parent_incident",
        escalationTarget := "current_owner", priorityScore := 940, confidence := decimal 95 2,
      explanation :=
        "Similar incidents within one hour on the same service should be correlated to a parent " ++
          "incident." },
    { ruleId := "NET-INF-005", name := "Historical Outage Frequency", priority := 930,
      condition := node "and" [node ">=" [var "incident.outagesSameService30d", .int 4],
        node ">=" [var "incident.outageMinutes30d", .int 180]],
      decision := "escalate", action := "problem_record_required",
        escalationTarget := "engineering_oncall", priorityScore := 930, confidence := decimal 95 2,
      explanation :=
        "Repeated outages on the same service over 30 days indicate a systemic defect requiring " ++
          "engineering review." },
    { ruleId := "NET-INF-006", name := "Low MTBF Chronic Equipment", priority := 970,
      condition := node "and" [node "<=" [var "incident.mtbfHours", .int 72],
        node ">=" [var "incident.equipmentFailures30d", .int 4]],
      decision := "escalate", action := "chronic_equipment_investigation",
        escalationTarget := "engineering_oncall", priorityScore := 970, confidence := decimal 97 2,
      explanation :=
        "Low MTBF plus repeated failures is a strong indicator of chronic equipment " ++
          "deterioration." },
    { ruleId := "NET-INF-007", name := "High MTTR Degradation", priority := 840,
      condition := node "and" [node ">=" [var "incident.mttrHours", .int 4],
        node "==" [var "incident.serviceImpact", .bool true]],
      decision := "escalate", action := "investigate_resolution_bottleneck",
        escalationTarget := "noc_level_3", priorityScore := 840, confidence := decimal 9 1,
      explanation :=
        "Long MTTR with service impact suggests the incident needs higher-level technical " ++
          "intervention." },
    { ruleId := "NET-INF-008", name := "Previous RCA Known Pattern", priority := 860,
      condition := node "and" [node "==" [var "incident.previousRcaExists", .bool true],
        node "in" [var "incident.previousRcaType", .list [.str "fiber_cut", .str "power_loss",
        .str "software_defect", .str "backhaul_congestion"]]],
      decision := "route", action := "apply_known_fix_playbook", escalationTarget := "noc_level_2",
        priorityScore := 860, confidence := decimal 92 2,
      explanation :=
        "When RCA history matches a known operational pattern, the incident should follow the " ++
          "corresponding playbook." },
    { ruleId := "NET-INF-009", name := "Maintenance Window Suppression", priority := 600,
      condition := node "and" [node "==" [var "incident.inMaintenanceWindow", .bool true],
        node "==" [var "incident.changeApproved", .bool true],
        node "==" [var "incident.customerImpact", .bool false]],
      decision := "suppress", action := "link_to_change_record",
        escalationTarget := "change_management", priorityScore := 600, confidence := decimal 93 2,
      explanation :=
        "Approved maintenance without customer impact should be suppressed and tied to the " ++
          "change record." },
    { ruleId := "NET-INF-010", name := "Unapproved Maintenance With Impact", priority := 960,
      condition := node "and" [node "==" [var "incident.inMaintenanceWindow", .bool true],
        node "==" [var "incident.changeApproved", .bool false],
        node "==" [var "incident.customerImpact", .bool true]],
      decision := "escalate", action := "change_violation_alert",
        escalationTarget := "engineering_oncall", priorityScore := 960, confidence := decimal 97 2,
      explanation :=
        "Customer-impacting faults during an unapproved maintenance window require immediate " ++
          "escalation." },
    { ruleId := "NET-INF-011", name := "SLA Breach Imminent", priority := 910,
      condition := node "and" [node "<=" [var "incident.slaMinutesRemaining", .int 30],
        node "==" [var "incident.isOpen", .bool true]],
      decision := "escalate", action := "accelerate_resolution", escalationTarget := "shift_lead",
        priorityScore := 910, confidence := decimal 94 2,
      explanation := "An incident within 30 minutes of SLA breach should be accelerated." },
    { ruleId := "NET-INF-012", name := "Core Service Customer Impact", priority := 900,
      condition := node "and" [node "in" [var "incident.serviceType", .list [.str "voice",
        .str "mobile_data", .str "broadband"]], node "==" [var "incident.customerImpact",
        .bool true], node "==" [var "incident.regionalImpact", .bool true]],
      decision := "escalate", action := "major_incident_process",
        escalationTarget := "engineering_oncall", priorityScore := 900, confidence := decimal 93 2,
      explanation :=
        "Customer-visible regional impact on core services warrants major-incident handling." },
    { ruleId := "NET-INF-013", name := "Backhaul Congestion Peak", priority := 820,
      condition := node "and" [node "==" [var "incident.metricType", .str "throughput_degradation"],
        node ">=" [var "incident.linkUtilizationPct", .int 95],
        node ">=" [var "incident.durationMinutes", .int 15]],
      decision := "route", action := "capacity_review", escalationTarget := "network_planning",
        priorityScore := 820, confidence := decimal 88 2,
      explanation :=
        "Sustained near-saturation on backhaul links should be routed to capacity planning." },
    { ruleId := "NET-INF-014", name := "RAN Quality Degradation", priority := 830,
      condition := node "and" [node "==" [var "incident.networkLayer", .str "ran"],
        node ">=" [var "incident.callDropRatePct", .int 8], node "<=" [var "incident.rsrpDbm",
        .int (-110)]],
      decision := "route", action := "radio_optimization_review",
        escalationTarget := "ran_engineering", priorityScore := 830, confidence := decimal 89 2,
      explanation := "High drop rate and weak signal should be reviewed by RAN engineering." },
    { ruleId := "NET-INF-015", name := "Low Impact Informational Alarm", priority := 100,
      condition := node "and" [node "==" [var "incident.severity", .str "info"],
        node "==" [var "incident.customerImpact", .bool false],
        node "==" [var "incident.serviceImpact", .bool false]],
      decision := "suppress", action := "log_only", escalationTarget := "none",
        priorityScore := 100, confidence := decimal 8 1,
      explanation := "Informational alarms without impact can be logged without escalation." },
    { ruleId := "NET-INF-016", name := "Enterprise Account High Revenue Risk", priority := 915,
      condition := node "and" [node "==" [var "incident.customerSegment", .str "enterprise"],
        node ">=" [var "incident.revenueAtRiskUsd", .int 50000]],
      decision := "escalate", action := "priority_business_review",
        escalationTarget := "engineering_oncall", priorityScore := 915, confidence := decimal 94 2,
      explanation :=
        "Enterprise incidents with significant revenue risk deserve priority escalation." },
    { ruleId := "NET-INF-017", name := "Repeated Alarm on Same Node", priority := 940,
      condition := node "and" [node ">=" [var "incident.repeatAlarmsSameNode24h", .int 6],
        node ">=" [var "incident.repeatAlarmsSameNode7d", .int 10]],
      decision := "escalate", action := "node_health_investigation",
        escalationTarget := "engineering_oncall", priorityScore := 940, confidence := decimal 95 2,
      explanation :=
        "Repeated alarms on the same node indicate a persistent equipment or software defect." },
    { ruleId := "NET-INF-018", name := "Fast Recovery Candidate", priority := 720,
      condition := node "and" [node "<=" [var "incident.mttrHours", decimal 15 1],
        node "==" [var "incident.customerImpact", .bool false],
        node "==" [var "incident.serviceImpact", .bool true]],
      decision := "route", action := "standard_priority_queue", escalationTarget := "noc_level_2",
        priorityScore := 720, confidence := decimal 84 2,
      explanation :=
        "Low-MTTR incidents with limited customer impact can remain in the standard operational " ++
          "queue." },
    { ruleId := "NET-INF-019", name := "Chronic Equipment Failure", priority := 990,
      condition := node "and" [node "<=" [var "incident.mtbfHours", .int 24],
        node ">=" [var "incident.equipmentFailures30d", .int 5],
        node "==" [var "incident.previousRcaExists", .bool true]],
      decision := "escalate", action := "engineering_root_cause_review",
        escalationTarget := "engineering_oncall", priorityScore := 990, confidence := decimal 98 2,
      explanation :=
        "Very low MTBF with repeated failures and prior RCA evidence indicates chronic " ++
          "equipment failure." },
    { ruleId := "NET-INF-020", name := "Problem Management Trigger", priority := 880,
      condition := node "and" [node ">=" [var "incident.repeatFailures90d", .int 3],
        node "==" [var "incident.isClosed", .bool false]],
      decision := "escalate", action := "create_problem_record",
        escalationTarget := "problem_management", priorityScore := 880, confidence := decimal 92 2,
      explanation :=
        "Repeated failures over 90 days should trigger problem management for permanent " ++
          "remediation." }
  ]

/-- The body of the loop of `load_net_inf_rules`. -/
def transpile (r : RoutingRule) : Rule where
  ruleCode := r.ruleId
  name := r.name
  description := r.explanation
  family := "NETWORK_INFRASTRUCTURE_PATTERN"
  familyOrder := 13
  priorityWeight := r.priority
  severityBand := none
  contributionScore := none
  conditions := ⟨IncidentPrefix.stripIncidentPrefix r.condition⟩
  exceptions := none
  conflictGroup := some "net-inf-decision"
  conflictsWith := []
  isSuppressor := false
  nonSuppressible := false
  cooldownMinutes := 0
  actions := Dict.ofList [("netInfDecision", .str r.decision), ("netInfAction", .str r.action),
    ("netInfEscalationTarget", .str r.escalationTarget),
    ("netInfPriorityScore", .int r.priorityScore), ("netInfConfidence", r.confidence),
    ("netInfExplanation", .str r.explanation)]
  mitigations := Dict.empty
  sequencing := none
  slaTarget := none
  ruleStatus := "ACTIVE"
  enabled := r.enabled
  id := none

/-- `load_net_inf_rules` -/
def loadNetInfRules : List Rule :=
  (netInfRules.filter fun r => !skippedRuleIds.contains r.ruleId).map transpile

end NetInfRulePack

end PulseGuard
