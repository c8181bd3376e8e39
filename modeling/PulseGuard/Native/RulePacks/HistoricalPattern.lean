import PulseGuard.Native.RulePacks.CsrSla

/-!
# The historical pattern rules

`telecom_incident_decision_engine_rules.json`
(`app/infrastructure/repositories/historical_pattern_rule_pack_loader.py`).
-/

namespace PulseGuard

namespace HistoricalPatternRulePack

open Fixture

/-- One rule of the source format; the fields from `decision` to `slaBreachRisk` are its
    `actions` part, `hisPriority` its `priority` there. -/
structure HistoricalRule where
  id : String
  name : String
  priority : Int
  conditions : PyVal
  enabled : Bool := true
  decision : String
  hisPriority : String
  confidence : PyVal
  assignmentGroup : String
  escalationLevel : Int
  reasonCodes : List String
  slaBreachRisk : String
  explain : String

/-- The rules of `telecom_incident_decision_engine_rules.json`. -/
def historicalPatternRules : List HistoricalRule := [
    { id := "HIS001", name := "Frequent reboot history", priority := 980,
      conditions := node "and" [node ">=" [var "asset.rebootCount7d", .int 3],
        node ">=" [var "asset.rebootCount30d", .int 5]],
      decision := "ESCALATE_ENGINEERING", hisPriority := "P1", confidence := decimal 96 2,
        assignmentGroup := "Engineering L2", escalationLevel := 2,
      reasonCodes := ["HISTORICAL_REBOOT_PATTERN", "CHRONIC_NODE_INSTABILITY"],
      slaBreachRisk := "HIGH",
      explain :=
        "Asset shows repeated reboot behavior over 7 and 30 days, indicating chronic " ++
          "instability and likely hardware, firmware, or power-related degradation." },
    { id := "HIS002", name := "Previous change failure", priority := 970,
      conditions := node "and" [node "==" [var "incident.relatedChangeStatus", .str "FAILED"],
        node "==" [var "incident.affectedAsset", var "change.assetId"],
        node "==" [var "change.result", .str "rollback"]],
      decision := "ESCALATE_CHANGE_TEAM", hisPriority := "P1", confidence := decimal 98 2,
        assignmentGroup := "Change Management / Engineering", escalationLevel := 3,
      reasonCodes := ["FAILED_CHANGE_LINKED", "ROLLBACK_REQUIRED"],
      slaBreachRisk := "HIGH",
      explain :=
        "The incident is linked to a failed change on the same asset, which strongly suggests a " ++
          "change-induced service degradation." },
    { id := "HIS003", name := "Change within 24 hours", priority := 960,
      conditions := node "and" [node "<=" [var "incident.ageHoursSinceChange", .int 24],
        node "==" [var "incident.changeImpactFlag", .bool true]],
      decision := "ESCALATE_ENGINEERING", hisPriority := "P1", confidence := decimal 93 2,
        assignmentGroup := "Engineering L2", escalationLevel := 2,
      reasonCodes := ["RECENT_CHANGE_WINDOW", "CHANGE_ASSOCIATED_RISK"],
      slaBreachRisk := "HIGH",
      explain :=
        "A recent change within 24 hours increases the likelihood of regression or " ++
          "misconfiguration." },
    { id := "HIS004", name := "Firmware upgrade recently completed", priority := 955,
      conditions := node "and" [node "==" [var "asset.firmwareUpgradeCompleted", .bool true],
        node "<=" [var "asset.hoursSinceFirmwareUpgrade", .int 48],
        node "in" [var "incident.symptomType", .list [.str "reboot", .str "crash",
        .str "loss_of_connectivity", .str "alarm_storm"]]],
      decision := "ESCALATE_ENGINEERING", hisPriority := "P1", confidence := decimal 92 2,
        assignmentGroup := "Engineering L2", escalationLevel := 2,
      reasonCodes := ["POST_UPGRADE_FAILURE_WINDOW", "FIRMWARE_REGRESSION_RISK"],
      slaBreachRisk := "HIGH",
      explain :=
        "The incident occurred soon after a firmware upgrade and matches typical post-upgrade " ++
          "failure symptoms." },
    { id := "HIS005", name := "Alarm storm previously observed", priority := 945,
      conditions := node "and" [node ">=" [var "incident.activeAlarmsCount", .int 50],
        node "==" [var "asset.previousAlarmStorm", .bool true]],
      decision := "CORRELATE_AND_ESCALATE", hisPriority := "P1", confidence := decimal 9 1,
        assignmentGroup := "NOC Correlation Desk", escalationLevel := 2,
      reasonCodes := ["ALARM_STORM_HISTORY", "POSSIBLE_PARENT_FAULT"],
      slaBreachRisk := "HIGH",
      explain :=
        "Large alarm volume combined with historical storm behavior suggests a common parent " ++
          "fault or cascading failure." },
    { id := "HIS006", name := "Site repeatedly unreachable", priority := 940,
      conditions := node "and" [node ">=" [var "asset.unreachableCount30d", .int 4],
        node "==" [var "incident.symptomType", .str "site_unreachable"]],
      decision := "ESCALATE_FIELD_AND_ENERGY", hisPriority := "P1", confidence := decimal 95 2,
        assignmentGroup := "Field Ops / Power / RF", escalationLevel := 2,
      reasonCodes := ["REPEATED_SITE_OUTAGE", "AVAILABILITY_DEGRADATION"],
      slaBreachRisk := "HIGH",
      explain :=
        "Repeated site unreachability is a strong operational signal for power, transmission, " ++
          "or site access issues." },
    { id := "HIS007", name := "Historical packet loss increasing", priority := 930,
      conditions := node "and" [node ">=" [var "metrics.packetLossTrend7d", decimal 15 2],
        node ">=" [var "metrics.packetLossCurrent", .int 2]],
      decision := "INVESTIGATE_TRANSPORT", hisPriority := "P2", confidence := decimal 89 2,
        assignmentGroup := "Transport Engineering", escalationLevel := 1,
      reasonCodes := ["PACKET_LOSS_TREND", "SERVICE_QUALITY_DEGRADATION"],
      slaBreachRisk := "MEDIUM",
      explain :=
        "Packet loss is trending upward and has crossed an operationally meaningful threshold." },
    { id := "HIS008", name := "Historical latency increasing", priority := 925,
      conditions := node "and" [node ">=" [var "metrics.latencyTrend7d", decimal 2 1],
        node ">=" [var "metrics.latencyCurrentMs", .int 100]],
      decision := "INVESTIGATE_TRANSPORT", hisPriority := "P2", confidence := decimal 88 2,
        assignmentGroup := "Transport Engineering", escalationLevel := 1,
      reasonCodes := ["LATENCY_TREND_UP", "DEGRADING_USER_EXPERIENCE"],
      slaBreachRisk := "MEDIUM",
      explain :=
        "Latency trend and current latency suggest transport congestion, reroute issues, or " ++
          "backhaul impairment." },
    { id := "HIS009", name := "Historical congestion pattern", priority := 920,
      conditions := node "and" [node "==" [var "asset.congestionPatternObserved", .bool true],
        node ">=" [var "metrics.utilizationPercent", .int 85]],
      decision := "CAPACITY_REVIEW", hisPriority := "P2", confidence := decimal 9 1,
        assignmentGroup := "Capacity Planning", escalationLevel := 1,
      reasonCodes := ["RECURRING_CONGESTION", "CAPACITY_PRESSURE"],
      slaBreachRisk := "MEDIUM",
      explain :=
        "The site has a recurring congestion pattern and current utilization is at a risky level." },
    { id := "HIS010", name := "Capacity exhausted repeatedly", priority := 915,
      conditions := node "and" [node ">=" [var "asset.capacityExhaustionCount90d", .int 2],
        node ">=" [var "metrics.utilizationPercent", .int 95]],
      decision := "ESCALATE_CAPACITY_PROGRAM", hisPriority := "P1", confidence := decimal 97 2,
        assignmentGroup := "Capacity Engineering", escalationLevel := 2,
      reasonCodes := ["REPEATED_EXHAUSTION", "CAPACITY_EXPANSION_REQUIRED"],
      slaBreachRisk := "HIGH",
      explain :=
        "Repeated capacity exhaustion indicates structural underprovisioning and immediate " ++
          "expansion need." },
    { id := "HIS011", name := "Seasonal outage pattern", priority := 910,
      conditions := node "and" [node "==" [var "context.weatherSeverity", .str "severe"],
        node "in" [var "context.month", .list [.str "jun", .str "jul", .str "aug", .str "sep"]]],
      decision := "ESCALATE_RESILIENCE", hisPriority := "P2", confidence := decimal 87 2,
        assignmentGroup := "Resilience / Field Ops", escalationLevel := 1,
      reasonCodes := ["SEASONAL_RISK", "WEATHER_IMPACT"],
      slaBreachRisk := "MEDIUM",
      explain :=
        "The incident occurs in a season historically associated with higher outage risk due to " ++
          "weather." },
    { id := "HIS012", name := "Daily peak-hour recurring failure", priority := 905,
      conditions := node "and" [node "in" [var "context.hourOfDay", .list [.int 18, .int 19,
        .int 20, .int 21, .int 22]], node "==" [var "asset.peakHourFailurePattern", .bool true]],
      decision := "CAPACITY_AND_OPTIMIZATION", hisPriority := "P2", confidence := decimal 91 2,
        assignmentGroup := "RAN Optimization", escalationLevel := 1,
      reasonCodes := ["PEAK_HOUR_RECURRING_FAILURE", "TRAFFIC_BURST"],
      slaBreachRisk := "MEDIUM",
      explain :=
        "The failure pattern is tied to daily peak traffic, suggesting overload or scheduling " ++
          "inefficiency." },
    { id := "HIS013", name := "Weekend recurring outages", priority := 900,
      conditions := node "and" [node "in" [var "context.dayOfWeek", .list [.str "sat", .str "sun"]],
        node "==" [var "asset.weekendOutagePattern", .bool true]],
      decision := "ESCALATE_DOMAIN_OWNER", hisPriority := "P3", confidence := decimal 84 2,
        assignmentGroup := "Domain Owner", escalationLevel := 1,
      reasonCodes := ["WEEKEND_PATTERN", "RECURRING_OPERATIONAL_WINDOW"],
      slaBreachRisk := "MEDIUM",
      explain :=
        "Weekend outages often point to maintenance misalignment, staffing gaps, or routine " ++
          "batch jobs." },
    { id := "HIS014", name := "Holiday traffic anomaly", priority := 895,
      conditions := node "and" [node "==" [var "context.isHoliday", .bool true],
        node ">=" [var "metrics.trafficDeviationPercent", .int 30]],
      decision := "MONITOR_AND_SCALE", hisPriority := "P3", confidence := decimal 8 1,
        assignmentGroup := "Capacity Planning", escalationLevel := 0,
      reasonCodes := ["HOLIDAY_TRAFFIC_ANOMALY", "LOAD_SHIFT"],
      slaBreachRisk := "MEDIUM",
      explain :=
        "Holiday traffic behavior deviates sharply from baseline and may require temporary " ++
          "scaling." },
    { id := "HIS015", name := "Fiber cut hotspot", priority := 985,
      conditions := node "and" [node "==" [var "asset.locationHotspotFiberCuts", .bool true],
        node "==" [var "incident.symptomType", .str "transmission_down"]],
      decision := "DISPATCH_FIELD_EMERGENCY", hisPriority := "P1", confidence := decimal 99 2,
        assignmentGroup := "Field Ops", escalationLevel := 3,
      reasonCodes := ["FIBER_CUT_HOTSPOT", "PHYSICAL_TRANSPORT_FAILURE"],
      slaBreachRisk := "HIGH",
      explain :=
        "This location has a known history of fiber cuts and the symptom matches a transmission " ++
          "failure." },
    { id := "HIS016", name := "Vandalism-prone location", priority := 975,
      conditions := node "and" [node "==" [var "asset.vandalismRiskFlag", .bool true],
        node "==" [var "incident.symptomType", .str "site_down"]],
      decision := "ESCALATE_SECURITY_AND_FIELD", hisPriority := "P1", confidence := decimal 96 2,
        assignmentGroup := "Security / Field Ops", escalationLevel := 3,
      reasonCodes := ["VANDALISM_RISK", "PHYSICAL_SITE_THREAT"],
      slaBreachRisk := "HIGH",
      explain := "The site is in a known vandalism-prone area and is currently down." },
    { id := "HIS017", name := "Power outage region", priority := 965,
      conditions := node "and" [node "==" [var "context.gridOutageReported", .bool true],
        node "==" [var "incident.symptomType", .str "site_down"]],
      decision := "ESCALATE_POWER_TEAM", hisPriority := "P1", confidence := decimal 97 2,
        assignmentGroup := "Power / Field Ops", escalationLevel := 2,
      reasonCodes := ["GRID_OUTAGE", "POWER_DEPENDENCY"],
      slaBreachRisk := "HIGH",
      explain := "A regional grid outage is a high-probability driver of the site failure." },
    { id := "HIS018", name := "Transmission link degradation", priority := 950,
      conditions := node "and" [node ">=" [var "metrics.linkErrorRate", decimal 5 1],
        node ">=" [var "metrics.linkUtilizationPercent", .int 80]],
      decision := "OPTIMIZE_TRANSPORT", hisPriority := "P2", confidence := decimal 9 1,
        assignmentGroup := "Transport Engineering", escalationLevel := 1,
      reasonCodes := ["LINK_DEGRADATION", "TRANSPORT_STRESS"],
      slaBreachRisk := "MEDIUM",
      explain := "Error rate and utilization indicate a degrading transmission link." },
    { id := "HIS019", name := "Multiple unresolved RCAs", priority := 940,
      conditions := node "and" [node ">=" [var "asset.unresolvedRcaCount90d", .int 2],
        node "==" [var "incident.isNew", .bool true]],
      decision := "ESCALATE_GOVERNANCE", hisPriority := "P2", confidence := decimal 92 2,
        assignmentGroup := "Problem Management", escalationLevel := 2,
      reasonCodes := ["UNRESOLVED_RCA_BACKLOG", "REPEAT_FAILURE_WITHOUT_FIX"],
      slaBreachRisk := "MEDIUM",
      explain :=
        "The site has multiple unresolved RCAs, indicating weak problem closure discipline." },
    { id := "HIS020", name := "Incident closed without RCA", priority := 935,
      conditions := node "and" [node "==" [var "incident.previousIncidentClosedWithoutRca",
        .bool true], node "==" [var "incident.sameSignatureAsPrevious", .bool true]],
      decision := "REOPEN_AND_ESCALATE", hisPriority := "P1", confidence := decimal 95 2,
        assignmentGroup := "Problem Management", escalationLevel := 2,
      reasonCodes := ["NO_RCA_PREVIOUSLY", "RECURRING_SIGNATURE"],
      slaBreachRisk := "HIGH",
      explain := "The issue recurred after a previous closure without root-cause analysis." },
    { id := "HIS021", name := "Auto-close failure rate high", priority := 930,
      conditions := node "and" [node ">=" [var "asset.autoCloseFailureRate30d", decimal 25 2],
        node "==" [var "incident.autoClosed", .bool true]],
      decision := "KEEP_OPEN_FOR_REVIEW", hisPriority := "P2", confidence := decimal 9 1,
        assignmentGroup := "NOC Supervisor", escalationLevel := 1,
      reasonCodes := ["AUTO_CLOSE_UNRELIABLE", "QUALITY_CONTROL_REQUIRED"],
      slaBreachRisk := "MEDIUM",
      explain := "Automated closure has a high failure rate, so manual review is safer." },
    { id := "HIS022", name := "Low MTBSI", priority := 975,
      conditions := node "and" [node "<" [var "asset.mtbsiHours", .int 72],
        node ">=" [var "incident.serviceImpactMinutes", .int 10]],
      decision := "ESCALATE_ENGINEERING", hisPriority := "P1", confidence := decimal 98 2,
        assignmentGroup := "Engineering L3", escalationLevel := 3,
      reasonCodes := ["LOW_MTBSI", "SERVICE_RELIABILITY_DEGRADATION"],
      slaBreachRisk := "HIGH",
      explain :=
        "Mean Time Between Service Impact is below acceptable levels, showing persistent " ++
          "instability." },
    { id := "HIS023", name := "Rising customer complaints", priority := 945,
      conditions := node "and" [node ">=" [var "customer.complaints24h", .int 20],
        node ">=" [var "customer.complaintTrend7d", decimal 2 1]],
      decision := "ESCALATE_MAJOR_INCIDENT", hisPriority := "P1", confidence := decimal 94 2,
        assignmentGroup := "Major Incident Management", escalationLevel := 2,
      reasonCodes := ["CUSTOMER_COMPLAINT_SPIKE", "WIDESPREAD_IMPACT"],
      slaBreachRisk := "HIGH",
      explain :=
        "Customer complaints are increasing sharply, suggesting material business impact." },
    { id := "HIS024", name := "Frequent handover failures", priority := 925,
      conditions := node "and" [node ">=" [var "metrics.handoverFailureRate", .int 5],
        node "==" [var "asset.sameSiteRepeat", .bool true]],
      decision := "RAN_PARAMETER_TUNING", hisPriority := "P2", confidence := decimal 9 1,
        assignmentGroup := "RAN Engineering", escalationLevel := 1,
      reasonCodes := ["HANDOVER_FAILURE_PATTERN", "CELL_EDGE_IMPAIRMENT"],
      slaBreachRisk := "MEDIUM",
      explain := "Handover failures at the same site indicate RF, neighbor, or parameter issues." },
    { id := "HIS025", name := "Recurring backhaul congestion", priority := 950,
      conditions := node "and" [node "==" [var "asset.backhaulCongestionRecurring", .bool true],
        node ">=" [var "metrics.backhaulUtilizationPercent", .int 85]],
      decision := "ESCALATE_TRANSPORT_CAPACITY", hisPriority := "P1", confidence := decimal 96 2,
        assignmentGroup := "Transport Capacity Team", escalationLevel := 2,
      reasonCodes := ["RECURRING_BACKHAUL_CONGESTION", "BACKHAUL_BOTTLENECK"],
      slaBreachRisk := "HIGH",
      explain :=
        "Repeated backhaul congestion is a structural transport constraint, not a transient " ++
          "symptom." },
    { id := "HIS026", name := "CPU spikes before outage", priority := 940,
      conditions := node "and" [node ">=" [var "metrics.cpuSpikeCount24h", .int 3],
        node "==" [var "asset.outageFollowedByCpuSpike", .bool true]],
      decision := "ESCALATE_PLATFORM_ENGINEERING", hisPriority := "P1", confidence := decimal 93 2,
        assignmentGroup := "Platform / Core Engineering", escalationLevel := 2,
      reasonCodes := ["CPU_PRESSURE_PRECEDES_OUTAGE", "RESOURCE_EXHAUSTION"],
      slaBreachRisk := "HIGH",
      explain :=
        "CPU spikes frequently precede outages, indicating resource starvation or software " ++
          "defects." },
    { id := "HIS027", name := "Memory leak pattern", priority := 945,
      conditions := node "and" [node "==" [var "asset.memoryLeakPatternObserved", .bool true],
        node ">=" [var "metrics.memoryUsagePercent", .int 85]],
      decision := "ESCALATE_VENDOR_AND_ENGINEERING", hisPriority := "P1",
        confidence := decimal 97 2, assignmentGroup := "Vendor Support / Engineering",
        escalationLevel := 3,
      reasonCodes := ["MEMORY_LEAK", "SOFTWARE_DEGRADATION"],
      slaBreachRisk := "HIGH",
      explain :=
        "A memory leak pattern strongly indicates a software defect requiring engineering or " ++
          "vendor intervention." },
    { id := "HIS028", name := "Repeat synchronization failures", priority := 955,
      conditions := node "and" [node ">=" [var "asset.syncFailureCount24h", .int 3],
        node "in" [var "incident.symptomType", .list [.str "sync_loss", .str "gps_drift",
        .str "timing_alarm"]]],
      decision := "ESCALATE_TIMING_TEAM", hisPriority := "P1", confidence := decimal 98 2,
        assignmentGroup := "Timing / Sync Engineering", escalationLevel := 2,
      reasonCodes := ["REPEATED_SYNC_FAILURE", "TIMING_RISK"],
      slaBreachRisk := "HIGH",
      explain :=
        "Repeated synchronization failures can destabilize RAN, transport, and service " ++
          "continuity." },
    { id := "HIS029", name := "Repeat GPS clock failures", priority := 960,
      conditions := node "and" [node "==" [var "asset.gpsClockRepeatFailure", .bool true],
        node ">=" [var "metrics.gpsClockAlarmCount7d", .int 2]],
      decision := "DISPATCH_TIMING_FIELD", hisPriority := "P1", confidence := decimal 98 2,
        assignmentGroup := "Timing Field Engineering", escalationLevel := 3,
      reasonCodes := ["GPS_CLOCK_REPEAT_FAILURE", "TIMING_SOURCE_INSTABILITY"],
      slaBreachRisk := "HIGH",
      explain :=
        "Repeated GPS clock failures are a serious timing fault and require immediate " ++
          "specialist attention." },
    { id := "HIS030", name := "Vendor patch available", priority := 900,
      conditions := node "and" [node "==" [var "asset.vendorPatchAvailable", .bool true],
        node "==" [var "incident.matchesKnownIssue", .bool true]],
      decision := "PLAN_PATCH_DEPLOYMENT", hisPriority := "P2", confidence := decimal 91 2,
        assignmentGroup := "Engineering / Vendor Support", escalationLevel := 1,
      reasonCodes := ["PATCH_AVAILABLE", "KNOWN_ISSUE_MATCH"],
      slaBreachRisk := "MEDIUM",
      explain :=
        "A vendor patch exists for the known issue, making patch planning the appropriate next " ++
          "step." }
  ]

/-- The body of the loop of `load_historical_pattern_rules`. -/
def transpile (r : HistoricalRule) : Rule where
  ruleCode := r.id
  name := r.name
  description := r.explain
  family := "HISTORICAL_OPERATIONAL_PATTERN"
  familyOrder := 12
  priorityWeight := r.priority
  severityBand := none
  contributionScore := none
  conditions := ⟨IncidentPrefix.stripIncidentPrefix r.conditions⟩
  exceptions := none
  conflictGroup := some "his-decision"
  conflictsWith := []
  isSuppressor := false
  nonSuppressible := false
  cooldownMinutes := 0
  actions := Dict.ofList [("hisDecision", .str r.decision), ("hisPriority", .str r.hisPriority),
    ("hisConfidence", r.confidence), ("hisAssignmentGroup", .str r.assignmentGroup),
    ("hisEscalationLevel", .int r.escalationLevel),
    ("hisReasonCodes", .list (r.reasonCodes.map .str)), ("hisSlaBreachRisk", .str r.slaBreachRisk)]
  mitigations := Dict.empty
  sequencing := none
  slaTarget := none
  ruleStatus := "ACTIVE"
  enabled := r.enabled
  id := none

/-- `load_historical_pattern_rules` -/
def loadHistoricalPatternRules : List Rule := historicalPatternRules.map transpile

end HistoricalPatternRulePack

end PulseGuard
