import PulseGuard.Native.Rule

/-!
# The base rule pack

`rules-seed.json` and the loader of `InMemoryRuleRepository`
(`app/infrastructure/repositories/in_memory_rule_repository.py`). A key whose value is the
one the loader supplies by default is left out of an entry.
-/

namespace PulseGuard

namespace Fixture

/-- `{"var": path}` -/
def var (path : String) : PyVal := .dict [("var", .str path)]

/-- `{operator: [..]}` -/
def node (operator : String) (args : List PyVal) : PyVal := .dict [(operator, .list args)]

/-- The JSON number `n / 10 ^ places`. -/
def decimal (n : Int) (places : Nat) : PyVal := .float (PyFloat.ofRat (mkRat n (10 ^ places)))

end Fixture

/-- One rule in the project's own JSON schema, with the keys that `_parse_rule` requires
    and the defaults it supplies for the others. -/
structure SeedRule where
  ruleCode : String
  name : String
  description : String := ""
  family : String
  familyOrder : Int
  priorityWeight : Int
  severityBand : Option String := none
  contributionScore : Option Int := none
  conditions : PyVal
  exceptions : PyVal := .none
  conflictGroup : Option String := none
  conflictsWith : List String := []
  isSuppressor : Bool := false
  nonSuppressible : Bool := false
  cooldownMinutes : Int := 0
  actions : List (String × PyVal) := []
  mitigations : List (String × PyVal) := []
  sequencing : Option (List (String × PyVal)) := none
  slaTarget : Option String := none
  ruleStatus : String := "ACTIVE"

/-- `_parse_rule` -/
def SeedRule.parseRule (r : SeedRule) : Rule where
  ruleCode := r.ruleCode
  name := r.name
  description := r.description
  family := r.family
  familyOrder := r.familyOrder
  priorityWeight := r.priorityWeight
  severityBand := r.severityBand
  contributionScore := r.contributionScore
  conditions := ⟨r.conditions⟩
  exceptions := if r.exceptions.truthy then some ⟨r.exceptions⟩ else none
  conflictGroup := r.conflictGroup
  conflictsWith := r.conflictsWith
  isSuppressor := r.isSuppressor
  nonSuppressible := r.nonSuppressible
  cooldownMinutes := r.cooldownMinutes
  actions := Dict.ofList r.actions
  mitigations := Dict.ofList r.mitigations
  sequencing := r.sequencing.map Dict.ofList
  slaTarget := r.slaTarget
  ruleStatus := r.ruleStatus
  enabled := true
  id := none

namespace InMemoryRuleRepository

open Fixture

/-- The rules of `rules-seed.json`. -/
def rulesSeed : List SeedRule := [
    { ruleCode := "R008", name := "Emergency services network affected",
      description :=
        "Incident impacts infrastructure carrying emergency call routing (112/911 equivalents) " ++
          "or hospital/emergency-service dependent links.",
      family := "SAFETY_REGULATORY", familyOrder := 1, priorityWeight := 100,
        severityBand := some "Critical", contributionScore := some 40,
      conditions := node "==" [var "emergencyServicesAffected", .bool true],
      conflictGroup := some "priority", nonSuppressible := true,
      actions := [("priority", .str "Critical"), ("dispatchEngineer", .bool true),
        ("notifyNOC", .bool true), ("rerouteTraffic", .bool true),
        ("customerNotification", .bool true), ("regulatoryReportingRequired", .bool true)],
      mitigations := [("openWarRoom", .bool true)],
      slaTarget := some "10 minutes" },
    { ruleCode := "R020", name := "Emergency alert broadcast dependency affected",
      description :=
        "Cell Broadcast / emergency alert system dependency impacted — carries regulatory " ++
          "reporting obligations.",
      family := "SAFETY_REGULATORY", familyOrder := 1, priorityWeight := 98,
        severityBand := some "Critical", contributionScore := some 38,
      conditions := node "==" [var "emergencyAlertSystemAffected", .bool true],
      conflictGroup := some "priority", nonSuppressible := true,
      actions := [("priority", .str "Critical"), ("regulatoryReportingRequired", .bool true),
        ("regulatoryReportingDeadlineHours", .int 4), ("notifyNOC", .bool true),
        ("dispatchEngineer", .bool true)] },
    { ruleCode := "R015", name := "Suspected DDoS / traffic anomaly",
      description :=
        "Sudden traffic spike beyond 300% of rolling baseline combined with a multi-source-IP " ++
          "anomaly flag from the monitoring system.",
      family := "SAFETY_REGULATORY", familyOrder := 1, priorityWeight := 90,
        severityBand := some "Critical", contributionScore := some 35,
      conditions := node "and" [node ">" [var "trafficSpikePercent", .int 300],
        node "==" [var "anomalyFlag", .bool true]],
      conflictGroup := some "priority", conflictsWith := ["R012"], nonSuppressible := true,
      actions := [("priority", .str "Critical"), ("routeToSecurityTeam", .bool true),
        ("isolateNetworkSegment", .bool true), ("notifyNOC", .bool true)],
      mitigations := [("openWarRoom", .bool true), ("throttleNonCriticalWork", .bool true)] },
    { ruleCode := "R032", name := "Unauthorized access / physical tampering",
      description :=
        "Tower intrusion, physical tampering, unauthorized device login, or multi-SIM-fraud " ++
          "signal detected. Routed to the Security Operations Center instead of standard NOC " ++
          "dispatch — this is a security incident, not a network fault.",
      family := "SAFETY_REGULATORY", familyOrder := 1, priorityWeight := 88,
        severityBand := some "Critical", contributionScore := some 35,
      conditions := node "or" [node "==" [var "physicalTamperingDetected", .bool true],
        node "==" [var "unauthorizedAccessDetected", .bool true]],
      conflictGroup := some "priority", nonSuppressible := true,
      actions := [("priority", .str "Critical"), ("routeToSecurityOperationsCenter", .bool true),
        ("notifyNOC", .bool true)],
      mitigations := [("openWarRoom", .bool true)] },
    { ruleCode := "R001", name := "Mass user impact",
      description := "More than 10,000 users affected by a single incident.",
      family := "NETWORK_IMPACT", familyOrder := 2, priorityWeight := 90,
        severityBand := some "Critical", contributionScore := some 30,
      conditions := node ">" [var "affectedUsers", .int 10000],
      exceptions := node "or" [node "==" [var "context.activeParentIncidentOnSameAsset",
        .bool true], node "==" [var "context.duplicateOfExistingMajorIncident", .bool true]],
      conflictGroup := some "priority", conflictsWith := ["R002", "R003"],
      actions := [("priority", .str "Critical"), ("dispatchEngineer", .bool true),
        ("notifyNOC", .bool true), ("rerouteTraffic", .bool true),
        ("customerNotification", .bool true)] },
    { ruleCode := "R028", name := "Core network asset failure",
      description :=
        "Failure at Core Router, International Gateway, 5G Core, Regional POP, or Data Center " ++
          "Switch tier carries a disproportionate blast radius versus edge assets (small cell) " ++
          "and often under-reports affected-user count early in the incident lifecycle. " ++
          "Elevates priority on asset tier alone, independent of currently-known user impact.",
      family := "NETWORK_IMPACT", familyOrder := 2, priorityWeight := 82,
        severityBand := some "Critical", contributionScore := some 35,
      conditions := node "in" [var "assetTier", .list [.str "Core Router",
        .str "International Gateway", .str "5G Core", .str "Regional POP",
        .str "Data Center Switch"]],
      conflictGroup := some "priority",
      actions := [("priority", .str "Critical"), ("dispatchEngineer", .bool true),
        ("notifyNOC", .bool true), ("rerouteTraffic", .bool true)],
      mitigations := [("openWarRoom", .bool true)] },
    { ruleCode := "R014", name := "Fiber cut — specialist routing",
      description :=
        "Fiber cuts are routed to the specialist fiber team and rerouted immediately regardless " ++
          "of SLA tier. Backbone-tier cuts are additionally caught by R028 (asset tier) and " ++
          "typically also trip R001 once downstream user impact is measured.",
      family := "NETWORK_IMPACT", familyOrder := 2, priorityWeight := 75,
        severityBand := some "High", contributionScore := some 30,
      conditions := node "==" [var "incidentType", .str "Fiber Cut"],
      cooldownMinutes := 15,
      actions := [("dispatchEngineer", .bool true), ("routeToTeam", .str "fiber-specialist"),
        ("rerouteTraffic", .bool true), ("notifyNOC", .bool true)] },
    { ruleCode := "R012", name := "High network congestion",
      description :=
        "Network load above 90% capacity triggers automatic traffic rerouting. Does not fire " ++
          "for congestion that is expected/known during an active maintenance window.",
      family := "NETWORK_IMPACT", familyOrder := 2, priorityWeight := 70,
        severityBand := some "High", contributionScore := some 18,
      conditions := node ">" [var "networkLoad", .int 90],
      exceptions := node "==" [var "maintenanceWindow", .bool true],
      conflictsWith := ["R015"], cooldownMinutes := 15,
      actions := [("rerouteTraffic", .bool true), ("notifyNOC", .bool true)] },
    { ruleCode := "R002", name := "Moderate user impact",
      description := "Between 1,000 and 10,000 users affected.",
      family := "NETWORK_IMPACT", familyOrder := 2, priorityWeight := 60,
        severityBand := some "High", contributionScore := some 18,
      conditions := node "and" [node ">" [var "affectedUsers", .int 1000],
        node "<=" [var "affectedUsers", .int 10000]],
      exceptions := node "or" [node "==" [var "context.activeParentIncidentOnSameAsset",
        .bool true], node "==" [var "context.duplicateOfExistingMajorIncident", .bool true]],
      conflictGroup := some "priority", conflictsWith := ["R001", "R003"], cooldownMinutes := 30,
      actions := [("priority", .str "High"), ("dispatchEngineer", .bool true),
        ("notifyNOC", .bool true)] },
    { ruleCode := "R003", name := "Minor user impact",
      description := "Fewer than 1,000 users affected.",
      family := "NETWORK_IMPACT", familyOrder := 2, priorityWeight := 20,
        severityBand := some "Low", contributionScore := some 5,
      conditions := node "<" [var "affectedUsers", .int 1000],
      conflictGroup := some "priority", conflictsWith := ["R001", "R002"], cooldownMinutes := 60,
      actions := [("priority", .str "Low"), ("notifyNOC", .bool true)] },
    { ruleCode := "R007", name := "VIP customers impacted",
      description := "One or more VIP-tier customers affected by the incident.",
      family := "CUSTOMER_VALUE", familyOrder := 3, priorityWeight := 85,
        severityBand := some "Critical", contributionScore := some 20,
      conditions := node "==" [var "vipCustomersAffected", .bool true],
      conflictGroup := some "priority",
      actions := [("priority", .str "Critical"), ("notifyAccountManager", .bool true),
        ("customerNotification", .bool true)] },
    { ruleCode := "R025", name := "Regulated / critical-sector customer floor",
      description :=
        "Incident affects a hospital, financial institution, public-safety, or other " ++
          "regulated/critical-sector customer (government, airport, railway, defense, bank). " ++
          "Forces a minimum severity floor of High regardless of raw affected-user count. " ++
          "Non-suppressible: a maintenance window does not lower this floor.",
      family := "CUSTOMER_VALUE", familyOrder := 3, priorityWeight := 78,
        severityBand := some "High", contributionScore := some 22,
      conditions := node "==" [var "context.regulatedSectorCustomerAffected", .bool true],
      conflictGroup := some "priority", conflictsWith := ["R011"], nonSuppressible := true,
      actions := [("priorityFloor", .str "High"), ("notifyNOC", .bool true),
        ("customerNotification", .bool true)] },
    { ruleCode := "R004", name := "Gold SLA customer",
      description :=
        "Incident affects customers on a Gold SLA tier, which contractually requires a " ++
          "15-minute response target.",
      family := "CUSTOMER_VALUE", familyOrder := 3, priorityWeight := 80,
        severityBand := some "Critical", contributionScore := some 15,
      conditions := node "==" [var "slaTier", .str "Gold"],
      conflictGroup := some "sla-target", conflictsWith := ["R005", "R006"],
      actions := [("targetSLA", .str "15 minutes"), ("priority", .str "Critical")],
      slaTarget := some "15 minutes" },
    { ruleCode := "R005", name := "Silver SLA customer",
      description := "Silver SLA tier — 60-minute response target.",
      family := "CUSTOMER_VALUE", familyOrder := 3, priorityWeight := 50,
        contributionScore := some 8,
      conditions := node "==" [var "slaTier", .str "Silver"],
      conflictGroup := some "sla-target", conflictsWith := ["R004", "R006"],
      actions := [("targetSLA", .str "60 minutes")],
      slaTarget := some "60 minutes" },
    { ruleCode := "R006", name := "Bronze / no SLA",
      description := "Default SLA target when no tier is set or tier is Bronze.",
      family := "CUSTOMER_VALUE", familyOrder := 3, priorityWeight := 20,
        contributionScore := some 2,
      conditions := node "or" [node "==" [var "slaTier", .str "Bronze"], node "==" [var "slaTier",
        .none]],
      conflictGroup := some "sla-target", conflictsWith := ["R004", "R005"],
      actions := [("targetSLA", .str "4 hours")],
      slaTarget := some "4 hours" },
    { ruleCode := "R013", name := "Peak business hours amplifier",
      description :=
        "Incidents during regional peak business/commuting hours (09:00-21:00 local) affecting " ++
          "more than 1,000 users are bumped up one priority tier because business/customer " ++
          "impact is highest.",
      family := "TEMPORAL", familyOrder := 4, priorityWeight := 45, contributionScore := some 8,
      conditions := node "and" [node "==" [var "context.isPeakHoursLocal", .bool true],
        node ">" [var "affectedUsers", .int 1000]],
      actions := [("priorityBumpOneLevel", .bool true)] },
    { ruleCode := "R024", name := "Off-hours / holiday low-impact window",
      description :=
        "Incident occurs during an approved off-hours, weekend, or public-holiday low-traffic " ++
          "window with fewer than 1,000 users affected. Relaxes the SLA target and slightly " ++
          "reduces the risk score, since overnight/holiday dispatch cost is higher and customer " ++
          "impact is proportionally lower.",
      family := "TEMPORAL", familyOrder := 4, priorityWeight := 25, severityBand := some "Low",
        contributionScore := some (-5),
      conditions := node "and" [node "==" [var "context.isOffHoursOrHoliday", .bool true],
        node "<" [var "affectedUsers", .int 1000]],
      conflictGroup := some "sla-target", conflictsWith := ["R004", "R005", "R006"],
      actions := [("targetSLA", .str "8 hours")],
      slaTarget := some "8 hours" },
    { ruleCode := "R033", name := "Cost optimization — remote fix available",
      description :=
        "A remote diagnostic/restart path exists and has a historically high success rate for " ++
          "this fault signature. Skip physical dispatch until the remote fix is attempted and " ++
          "fails — the execution plan tries the remote path first, with an automatic fallback " ++
          "to dispatch if it doesn't resolve within the window.",
      family := "OPERATIONAL_FEASIBILITY", familyOrder := 5, priorityWeight := 35,
        contributionScore := some 0,
      conditions := node "==" [var "context.remoteFixAvailable", .bool true],
      conflictGroup := some "dispatch-suppression", conflictsWith := ["R008", "R020", "R032"],
        isSuppressor := true, cooldownMinutes := 15,
      actions := [("dispatchEngineer", .bool false)],
      mitigations := [("fallbackToRemoteDiagnostics", .bool true)],
      sequencing := some [("tryFirst", .str "remoteRestart"),
        ("fallbackTo", .str "dispatchEngineer"), ("fallbackAfterMinutes", .int 15)] },
    { ruleCode := "R023", name := "Engineer capacity unavailable",
      description :=
        "No field engineer with the required skill/certification is available in the incident's " ++
          "region within the target SLA window. Falls back to remote diagnostics and queues " ++
          "physical dispatch to the next eligible team (regional pool, then vendor) instead of " ++
          "silently failing to act.",
      family := "OPERATIONAL_FEASIBILITY", familyOrder := 5, priorityWeight := 55,
        contributionScore := some 6,
      conditions := node "==" [var "context.engineerCapacityAvailable", .bool false],
      cooldownMinutes := 15,
      actions := [("dispatchEngineer", .bool false),
        ("queueDispatchWhenCapacityAvailable", .bool true), ("routeToNextEligibleTeam", .bool true),
        ("notifyNOC", .bool true)],
      mitigations := [("fallbackToRemoteDiagnostics", .bool true)] },
    { ruleCode := "R029", name := "Automation — known firmware bug auto-remediation",
      description :=
        "Packet loss exceeds 20% and the fault signature matches a known firmware bug in the " ++
          "vendor bug database. The engine restarts the affected interface automatically with " ++
          "no human in the loop, logs the action as an autonomous system action, and " ++
          "re-evaluates the incident afterward.",
      family := "OPERATIONAL_FEASIBILITY", familyOrder := 5, priorityWeight := 48,
        contributionScore := some 5,
      conditions := node "and" [node ">" [var "packetLossPercent", .int 20],
        node "==" [var "context.knownFirmwareBugMatch", .bool true]],
      cooldownMinutes := 10,
      actions := [("autoRemediate", .bool true), ("autoRemediateAction", .str "restartInterface"),
        ("notifyNOC", .bool true)] },
    { ruleCode := "R010", name := "Severe weather dispatch delay",
      description :=
        "Severe weather in the incident's region makes field dispatch unsafe/impractical. " ++
          "Delays physical dispatch and pauses SLA-breach penalties without downgrading " ++
          "customer communication; falls back to remote diagnostics first.",
      family := "OPERATIONAL_FEASIBILITY", familyOrder := 5, priorityWeight := 40,
        contributionScore := some 5,
      conditions := node "==" [var "weatherSeverity", .str "Severe"],
      conflictGroup := some "dispatch-suppression", conflictsWith := ["R008", "R020"],
        isSuppressor := true, cooldownMinutes := 30,
      actions := [("dispatchEngineer", .bool false), ("delayFieldDispatch", .bool true),
        ("pauseSLAClock", .bool true), ("customerNotification", .bool true),
        ("customerNotificationReason", .str "weather_delay")],
      mitigations := [("fallbackToRemoteDiagnostics", .bool true)] },
    { ruleCode := "R037", name := "High-risk geographic zone — security escort",
      description :=
        "Incident site falls within a designated high-risk zone (flood zone, high-crime area, " ++
          "active political-rally or major-sports-event perimeter). Field dispatch requires a " ++
          "security escort or delayed access; the execution plan and ETA must account for it. " ++
          "Same pattern extends to other geographic modifiers (border region, industrial area) " ++
          "by adding a matching context flag.",
      family := "OPERATIONAL_FEASIBILITY", familyOrder := 5, priorityWeight := 38,
        contributionScore := some 6,
      conditions := node "==" [var "context.highRiskZone", .bool true],
      cooldownMinutes := 30,
      actions := [("requireSecurityEscort", .bool true), ("delayFieldDispatch", .bool true)],
      mitigations := [("fallbackToRemoteDiagnostics", .bool true)] },
    { ruleCode := "R018", name := "Flapping tower",
      description :=
        "Same tower reports up/down transitions more than 5 times within 1 hour. Suppresses " ++
          "repeat dispatch storms and opens a single root-cause ticket instead.",
      family := "REPETITION_ESCALATION", familyOrder := 6, priorityWeight := 60,
        contributionScore := some 10,
      conditions := node ">" [var "context.towerFlapCount1Hour", .int 5],
      conflictGroup := some "dispatch-suppression", conflictsWith := ["R008"], isSuppressor := true,
        cooldownMinutes := 60,
      actions := [("dispatchEngineer", .bool false), ("openRootCauseInvestigation", .bool true),
        ("notifyNOC", .bool true)] },
    { ruleCode := "R027", name := "Vendor / firmware recurrence across assets",
      description :=
        "The same vendor/firmware fault signature has recurred across 3 or more distinct assets " ++
          "within 24 hours — signals a vendor-side defect rather than isolated hardware " ++
          "failure. Escalates to the vendor account team in parallel with local fixes.",
      family := "REPETITION_ESCALATION", familyOrder := 6, priorityWeight := 58,
        contributionScore := some 12,
      conditions := node ">=" [var "context.sameVendorFaultAssetCount24h", .int 3],
      cooldownMinutes := 1440,
      actions := [("flagForInfrastructureReview", .bool true)],
      mitigations := [("escalateVendor", .bool true)] },
    { ruleCode := "R009", name := "Repeated tower failures (chronic)",
      description :=
        "Tower has failed more than 3 times in the trailing 30 days — signals a hardware/infra " ++
          "problem, not a one-off event. Opens a problem-management record distinct from the " ++
          "incident itself.",
      family := "REPETITION_ESCALATION", familyOrder := 6, priorityWeight := 55,
        severityBand := some "Medium", contributionScore := some 12,
      conditions := node ">" [var "historicalFailures", .int 3],
      cooldownMinutes := 1440,
      actions := [("flagForInfrastructureReview", .bool true),
        ("dispatchSeniorEngineer", .bool true), ("openProblemManagementRecord", .bool true)] },
    { ruleCode := "R036", name := "Warranty expired / repeat repairs — recommend replacement",
      description :=
        "Asset hardware is past warranty and has accumulated 3 or more repair visits in the " ++
          "trailing 90 days. Recommends capital replacement instead of another repeat repair " ++
          "and flags for capital planning review — this is MTTR/MTBF-driven lifecycle " ++
          "reasoning, distinct from R009's shorter chronic-failure window.",
      family := "REPETITION_ESCALATION", familyOrder := 6, priorityWeight := 52,
        contributionScore := some 10,
      conditions := node "and" [node "==" [var "context.warrantyExpired", .bool true],
        node ">=" [var "context.repairVisitCount90Days", .int 3]],
      cooldownMinutes := 1440,
      actions := [("recommendHardwareReplacement", .bool true),
        ("flagForInfrastructureReview", .bool true)] },
    { ruleCode := "R017", name := "Mass outage / incident storm",
      description :=
        "More than 50 distinct incidents in the same region within a 10-minute window. Declares " ++
          "a Major Incident, merges duplicates, and throttles individual notifications.",
      family := "SUPPRESSION", familyOrder := 7, priorityWeight := 100,
        severityBand := some "Critical", contributionScore := some 45,
      conditions := node ">" [var "context.regionIncidentCount10Min", .int 50],
      conflictGroup := some "priority", isSuppressor := true,
      actions := [("priority", .str "Critical"), ("declareMajorIncident", .bool true),
        ("mergeDuplicateIncidents", .bool true),
        ("suppressIndividualCustomerNotifications", .bool true),
        ("notifyExecutiveEscalation", .bool true), ("notifyNOC", .bool true)],
      mitigations := [("openWarRoom", .bool true), ("throttleNonCriticalWork", .bool true)] },
    { ruleCode := "R011", name := "Active planned maintenance window",
      description :=
        "Incident falls inside an approved, active maintenance window for the same " ++
          "tower/segment. Suppresses dispatch and customer-facing noise unless a " ++
          "non-suppressible rule also matched.",
      family := "SUPPRESSION", familyOrder := 7, priorityWeight := 95,
        contributionScore := some (-20),
      conditions := node "==" [var "maintenanceWindow", .bool true],
      conflictGroup := some "dispatch-suppression", conflictsWith := ["R008", "R020", "R015",
        "R025", "R032"], isSuppressor := true,
      actions := [("dispatchEngineer", .bool false), ("customerNotification", .bool false),
        ("autoCloseAsExpected", .bool true), ("notifyNOC", .bool false)] },
    { ruleCode := "R034", name := "Correlation — multi-signal grid failure inference",
      description :=
        "Tower-down, fiber-down, and power-failure incidents reported for the same site/region " ++
          "within a short window are correlated into a single inferred root cause (power grid " ++
          "failure) rather than tracked as three unrelated incidents — consolidates the " ++
          "response instead of triple-dispatching.",
      family := "SUPPRESSION", familyOrder := 7, priorityWeight := 68, contributionScore := some 15,
      conditions := node ">=" [var "context.correlatedFaultTypesAtSite", .int 2],
      cooldownMinutes := 30,
      actions := [("correlateAsSingleRootCause", .bool true),
        ("inferredRootCause", .str "Power Grid Failure"), ("mergeDuplicateIncidents", .bool true)] },
    { ruleCode := "R026", name := "Escalation suppression — active parent incident on same asset",
      description :=
        "A higher- or equal-priority incident is already open and active on the same asset " ++
          "(tower/segment). Suppresses duplicate escalation/notification storms for follow-on " ++
          "alerts tied to the same root cause and links them as child events instead.",
      family := "SUPPRESSION", familyOrder := 7, priorityWeight := 62,
        contributionScore := some (-10),
      conditions := node "==" [var "context.activeParentIncidentOnSameAsset", .bool true],
      conflictGroup := some "dispatch-suppression", conflictsWith := ["R008", "R020", "R015",
        "R032"], isSuppressor := true, cooldownMinutes := 30,
      actions := [("notifyNOC", .bool false), ("customerNotification", .bool false),
        ("linkAsChildIncident", .bool true)] },
    { ruleCode := "R022", name := "Upstream dependency already resolved",
      description :=
        "The incident's root cause maps to an upstream dependency (core router, aggregation " ++
          "node) that has already been marked resolved by an earlier decision. Suppresses this " ++
          "as a residual/duplicate alert rather than re-dispatching.",
      family := "SUPPRESSION", familyOrder := 7, priorityWeight := 65,
        contributionScore := some (-15),
      conditions := node "==" [var "context.upstreamDependencyAlreadyResolved", .bool true],
      conflictGroup := some "dispatch-suppression", conflictsWith := ["R008", "R020"],
        isSuppressor := true, cooldownMinutes := 30,
      actions := [("dispatchEngineer", .bool false), ("autoCloseAsResolved", .bool true),
        ("notifyNOC", .bool false)] },
    { ruleCode := "R016", name := "Competitive churn risk",
      description :=
        "Region has repeated incidents in the trailing 7 days and overlaps with an area where a " ++
          "competitor (e.g. Vodafone, O2, 1&1) is running an active retention/acquisition " ++
          "campaign — customers here are more likely to switch providers after a bad experience.",
      family := "COMPETITIVE_RESILIENCE", familyOrder := 8, priorityWeight := 50,
        contributionScore := some 10,
      conditions := node "and" [node ">" [var "context.regionIncidentCount7Days", .int 3],
        node "==" [var "context.competitorCampaignActiveInRegion", .bool true]],
      cooldownMinutes := 1440,
      actions := [("notifyRetentionTeam", .bool true), ("priorityBumpOneLevel", .bool true)] },
    { ruleCode := "R021", name := "Social / PR escalation risk",
      description :=
        "Negative social-media mention volume about the outage is spiking — escalate to " ++
          "Communications/PR before it becomes a brand/competitive story.",
      family := "COMPETITIVE_RESILIENCE", familyOrder := 8, priorityWeight := 40,
        contributionScore := some 8,
      conditions := node "==" [var "context.negativeSocialMentionSpike", .bool true],
      cooldownMinutes := 30,
      actions := [("notifyPRTeam", .bool true), ("customerNotification", .bool true)] },
    { ruleCode := "R030", name := "Compliance — government/defense reroute restriction",
      description :=
        "Government or defense-classified network segments must not reroute traffic outside the " ++
          "originating region/network and must not fail over onto public internet paths, " ++
          "regardless of what impact rules recommend. Evaluated as a post-decision constraint, " ++
          "not a priority contender — see design doc §6.5.",
      family := "COMPLIANCE", familyOrder := 9, priorityWeight := 96, contributionScore := some 0,
      conditions := node "in" [var "context.customerSegment", .list [.str "Government",
        .str "Defense"]],
      nonSuppressible := true,
      actions := [("rerouteTrafficConstraint", .str "in-region-only"),
        ("publicInternetFailoverAllowed", .bool false)] },
    { ruleCode := "R031", name := "Compliance — GDPR customer notification restriction",
      description :=
        "For customers in a GDPR-scope region, automated customer notifications must exclude " ++
          "non-essential personal data fields and can only be sent via previously consented " ++
          "channels. Constrains the customerNotification action rather than suppressing it.",
      family := "COMPLIANCE", familyOrder := 9, priorityWeight := 90, contributionScore := some 0,
      conditions := node "==" [var "context.gdprScopeRegion", .bool true],
      nonSuppressible := true,
      actions := [("customerNotificationChannelConstraint", .str "consented-channels-only"),
        ("customerNotificationDataMinimization", .bool true)] }
  ]

/-- The pack `InMemoryRuleRepository` builds. -/
def getActive : RulePack where
  name := "noc-default"
  version := 3
  status := .active
  region := none
  rules := rulesSeed.map SeedRule.parseRule
  parentVersion := none
  id := none
  tenantId := none
  createdBy := "system"
  lockVersion := 1

end InMemoryRuleRepository

end PulseGuard
