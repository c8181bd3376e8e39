import PulseGuard.Native.RulePacks.Base

/-!
# The industry SOP rules

`industry_sop_rules.json`, in the schema of the base pack
(`app/infrastructure/repositories/industry_sop_rule_pack_loader.py`).
-/

namespace PulseGuard

namespace IndustrySop

open Fixture

/-- The rules of `industry_sop_rules.json`. -/
def industrySopRules : List SeedRule := [
    { ruleCode := "SOP-VEN-001",
        name := "Vendor-Attributed Root Cause Escalation (Underpinning Contract)",
      description :=
        "Root cause has been attributed to a vendor-supplied component covered by an " ++
          "Underpinning Contract (UPC); standard vendor-management SOP is to escalate through " ++
          "the vendor's contractual support channel with its own response-time clock, rather " ++
          "than routing to internal engineering alone. The action field this writes, " ++
          "escalateVendor, was already declared in the base rule pack's vocabulary but no rule " ++
          "ever set it.",
      family := "OPERATIONAL_FEASIBILITY", familyOrder := 5, priorityWeight := 55,
        contributionScore := some 12,
      conditions := node "and" [node "==" [var "rootCauseVendorAttributed", .bool true],
        node "==" [var "vendorContractHasUpc", .bool true]],
      actions := [("escalateVendor", .bool true),
        ("vendorEscalationChannel", .str "upc_priority_queue"),
        ("vendorResponseDeadlineMinutes", .int 60), ("notifyNOC", .bool true)] },
    { ruleCode := "SOP-CHG-001", name := "Change Freeze Violation",
      description :=
        "A change linked to this incident was made during a declared change-freeze window (e.g. " ++
          "holiday freeze, peak-event blackout) without emergency-change approval -- a " ++
          "change-freeze policy violation under standard ITIL/CAB governance, distinct from the " ++
          "existing unapproved-maintenance rules (which fire on changeApproved==false; a freeze " ++
          "violation can occur even with normal approval, since a freeze requires additional " ++
          "emergency sign-off beyond the standard approval process). Requires Change Advisory " ++
          "Board review; priority is floored at High regardless of technical severity, since " ++
          "the freeze violation itself is an operational governance failure worth surfacing on " ++
          "its own.",
      family := "TEMPORAL", familyOrder := 4, priorityWeight := 50, contributionScore := some 15,
      conditions := node "and" [node "==" [var "changeFreezeActive", .bool true],
        node "==" [var "changeLinkedToIncident", .bool true],
        node "==" [var "changeEmergencyApproved", .bool false]],
      actions := [("changeFreezeViolation", .bool true),
        ("escalateChangeAdvisoryBoard", .bool true), ("notifyNOC", .bool true),
        ("priorityFloor", .str "High")] },
    { ruleCode := "SOP-REG-001", name := "Mass Regional Outage -- Regulatory Reporting Threshold",
      description :=
        "Estimated user-minutes of impact (affected users x outage duration) crosses the " ++
          "mass-outage regulatory reporting threshold used by major telecom regulators (e.g. " ++
          "FCC NORS-style 900,000 user-minutes, and comparable Ofcom/TRAI thresholds), " ++
          "independent of whether emergency services are affected. R008/R020 already cover the " ++
          "emergency-services-line trigger for regulatoryReportingRequired; this closes the " ++
          "separate, broader mass-outage-scale trigger the base pack's own vocabulary " ++
          "anticipated (regulatoryReportingDeadlineHours already exists as a field, used here " ++
          "for the standard 24-hour reporting window) but never populated for this case. Formal " ++
          "regulatory reporting is required; priority is nudged up one level (not force-set), " ++
          "consistent with how R013/R016-style modifiers already behave.",
      family := "SAFETY_REGULATORY", familyOrder := 1, priorityWeight := 92,
        contributionScore := some 20,
      conditions := node "and" [node ">=" [node "*" [var "affectedUsers",
        var "outageDurationMinutes"], .int 900000], node "==" [var "serviceImpact", .bool true]],
      nonSuppressible := true,
      actions := [("regulatoryReportingRequired", .bool true),
        ("regulatoryReportingDeadlineHours", .int 24), ("notifyNOC", .bool true),
        ("priorityBumpOneLevel", .bool true)] }
  ]

/-- `load_industry_sop_rules` -/
def loadIndustrySopRules : List Rule := industrySopRules.map SeedRule.parseRule

end IndustrySop

end PulseGuard
