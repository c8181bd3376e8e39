import PulseGuard.Native.ConflictResolver

/-!
# The decision pipeline

`PipelineOrchestrator.run` and the services it calls: rule evaluation, conflict
resolution, compliance, the SLA matrix, risk, the execution plan, the explanation and
the confidence score (`app/application/orchestrator.py`, `app/domain/services/`).
-/

namespace PulseGuard

/-- `Incident`, with the fields the pipeline reads. -/
structure Incident where
  incidentId : String
  payload : Dict String PyVal
  enrichedContext : Dict String PyVal
  degradedContext : Bool
  contextSourcesTotal : Int
  contextSourcesDegraded : Int

namespace Incident

/-- `as_evaluation_data`: the payload with the enrichment under `context`. -/
def asEvaluationData (incident : Incident) : PyVal :=
  .dict (incident.payload.set "context" (.dict incident.enrichedContext.entries)).entries

end Incident

/-- `MatchedRuleTrace` -/
structure MatchedRuleTrace where
  ruleCode : String
  name : String
  family : String
  priorityWeight : Int
  severityBand : Option String
  contributionScore : Option Int
deriving DecidableEq

/-- `RejectedRuleTrace` -/
structure RejectedRuleTrace where
  ruleCode : String
  name : String
  reason : String
deriving DecidableEq

namespace PolicyEngine

/-- `COMPLIANCE_FAMILY` -/
def complianceFamily : String := "COMPLIANCE"

/-- What the engine makes of one rule: passed over, matched or rejected. -/
inductive Verdict where
  | skipped
  | matched
  | rejected (reason : String)
deriving DecidableEq

/-- The body of the loop over the active rules. -/
def judge (data : PyVal) (rule : Rule) : Except PyError Verdict := do
  if rule.family == complianceFamily then return .skipped
  let vetoed ← match rule.exceptions with
    | none => .ok false
    | some exceptions => exceptions.isSatisfiedBy data
  if vetoed then return .rejected "self-vetoed by exceptions clause"
  if ← rule.conditions.isSatisfiedBy data then return .matched
  return .rejected "conditions not satisfied"

/-- The loop over the active rules. -/
def evaluateRules (data : PyVal) : List Rule → Except PyError (List Rule × List RejectedRuleTrace)
  | [] => .ok ([], [])
  | rule :: rest => do
    let verdict ← judge data rule
    let (matched, rejected) ← evaluateRules data rest
    return match verdict with
      | .skipped => (matched, rejected)
      | .matched => (rule :: matched, rejected)
      | .rejected reason => (matched, ⟨rule.ruleCode, rule.name, reason⟩ :: rejected)

/-- `PolicyEngine.evaluate` -/
def evaluate (rulePack : RulePack) (incident : Incident) :
    Except PyError (List Rule × List RejectedRuleTrace) :=
  evaluateRules incident.asEvaluationData (rulePack.activeRules none)

end PolicyEngine

/-- One entry of `compliance_constraints`. -/
structure ComplianceConstraint where
  ruleCode : String
  name : String
  applied : Dict String PyVal

namespace ComplianceApplier

/-- The loop over the compliance rules, from the actions and constraints gathered so far. -/
def applyRules (data : PyVal) (actions : Dict String PyVal)
    (constraints : List ComplianceConstraint) :
    List Rule → Except PyError (Dict String PyVal × List ComplianceConstraint)
  | [] => .ok (actions, constraints)
  | rule :: rest => do
    if ← rule.conditions.isSatisfiedBy data then
      applyRules data (actions.update rule.actions)
        (constraints ++ [⟨rule.ruleCode, rule.name, rule.actions⟩]) rest
    else applyRules data actions constraints rest

/-- `ComplianceApplier.apply` -/
def apply (rulePack : RulePack) (incident : Incident) (actions : Dict String PyVal) :
    Except PyError (Dict String PyVal × List ComplianceConstraint) :=
  applyRules incident.asEvaluationData actions []
    (rulePack.activeRules (some PolicyEngine.complianceFamily))

end ComplianceApplier

/-- One severity column of a tier's row in the SLA matrix. -/
structure SlaEntry where
  responseMinutes : Int
  resolutionMinutes : Int
deriving DecidableEq

/-- The SLA matrix: customer tier, then severity. -/
abbrev SlaMatrix := Dict String (Dict String SlaEntry)

namespace SlaMatrixLookup

/-- `_PRIORITY_TO_SEVERITY` -/
def priorityToSeverity : List (String × String) :=
  [("Critical", "SEV1_CRITICAL"), ("High", "SEV2_MAJOR"), ("Medium", "SEV3_MINOR"),
    ("Low", "SEV4_INFORMATIONAL")]

/-- `_PRIORITY_TO_SEVERITY.get(priority)` -/
def severityOf (priority : PyVal) : Except PyError (Option String) :=
  match priority with
  | .str s => .ok (Assoc.get? s priorityToSeverity)
  | v =>
    if v.hashable then .ok none
    else .error (.typeError ("unhashable type: '" ++ v.typeName ++ "'"))

/-- `SlaMatrixLookup.resolve` -/
def resolve (matrix : SlaMatrix) (customerTier priority : PyVal) :
    Except PyError (Option SlaEntry) := do
  if !customerTier.truthy || !priority.truthy then return none
  match ← severityOf priority with
  | none => return none
  | some severity => match customerTier with
    | .str tier => return (matrix.get? (PyStr.upper tier)).bind fun row => row.get? severity
    | _ => .error .attributeError

end SlaMatrixLookup

namespace RiskScorer

/-- `_BANDS` -/
def bands : List (Int × String) := [(30, "LOW"), (50, "MEDIUM"), (75, "HIGH")]

/-- The contributions of the matched rules that no suppression names, clamped to 0..120. -/
def total (matched : List Rule) (suppressedCodes : List String) : Int :=
  let counted := matched.filter fun r => !suppressedCodes.contains r.ruleCode
  max 0 (min (counted.map fun r => r.contributionScore.getD 0).sum 120)

/-- The band of a score. -/
def band (score : Int) : String :=
  match bands.find? fun b => score ≤ b.1 with
  | some b => b.2
  | none => "CRITICAL"

/-- `RiskScorer.score` -/
def score (matched : List Rule) (suppressedCodes : List String) : Int × String :=
  (total matched suppressedCodes, band (total matched suppressedCodes))

end RiskScorer

/-- One step of the execution plan; the base steps have no condition and no source. -/
structure PlanStep where
  order : Nat
  action : PyVal
  type : PyVal
  condition : Option String
  source : Option String

namespace ExecutionPlanBuilder

/-- `_BASE_PRECEDENCE` -/
def basePrecedence : List (String × String) :=
  [("autoRemediate", "Automated Remediation"), ("rerouteTraffic", "Traffic Reroute"),
    ("dispatchEngineer", "Dispatch Engineer"), ("customerNotification", "Customer Notification"),
    ("notifyNOC", "Notify NOC")]

/-- `seq[key]` -/
def required (sequencing : Dict String PyVal) (key : String) : Except PyError PyVal :=
  match sequencing.get? key with
  | some v => .ok v
  | none => .error (.keyError key)

/-- `inserted_types.add(v)` -/
def addType (types : List PyVal) (v : PyVal) : Except PyError (List PyVal) :=
  if v.hashable then .ok (types ++ [v])
  else .error (.typeError ("unhashable type: '" ++ v.typeName ++ "'"))

/-- The two steps of one rule's retry and fallback hint, numbered from `order` on, and the
    types it inserts. -/
def sequencedSteps (order : Nat) (rule : Rule) (sequencing : Dict String PyVal) :
    Except PyError (List PlanStep × List PyVal) := do
  let tryFirst ← required sequencing "tryFirst"
  let fallbackTo ← required sequencing "fallbackTo"
  let minutes := (sequencing.get? "fallbackAfterMinutes").getD (.str "?")
  let condition := "if " ++ tryFirst.toStr ++ " fails within " ++ minutes.toStr ++ " minutes"
  let types ← addType [] tryFirst
  let types ← addType types fallbackTo
  return ([⟨order, tryFirst, tryFirst, none, some rule.ruleCode⟩,
    ⟨order + 1, fallbackTo, fallbackTo, some condition, some rule.ruleCode⟩], types)

/-- The loop over the rules with a non-empty `sequencing`. -/
def sequencedPlan (plan : List PlanStep) (types : List PyVal) :
    List Rule → Except PyError (List PlanStep × List PyVal)
  | [] => .ok (plan, types)
  | rule :: rest =>
    match rule.sequencing.filter (!·.isEmpty) with
    | none => sequencedPlan plan types rest
    | some sequencing => do
      let (steps, inserted) ← sequencedSteps (plan.length + 1) rule sequencing
      sequencedPlan (plan ++ steps) (types ++ inserted) rest

/-- The base step of one field, when the field is true and no rule inserted its type. -/
def addBase (actions : Dict String PyVal) (types : List PyVal) (plan : List PlanStep)
    (entry : String × String) : List PlanStep :=
  let (field, label) := entry
  if ((actions.get? field).getD .none).truthy && !types.any (fun t => t.beq (.str field)) then
    plan ++ [⟨plan.length + 1, .str label, .str field, none, none⟩]
  else plan

/-- `ExecutionPlanBuilder.build` -/
def build (actions : Dict String PyVal) (matched : List Rule) :
    Except PyError (List PlanStep) := do
  let (plan, types) ← sequencedPlan [] [] matched
  return basePrecedence.foldl (addBase actions types) plan

end ExecutionPlanBuilder

namespace ExplainabilityBuilder

/-- `ExplainabilityBuilder.build`, on what it reads of its arguments. -/
def build (matched : List Rule) (riskScore : Int) (riskBand : String)
    (finalActions : Dict String PyVal) : String :=
  if matched.isEmpty then "No rules matched; incident routed to manual review."
  else
    let reasons := String.intercalate "; "
      (matched.map fun r => r.name ++ " (" ++ r.ruleCode ++ ")")
    let priority := ((finalActions.get? "priority").getD (.str "Unclassified")).toStr
    priority ++ " because: " ++ reasons ++ ". Risk score " ++ toString riskScore ++ " (" ++
      riskBand ++ " band) reflects combined signal weight and is used for triage ranking only, " ++
      "not as the priority driver."

/-- `matched_trace` -/
def matchedTrace (matched : List Rule) : List MatchedRuleTrace :=
  matched.map fun r =>
    ⟨r.ruleCode, r.name, r.family, r.priorityWeight, r.severityBand, r.contributionScore⟩

end ExplainabilityBuilder

namespace ConfidenceCalculator

/-- `ConfidenceCalculator.compute` -/
def compute (totalContextSources degradedSources : Int) : Except PyError PyFloat := do
  if totalContextSources ≤ 0 then return .fin 100
  let live := max (totalContextSources - degradedSources) 0
  let scaled := PyFloat.mul (.fin 100) (← PyVal.floatOfInt live)
  match ← PyVal.floatOfInt totalContextSources with
  | .fin total => return (scaled.divFin total).round2
  | _ => .error (.overflowError "int too large to convert to float")

end ConfidenceCalculator

/-- `Decision`, with the fields the pipeline fills in. -/
structure Decision where
  incidentId : String
  priority : PyVal
  riskScore : Int
  riskBand : String
  actions : Dict String PyVal
  mitigations : Dict String PyVal
  executionPlan : List PlanStep
  matchedRules : List MatchedRuleTrace
  rejectedRules : List RejectedRuleTrace
  suppressedRules : List SuppressedEntry
  complianceConstraints : List ComplianceConstraint
  confidenceScore : PyFloat
  degradedContext : Bool
  explanation : String

namespace PipelineOrchestrator

/-- The SLA defaults, filled in when a matrix is wired and no rule set a target. -/
def fillSla (matrix : Option SlaMatrix) (incident : Incident) (actions : Dict String PyVal) :
    Except PyError (Dict String PyVal) :=
  match matrix with
  | none => .ok actions
  | some matrix => do
    if actions.contains "targetSLA" then return actions
    let entry ← SlaMatrixLookup.resolve matrix
      ((incident.payload.get? "customerTier").getD .none)
      ((actions.get? "priority").getD .none)
    match entry with
    | none => return actions
    | some entry =>
      return (actions.set "targetSLA" (.str (toString entry.responseMinutes ++ " minutes"))).set
        "slaResolutionMinutes" (.int entry.resolutionMinutes)

/-- `context_sources_total or (len(enriched_context) or 1)` -/
def totalSources (incident : Incident) : Int :=
  if incident.contextSourcesTotal != 0 then incident.contextSourcesTotal
  else if incident.enrichedContext.isEmpty then 1
  else incident.enrichedContext.entries.length

/-- `context_sources_degraded or (1 if degraded_context else 0)` -/
def degradedSources (incident : Incident) : Int :=
  if incident.contextSourcesDegraded != 0 then incident.contextSourcesDegraded
  else if incident.degradedContext then 1
  else 0

/-- `PipelineOrchestrator.run`; `matrix` is the SLA matrix when one is wired in. -/
def run (matrix : Option SlaMatrix) (incident : Incident) (rulePack : RulePack) :
    Except PyError Decision := do
  let (matched, rejected) ← PolicyEngine.evaluate rulePack incident
  let resolution ← ConflictResolver.resolve matched
  let (actions, complianceConstraints) ←
    ComplianceApplier.apply rulePack incident resolution.actions
  let actions ← fillSla matrix incident actions
  let suppressedCodes := resolution.suppressed.map SuppressedEntry.ruleCode
  let (riskScore, riskBand) := RiskScorer.score matched suppressedCodes
  let executionPlan ← ExecutionPlanBuilder.build actions matched
  let confidenceScore ←
    ConfidenceCalculator.compute (totalSources incident) (degradedSources incident)
  return {
    incidentId := incident.incidentId
    priority := (actions.get? "priority").getD .none
    riskScore
    riskBand
    actions
    mitigations := resolution.mitigations
    executionPlan
    matchedRules := ExplainabilityBuilder.matchedTrace matched
    rejectedRules := rejected
    suppressedRules := resolution.suppressed
    complianceConstraints
    confidenceScore
    degradedContext := incident.degradedContext
    explanation := ExplainabilityBuilder.build matched riskScore riskBand actions }

end PipelineOrchestrator

end PulseGuard
