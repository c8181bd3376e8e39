import Mathlib.Data.List.Sort
import PulseGuard.Native.EvaluateIncident
import PulseGuard.Native.RulePackRepository

/-!
# Simulation

What-if analysis and historical replay, the resolution of the rule pack a request means, and the
routes that evaluate and simulate one incident (`app/application/use_cases/simulate_rules.py`,
`replay_simulation.py`, `rule_pack_resolution.py`, `app/interfaces/api/incident_router.py`,
`simulation_router.py`).
-/

namespace PulseGuard

variable {σ ρ : Type}

/-! ## Which rule pack a request means -/

/-- The reference to a rule pack in a request; an empty string is as none. -/
structure PackReference where
  packId : Option Uuid
  name : Option String
  version : Option Int

/-- The reference of a request that names no pack. -/
def PackReference.unnamed : PackReference := ⟨none, none, none⟩

/-- `rule_pack_ref_dict` -/
structure RulePackRef where
  source : String
  id : Option Uuid
  name : String
  version : Int
  status : PackStatus
  region : Option String
deriving DecidableEq

/-- `rule_pack_ref_dict` -/
def rulePackRefDict (pack : RulePack) (source : String) : RulePackRef :=
  ⟨source, pack.id, pack.name, pack.version, pack.status, pack.region⟩

/-- `raise ValueError(...)` of a request that names a pack where no repository is wired. -/
def noPackRepository (given : String) : PyError :=
  .valueError (given ++ " was given but no rule-pack repository is configured")

/-- `resolve_rule_pack` -/
def resolveRulePack (rules : RuleRepository) (packs : Option (RulePackRepository σ ρ)) (s : σ)
    (reference : PackReference) (region tenant : PyVal) : Except PyError (RulePack × String) :=
  match reference.packId, reference.name.filter (· != ""), reference.version with
  | some packId, _, _ =>
    match packs with
    | none => .error (noPackRepository "rulePackId")
    | some packs =>
      match packs.getById packId s with
      | none => .error (noSuchPack packId)
      | some ref => .ok (packs.pack s ref, "rule_pack")
  | none, some name, some version =>
    match packs with
    | none => .error (noPackRepository "rulePackName/rulePackVersion")
    | some packs =>
      match packs.get name version s with
      | none =>
        .error (.valueError ("No such rule pack: " ++ name ++ " v" ++ toString version))
      | some ref => .ok (packs.pack s ref, "rule_pack")
  | none, some name, none =>
    match packs with
    | none => .error (noPackRepository "rulePackName")
    | some packs =>
      match packs.getActive name region.str? s with
      | none => .error (.valueError ("No active rule pack named '" ++ name ++ "' for region=" ++
          region.repr))
      | some ref => .ok (packs.pack s ref, "rule_pack")
  | none, none, _ => do return (← rules.getActive region tenant, "hot_path_active")

/-! ## Requests -/

/-- The keys that an `IncidentEvaluateRequest` has beside its other fields. -/
def envelopeKeys : List String := ["incidentId", "context", "degradedContext"]

/-- `IncidentEvaluateRequest`: `fields` are the other fields, declared or extra, that
    `model_dump(exclude_none=True)` gives, the region and the tenant among them. -/
structure IncidentEvaluateRequest where
  incidentId : String
  fields : Dict String PyVal
  context : Option (Dict String PyVal)
  degradedContext : Option Bool
  apart : ∀ k ∈ envelopeKeys, fields.get? k = none

/-- `_incident_from_request`, and the incident that the evaluate route builds. -/
def incidentFromRequest (body : IncidentEvaluateRequest) : IncidentRecord where
  incidentId := body.incidentId
  payload := body.fields
  enrichedContext := body.context.getD Dict.empty
  degradedContext := body.degradedContext.getD false
  contextSourcesTotal := 0
  contextSourcesDegraded := 0
  status := "received"
  region := .none
  tenantId := .none

/-- `POST /api/v1/incidents/evaluate` -/
def evaluateIncident (useCase : EvaluateIncidentUseCase) (body : IncidentEvaluateRequest)
    (now : Int) (store : DecisionStore) : Except PyError DecisionRecord × DecisionStore :=
  let (decision, _, store) := useCase.execute (incidentFromRequest body) .none .none now store
  (decision, store)

/-! ## What-if -/

/-- `WhatIfSimulationUseCase`: the orchestrator is its SLA matrix. -/
structure WhatIfSimulationUseCase (σ ρ : Type) where
  ruleRepository : RuleRepository
  rulePackRepository : Option (RulePackRepository σ ρ)
  slaMatrix : Option SlaMatrix

/-- `what_if_simulation_use_case`: it shares the rule repository and the orchestrator of the
    evaluation (`app/interfaces/api/dependencies.py`). -/
def whatIfSimulationUseCase (production : EvaluateIncidentUseCase)
    (packs : Option (RulePackRepository σ ρ)) : WhatIfSimulationUseCase σ ρ where
  ruleRepository := production.ruleRepository
  rulePackRepository := packs
  slaMatrix := production.slaMatrix

/-- `WhatIfSimulationUseCase.execute` -/
def WhatIfSimulationUseCase.execute (useCase : WhatIfSimulationUseCase σ ρ)
    (incident : IncidentRecord) (reference : PackReference) (region tenant : PyVal) (s : σ) :
    Except PyError (Decision × RulePackRef) := do
  let (pack, source) ← resolveRulePack useCase.ruleRepository useCase.rulePackRepository s
    reference region tenant
  let decision ← PipelineOrchestrator.run useCase.slaMatrix incident.toIncident pack
  return (decision, rulePackRefDict pack source)

/-- `POST /api/v1/simulate` -/
def simulate (useCase : WhatIfSimulationUseCase σ ρ) (body : IncidentEvaluateRequest)
    (reference : PackReference) (region tenant : PyVal) (s : σ) :
    Except PyError (Decision × RulePackRef) :=
  useCase.execute (incidentFromRequest body) reference region tenant s

/-! ## Replay -/

/-- `{r.rule_code for r in decision.matched_rules}` -/
def matchedCodes (decision : Decision) : List String :=
  (decision.matchedRules.map MatchedRuleTrace.ruleCode).dedup

/-- `sorted(a - b)`, as a list is shown. -/
def sortedDifference (a b : List String) : String :=
  PyVal.repr (.list (((a.filter fun code => !b.contains code).insertionSort (· ≤ ·)).map .str))

/-- The lines on the matched rules of two decisions. -/
def codeChanges (original replayed : List String) : List String :=
  (if replayed.any fun code => !original.contains code then
    ["newly matched rules: " ++ sortedDifference replayed original] else []) ++
  (if original.any fun code => !replayed.contains code then
    ["no longer matched rules: " ++ sortedDifference original replayed] else [])

/-- `_diff` -/
def diff (original : Option DecisionRecord) (replayed : Decision) : List String :=
  match original with
  | none => []
  | some original =>
    (if !original.priority.sameValue replayed.priority then
      ["priority: " ++ original.priority.repr ++ " -> " ++ replayed.priority.repr] else []) ++
    (if original.riskBand != replayed.riskBand then
      ["riskBand: " ++ PyVal.reprStr original.riskBand ++ " -> " ++
        PyVal.reprStr replayed.riskBand] else []) ++
    (if !PyVal.sameDict original.actions replayed.actions then
      ["decision actions changed: " ++ (PyVal.dict original.actions.entries).repr ++ " -> " ++
        (PyVal.dict replayed.actions.entries).repr] else []) ++
    codeChanges (matchedCodes original.toDecision) (matchedCodes replayed)

/-- `ReplayResult` -/
structure ReplayResult where
  incidentId : String
  originalDecision : Option DecisionRecord
  replayedDecision : Decision
  rulePackUsed : RulePackRef
  differs : Bool
  differences : List String

/-- `ReplaySimulationUseCase`: the orchestrator is its SLA matrix. -/
structure ReplaySimulationUseCase (σ ρ : Type) where
  ruleRepository : RuleRepository
  rulePackRepository : Option (RulePackRepository σ ρ)
  slaMatrix : Option SlaMatrix

/-- `replay_simulation_use_case`, which shares them too. -/
def replaySimulationUseCase (production : EvaluateIncidentUseCase)
    (packs : Option (RulePackRepository σ ρ)) : ReplaySimulationUseCase σ ρ where
  ruleRepository := production.ruleRepository
  rulePackRepository := packs
  slaMatrix := production.slaMatrix

/-- `ReplaySimulationUseCase.execute` -/
def ReplaySimulationUseCase.execute (useCase : ReplaySimulationUseCase σ ρ) (incidentId : String)
    (reference : PackReference) (region tenant : PyVal) (app : IncidentApp) (s : σ) :
    Except PyError ReplayResult :=
  match app.incidents.get? incidentId with
  | none => .error (.valueError ("No persisted incident found for replay: " ++ incidentId))
  | some incident => do
    let (pack, source) ← resolveRulePack useCase.ruleRepository useCase.rulePackRepository s
      reference (region.orElse incident.region) (tenant.orElse incident.tenantId)
    let replayedDecision ← PipelineOrchestrator.run useCase.slaMatrix incident.toIncident pack
    let originalDecision :=
      (InMemoryDecisionRepository.get incidentId app.decisions).map app.decisions.objects
    let differences := diff originalDecision replayedDecision
    return {
      incidentId, originalDecision, replayedDecision
      rulePackUsed := rulePackRefDict pack source
      differs := !differences.isEmpty
      differences }

end PulseGuard
