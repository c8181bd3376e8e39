import Mathlib.Logic.Function.Basic
import PulseGuard.Native.Pipeline

/-!
# Evaluating an incident

The path from an incident to a stored decision: `ContextAggregationService`,
`EvaluateIncidentUseCase`, `InMemoryDecisionRepository` and the incident resource
(`app/domain/services/context_aggregation_service.py`,
`app/application/use_cases/evaluate_incident.py`, `manage_incidents.py`,
`app/infrastructure/repositories/in_memory_decision_repository.py`,
`in_memory_incident_repository.py`).

Times are microseconds. A stored decision is an object that whoever is given it may change, so
the decisions are kept on a heap and references in the repository. The region and the tenant of
a request are `None` or a string, but for the tenant of a bulk item, which is an extra field and
may be anything; the model passes both on as Python values.
-/

namespace PulseGuard

/-- `Incident`, with the fields of the incident resource. -/
structure IncidentRecord extends Incident where
  status : String
  region : PyVal
  tenantId : PyVal

/-- `Decision`, with the fields the jobs read. -/
structure DecisionRecord extends Decision where
  createdAt : Int
  resolved : Bool

/-- `RuleRepository` -/
structure RuleRepository where
  getActive : (region tenant : PyVal) → Except PyError RulePack

/-! ## Context -/

/-- `ContextProvider`; `fetch` gives `none` for `None`. -/
structure ContextProvider where
  sourceName : String
  fetch : IncidentRecord → Except PyError (Option (Dict String PyVal))

/-- `AggregatedContext` -/
structure AggregatedContext where
  merged : Dict String PyVal
  totalSources : Nat
  degradedSources : List String

/-- `is_degraded` -/
def AggregatedContext.isDegraded (context : AggregatedContext) : Bool :=
  !context.degradedSources.isEmpty

namespace ContextAggregationService

/-- One round of the loop over the providers. -/
def addSource (incident : IncidentRecord) (context : AggregatedContext)
    (provider : ContextProvider) : AggregatedContext :=
  match provider.fetch incident with
  | .ok result => { context with merged := context.merged.update (result.getD Dict.empty) }
  | .error _ => { context with degradedSources := context.degradedSources ++ [provider.sourceName] }

/-- `ContextAggregationService.aggregate` -/
def aggregate (providers : List ContextProvider) (incident : IncidentRecord) : AggregatedContext :=
  providers.foldl (addSource incident)
    { merged := Dict.empty, totalSources := providers.length, degradedSources := [] }

end ContextAggregationService

/-! ## Decisions -/

/-- The address of a `Decision` object. -/
abbrev DecisionRef := Nat

/-- The heap of decision objects and `_by_incident`. -/
structure DecisionStore where
  objects : DecisionRef → DecisionRecord
  nextRef : DecisionRef
  byIncident : Dict String (List DecisionRef)

namespace InMemoryDecisionRepository

/-- A decision object that no reference leads to. -/
def blank : DecisionRecord where
  incidentId := ""
  priority := .none
  riskScore := 0
  riskBand := "LOW"
  actions := Dict.empty
  mitigations := Dict.empty
  executionPlan := []
  matchedRules := []
  rejectedRules := []
  suppressedRules := []
  complianceConstraints := []
  confidenceScore := .fin 100
  degradedContext := false
  explanation := ""
  createdAt := 0
  resolved := false

/-- `__init__` -/
def init : DecisionStore where
  objects := fun _ => blank
  nextRef := 0
  byIncident := Dict.empty

/-- The references of an incident's history. -/
def refs (incidentId : String) (store : DecisionStore) : List DecisionRef :=
  (store.byIncident.get? incidentId).getD []

/-- `save`, of a decision object that was just constructed. -/
def save (decision : DecisionRecord) (store : DecisionStore) : DecisionStore where
  objects := Function.update store.objects store.nextRef decision
  nextRef := store.nextRef + 1
  byIncident :=
    store.byIncident.set decision.incidentId (refs decision.incidentId store ++ [store.nextRef])

/-- `get` -/
def get (incidentId : String) (store : DecisionStore) : Option DecisionRef :=
  (refs incidentId store).getLast?

/-- `list_by_incident` -/
def listByIncident (incidentId : String) (store : DecisionStore) : List DecisionRef :=
  refs incidentId store

/-- `all` -/
def all (store : DecisionStore) : List DecisionRef := store.byIncident.values.flatten

/-- `list_all`; `reverse=True` keeps the order of decisions of one time. -/
def listAll (limit offset : Nat) (store : DecisionStore) : List DecisionRef :=
  let ordered := (all store).insertionSort fun a b =>
    (store.objects b).createdAt ≤ (store.objects a).createdAt
  (ordered.drop offset).take limit

end InMemoryDecisionRepository

/-! ## Evaluation -/

/-- `EvaluateIncidentUseCase`: the orchestrator is its SLA matrix, and `persists` says whether
    there is a decision repository. -/
structure EvaluateIncidentUseCase where
  ruleRepository : RuleRepository
  slaMatrix : Option SlaMatrix
  contextProviders : Option (List ContextProvider)
  persists : Bool

namespace EvaluateIncidentUseCase

variable (useCase : EvaluateIncidentUseCase)

/-- The incident with the aggregated context, where the context it came with wins. -/
def enrich (incident : IncidentRecord) : IncidentRecord :=
  match useCase.contextProviders with
  | none => incident
  | some providers =>
    let aggregated := ContextAggregationService.aggregate providers incident
    { incident with
      enrichedContext := aggregated.merged.update incident.enrichedContext
      contextSourcesTotal := aggregated.totalSources
      contextSourcesDegraded := aggregated.degradedSources.length
      degradedContext := incident.degradedContext || aggregated.isDegraded }

/-- The decision on an enriched incident. -/
def decide (incident : IncidentRecord) (region tenant : PyVal) : Except PyError Decision := do
  let rulePack ← useCase.ruleRepository.getActive region tenant
  PipelineOrchestrator.run useCase.slaMatrix incident.toIncident rulePack

/-- `EvaluateIncidentUseCase.execute`. It changes the incident it is given, which is the second
    component, also when it raises. -/
def execute (incident : IncidentRecord) (region tenant : PyVal) (now : Int)
    (store : DecisionStore) : Except PyError DecisionRecord × IncidentRecord × DecisionStore :=
  let incident := useCase.enrich incident
  match useCase.decide incident region tenant with
  | .error e => (.error e, incident, store)
  | .ok decision =>
    let decision : DecisionRecord := { decision with createdAt := now, resolved := false }
    (.ok decision, incident,
      if useCase.persists then InMemoryDecisionRepository.save decision store else store)

end EvaluateIncidentUseCase

/-! ## The incident resource -/

/-- `InMemoryIncidentRepository._by_id`. The incident stored is the object that the evaluation
    enriches; only its last state is ever read, so the model stores it by value. -/
abbrev IncidentStore := Dict String IncidentRecord

/-- The incidents and the decisions. -/
structure IncidentApp where
  incidents : IncidentStore
  decisions : DecisionStore

/-- `CreateIncidentUseCase.execute` -/
def CreateIncidentUseCase.execute (useCase : EvaluateIncidentUseCase) (incidentId : String)
    (payload : Dict String PyVal) (region tenantId : PyVal)
    (enrichedContext : Option (Dict String PyVal)) (evaluate : Bool) (now : Int)
    (app : IncidentApp) :
    Except PyError (IncidentRecord × Option DecisionRecord) × IncidentApp :=
  let incident : IncidentRecord := {
    incidentId, payload, region, tenantId
    enrichedContext := enrichedContext.getD Dict.empty
    degradedContext := false
    contextSourcesTotal := 0
    contextSourcesDegraded := 0
    status := "received" }
  if !evaluate then
    (.ok (incident, none), { app with incidents := app.incidents.set incidentId incident })
  else
    let (decision, incident, decisions) :=
      useCase.execute incident region tenantId now app.decisions
    match decision with
    | .error e =>
      let incident := { incident with status := "failed" }
      (.error e, { incidents := app.incidents.set incidentId incident, decisions })
    | .ok decision =>
      let incident := { incident with status := "evaluated" }
      (.ok (incident, some decision),
        { incidents := app.incidents.set incidentId incident, decisions })

end PulseGuard
