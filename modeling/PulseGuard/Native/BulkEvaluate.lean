import PulseGuard.Native.Simulation

/-!
# Bulk evaluation

`BulkEvaluateUseCase` and its route (`app/application/use_cases/bulk_evaluate.py`,
`app/interfaces/api/simulation_router.py`). The two use cases it holds differ in whether a
decision repository is attached. The execution times are left out.
-/

namespace PulseGuard

/-- `BulkEvaluateResultEntry` -/
structure BulkEvaluateResultEntry where
  incidentId : String
  success : Bool
  priority : PyVal
  riskBand : Option String
  error : Option String

/-- `BulkEvaluateUseCase`; `useCase` is the one that persists or the dry run. -/
structure BulkEvaluateUseCase where
  useCase : EvaluateIncidentUseCase
  maxItems : Nat

namespace BulkEvaluateUseCase

/-- `_PAYLOAD_EXCLUDED_KEYS` -/
def payloadExcludedKeys : List String :=
  ["incidentId", "region", "tenantId", "context", "degradedContext"]

/-- What the loop over the items has gathered, and the decisions stored. -/
structure Progress where
  succeeded : Nat
  failed : Nat
  priorityDistribution : List (PyVal × Nat)
  riskBandDistribution : Dict String Nat
  results : List BulkEvaluateResultEntry
  store : DecisionStore

/-- `d[key] = d.get(key, 0) + 1` -/
def countKey (key : PyVal) : List (PyVal × Nat) → List (PyVal × Nat)
  | [] => [(key, 1)]
  | (k, n) :: rest => if k.sameItem key then (k, n + 1) :: rest else (k, n) :: countKey key rest

/-- `priority_distribution[priority_key] = ...`; a key without a hash raises. -/
def countPriority (priority : PyVal) (distribution : List (PyVal × Nat)) :
    Except PyError (List (PyVal × Nat)) :=
  let key := priority.orElse (.str "Unknown")
  if key.hashable then .ok (countKey key distribution)
  else .error (.typeError ("unhashable type: '" ++ key.typeName ++ "'"))

/-- `item.get(key)` -/
def field (item : IncidentEvaluateRequest) (key : String) : PyVal :=
  (item.fields.get? key).getD .none

/-- The fields of an item that go into its payload. -/
def payloadOf (item : IncidentEvaluateRequest) : Dict String PyVal :=
  item.fields.filter fun key => !payloadExcludedKeys.contains key

/-- The incident of an item. -/
def incidentOf (item : IncidentEvaluateRequest) (region tenant : PyVal) : IncidentRecord where
  incidentId := item.incidentId
  payload := payloadOf item
  enrichedContext := item.context.getD Dict.empty
  degradedContext := item.degradedContext.getD false
  contextSourcesTotal := 0
  contextSourcesDegraded := 0
  status := "received"
  region
  tenantId := tenant

/-- `except Exception as exc` -/
def fail (item : IncidentEvaluateRequest) (e : PyError) (progress : Progress) : Progress :=
  { progress with
    failed := progress.failed + 1
    results := progress.results ++ [⟨item.incidentId, false, .none, none, some e.text⟩] }

/-- The `try` block after the evaluation: the counters are advanced before the distribution,
    which may raise. -/
def record (item : IncidentEvaluateRequest) (decision : Decision) (progress : Progress) :
    Progress :=
  let progress := { progress with succeeded := progress.succeeded + 1 }
  match countPriority decision.priority progress.priorityDistribution with
  | .error e => fail item e progress
  | .ok priorityDistribution =>
    { progress with
      priorityDistribution
      riskBandDistribution := progress.riskBandDistribution.set decision.riskBand
        ((progress.riskBandDistribution.get? decision.riskBand).getD 0 + 1)
      results := progress.results ++
        [⟨item.incidentId, true, decision.priority, some decision.riskBand, none⟩] }

/-- One round of the loop over the items. -/
def evaluateItem (useCase : EvaluateIncidentUseCase) (region tenant : PyVal) (now : Int)
    (progress : Progress) (item : IncidentEvaluateRequest) : Progress :=
  let itemRegion := (field item "region").orElse region
  let itemTenant := (field item "tenantId").orElse tenant
  if item.incidentId == "" then
    fail item (.valueError "incidentId is required for every item in a bulk evaluation") progress
  else
    let (decision, _, store) :=
      useCase.execute (incidentOf item itemRegion itemTenant) itemRegion itemTenant now progress.store
    let progress := { progress with store }
    match decision with
    | .error e => fail item e progress
    | .ok decision => record item decision.toDecision progress

/-- What the loop starts from. -/
def start (store : DecisionStore) : Progress where
  succeeded := 0
  failed := 0
  priorityDistribution := []
  riskBandDistribution := Dict.empty
  results := []
  store

/-- `bulk_evaluate_use_case`, as a request with this `persist` uses it: the evaluation of a single
    incident, or its dry run (`app/interfaces/api/dependencies.py`). -/
def wired (production : EvaluateIncidentUseCase) (persist : Bool) (maxItems : Nat) :
    BulkEvaluateUseCase where
  useCase := if persist then production else { production with persists := false }
  maxItems

/-- `BulkEvaluateResult`, with the decisions stored. -/
structure Result extends Progress where
  total : Nat

/-- `BulkEvaluateUseCase.execute` -/
def execute (bulk : BulkEvaluateUseCase) (items : List IncidentEvaluateRequest)
    (region tenant : PyVal) (now : Int) (store : DecisionStore) : Except PyError Result :=
  if bulk.maxItems < items.length then
    .error (.valueError ("Bulk evaluate accepts at most " ++ toString bulk.maxItems ++
      " incidents per request (got " ++ toString items.length ++ ")"))
  else .ok {
    items.foldl (evaluateItem bulk.useCase region tenant now) (start store) with
    total := items.length }

end BulkEvaluateUseCase

end PulseGuard
