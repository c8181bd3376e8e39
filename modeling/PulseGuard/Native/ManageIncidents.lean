import PulseGuard.Native.DecisionRepositories

/-!
# The routes that create incidents

`POST /api/v1/incidents` and `POST /api/v1/incidents/bulk` (`incident_router.py`) with
`GetIncidentUseCase` and `BulkCreateIncidentsUseCase` (`manage_incidents.py`). The first drops the
fields of a body that are `None`, the second keeps them; and the second goes by its own flag on
whether to evaluate. Listings, which go by `created_at`, are left out.
-/

/-- `value is None` -/
def PyVal.isNone : PyVal → Bool
  | .none => true
  | _ => false

/-- `{k: v for k, v in payload.items() if v is not None}` -/
def Dict.dropNone (payload : Dict String PyVal) : Dict String PyVal where
  entries := payload.entries.filter fun e => !e.2.isNone
  nodup := (List.filter_sublist.map Prod.fst).nodup payload.nodup

namespace PulseGuard

/-- The keys that are not part of the payload. -/
def createKeys : List String := ["incidentId", "region", "tenantId", "context", "evaluate"]

/-- `IncidentCreateRequest`: `fields` are the extra fields. -/
structure IncidentCreateRequest where
  incidentId : String
  region : Option String
  tenantId : Option String
  context : Option (Dict String PyVal)
  evaluate : Bool
  fields : Dict String PyVal

/-- `GetIncidentUseCase.execute` -/
def GetIncidentUseCase.execute (incidentId : String) (incidents : IncidentStore) :
    Except PyError IncidentRecord :=
  match incidents.get? incidentId with
  | none => .error (.valueError ("No such incident: " ++ incidentId))
  | some incident => .ok incident

/-- What a creation returns, and the incidents and decisions it leaves. -/
abbrev Created := Except PyError (IncidentRecord × Option DecisionRecord) × IncidentApp

/-- `create_incident`: the payload is `model_dump(exclude=..., exclude_none=True)`. -/
def createIncident (useCase : EvaluateIncidentUseCase) (body : IncidentCreateRequest) (now : Int)
    (app : IncidentApp) : Created :=
  CreateIncidentUseCase.execute useCase body.incidentId
    (body.fields.filter fun k => !createKeys.contains k).dropNone
    (PyVal.ofText body.region) (PyVal.ofText body.tenantId) body.context body.evaluate now app

/-- One round of the loop of a bulk creation, on an item that is `model_dump()` of a body. -/
def createItem (useCase : EvaluateIncidentUseCase) (evaluate : Bool) (item : IncidentCreateRequest)
    (now : Int) (app : IncidentApp) : Created :=
  CreateIncidentUseCase.execute useCase item.incidentId
    (item.fields.filter fun k => !createKeys.contains k)
    (PyVal.ofText item.region) (PyVal.ofText item.tenantId) item.context evaluate now app

/-- Creations one after another, up to the first one that raises. -/
def createAll (create : IncidentCreateRequest → Int → IncidentApp → Created) :
    List (IncidentCreateRequest × Int) → IncidentApp →
    Except PyError (List (IncidentRecord × Option DecisionRecord)) × IncidentApp
  | [], app => (.ok [], app)
  | (body, now) :: rest, app =>
    match create body now app with
    | (.error e, app) => (.error e, app)
    | (.ok created, app) =>
      let (result, app) := createAll create rest app
      ((created :: ·) <$> result, app)

/-- `BulkCreateIncidentsUseCase.execute`, on items with the times they are created at. -/
def BulkCreateIncidentsUseCase.execute (useCase : EvaluateIncidentUseCase)
    (incidents : List (IncidentCreateRequest × Int)) (evaluate : Bool) :
    IncidentApp → Except PyError (List (IncidentRecord × Option DecisionRecord)) × IncidentApp :=
  createAll (createItem useCase evaluate) incidents

end PulseGuard
