import PulseGuard.Native.RulePackLifecycle
import PulseGuard.Native.SnapshotText

/-!
# The import endpoint

The request schemas `CreateRuleRequest` and `ImportRulePackRequest`
(`app/interfaces/api/schemas.py`), and the route `import_rule_pack`
(`app/interfaces/api/rule_pack_router.py`) on the text of its body. A schema passes over the
keys it does not name. Values that pydantic would convert to the type of a field are left out:
a value that is not of the type is refused.
-/

namespace PulseGuard

open Json

/-- `CreateRuleRequest` -/
structure CreateRuleRequest where
  ruleCode : String
  name : String
  description : String
  family : String
  familyOrder : Int
  priorityWeight : Int
  severityBand : Option String
  contributionScore : Option Int
  conditions : Dict String PyVal
  exceptions : Option (Dict String PyVal)
  conflictGroup : Option String
  conflictsWith : List String
  isSuppressor : Bool
  nonSuppressible : Bool
  cooldownMinutes : Int
  actions : Dict String PyVal
  mitigations : Dict String PyVal
  sequencing : Option (Dict String PyVal)
  slaTarget : Option String
  enabled : Bool

namespace CreateRuleRequest

/-- The request that a JSON value is, with the defaults of the keys it does not have. -/
def ofVal : PyVal → Option CreateRuleRequest
  | .dict entries => do
    return {
      ruleCode := ← ← Codec.str.read "ruleCode" entries
      name := ← ← Codec.str.read "name" entries
      description := (← Codec.str.read "description" entries).getD ""
      family := (← Codec.str.read "family" entries).getD "OPERATIONAL_FEASIBILITY"
      familyOrder := (← Codec.int.read "familyOrder" entries).getD 99
      priorityWeight := (← Codec.int.read "priorityWeight" entries).getD 50
      severityBand := (← strOrNull.read "severityBand" entries).getD none
      contributionScore := (← intOrNull.read "contributionScore" entries).getD none
      conditions := ← ← Codec.dict.read "conditions" entries
      exceptions := (← dictOrNull.read "exceptions" entries).getD none
      conflictGroup := (← strOrNull.read "conflictGroup" entries).getD none
      conflictsWith := (← Codec.str.list.read "conflictsWith" entries).getD []
      isSuppressor := (← Codec.bool.read "isSuppressor" entries).getD false
      nonSuppressible := (← Codec.bool.read "nonSuppressible" entries).getD false
      cooldownMinutes := (← Codec.int.read "cooldownMinutes" entries).getD 0
      actions := (← Codec.dict.read "actions" entries).getD Dict.empty
      mitigations := (← Codec.dict.read "mitigations" entries).getD Dict.empty
      sequencing := (← dictOrNull.read "sequencing" entries).getD none
      slaTarget := (← strOrNull.read "slaTarget" entries).getD none
      enabled := (← Codec.bool.read "enabled" entries).getD true }
  | _ => none

/-- `model_dump()`: every field of the schema, and so no `ruleStatus`. -/
def modelDump (request : CreateRuleRequest) : RuleData where
  ruleCode := some request.ruleCode
  name := some request.name
  description := some request.description
  family := some request.family
  familyOrder := some request.familyOrder
  priorityWeight := some request.priorityWeight
  severityBand := some request.severityBand
  contributionScore := some request.contributionScore
  conditions := some (.dict request.conditions.entries)
  exceptions := some (dictOrNull.enc request.exceptions)
  conflictGroup := some request.conflictGroup
  conflictsWith := some request.conflictsWith
  isSuppressor := some request.isSuppressor
  nonSuppressible := some request.nonSuppressible
  cooldownMinutes := some request.cooldownMinutes
  actions := some request.actions
  mitigations := some request.mitigations
  sequencing := some request.sequencing
  slaTarget := some request.slaTarget
  enabled := some request.enabled

end CreateRuleRequest

/-- `ImportRulePackRequest` -/
structure ImportRulePackRequest where
  name : String
  version : Option Int
  region : Option String
  tenantId : Option String
  rules : List CreateRuleRequest

namespace ImportRulePackRequest

/-- The list of requests that a JSON value is. -/
def rulesOfVal : PyVal → Option (List CreateRuleRequest)
  | .list rules => rules.mapM CreateRuleRequest.ofVal
  | _ => none

/-- The request that a JSON value is. -/
def ofVal : PyVal → Option ImportRulePackRequest
  | .dict entries => do
    return {
      name := ← ← Codec.str.read "name" entries
      version := (← intOrNull.read "version" entries).getD none
      region := (← strOrNull.read "region" entries).getD none
      tenantId := (← strOrNull.read "tenantId" entries).getD none
      rules := ← match Assoc.get? "rules" entries with
        | none => some []
        | some rules => rulesOfVal rules }
  | _ => none

/-- `model_dump()` -/
def modelDump (request : ImportRulePackRequest) : RulePackDocument where
  name := some request.name
  version := request.version
  region := request.region
  tenantId := request.tenantId
  rules := some (request.rules.map CreateRuleRequest.modelDump)

end ImportRulePackRequest

namespace RulePackDocument

/-- The fields that `ExportRulePackUseCase` writes. -/
def fields (document : RulePackDocument) : List (String × Option PyVal) := [
  Codec.str.field "name" document.name,
  Codec.int.field "version" document.version,
  strOrNull.field "region" (some document.region),
  RuleData.codec.list.field "rules" document.rules]

/-- An exported document as a dictionary. -/
def toVal (document : RulePackDocument) : PyVal := .dict (present document.fields)

theorem nodup_fields (document : RulePackDocument) : (document.fields.map Prod.fst).Nodup := by
  change (["name", "version", "region", "rules"] : List String).Nodup
  decide

end RulePackDocument

/-- How a request to the API fails: its body is not of the schema, the route raises an
    `HTTPException`, or something else escapes. -/
inductive ApiError where
  | unprocessable
  | http (status : Nat) (detail : String)
  | unhandled (error : PyError)
deriving DecidableEq

/-- `except ValueError as exc: raise HTTPException(status, detail=str(exc))` -/
def ApiError.ofPyError (status : Nat) : PyError → ApiError
  | .valueError message => .http status message
  | error => .unhandled error

/-- `import_rule_pack` -/
def importRulePack (repo : RulePackRepository σ ρ) (body : List Token) (actor : String)
    (app : App σ) : Except ApiError (ρ × App σ) :=
  match (loads body).bind ImportRulePackRequest.ofVal with
  | none => .error .unprocessable
  | some request =>
    (ImportRulePackUseCase.execute repo request.modelDump actor app).mapError (.ofPyError 409)

end PulseGuard
