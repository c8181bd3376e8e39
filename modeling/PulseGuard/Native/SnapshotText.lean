import PulseGuard.ForStd.JsonCodec
import PulseGuard.Native.RuleSnapshot

/-!
# The text of a snapshot

The dictionaries that `RuleData` and `PackSnapshot` stand for, as `json.dumps` writes and
`json.loads` reads them (`app/infrastructure/cache/redis_cache_backend.py`). An identifier is
written as the number that stands for it.
-/

namespace PulseGuard

open Json

/-- Strings, or `null`. -/
def strOrNull : Codec (Option String) := Codec.str.nullable fun _ h => by cases h

/-- Integers, or `null`. -/
def intOrNull : Codec (Option Int) := Codec.int.nullable fun _ h => by cases h

/-- Dictionaries, or `null`. -/
def dictOrNull : Codec (Option (Dict String PyVal)) := Codec.dict.nullable fun _ h => by cases h

/-- Identifiers, by their numbers. -/
def uuid : Codec Uuid where
  enc n := .int n
  dec
    | .int n => some n.toNat
    | _ => none
  dec_enc _ := rfl

/-- Identifiers, or `null`. -/
def uuidOrNull : Codec (Option Uuid) := uuid.nullable fun _ h => by cases h

theorem plain_strOrNull : strOrNull.Plain := Codec.plain_str.nullable

theorem plain_intOrNull : intOrNull.Plain := Codec.plain_int.nullable

theorem plain_uuidOrNull : uuidOrNull.Plain :=
  Codec.Plain.nullable (c := uuid) fun _ => rfl

namespace PackStatus

/-- The status that a string in `RulePack.status` is. -/
def ofText (text : String) : PackStatus :=
  match [draft, published, active, deprecated, archived, shadow].find? (·.text == text) with
  | some status => status
  | none => other text

end PackStatus

namespace RuleData

/-- The fields of the payload of a rule. -/
def fields (data : RuleData) : List (String × Option PyVal) := [
  Codec.str.field "ruleCode" data.ruleCode,
  Codec.str.field "name" data.name,
  Codec.str.field "description" data.description,
  Codec.str.field "family" data.family,
  Codec.int.field "familyOrder" data.familyOrder,
  Codec.int.field "priorityWeight" data.priorityWeight,
  strOrNull.field "severityBand" data.severityBand,
  intOrNull.field "contributionScore" data.contributionScore,
  Codec.val.field "conditions" data.conditions,
  Codec.val.field "exceptions" data.exceptions,
  strOrNull.field "conflictGroup" data.conflictGroup,
  Codec.str.list.field "conflictsWith" data.conflictsWith,
  Codec.bool.field "isSuppressor" data.isSuppressor,
  Codec.bool.field "nonSuppressible" data.nonSuppressible,
  Codec.int.field "cooldownMinutes" data.cooldownMinutes,
  Codec.dict.field "actions" data.actions,
  Codec.dict.field "mitigations" data.mitigations,
  dictOrNull.field "sequencing" data.sequencing,
  strOrNull.field "slaTarget" data.slaTarget,
  Codec.str.field "ruleStatus" data.ruleStatus,
  Codec.bool.field "enabled" data.enabled]

/-- The payload of a rule as a dictionary. -/
def toVal (data : RuleData) : PyVal := .dict (present data.fields)

/-- The payload that a dictionary is. -/
def ofVal : PyVal → Option RuleData
  | .dict entries => do
    return {
      ruleCode := ← Codec.str.read "ruleCode" entries
      name := ← Codec.str.read "name" entries
      description := ← Codec.str.read "description" entries
      family := ← Codec.str.read "family" entries
      familyOrder := ← Codec.int.read "familyOrder" entries
      priorityWeight := ← Codec.int.read "priorityWeight" entries
      severityBand := ← strOrNull.read "severityBand" entries
      contributionScore := ← intOrNull.read "contributionScore" entries
      conditions := ← Codec.val.read "conditions" entries
      exceptions := ← Codec.val.read "exceptions" entries
      conflictGroup := ← strOrNull.read "conflictGroup" entries
      conflictsWith := ← Codec.str.list.read "conflictsWith" entries
      isSuppressor := ← Codec.bool.read "isSuppressor" entries
      nonSuppressible := ← Codec.bool.read "nonSuppressible" entries
      cooldownMinutes := ← Codec.int.read "cooldownMinutes" entries
      actions := ← Codec.dict.read "actions" entries
      mitigations := ← Codec.dict.read "mitigations" entries
      sequencing := ← dictOrNull.read "sequencing" entries
      slaTarget := ← strOrNull.read "slaTarget" entries
      ruleStatus := ← Codec.str.read "ruleStatus" entries
      enabled := ← Codec.bool.read "enabled" entries }
  | _ => none

theorem nodup_fields (data : RuleData) : (data.fields.map Prod.fst).Nodup := by
  change (["ruleCode", "name", "description", "family", "familyOrder", "priorityWeight",
    "severityBand", "contributionScore", "conditions", "exceptions", "conflictGroup",
    "conflictsWith", "isSuppressor", "nonSuppressible", "cooldownMinutes", "actions",
    "mitigations", "sequencing", "slaTarget", "ruleStatus", "enabled"] : List String).Nodup
  decide

theorem ofVal_toVal (data : RuleData) : ofVal data.toVal = some data := by
  have hread {α : Type} (c : Codec α) (key : String) {value : Option α}
      (h : Assoc.get? key data.fields = some (value.map c.enc)) :
      c.read key (present data.fields) = some value := c.read_present data.nodup_fields h
  unfold ofVal toVal
  simp only [hread Codec.str "ruleCode" rfl,
    hread Codec.str "name" rfl,
    hread Codec.str "description" rfl,
    hread Codec.str "family" rfl,
    hread Codec.int "familyOrder" rfl,
    hread Codec.int "priorityWeight" rfl,
    hread strOrNull "severityBand" rfl,
    hread intOrNull "contributionScore" rfl,
    hread Codec.val "conditions" rfl,
    hread Codec.val "exceptions" rfl,
    hread strOrNull "conflictGroup" rfl,
    hread Codec.str.list "conflictsWith" rfl,
    hread Codec.bool "isSuppressor" rfl,
    hread Codec.bool "nonSuppressible" rfl,
    hread Codec.int "cooldownMinutes" rfl,
    hread Codec.dict "actions" rfl,
    hread Codec.dict "mitigations" rfl,
    hread dictOrNull "sequencing" rfl,
    hread strOrNull "slaTarget" rfl,
    hread Codec.str "ruleStatus" rfl,
    hread Codec.bool "enabled" rfl]
  rfl

/-- The payloads of rules. -/
def codec : Codec RuleData where
  enc := toVal
  dec := ofVal
  dec_enc := ofVal_toVal

end RuleData

namespace PackSnapshot

/-- The fields of the snapshot of a pack. -/
def fields (data : PackSnapshot) : List (String × Option PyVal) := [
  uuidOrNull.field "id" data.id,
  Codec.str.field "name" data.name,
  Codec.int.field "version" data.version,
  Codec.str.field "status" (data.status.map PackStatus.text),
  strOrNull.field "region" data.region,
  strOrNull.field "tenantId" data.tenantId,
  Codec.str.field "createdBy" data.createdBy,
  intOrNull.field "parentVersion" data.parentVersion,
  RuleData.codec.list.field "rules" data.rules]

/-- The snapshot of a pack as a dictionary. -/
def toVal (data : PackSnapshot) : PyVal := .dict (present data.fields)

/-- The snapshot that a dictionary is. -/
def ofVal : PyVal → Option PackSnapshot
  | .dict entries => do
    return {
      id := ← uuidOrNull.read "id" entries
      name := ← Codec.str.read "name" entries
      version := ← Codec.int.read "version" entries
      status := (← Codec.str.read "status" entries).map PackStatus.ofText
      region := ← strOrNull.read "region" entries
      tenantId := ← strOrNull.read "tenantId" entries
      createdBy := ← Codec.str.read "createdBy" entries
      parentVersion := ← intOrNull.read "parentVersion" entries
      rules := ← RuleData.codec.list.read "rules" entries }
  | _ => none

theorem nodup_fields (data : PackSnapshot) : (data.fields.map Prod.fst).Nodup := by
  change (["id", "name", "version", "status", "region", "tenantId", "createdBy", "parentVersion",
    "rules"] : List String).Nodup
  decide

/-- A snapshot is read back, with its status as the string spells it. -/
theorem ofVal_toVal (data : PackSnapshot) : ofVal data.toVal =
    some { data with status := data.status.map fun status => .ofText status.text } := by
  have hread {α : Type} (c : Codec α) (key : String) {value : Option α}
      (h : Assoc.get? key data.fields = some (value.map c.enc)) :
      c.read key (present data.fields) = some value := c.read_present data.nodup_fields h
  have hstatus : (data.status.map PackStatus.text).map PackStatus.ofText =
      data.status.map fun status => .ofText status.text := Option.map_map ..
  unfold ofVal toVal
  simp only [hread uuidOrNull "id" rfl, hread Codec.str "name" rfl, hread Codec.int "version" rfl,
    hread Codec.str "status" rfl, hread strOrNull "region" rfl, hread strOrNull "tenantId" rfl,
    hread Codec.str "createdBy" rfl, hread intOrNull "parentVersion" rfl,
    hread RuleData.codec.list "rules" rfl, ← hstatus]
  rfl

end PackSnapshot

end PulseGuard
