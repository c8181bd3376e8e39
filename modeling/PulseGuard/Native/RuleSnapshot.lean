import PulseGuard.ForStd.Except
import PulseGuard.Native.RuleCache
import PulseGuard.Native.RuleData

/-!
# Snapshots of rule packs

`rule_pack_to_snapshot` and `rule_pack_from_snapshot`
(`app/infrastructure/cache/rule_snapshot.py`), the form in which the shared cache layer holds
a pack. A snapshot is a dictionary, given as in `RuleData`; the timestamps are left out.
-/

namespace PulseGuard

/-- The snapshot of a pack. -/
structure PackSnapshot where
  id : Option (Option Uuid) := none
  name : Option String := none
  version : Option Int := none
  status : Option PackStatus := none
  region : Option (Option String) := none
  tenantId : Option (Option String) := none
  createdBy : Option String := none
  parentVersion : Option (Option Int) := none
  rules : Option (List RuleData) := none

/-- `rule_pack_to_snapshot` -/
def rulePackToSnapshot (pack : RulePack) : PackSnapshot where
  id := some pack.id
  name := some pack.name
  version := some pack.version
  status := some pack.status
  region := some pack.region
  tenantId := some pack.tenantId
  createdBy := some pack.createdBy
  parentVersion := some pack.parentVersion
  rules := some (pack.rules.map ruleToJson)

/-- `rule_pack_from_snapshot` -/
def rulePackFromSnapshot (data : PackSnapshot) : Except PyError RulePack := do
  return {
    id := data.id.getD none
    name := ← RuleData.required "name" data.name
    version := ← RuleData.required "version" data.version
    status := ← RuleData.required "status" data.status
    region := data.region.getD none
    tenantId := data.tenantId.getD none
    createdBy := data.createdBy.getD "system"
    parentVersion := data.parentVersion.getD none
    rules := ← (data.rules.getD []).mapM ruleFromJson
    lockVersion := 1 }

/-- The codec of `RuleCache`. -/
def ruleSnapshotCodec : SnapshotCodec RulePack PackSnapshot where
  toSnapshot := rulePackToSnapshot
  fromSnapshot := rulePackFromSnapshot

/-- What is left of a rule after a trip through its payload. -/
def Rule.restored (rule : Rule) : Rule :=
  { rule with exceptions := rule.exceptions.filter (·.tree.truthy), id := none }

/-- What is left of a pack after a trip through its snapshot. -/
def RulePack.restored (pack : RulePack) : RulePack :=
  { pack with rules := pack.rules.map Rule.restored, lockVersion := 1 }

theorem mapM_ruleFromJson (rules : List Rule) :
    (rules.map ruleToJson).mapM ruleFromJson = .ok (rules.map Rule.restored) := by
  rw [Except.mapM_ok_iff, List.forall₂_map_left_iff, List.forall₂_map_right_iff, List.forall₂_same]
  intro rule _
  exact ruleFromJson_ruleToJson rule

/-- Every snapshot of a pack can be read, and gives the pack but for the ids of its rules,
    empty exceptions clauses and the lock version. -/
theorem rulePackFromSnapshot_toSnapshot (pack : RulePack) :
    rulePackFromSnapshot (rulePackToSnapshot pack) = .ok pack.restored := by
  have hrules := mapM_ruleFromJson pack.rules
  simp only [rulePackFromSnapshot, rulePackToSnapshot, RuleData.required, Option.getD_some, hrules]
  rfl

@[simp] theorem RulePack.id_restored (pack : RulePack) : pack.restored.id = pack.id := rfl

@[simp] theorem RulePack.region_restored (pack : RulePack) : pack.restored.region = pack.region := rfl

end PulseGuard
