import PulseGuard.Native.SnapshotText
import PulseGuard.Spec.DecisiveRules

/-!
# Snapshots decide as their packs

A pack that is written to the shared cache as JSON and read back decides every incident as
before (`snapshot_transparent`): the trip costs its rules their identifiers and empty
exceptions clauses, which no decision reads.
-/

namespace PulseGuard

open Json

/-- What a rule holds as JSON: no dictionary in it has a key twice. -/
structure Rule.JsonRepresentable (rule : Rule) : Prop where
  conditions : distinctKeys rule.conditions.tree = true
  exceptions : ∀ x, rule.exceptions = some x → distinctKeys x.tree = true
  actions : distinctKeys (.dict rule.actions.entries) = true
  mitigations : distinctKeys (.dict rule.mitigations.entries) = true
  sequencing : ∀ d, rule.sequencing = some d → distinctKeys (.dict d.entries) = true

/-- So is the tree that stands for its exceptions. -/
theorem Rule.JsonRepresentable.exceptionsTree {rule : Rule} (h : rule.JsonRepresentable) :
    distinctKeys ((rule.exceptions.map RuleCondition.tree).getD .none) = true := by
  cases hx : rule.exceptions with
  | none => rfl
  | some x => exact h.exceptions x hx

/-- The payload of such a rule can be written. -/
theorem Rule.JsonRepresentable.payload {rule : Rule} (h : rule.JsonRepresentable) :
    distinctKeys (ruleToJson rule).toVal = true := by
  have hsequencing : distinctKeys (dictOrNull.enc rule.sequencing) = true :=
    Codec.distinctKeys_nullable h.sequencing
  refine distinctKeys_present (ruleToJson rule).nodup_fields ?_
  simp only [RuleData.fields, ruleToJson, List.forall_mem_cons]
  have hstr := Codec.plain_str.field
  have hint := Codec.plain_int.field
  have hbool := Codec.plain_bool.field
  have hstrOrNull := plain_strOrNull.field
  have hcodes := Codec.plain_str.list.field
  refine ⟨hstr _ _, hstr _ _, hstr _ _, hstr _ _, hint _ _, hint _ _, hstrOrNull _ _,
    plain_intOrNull.field _ _, ?_, ?_, hstrOrNull _ _, hcodes _ _, hbool _ _, hbool _ _,
    hint _ _, ?_, ?_, ?_, hstrOrNull _ _, hstr _ _, hbool _ _, by simp⟩
  · exact Codec.val.distinctKeys_field _ fun a ha => Option.some.inj ha ▸ h.conditions
  · exact Codec.val.distinctKeys_field _ fun a ha => Option.some.inj ha ▸ h.exceptionsTree
  · exact Codec.dict.distinctKeys_field _ fun a ha => Option.some.inj ha ▸ h.actions
  · exact Codec.dict.distinctKeys_field _ fun a ha => Option.some.inj ha ▸ h.mitigations
  · exact dictOrNull.distinctKeys_field _ fun a ha => Option.some.inj ha ▸ hsequencing

theorem distinctKeys_payloads {rules : List Rule} (h : ∀ rule ∈ rules, rule.JsonRepresentable) :
    distinctKeys (RuleData.codec.list.enc (rules.map ruleToJson)) = true := by
  refine RuleData.codec.distinctKeys_list fun data hdata => ?_
  obtain ⟨rule, hrule, rfl⟩ := List.mem_map.mp hdata
  exact (h rule hrule).payload

/-- The snapshot of a pack of such rules can be written. -/
theorem distinctKeys_snapshot {pack : RulePack} (h : ∀ rule ∈ pack.rules, rule.JsonRepresentable) :
    distinctKeys (rulePackToSnapshot pack).toVal = true := by
  refine distinctKeys_present (rulePackToSnapshot pack).nodup_fields ?_
  simp only [PackSnapshot.fields, rulePackToSnapshot, List.forall_mem_cons]
  have hstr := Codec.plain_str.field
  refine ⟨plain_uuidOrNull.field _ _, hstr _ _, Codec.plain_int.field _ _, hstr _ _,
    plain_strOrNull.field _ _, plain_strOrNull.field _ _, hstr _ _, plain_intOrNull.field _ _, ?_,
    by simp⟩
  exact RuleData.codec.list.distinctKeys_field _ fun a ha =>
    Option.some.inj ha ▸ distinctKeys_payloads h

/-- The trip through its payload leaves of a rule what decisions read. -/
theorem Rule.decisive_restored (rule : Rule) : rule.restored.decisive = rule.decisive := by
  have hfilter : (rule.exceptions.filter (·.tree.truthy)).filter (·.tree.truthy) =
      rule.exceptions.filter (·.tree.truthy) := by
    cases rule.exceptions with
    | none => rfl
    | some x => by_cases hx : x.tree.truthy = true <;> simp [Option.filter, hx]
  unfold Rule.decisive Rule.restored
  rw [hfilter]
  rfl

/-- The JSON text of the snapshot of a pack reads as a snapshot, the snapshot as a pack, and
    that pack comes to the same decision on every incident, and raises where the pack raises. -/
theorem snapshot_transparent {pack : RulePack}
    (h : ∀ rule ∈ pack.rules, rule.JsonRepresentable) :
    ∃ v data restored, loads (dumps (rulePackToSnapshot pack).toVal) = some v ∧
      PackSnapshot.ofVal v = some data ∧ rulePackFromSnapshot data = .ok restored ∧
      ∀ matrix incident,
        PipelineOrchestrator.run matrix incident restored =
          PipelineOrchestrator.run matrix incident pack := by
  have hrules := mapM_ruleFromJson pack.rules
  refine ⟨_, _, { pack.restored with status := .ofText pack.status.text },
    loads_dumps (distinctKeys_snapshot h), PackSnapshot.ofVal_toVal _, ?_, ?_⟩
  · simp only [rulePackFromSnapshot, rulePackToSnapshot, RuleData.required, Option.map_some,
      Option.getD_some, hrules]
    rfl
  · intro matrix incident
    refine PipelineOrchestrator.run_congr ?_ matrix incident
    change (pack.rules.map Rule.restored).map Rule.decisive = _
    rw [List.map_map]
    exact List.map_congr_left fun rule _ => rule.decisive_restored

/-- An active pack of one rule, with an identifier and an empty exceptions clause. -/
def escalationPack : RulePack where
  name := "escalation"
  version := 1
  status := .active
  region := none
  rules := [{
    ruleCode := "R1", name := "Escalate", description := "", family := "OPERATIONAL_FEASIBILITY"
    familyOrder := 99, priorityWeight := 50, severityBand := none, contributionScore := some 20
    conditions := ⟨.dict [("var", .str "critical")]⟩, exceptions := some ⟨.dict []⟩
    conflictGroup := none, conflictsWith := [], isSuppressor := false, nonSuppressible := false
    cooldownMinutes := 0, actions := Dict.empty.set "priority" (.str "High")
    mitigations := Dict.empty, sequencing := none, slaTarget := none, ruleStatus := "ACTIVE"
    enabled := true, id := some 7 }]
  parentVersion := none
  id := some 3
  tenantId := none
  createdBy := "system"
  lockVersion := 2

/-- The pack is read back from its text and decides as before. -/
theorem snapshot_transparent_escalation :
    ∃ v data restored, loads (dumps (rulePackToSnapshot escalationPack).toVal) = some v ∧
      PackSnapshot.ofVal v = some data ∧ rulePackFromSnapshot data = .ok restored ∧
      ∀ matrix incident,
        PipelineOrchestrator.run matrix incident restored =
          PipelineOrchestrator.run matrix incident escalationPack := by
  refine snapshot_transparent fun rule hrule => ?_
  cases List.mem_singleton.mp hrule
  exact ⟨rfl, fun x hx => Option.some.inj hx ▸ rfl, rfl, rfl, fun d hd => by cases hd⟩

end PulseGuard
