import Mathlib.Data.List.Basic
import PulseGuard.Native.RulePackLifecycle

/-!
# Rules inside their packs

The use cases of `app/application/use_cases/manage_rules.py`. A rule is looked up by a scan
over the packs of the repository and changed in place in the pack it was found in, which is
then saved. The rules of different packs are different objects.
-/

namespace PulseGuard

variable {σ ρ : Type}

/-- `_find_rule` -/
def findRule (repo : RulePackRepository σ ρ) (ruleId : Uuid) (s : σ) : Option (ρ × Rule) :=
  (repo.listAll none none true 10000 0 s).findSome? fun ref =>
    ((repo.pack s ref).rules.find? fun rule => rule.id == some ruleId).map fun rule => (ref, rule)

/-- `raise ValueError(f"No such rule: {rule_id}")` -/
def noSuchRule (ruleId : Uuid) : PyError := .valueError ("No such rule: " ++ toString ruleId)

/-- `GetRuleUseCase.execute` -/
def GetRuleUseCase.execute (repo : RulePackRepository σ ρ) (ruleId : Uuid) (s : σ) :
    Except PyError Rule :=
  match findRule repo ruleId s with
  | none => .error (noSuchRule ruleId)
  | some (_, rule) => .ok rule

/-- The refusal of an edit of a pack that is not a Draft. -/
def onlyDraft (edit : String) (status : PackStatus) : PyError :=
  .valueError ("Cannot " ++ edit ++ " a " ++ status.text ++
    " rule pack -- only Draft packs are editable")

/-- `rule.id = rule.id or str(uuid.uuid4())` -/
def identified (repo : RulePackRepository σ ρ) (rule : Rule) (s : σ) : Rule × σ :=
  match rule.id with
  | some _ => (rule, s)
  | none =>
    let (id, s) := repo.uuid4 s
    ({ rule with id := some id }, s)

/-- The refusal of a code that a rule of the pack has. -/
def checkCode (packId : Uuid) (ruleCode : String) (rules : List Rule) : Except PyError Unit :=
  if rules.any fun r => r.ruleCode == ruleCode then
    .error (.valueError ("Rule code '" ++ ruleCode ++ "' already exists in rule pack " ++
      toString packId))
  else .ok ()

/-- `CreateRuleUseCase.execute` -/
def CreateRuleUseCase.execute (repo : RulePackRepository σ ρ) (packId : Uuid) (data : RuleData)
    (actor : String) (app : App σ) : Except PyError (Rule × App σ) :=
  match repo.getById packId app.repository with
  | none => .error (noSuchPack packId)
  | some ref =>
    let pack := repo.pack app.repository ref
    if pack.status != .draft then
      .error (onlyDraft "add rules to" pack.status)
    else do
      let rule ← ruleFromJson data
      checkCode packId rule.ruleCode pack.rules
      let (rule, s) := identified repo rule app.repository
      let (ref, s) := repo.assign ref { pack with rules := pack.rules ++ [rule] } s
      let (_, s) ← repo.save ref s
      return (rule, writeAudit app s {
        entityType := "rule", entityId := idText rule.id, action := "created", actor
        before := none, after := some (.rule rule.id (ruleToJson rule)), reason := none })

/-- `pack.rules = [updated_rule if r.id == rule_id else r for r in pack.rules]` -/
def replaceRule (ruleId : Uuid) (updated : Rule) (rules : List Rule) : List Rule :=
  rules.map fun r => if r.id == some ruleId then updated else r

/-- `UpdateRuleUseCase.execute` -/
def UpdateRuleUseCase.execute (repo : RulePackRepository σ ρ) (ruleId : Uuid) (data : RuleData)
    (actor : String) (app : App σ) : Except PyError (Rule × App σ) :=
  match findRule repo ruleId app.repository with
  | none => .error (noSuchRule ruleId)
  | some (ref, rule) =>
    let pack := repo.pack app.repository ref
    if pack.status != .draft then
      .error (onlyDraft "modify a rule in" pack.status)
    else do
      let before := ruleToJson rule
      let updated ← ruleFromJson (before.override data)
      let updated := { updated with id := rule.id }
      let (ref, s) := repo.assign ref
        { pack with rules := replaceRule ruleId updated pack.rules } app.repository
      let (_, s) ← repo.save ref s
      return (updated, writeAudit app s {
        entityType := "rule", entityId := toString ruleId, action := "updated", actor
        before := some (.rule rule.id before)
        after := some (.rule updated.id (ruleToJson updated)), reason := none })

/-- `rule.enabled = False` on the rule that `_find_rule` returns. -/
def disableRule (ruleId : Uuid) (rules : List Rule) : List Rule :=
  rules.replaceF fun r => if r.id == some ruleId then some { r with enabled := false } else none

/-- `DeleteRuleUseCase.execute` -/
def DeleteRuleUseCase.execute (repo : RulePackRepository σ ρ) (ruleId : Uuid) (actor : String)
    (reason : Option String) (app : App σ) : Except PyError (Rule × App σ) :=
  match findRule repo ruleId app.repository with
  | none => .error (noSuchRule ruleId)
  | some (ref, rule) =>
    let pack := repo.pack app.repository ref
    if pack.status != .draft then
      .error (onlyDraft "delete a rule in" pack.status)
    else do
      let deleted := { rule with enabled := false }
      let (ref, s) := repo.assign ref
        { pack with rules := disableRule ruleId pack.rules } app.repository
      let (_, s) ← repo.save ref s
      return (deleted, writeAudit app s {
        entityType := "rule", entityId := toString ruleId, action := "deleted", actor
        before := some (.rule rule.id (ruleToJson rule))
        after := some (.rule deleted.id (ruleToJson deleted)), reason })

/-- `BulkCreateRulesUseCase.execute`: the rules before the first one refused stay. -/
def BulkCreateRulesUseCase.execute (repo : RulePackRepository σ ρ) (packId : Uuid)
    (actor : String) : List RuleData → App σ → Except PyError (List Rule) × App σ
  | [], app => (.ok [], app)
  | data :: rest, app =>
    match CreateRuleUseCase.execute repo packId data actor app with
    | .error e => (.error e, app)
    | .ok (rule, app) =>
      let (result, app) := execute repo packId actor rest app
      (result.map (rule :: ·), app)

/-- `InMemoryAuditLogRepository.list_by_entity` -/
def listByEntity (entityType entityId : String) (audit : List AuditLogEntry) :
    List AuditLogEntry :=
  audit.filter fun entry => entry.entityType == entityType && entry.entityId == entityId

/-- `RuleHistoryUseCase.execute` of one rule. -/
def RuleHistoryUseCase.execute (ruleId : Uuid) (audit : List AuditLogEntry) :
    List AuditLogEntry :=
  listByEntity "rule" (toString ruleId) audit

end PulseGuard
