import PulseGuard.Native.RulePackRepository
import PulseGuard.Native.ValidateRulePack

/-!
# Rule pack lifecycle

The use cases of `app/application/use_cases/rule_pack_lifecycle.py` and
`rollback_rule_pack.py`, over any repository. The state is the repository's with the
audit trail, oldest entry first. A use case that raises has changed nothing; the cache
notifications and the correlation ids are left out.
-/

namespace PulseGuard

variable {σ ρ : Type}

/-- The `before` and `after` of an audit entry: `_pack_snapshot`, the three keys that a
    rollback records, or `_rule_to_json`. -/
inductive AuditSnapshot where
  | pack (id : Option Uuid) (name : String) (version : Int) (status : PackStatus)
  | rollback (name : String) (version : Int) (status : PackStatus)
  | rule (id : Option Uuid) (data : RuleData)

/-- `AuditLogEntry` -/
structure AuditLogEntry where
  entityType : String
  entityId : String
  action : String
  actor : String
  before : Option AuditSnapshot
  after : Option AuditSnapshot
  reason : Option String

/-- What the use cases work on. -/
structure App (σ : Type) where
  repository : σ
  audit : List AuditLogEntry

/-- An identifier as the audit trail shows it. -/
def idText (id : Option Uuid) : String := (id.map toString).getD "None"

/-- `_pack_snapshot` -/
def packSnapshot (pack : RulePack) : AuditSnapshot :=
  .pack pack.id pack.name pack.version pack.status

/-- `_write_audit` after a write of the repository that led to `s`. -/
def writeAudit (app : App σ) (s : σ) (entry : AuditLogEntry) : App σ :=
  { repository := s, audit := app.audit ++ [entry] }

@[simp] theorem repository_writeAudit (app : App σ) (s : σ) (entry : AuditLogEntry) :
    (writeAudit app s entry).repository = s := rfl

/-- The versions of the packs with a name, lowest first. -/
def existingVersions (repo : RulePackRepository σ ρ) (name : String) (s : σ) : List Int :=
  (repo.listVersions name s).map fun ref => (repo.pack s ref).version

/-- The Draft that a creation or an import saves. -/
def newDraft (name : String) (version : Int) (region tenantId : Option String)
    (rules : List Rule) (actor : String) (latestVersion : Option Int) : RulePack where
  name := name
  version := version
  status := .draft
  region := region
  rules := rules
  parentVersion := latestVersion
  id := none
  tenantId := tenantId
  createdBy := actor
  lockVersion := 1

/-- `(latest_version + 1) if latest_version is not None else 1` -/
def createVersion (latestVersion : Option Int) : Int :=
  match latestVersion with
  | some version => version + 1
  | none => 1

/-- `CreateRulePackUseCase.execute` -/
def CreateRulePackUseCase.execute (repo : RulePackRepository σ ρ) (name : String)
    (region tenantId : Option String) (rules : List Rule) (actor : String) (app : App σ) :
    Except PyError (ρ × App σ) := do
  let latestVersion := (existingVersions repo name app.repository).max?
  let (pack, s) := repo.new
    (newDraft name (createVersion latestVersion) region tenantId rules actor latestVersion)
    app.repository
  let (saved, s) ← repo.save pack s
  return (saved, writeAudit app s {
    entityType := "rule_pack", entityId := idText (repo.pack s saved).id, action := "created", actor
    before := none, after := some (packSnapshot (repo.pack s saved)), reason := none })

/-- The JSON document of an import. -/
structure RulePackDocument where
  name : Option String := none
  version : Option Int := none
  region : Option String := none
  tenantId : Option String := none
  rules : Option (List RuleData) := none

/-- `requested_version or ((latest_version or 0) + 1)` -/
def importVersion (requestedVersion latestVersion : Option Int) : Int :=
  match requestedVersion with
  | some version => if version != 0 then version else latestVersion.getD 0 + 1
  | none => latestVersion.getD 0 + 1

/-- The version a document asks for, when a pack is stored under it. -/
def versionTaken (repo : RulePackRepository σ ρ) (name : String) (requestedVersion : Option Int)
    (s : σ) : Option Int :=
  requestedVersion.filter fun version => (repo.get name version s).isSome

/-- The refusal of an import of a version that exists. -/
def importRejected (name : String) (version : Int) : PyError :=
  .valueError ("Rule pack '" ++ name ++ "' version " ++ toString version ++
    " already exists -- import rejected")

/-- `ImportRulePackUseCase.execute` -/
def ImportRulePackUseCase.execute (repo : RulePackRepository σ ρ) (document : RulePackDocument)
    (actor : String) (app : App σ) : Except PyError (ρ × App σ) := do
  let name ← RuleData.required "name" document.name
  let rules ← (document.rules.getD []).mapM ruleFromJson
  match versionTaken repo name document.version app.repository with
  | some version => .error (importRejected name version)
  | none =>
    let latestVersion := (existingVersions repo name app.repository).max?
    let (pack, s) := repo.new
      (newDraft name (importVersion document.version latestVersion) document.region
        document.tenantId rules actor latestVersion) app.repository
    let (saved, s) ← repo.save pack s
    return (saved, writeAudit app s {
      entityType := "rule_pack", entityId := idText (repo.pack s saved).id, action := "imported"
      actor, before := none, after := some (packSnapshot (repo.pack s saved)), reason := none })

/-- `UpdateRulePackMetadataUseCase.execute` -/
def UpdateRulePackMetadataUseCase.execute (repo : RulePackRepository σ ρ) (packId : Uuid)
    (actor : String) (expectedLockVersion : Option Nat) (fields : List PackAttr) (app : App σ) :
    Except PyError (ρ × App σ) :=
  match repo.getById packId app.repository with
  | none => .error (noSuchPack packId)
  | some ref =>
    let pack := repo.pack app.repository ref
    if pack.status != .draft then
      .error (.valueError ("Cannot modify a " ++ pack.status.text ++
        " rule pack -- only Draft packs are editable; create a new version instead"))
    else do
      let (updated, s) ← repo.updateMetadata packId expectedLockVersion fields app.repository
      return (updated, writeAudit app s {
        entityType := "rule_pack", entityId := toString packId, action := "updated", actor
        before := some (packSnapshot pack)
        after := some (packSnapshot (repo.pack s updated)), reason := none })

/-- `SoftDeleteRulePackUseCase.execute` -/
def SoftDeleteRulePackUseCase.execute (repo : RulePackRepository σ ρ) (packId : Uuid)
    (actor : String) (reason : Option String) (expectedLockVersion : Option Nat) (app : App σ) :
    Except PyError (ρ × App σ) :=
  match repo.getById packId app.repository with
  | none => .error (noSuchPack packId)
  | some ref =>
    let pack := repo.pack app.repository ref
    if pack.status == .active then
      .error (.valueError
        "Cannot delete the active rule pack -- activate a different version first")
    else do
      let (deleted, s) ← repo.softDelete packId expectedLockVersion app.repository
      return (deleted, writeAudit app s {
        entityType := "rule_pack", entityId := toString packId, action := "deleted", actor
        before := some (packSnapshot pack)
        after := some (packSnapshot (repo.pack s deleted)), reason })

/-- The refusal of a publication from another status than Draft. -/
def cannotPublish (status : PackStatus) : PyError :=
  .valueError ("Cannot publish a rule pack in status '" ++ status.text ++ "'")

/-- The refusal of the publication of a pack that is not valid. -/
def invalidPack (errors : List String) : PyError :=
  .valueError ("Cannot publish an invalid rule pack: " ++ String.intercalate "; " errors)

/-- `PublishRulePackUseCase.execute` -/
def PublishRulePackUseCase.execute (repo : RulePackRepository σ ρ) (packId : Uuid)
    (actor : String) (app : App σ) : Except PyError (ρ × App σ) :=
  match repo.getById packId app.repository with
  | none => .error (noSuchPack packId)
  | some ref =>
    let pack := repo.pack app.repository ref
    if !canTransition pack.status .published then
      .error (cannotPublish pack.status)
    else
      let result := ValidateRulePackUseCase.execute pack
      if !result.isValid then
        .error (invalidPack result.errors)
      else do
        let (updated, s) ← repo.updateStatus packId .published none app.repository
        return (updated, writeAudit app s {
          entityType := "rule_pack", entityId := toString packId, action := "published", actor
          before := some (packSnapshot pack)
          after := some (packSnapshot (repo.pack s updated)), reason := none })

/-- The refusal of an activation that the transition table does not know. -/
def cannotActivate (status : PackStatus) : PyError :=
  .valueError ("Cannot activate a rule pack in status '" ++ status.text ++
    "' -- publish it first (or it must be 'deprecated' for a rollback-style re-activation)")

/-- `ActivateRulePackUseCase.execute` -/
def ActivateRulePackUseCase.execute (repo : RulePackRepository σ ρ) (packId : Uuid)
    (actor : String) (reason : Option String) (expectedLockVersion : Option Nat) (app : App σ) :
    Except PyError (ρ × App σ) :=
  match repo.getById packId app.repository with
  | none => .error (noSuchPack packId)
  | some ref =>
    let pack := repo.pack app.repository ref
    if !canTransition pack.status .active then
      .error (cannotActivate pack.status)
    else do
      let (activated, s) ←
        repo.activate pack.name pack.version expectedLockVersion app.repository
      return (activated, writeAudit app s {
        entityType := "rule_pack", entityId := toString packId, action := "activated", actor
        before := some (packSnapshot pack)
        after := some (packSnapshot (repo.pack s activated)), reason })

/-- `ExportRulePackUseCase.execute`. The region is shown as `None` or quoted. -/
def ExportRulePackUseCase.execute (repo : RulePackRepository σ ρ) (name : String)
    (region : Option String) (app : App σ) : Except PyError RulePackDocument :=
  match repo.getActive name region app.repository with
  | none => .error (.valueError ("No active rule pack named '" ++ name ++ "' for region=" ++
      ((region.map PyVal.reprStr).getD "None")))
  | some ref =>
    let pack := repo.pack app.repository ref
    .ok {
      name := some pack.name, version := some pack.version, region := pack.region
      rules := some (pack.rules.map ruleToJson) }

/-- What `RollbackRulePackUseCase` raises on a stale lock version. -/
def staleRollback (name : String) (version : Int) (expected current : Nat) : PyError :=
  concurrentModification (name ++ " v" ++ toString version ++
    " was modified by someone else since it was loaded (expected lock_version=" ++
    toString expected ++ ", current=" ++ toString current ++
    ") -- reload the latest state and retry the rollback.")

/-- The lock check of a rollback, on the version it rolls back from. -/
def checkRollbackLock (name : String) (version : Int) (current : Nat) (expected : Option Nat) :
    Except PyError Unit :=
  match expected with
  | none => .ok ()
  | some n => if current != n then .error (staleRollback name version n current) else .ok ()

theorem checkRollbackLock_ok_iff {name : String} {version : Int} {current : Nat}
    {lock : Option Nat} :
    checkRollbackLock name version current lock = .ok () ↔ ∀ n, lock = some n → current = n := by
  unfold checkRollbackLock
  cases lock with
  | none => simp
  | some n =>
    by_cases hn : current = n
    · simp [hn]
    · simp [hn]

/-- `RollbackRulePackUseCase.execute`: the parent is activated whatever its status is. -/
def RollbackRulePackUseCase.execute (repo : RulePackRepository σ ρ) (name : String)
    (currentVersion : Int) (actor : String) (reason : Option String)
    (expectedLockVersion : Option Nat) (app : App σ) : Except PyError (ρ × App σ) :=
  match repo.get name currentVersion app.repository with
  | none => .error (noSuchVersion name currentVersion)
  | some ref =>
    let current := repo.pack app.repository ref
    match current.parentVersion with
    | none => .error (.valueError (name ++ " v" ++ toString currentVersion ++
        " has no parent version to roll back to"))
    | some parentVersion => do
      checkRollbackLock name currentVersion current.lockVersion expectedLockVersion
      let (rolledBack, s) ← repo.activate name parentVersion none app.repository
      let after := repo.pack s rolledBack
      return (rolledBack, writeAudit app s {
        entityType := "rule_pack", entityId := (after.id.map toString).getD name
        action := "rolled_back", actor
        before := some (.rollback name currentVersion (repo.pack s ref).status)
        after := some (.rollback name after.version after.status), reason })

end PulseGuard
