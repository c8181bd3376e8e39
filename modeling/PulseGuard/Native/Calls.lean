import PulseGuard.Native.ManageRules
import PulseGuard.Native.Pipeline
import PulseGuard.Native.RulePacks.Base

/-!
# Seeding, promotion to shadow, and calls

`SeedActivePolicyOnStartupUseCase` and `PromoteToShadowUseCase`
(`app/application/use_cases/seed_active_policy.py`, `promote_to_shadow.py`), and the calls
a client or a job can make of the use cases that write.
-/

namespace PulseGuard

variable {σ ρ : Type}

/-- `SeedResult` -/
structure SeedResult where
  seeded : Bool
  activated : Bool
  packName : String
  packVersion : Int

/-- The fixture under the name the use case was built with. -/
def fixturePack (ruleSetName : String) : RulePack :=
  { InMemoryRuleRepository.getActive with name := ruleSetName }

/-- The pack the seeding activates: the version that exists already, or the fixture, saved. -/
def seedSave (repo : RulePackRepository σ ρ) (ruleSetName : String) (s : σ) :
    Except PyError (ρ × σ) :=
  let pack := fixturePack ruleSetName
  match repo.get pack.name pack.version s with
  | some existingVersion => .ok (existingVersion, s)
  | none =>
    let (ref, s) := repo.new pack s
    repo.save ref s

/-- `SeedActivePolicyOnStartupUseCase.execute` -/
def SeedActivePolicyOnStartupUseCase.execute (repo : RulePackRepository σ ρ)
    (ruleSetName : String) (app : App σ) : Except PyError (SeedResult × App σ) :=
  match repo.getActive ruleSetName none app.repository with
  | some ref => .ok ({
      seeded := false, activated := true, packName := ruleSetName
      packVersion := (repo.pack app.repository ref).version }, app)
  | none => do
    let (saved, s) ← seedSave repo ruleSetName app.repository
    let saved := repo.pack s saved
    let (activated, s) ← repo.activate saved.name saved.version none s
    return ({
      seeded := true, activated := true, packName := saved.name
      packVersion := (repo.pack s activated).version }, { app with repository := s })

/-- `ShadowDiffEntry` -/
structure ShadowDiffEntry where
  incidentId : String
  activeDecision : Dict String PyVal
  candidateDecision : Dict String PyVal
  differs : Bool

/-- One round of the loop over the sample incidents. -/
def shadowDiff (matrix : Option SlaMatrix) (activePack candidatePack : RulePack)
    (incident : Incident) : Except PyError ShadowDiffEntry := do
  let activeDecision ← PipelineOrchestrator.run matrix incident activePack
  let candidateDecision ← PipelineOrchestrator.run matrix incident candidatePack
  return {
    incidentId := incident.incidentId
    activeDecision := activeDecision.actions
    candidateDecision := candidateDecision.actions
    differs := !activeDecision.priority.beq candidateDecision.priority ||
      !(PyVal.dict activeDecision.actions.entries).beq (.dict candidateDecision.actions.entries) }

/-- `PromoteToShadowUseCase.execute`: the candidate is marked before the sample runs, and
    stays so when a run raises. -/
def PromoteToShadowUseCase.execute (repo : RulePackRepository σ ρ) (matrix : Option SlaMatrix)
    (candidate active : ρ) (sampleIncidents : List Incident) (app : App σ) :
    Except PyError (List ShadowDiffEntry) × App σ :=
  let candidatePack := repo.pack app.repository candidate
  let validation := ValidateRulePackUseCase.execute candidatePack
  if !validation.isValid then
    (.error (.valueError ("Cannot promote an invalid rule pack to shadow: " ++
      PyVal.repr (.list (validation.errors.map .str)))), app)
  else
    let (candidate, s) := repo.assign candidate { candidatePack with status := .shadow }
      app.repository
    (sampleIncidents.mapM (shadowDiff matrix (repo.pack s active) (repo.pack s candidate)),
      { app with repository := s })

/-- The calls that write. A promotion names its packs by the identifiers they are read by. -/
inductive Call where
  | createRulePack (name : String) (region tenantId : Option String) (rules : List Rule)
      (actor : String)
  | importRulePack (document : RulePackDocument) (actor : String)
  | updateMetadata (packId : Uuid) (actor : String) (expectedLockVersion : Option Nat)
      (fields : List PackAttr)
  | createRule (packId : Uuid) (data : RuleData) (actor : String)
  | updateRule (ruleId : Uuid) (data : RuleData) (actor : String)
  | deleteRule (ruleId : Uuid) (actor : String) (reason : Option String)
  | bulkCreateRules (packId : Uuid) (rulesData : List RuleData) (actor : String)
  | publish (packId : Uuid) (actor : String)
  | activate (packId : Uuid) (actor : String) (reason : Option String)
      (expectedLockVersion : Option Nat)
  | rollback (name : String) (currentVersion : Int) (actor : String) (reason : Option String)
      (expectedLockVersion : Option Nat)
  | softDelete (packId : Uuid) (actor : String) (reason : Option String)
      (expectedLockVersion : Option Nat)
  | seed (ruleSetName : String)
  | promoteToShadow (candidateId activeId : Uuid) (matrix : Option SlaMatrix)
      (sampleIncidents : List Incident)

/-- The outcome of a call that changes nothing when it raises. -/
def outcome (app : App σ) : Except PyError (α × App σ) → Except PyError Unit × App σ
  | .ok (_, app) => (.ok (), app)
  | .error e => (.error e, app)

/-- What a call does: whether it raises, and the state it leaves. -/
def Call.exec (repo : RulePackRepository σ ρ) : Call → App σ → Except PyError Unit × App σ
  | createRulePack name region tenantId rules actor, app =>
    outcome app (CreateRulePackUseCase.execute repo name region tenantId rules actor app)
  | importRulePack document actor, app =>
    outcome app (ImportRulePackUseCase.execute repo document actor app)
  | updateMetadata packId actor expectedLockVersion fields, app =>
    outcome app
      (UpdateRulePackMetadataUseCase.execute repo packId actor expectedLockVersion fields app)
  | createRule packId data actor, app =>
    outcome app (CreateRuleUseCase.execute repo packId data actor app)
  | updateRule ruleId data actor, app =>
    outcome app (UpdateRuleUseCase.execute repo ruleId data actor app)
  | deleteRule ruleId actor reason, app =>
    outcome app (DeleteRuleUseCase.execute repo ruleId actor reason app)
  | bulkCreateRules packId rulesData actor, app =>
    let (result, app) := BulkCreateRulesUseCase.execute repo packId actor rulesData app
    (result.map fun _ => (), app)
  | publish packId actor, app => outcome app (PublishRulePackUseCase.execute repo packId actor app)
  | activate packId actor reason expectedLockVersion, app =>
    outcome app
      (ActivateRulePackUseCase.execute repo packId actor reason expectedLockVersion app)
  | rollback name currentVersion actor reason expectedLockVersion, app =>
    outcome app (RollbackRulePackUseCase.execute repo name currentVersion actor reason
      expectedLockVersion app)
  | softDelete packId actor reason expectedLockVersion, app =>
    outcome app
      (SoftDeleteRulePackUseCase.execute repo packId actor reason expectedLockVersion app)
  | seed ruleSetName, app =>
    outcome app (SeedActivePolicyOnStartupUseCase.execute repo ruleSetName app)
  | promoteToShadow candidateId activeId matrix sampleIncidents, app =>
    match repo.getById candidateId app.repository, repo.getById activeId app.repository with
    | some candidate, some active =>
      let (result, app) :=
        PromoteToShadowUseCase.execute repo matrix candidate active sampleIncidents app
      (result.map fun _ => (), app)
    | none, _ => (.error (noSuchPack candidateId), app)
    | _, none => (.error (noSuchPack activeId), app)

/-- The state after a list of calls, made one after another whether or not some raise. -/
def runCalls (repo : RulePackRepository σ ρ) : List Call → App σ → App σ
  | [], app => app
  | call :: rest, app => runCalls repo rest (call.exec repo app).2

theorem runCalls_append (repo : RulePackRepository σ ρ) (calls rest : List Call) (app : App σ) :
    runCalls repo (calls ++ rest) app = runCalls repo rest (runCalls repo calls app) := by
  induction calls generalizing app with
  | nil => rfl
  | cons call calls ih => exact ih _

end PulseGuard
