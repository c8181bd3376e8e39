import PulseGuard.ForStd.Except
import PulseGuard.ForStd.Interleaving
import PulseGuard.Native.ManageRules
import PulseGuard.Native.PostgresRulePackRepository

/-!
# Requests to the use cases, section by section

A use case reads the repository and later writes to it, and the two are separate
transactions. Each use case here is its two sections, what it reads and decides and the write
that follows, so that the sections of other requests can come in between; with nothing in
between they are the use case (`create_alone` and the theorems after it).
-/

namespace PulseGuard

open Interleaving

/-! ## Creation and import -/

section

variable {σ ρ : Type}

/-- A request that makes a new pack. -/
inductive NewPack where
  | create (name : String) (region tenantId : Option String) (rules : List Rule) (actor : String)
  | importDocument (document : RulePackDocument) (actor : String)

/-- The versions and the rules that the request reads, as the Draft that it will save. -/
def NewPack.read (repo : RulePackRepository σ ρ) : NewPack → σ → Except PyError (RulePack × σ)
  | create name region tenantId rules actor, s =>
    let latestVersion := (existingVersions repo name s).max?
    .ok (newDraft name (createVersion latestVersion) region tenantId rules actor latestVersion, s)
  | importDocument document actor, s => do
    let name ← RuleData.required "name" document.name
    let rules ← (document.rules.getD []).mapM ruleFromJson
    match versionTaken repo name document.version s with
    | some version => .error (importRejected name version)
    | none =>
      let latestVersion := (existingVersions repo name s).max?
      return (newDraft name (importVersion document.version latestVersion) document.region
        document.tenantId rules actor latestVersion, s)

/-- The save of a Draft, which reports the saved pack. -/
def saveDraft (repo : RulePackRepository σ ρ) (draft : RulePack) (s : σ) :
    Except PyError (RulePack × σ) := do
  let (pack, s) := repo.new draft s
  let (saved, s) ← repo.save pack s
  return (repo.pack s saved, s)

/-- Requests that make new packs, side by side. -/
def newPacks {ι : Type} (repo : RulePackRepository σ ρ) (requests : ι → NewPack) :
    System ι σ PyError RulePack RulePack where
  read i := (requests i).read repo
  write := saveDraft repo

theorem create_alone {ι : Type} (repo : RulePackRepository σ ρ) {requests : ι → NewPack} {i : ι}
    {name : String} {region tenantId : Option String} {rules : List Rule} {actor : String}
    (hi : requests i = .create name region tenantId rules actor) (app : App σ) :
    (CreateRulePackUseCase.execute repo name region tenantId rules actor app).map
      (fun r => (repo.pack r.2.repository r.1, r.2.repository)) =
    (newPacks repo requests).alone i app.repository := by
  unfold System.alone newPacks CreateRulePackUseCase.execute
  simp only [hi, NewPack.read, saveDraft, bind, Except.bind, pure, Except.pure]
  split <;> rfl

theorem import_alone {ι : Type} (repo : RulePackRepository σ ρ) {requests : ι → NewPack} {i : ι}
    {document : RulePackDocument} {actor : String}
    (hi : requests i = .importDocument document actor) (app : App σ) :
    (ImportRulePackUseCase.execute repo document actor app).map
      (fun r => (repo.pack r.2.repository r.1, r.2.repository)) =
    (newPacks repo requests).alone i app.repository := by
  unfold System.alone newPacks ImportRulePackUseCase.execute
  simp only [hi, NewPack.read, saveDraft, bind, Except.bind, pure, Except.pure]
  cases hname : RuleData.required "name" document.name with
  | error e => rfl
  | ok name =>
    cases hrules : (document.rules.getD []).mapM ruleFromJson with
    | error e => rfl
    | ok rules =>
      simp only
      cases htaken : versionTaken repo name document.version app.repository with
      | some version => rfl
      | none =>
        simp only
        split <;> rfl

end

/-! ## Rule edits, publication and activation, with Postgres -/

variable (order : RowOrder)

/-- A request to change the rules of a pack. -/
inductive RuleEdit where
  | createRule (packId : Uuid) (data : RuleData)
  | updateRule (ruleId : Uuid) (data : RuleData)
  | deleteRule (ruleId : Uuid)

/-- A request on a pack. -/
inductive PackRequest where
  | edit (request : RuleEdit)
  | publish (packId : Uuid)
  | activate (packId : Uuid) (expectedLockVersion : Option Nat)

/-- What a request holds between its sections: the detached copy of the pack that it read,
    for an edit with the rules it will save. -/
inductive HeldPack where
  | save (pack : RulePack) (rules : List Rule)
  | publish (packId : Uuid) (pack : RulePack)
  | activate (pack : RulePack) (expectedLockVersion : Option Nat)

/-- The reading section of an edit. -/
def RuleEdit.read : RuleEdit → PostgresStore → Except PyError (HeldPack × PostgresStore)
  | createRule packId data, s =>
    match PostgresRulePackRepository.getById order packId s with
    | none => .error (noSuchPack packId)
    | some pack =>
      if pack.status != .draft then .error (onlyDraft "add rules to" pack.status)
      else do
        let rule ← ruleFromJson data
        checkCode packId rule.ruleCode pack.rules
        let (rule, s) := identified (postgresRulePackRepository order) rule s
        return (.save pack (pack.rules ++ [rule]), s)
  | updateRule ruleId data, s =>
    match findRule (postgresRulePackRepository order) ruleId s with
    | none => .error (noSuchRule ruleId)
    | some (pack, rule) =>
      if pack.status != .draft then .error (onlyDraft "modify a rule in" pack.status)
      else do
        let updated ← ruleFromJson ((ruleToJson rule).override data)
        return (.save pack (replaceRule ruleId { updated with id := rule.id } pack.rules), s)
  | deleteRule ruleId, s =>
    match findRule (postgresRulePackRepository order) ruleId s with
    | none => .error (noSuchRule ruleId)
    | some (pack, _) =>
      if pack.status != .draft then .error (onlyDraft "delete a rule in" pack.status)
      else .ok (.save pack (disableRule ruleId pack.rules), s)

/-- The reading section of a request. -/
def PackRequest.read : PackRequest → PostgresStore → Except PyError (HeldPack × PostgresStore)
  | edit request, s => request.read order s
  | publish packId, s =>
    match PostgresRulePackRepository.getById order packId s with
    | none => .error (noSuchPack packId)
    | some pack =>
      if !canTransition pack.status .published then .error (cannotPublish pack.status)
      else
        let result := ValidateRulePackUseCase.execute pack
        if !result.isValid then .error (invalidPack result.errors)
        else .ok (.publish packId pack, s)
  | activate packId expectedLockVersion, s =>
    match PostgresRulePackRepository.getById order packId s with
    | none => .error (noSuchPack packId)
    | some pack =>
      if !canTransition pack.status .active then .error (cannotActivate pack.status)
      else .ok (.activate pack expectedLockVersion, s)

/-- The writing section. -/
def HeldPack.write : HeldPack → PostgresStore → Except PyError (Unit × PostgresStore)
  | save pack rules, s => do
    let (_, s) ← PostgresRulePackRepository.save order { pack with rules } s
    return ((), s)
  | publish packId _, s => do
    let (_, s) ← PostgresRulePackRepository.updateStatus packId .published none s
    return ((), s)
  | activate pack expectedLockVersion, s => do
    let (_, s) ← PostgresRulePackRepository.activate order pack.name pack.version
      expectedLockVersion s
    return ((), s)

/-- Requests on packs, side by side. -/
def packRequests {ι : Type} (requests : ι → PackRequest) :
    System ι PostgresStore PyError HeldPack Unit where
  read i := (requests i).read order
  write := HeldPack.write order

section

variable {ι : Type} {requests : ι → PackRequest} {i : ι} {actor : String} (app : App PostgresStore)

/-- The repository that a use case leaves. -/
private abbrev leaves {α : Type} (result : Except PyError (α × App PostgresStore)) :
    Except PyError (Unit × PostgresStore) :=
  result.map fun r => ((), r.2.repository)

theorem createRule_alone {packId : Uuid} {data : RuleData}
    (hi : requests i = .edit (.createRule packId data)) :
    leaves (CreateRuleUseCase.execute (postgresRulePackRepository order) packId data actor app) =
      (packRequests order requests).alone i app.repository := by
  unfold System.alone packRequests CreateRuleUseCase.execute
  simp only [hi, PackRequest.read, RuleEdit.read, bind, Except.bind, pure, Except.pure,
    getById_postgres, pack_postgres, assign_postgres, save_postgres]
  cases PostgresRulePackRepository.getById order packId app.repository with
  | none => rfl
  | some pack =>
    simp only
    by_cases hstatus : (pack.status != .draft) = true
    · simp only [hstatus]
      rfl
    · simp only [hstatus, Bool.false_eq_true, ↓reduceIte]
      cases ruleFromJson data with
      | error e => rfl
      | ok rule =>
        simp only
        cases checkCode packId rule.ruleCode pack.rules with
        | error e => rfl
        | ok _ =>
          simp only
          rw [HeldPack.write]
          simp only [bind, Except.bind, pure, Except.pure]
          split <;> rfl

theorem updateRule_alone {ruleId : Uuid} {data : RuleData}
    (hi : requests i = .edit (.updateRule ruleId data)) :
    leaves (UpdateRuleUseCase.execute (postgresRulePackRepository order) ruleId data actor app) =
      (packRequests order requests).alone i app.repository := by
  unfold System.alone packRequests UpdateRuleUseCase.execute
  simp only [hi, PackRequest.read, RuleEdit.read, bind, Except.bind, pure, Except.pure,
    pack_postgres, assign_postgres, save_postgres]
  cases findRule (postgresRulePackRepository order) ruleId app.repository with
  | none => rfl
  | some found =>
    obtain ⟨pack, rule⟩ := found
    simp only
    by_cases hstatus : (pack.status != .draft) = true
    · simp only [hstatus]
      rfl
    · simp only [hstatus, Bool.false_eq_true, ↓reduceIte]
      cases ruleFromJson ((ruleToJson rule).override data) with
      | error e => rfl
      | ok updated =>
        simp only
        rw [HeldPack.write]
        simp only [bind, Except.bind, pure, Except.pure]
        split <;> rfl

theorem deleteRule_alone {ruleId : Uuid} {reason : Option String}
    (hi : requests i = .edit (.deleteRule ruleId)) :
    leaves (DeleteRuleUseCase.execute (postgresRulePackRepository order) ruleId actor reason app) =
      (packRequests order requests).alone i app.repository := by
  unfold System.alone packRequests DeleteRuleUseCase.execute
  simp only [hi, PackRequest.read, RuleEdit.read, bind, Except.bind, pure, Except.pure,
    pack_postgres, assign_postgres, save_postgres]
  cases findRule (postgresRulePackRepository order) ruleId app.repository with
  | none => rfl
  | some found =>
    obtain ⟨pack, rule⟩ := found
    simp only
    by_cases hstatus : (pack.status != .draft) = true
    · simp only [hstatus]
      rfl
    · simp only [hstatus, Bool.false_eq_true, ↓reduceIte]
      rw [HeldPack.write]
      simp only [bind, Except.bind, pure, Except.pure]
      split <;> rfl

theorem publish_alone {packId : Uuid} (hi : requests i = .publish packId) :
    leaves (PublishRulePackUseCase.execute (postgresRulePackRepository order) packId actor app) =
      (packRequests order requests).alone i app.repository := by
  unfold System.alone packRequests PublishRulePackUseCase.execute
  simp only [hi, PackRequest.read, bind, Except.bind, pure, Except.pure, getById_postgres,
    pack_postgres, updateStatus_postgres]
  cases PostgresRulePackRepository.getById order packId app.repository with
  | none => rfl
  | some pack =>
    simp only
    by_cases hstatus : (!canTransition pack.status .published) = true
    · simp only [hstatus]
      rfl
    · by_cases hvalid : (!(ValidateRulePackUseCase.execute pack).isValid) = true
      · simp only [hstatus, hvalid]
        rfl
      · simp only [hstatus, hvalid, Bool.false_eq_true, ↓reduceIte]
        rw [HeldPack.write]
        simp only [bind, Except.bind, pure, Except.pure]
        split <;> rfl

theorem activate_alone {packId : Uuid} {lock : Option Nat} {reason : Option String}
    (hi : requests i = .activate packId lock) :
    leaves (ActivateRulePackUseCase.execute (postgresRulePackRepository order) packId actor reason
      lock app) = (packRequests order requests).alone i app.repository := by
  unfold System.alone packRequests ActivateRulePackUseCase.execute
  simp only [hi, PackRequest.read, bind, Except.bind, pure, Except.pure, getById_postgres,
    pack_postgres, activate_postgres]
  cases PostgresRulePackRepository.getById order packId app.repository with
  | none => rfl
  | some pack =>
    simp only
    by_cases hstatus : (!canTransition pack.status .active) = true
    · simp only [hstatus]
      rfl
    · simp only [hstatus, Bool.false_eq_true, ↓reduceIte]
      rw [HeldPack.write]
      simp only [bind, Except.bind, pure, Except.pure]
      split <;> rfl

end

end PulseGuard
