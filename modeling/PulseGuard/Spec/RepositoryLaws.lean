import PulseGuard.ForStd.Except
import PulseGuard.Spec.Catalogue

/-!
# What a repository owes, and what the use cases then do

`Lawful` collects the specification of each repository operation in terms of the
catalogue. Over any lawful repository a call of a use case is a run of saves followed by at
most one other write (`Lawful.exec_performs`), and a list of calls is a run of writes
(`Lawful.runCalls_performs`), each of which meets the condition that was asked of the calls.
-/

namespace PulseGuard

open Run

variable {σ ρ : Type}

/-- A repository that does what its interface says, on the states that satisfy `Inv`.
    `Reads s ref u`: in `s`, `ref` is what a query returns for the pack `u`. -/
structure Lawful (repo : RulePackRepository σ ρ) (V : StoreView σ) where
  Inv : σ → Prop
  Reads : σ → ρ → Uuid → Prop
  bound : ∀ {s u p}, Inv s → V.catalogue s u = some p → u < V.supply s
  reads : ∀ {s ref u}, Inv s → Reads s ref u →
    V.catalogue s u = some (repo.pack s ref) ∧ (repo.pack s ref).id = some u
  getById : ∀ {s u ref}, Inv s → repo.getById u s = some ref → Reads s ref u
  get : ∀ {s name version ref}, Inv s → repo.get name version s = some ref → ∃ u, Reads s ref u
  getActive_none : ∀ {s name region u p}, Inv s → repo.getActive name region s = none →
    V.catalogue s u = some p → ¬(p.status = .active ∧ p.name = name ∧ p.region = region)
  getActive : ∀ {s name region ref}, Inv s → repo.getActive name region s = some ref →
    (∃ u, Reads s ref u) ∧ (repo.pack s ref).status = .active
  listAll : ∀ {s status region archived limit offset ref}, Inv s →
    ref ∈ repo.listAll status region archived limit offset s → ∃ u, Reads s ref u
  inv_uuid4 : ∀ {s}, Inv s → Inv (repo.uuid4 s).2
  catalogue_uuid4 : ∀ s, V.catalogue (repo.uuid4 s).2 = V.catalogue s
  supply_uuid4 : ∀ s, V.supply s ≤ V.supply (repo.uuid4 s).2
  get_uuid4 : ∀ name version s, (repo.get name version (repo.uuid4 s).2).map
    (repo.pack (repo.uuid4 s).2) = (repo.get name version s).map (repo.pack s)
  pack_uuid4 : ∀ s ref, repo.pack (repo.uuid4 s).2 ref = repo.pack s ref
  reads_uuid4 : ∀ {s ref u}, Reads s ref u → Reads (repo.uuid4 s).2 ref u
  saveNew : ∀ {s p r t}, Inv s → p.id = none →
    (∀ ref ∈ repo.listVersions p.name s, (repo.pack s ref).version ≠ p.version) ∨
      repo.get p.name p.version s = none →
    repo.save (repo.new p s).1 (repo.new p s).2 = .ok (r, t) →
    Inv t ∧ WriteStep repo V s (.saveNew p) t ∧
      (repo.pack t r).name = p.name ∧ (repo.pack t r).version = p.version
  saveEdited : ∀ {s ref u rules r t}, Inv s → Reads s ref u → (repo.pack s ref).status = .draft →
    repo.save (repo.assign ref { repo.pack s ref with rules } s).1
      (repo.assign ref { repo.pack s ref with rules } s).2 = .ok (r, t) →
    Inv t ∧ WriteStep repo V s (.saveEdited (repo.pack s ref) rules) t
  updateMetadata : ∀ {s u p lock fields r t}, Inv s → V.catalogue s u = some p →
    p.status = .draft → (V.inPlace → fields.all PackAttr.isMetadata = true) →
    repo.updateMetadata u lock fields s = .ok (r, t) →
    Inv t ∧ WriteStep repo V s (.updateMetadata u lock fields) t
  publish : ∀ {s u p r t}, Inv s → V.catalogue s u = some p → p.status = .draft →
    (ValidateRulePackUseCase.execute p).isValid = true →
    repo.updateStatus u .published none s = .ok (r, t) →
    Inv t ∧ WriteStep repo V s (.publish u) t
  softDelete : ∀ {s u p lock r t}, Inv s → V.catalogue s u = some p → p.status ≠ .active →
    repo.softDelete u lock s = .ok (r, t) →
    Inv t ∧ WriteStep repo V s (.softDelete u lock) t
  activate : ∀ {s requested name version lock r t}, Inv s →
    repo.activate name version lock s = .ok (r, t) →
    Inv t ∧ WriteStep repo V s (.activate requested name version lock) t
  promoteToShadow : ∀ {s ref u}, Inv s → Reads s ref u →
    (ValidateRulePackUseCase.execute (repo.pack s ref)).isValid = true →
    let t := (repo.assign ref { repo.pack s ref with status := .shadow } s).2
    t = s ∨ Inv t ∧ WriteStep repo V s (.promoteToShadow u) t

/-! ## Writes as operations -/

namespace Lawful

variable {repo : RulePackRepository σ ρ} {V : StoreView σ} (L : Lawful repo V)

/-- The operation that a write performs, with what its use case has made sure of. The save of
    an edited pack may come after the drawing of an identifier for a rule. -/
inductive Performs (s : σ) : Write → σ → Prop where
  | saveNew {p : RulePack} {r : ρ} {t : σ} (hid : p.id = none)
      (hfree : (∀ ref ∈ repo.listVersions p.name s, (repo.pack s ref).version ≠ p.version) ∨
        repo.get p.name p.version s = none)
      (hsave : repo.save (repo.new p s).1 (repo.new p s).2 = .ok (r, t)) :
      Performs s (.saveNew p) t
  | saveEdited {s' t : σ} {ref r : ρ} {u : Uuid} {rules : List Rule}
      (hs' : s' = s ∨ s' = (repo.uuid4 s).2) (hreads : L.Reads s ref u)
      (hdraft : (repo.pack s ref).status = .draft)
      (hsave : repo.save (repo.assign ref { repo.pack s ref with rules } s').1
        (repo.assign ref { repo.pack s ref with rules } s').2 = .ok (r, t)) :
      Performs s (.saveEdited (repo.pack s ref) rules) t
  | updateMetadata {p : RulePack} {u : Uuid} {lock : Option Nat} {fields : List PackAttr} {r : ρ}
      {t : σ} (hp : V.catalogue s u = some p) (hdraft : p.status = .draft)
      (hmeta : V.inPlace → fields.all PackAttr.isMetadata = true)
      (hupdate : repo.updateMetadata u lock fields s = .ok (r, t)) :
      Performs s (.updateMetadata u lock fields) t
  | publish {p : RulePack} {u : Uuid} {r : ρ} {t : σ} (hp : V.catalogue s u = some p)
      (hdraft : p.status = .draft) (hvalid : (ValidateRulePackUseCase.execute p).isValid = true)
      (hupdate : repo.updateStatus u .published none s = .ok (r, t)) : Performs s (.publish u) t
  | softDelete {p : RulePack} {u : Uuid} {lock : Option Nat} {r : ρ} {t : σ}
      (hp : V.catalogue s u = some p) (hactive : p.status ≠ .active)
      (hdelete : repo.softDelete u lock s = .ok (r, t)) : Performs s (.softDelete u lock) t
  | activate {requested : Option Uuid} {name : String} {version : Int} {lock : Option Nat} {r : ρ}
      {t : σ} (hactivate : repo.activate name version lock s = .ok (r, t)) :
      Performs s (.activate requested name version lock) t
  | promoteToShadow {ref : ρ} {u : Uuid} {t : σ} (hreads : L.Reads s ref u)
      (hvalid : (ValidateRulePackUseCase.execute (repo.pack s ref)).isValid = true)
      (ht : t = (repo.assign ref { repo.pack s ref with status := .shadow } s).2) (hne : t ≠ s) :
      Performs s (.promoteToShadow u) t

include L in
/-- Drawing an identifier changes nothing that `get` shows. -/
theorem under_uuid4 {s : σ} {name : String} {version : Int} {v : Uuid} :
    Under repo (repo.uuid4 s).2 name version v ↔ Under repo s name version v := by
  have hmap := L.get_uuid4 name version s
  constructor
  · intro h
    obtain ⟨ref, hget, hid⟩ := h
    rw [hget, Option.map_some] at hmap
    obtain ⟨ref', hget', hpack⟩ := Option.map_eq_some_iff.mp hmap.symm
    refine ⟨ref', hget', ?_⟩
    rw [hpack, hid]
  · intro h
    obtain ⟨ref, hget, hid⟩ := h
    rw [hget, Option.map_some] at hmap
    obtain ⟨ref', hget', hpack⟩ := Option.map_eq_some_iff.mp hmap
    refine ⟨ref', hget', ?_⟩
    rw [hpack, hid]

include L in
theorem onlyUnder_uuid4 {s : σ} {name : String} {version : Int} {v : Uuid} :
    OnlyUnder repo (repo.uuid4 s).2 name version v ↔ OnlyUnder repo s name version v := by
  simp only [OnlyUnder, L.under_uuid4]

include L in
/-- A save after an identifier was drawn is a save from the state before. -/
theorem saveEdited_of_uuid4 {s t : σ} {p : RulePack} {rules : List Rule}
    (h : WriteStep repo V (repo.uuid4 s).2 (.saveEdited p rules) t) :
    WriteStep repo V s (.saveEdited p rules) t := by
  obtain ⟨hsupply, heffect⟩ := h
  refine ⟨le_trans (L.supply_uuid4 s) hsupply, ?_⟩
  cases heffect with
  | saveEdited hp hdraft hunder hsame hlost ht =>
    rw [L.catalogue_uuid4] at hp ht
    exact .saveEdited hp hdraft (fun hcopy => L.under_uuid4.mp (hunder hcopy)) hsame
      (fun v hv => ⟨(hlost v hv).1, L.onlyUnder_uuid4.mp (hlost v hv).2⟩) ht
  | overwrite hcopy hp hid hdraft hq hv hunder hstatus hname hwrite ht =>
    rw [L.catalogue_uuid4] at hp hq ht
    exact .overwrite hcopy hp hid hdraft hq hv (L.onlyUnder_uuid4.mp hunder) hstatus
      hname hwrite ht

variable {L}

/-- What the laws say of a write that is performed. -/
theorem Performs.step {s t : σ} {w : Write} (h : L.Performs s w t) (hInv : L.Inv s) :
    L.Inv t ∧ WriteStep repo V s w t := by
  cases h with
  | saveNew hid hfree hsave =>
    obtain ⟨hInv', hstep, -⟩ := L.saveNew hInv hid hfree hsave
    exact ⟨hInv', hstep⟩
  | @saveEdited _ _ ref _ _ _ hs' hreads hdraft hsave =>
    rcases hs' with rfl | rfl
    · exact L.saveEdited hInv hreads hdraft hsave
    · rw [← L.pack_uuid4 s ref] at hsave hdraft ⊢
      have hlaw := L.saveEdited (L.inv_uuid4 hInv) (L.reads_uuid4 hreads) hdraft hsave
      exact ⟨hlaw.1, L.saveEdited_of_uuid4 hlaw.2⟩
  | updateMetadata hp hdraft hmeta hupdate => exact L.updateMetadata hInv hp hdraft hmeta hupdate
  | publish hp hdraft hvalid hupdate => exact L.publish hInv hp hdraft hvalid hupdate
  | softDelete hp hactive hdelete => exact L.softDelete hInv hp hactive hdelete
  | activate hactivate => exact L.activate hInv hactivate
  | promoteToShadow hreads hvalid ht hne =>
    rcases L.promoteToShadow hInv hreads hvalid with hsame | hlaw
    · exact absurd (ht.trans hsame) hne
    · rw [ht]
      exact hlaw

end Lawful

/-! ## The writes of a call -/

/-- What a call that returns has come to. -/
theorem execute_of_outcome_ok {α : Type} {app : App σ} {result : Except PyError (α × App σ)}
    (h : (outcome app result).1 = .ok ()) : ∃ a, result = .ok (a, (outcome app result).2) := by
  cases result with
  | ok pair => exact ⟨pair.1, rfl⟩
  | error e => cases h

/-- Every save of a bulk creation meets a condition in the state it is made in. -/
def BulkEach (repo : RulePackRepository σ ρ) (P : σ → RuleData → Prop) (packId : Uuid)
    (actor : String) : List RuleData → App σ → Prop
  | [], _ => True
  | data :: rest, app => P app.repository data ∧
    ∀ rule app', CreateRuleUseCase.execute repo packId data actor app = .ok (rule, app') →
      BulkEach repo P packId actor rest app'

/-- The save of one created rule meets a condition. -/
def CreateRuleEach (repo : RulePackRepository σ ρ) (P : σ → Write → Prop) (packId : Uuid) (s : σ)
    (data : RuleData) : Prop :=
  ∀ ref rule, repo.getById packId s = some ref → (repo.pack s ref).status = .draft →
    ruleFromJson data = .ok rule →
    P s (.saveEdited (repo.pack s ref) ((repo.pack s ref).rules ++ [(identified repo rule s).1]))

/-- Every write that a call makes meets a condition in the state it is made in. -/
def Call.Each (repo : RulePackRepository σ ρ) (P : σ → Write → Prop) : Call → App σ → Prop
  | createRulePack name region tenantId rules actor, app =>
    let latest := (existingVersions repo name app.repository).max?
    P app.repository
      (.saveNew (newDraft name (createVersion latest) region tenantId rules actor latest))
  | importRulePack document actor, app => ∀ name rules, document.name = some name →
    (document.rules.getD []).mapM ruleFromJson = .ok rules →
    versionTaken repo name document.version app.repository = none →
    let latest := (existingVersions repo name app.repository).max?
    P app.repository (.saveNew (newDraft name (importVersion document.version latest)
      document.region document.tenantId rules actor latest))
  | updateMetadata packId _ lock fields, app => P app.repository (.updateMetadata packId lock fields)
  | createRule packId data _, app => CreateRuleEach repo P packId app.repository data
  | updateRule ruleId data _, app => ∀ ref rule updated,
    findRule repo ruleId app.repository = some (ref, rule) →
    (repo.pack app.repository ref).status = .draft →
    ruleFromJson ((ruleToJson rule).override data) = .ok updated →
    P app.repository (.saveEdited (repo.pack app.repository ref)
      (replaceRule ruleId { updated with id := rule.id } (repo.pack app.repository ref).rules))
  | deleteRule ruleId _ _, app => ∀ ref rule,
    findRule repo ruleId app.repository = some (ref, rule) →
    (repo.pack app.repository ref).status = .draft →
    P app.repository (.saveEdited (repo.pack app.repository ref)
      (disableRule ruleId (repo.pack app.repository ref).rules))
  | bulkCreateRules packId rulesData actor, app =>
    BulkEach repo (CreateRuleEach repo P packId) packId actor rulesData app
  | publish packId _, app => P app.repository (.publish packId)
  | activate packId _ _ lock, app => ∀ ref, repo.getById packId app.repository = some ref →
    canTransition (repo.pack app.repository ref).status .active = true →
    P app.repository (.activate (some packId) (repo.pack app.repository ref).name
      (repo.pack app.repository ref).version lock)
  | rollback name currentVersion _ _ _, app => ∀ ref parentVersion,
    repo.get name currentVersion app.repository = some ref →
    (repo.pack app.repository ref).parentVersion = some parentVersion →
    P app.repository (.activate none name parentVersion none)
  | softDelete packId _ _ lock, app => P app.repository (.softDelete packId lock)
  | seed ruleSetName, app => repo.getActive ruleSetName none app.repository = none →
    (repo.get ruleSetName (fixturePack ruleSetName).version app.repository = none →
      P app.repository (.saveNew (fixturePack ruleSetName))) ∧
    ∀ ref t, seedSave repo ruleSetName app.repository = .ok (ref, t) →
      P t (.activate none (repo.pack t ref).name (repo.pack t ref).version none)
  | promoteToShadow candidateId _ _ _, app => P app.repository (.promoteToShadow candidateId)

/-- What follows from two conditions for every write, follows for a call. -/
theorem Call.Each.map₂ {repo : RulePackRepository σ ρ} {P Q R : σ → Write → Prop} {call : Call}
    {app : App σ} (hP : call.Each repo P app) (hQ : call.Each repo Q app)
    (h : ∀ s w, P s w → Q s w → R s w) : call.Each repo R app := by
  cases call with
  | createRulePack => exact h _ _ hP hQ
  | importRulePack =>
    exact fun name rules hname hrules htaken =>
      h _ _ (hP name rules hname hrules htaken) (hQ name rules hname hrules htaken)
  | updateMetadata => exact h _ _ hP hQ
  | createRule =>
    exact fun ref rule hget hdraft hrule =>
      h _ _ (hP ref rule hget hdraft hrule) (hQ ref rule hget hdraft hrule)
  | updateRule =>
    exact fun ref rule updated hfind hdraft hrule =>
      h _ _ (hP ref rule updated hfind hdraft hrule) (hQ ref rule updated hfind hdraft hrule)
  | deleteRule =>
    exact fun ref rule hfind hdraft =>
      h _ _ (hP ref rule hfind hdraft) (hQ ref rule hfind hdraft)
  | bulkCreateRules packId rulesData actor =>
    rw [Call.Each] at hP hQ ⊢
    induction rulesData generalizing app with
    | nil => trivial
    | cons data rest ih =>
      exact ⟨fun ref rule hget hdraft hrule =>
          h _ _ (hP.1 ref rule hget hdraft hrule) (hQ.1 ref rule hget hdraft hrule),
        fun rule app' hcreate => ih (hP.2 rule app' hcreate) (hQ.2 rule app' hcreate)⟩
  | publish => exact h _ _ hP hQ
  | activate =>
    exact fun ref hget htransition =>
      h _ _ (hP ref hget htransition) (hQ ref hget htransition)
  | rollback =>
    exact fun ref version hget hparent =>
      h _ _ (hP ref version hget hparent) (hQ ref version hget hparent)
  | softDelete => exact h _ _ hP hQ
  | seed =>
    exact fun hactive =>
      ⟨fun hget => h _ _ ((hP hactive).1 hget) ((hQ hactive).1 hget),
        fun ref t hsave => h _ _ ((hP hactive).2 ref t hsave) ((hQ hactive).2 ref t hsave)⟩
  | promoteToShadow => exact h _ _ hP hQ

/-- A condition that all writes meet in all states, a call meets. -/
theorem Call.Each.of_all {repo : RulePackRepository σ ρ} {P : σ → Write → Prop}
    (h : ∀ s w, P s w) {call : Call} {app : App σ} : call.Each repo P app := by
  cases call with
  | bulkCreateRules packId rulesData actor =>
    rw [Call.Each]
    induction rulesData generalizing app with
    | nil => trivial
    | cons data rest ih => exact ⟨fun _ _ _ _ _ => h _ _, fun _ _ _ => ih⟩
  | _ => simp [Call.Each, CreateRuleEach, h]

/-- Every write that a list of calls makes meets a condition. -/
def CallsEach (repo : RulePackRepository σ ρ) (P : σ → Write → Prop) : List Call → App σ → Prop
  | [], _ => True
  | call :: rest, app => call.Each repo P app ∧ CallsEach repo P rest (call.exec repo app).2

theorem CallsEach.append {repo : RulePackRepository σ ρ} {P : σ → Write → Prop}
    {calls rest : List Call} {app : App σ} :
    CallsEach repo P (calls ++ rest) app ↔
      CallsEach repo P calls app ∧ CallsEach repo P rest (runCalls repo calls app) := by
  induction calls generalizing app with
  | nil => simp [CallsEach, runCalls]
  | cons call calls ih =>
    simp only [List.cons_append, CallsEach, runCalls, ih, and_assoc]

/-- What follows for every call, follows for a list of calls. -/
theorem CallsEach.strengthen {repo : RulePackRepository σ ρ} {P Q : σ → Write → Prop}
    {calls : List Call} {app : App σ} (h : CallsEach repo P calls app)
    (hcall : ∀ (call : Call) app, call.Each repo P app → call.Each repo Q app) :
    CallsEach repo Q calls app := by
  induction calls generalizing app with
  | nil => trivial
  | cons call calls ih => exact ⟨hcall call app h.1, ih h.2⟩

/-- A condition that all writes meet in all states, all calls meet. -/
theorem CallsEach.of_all {repo : RulePackRepository σ ρ} {P : σ → Write → Prop}
    (h : ∀ s w, P s w) {calls : List Call} {app : App σ} : CallsEach repo P calls app := by
  induction calls generalizing app with
  | nil => trivial
  | cons call calls ih => exact ⟨.of_all h, ih⟩

/-! ## Calls that return -/

/-- The entry of a change of one pack. -/
def changeEntry (packId : Uuid) (action actor : String) (before after : RulePack)
    (reason : Option String) : AuditLogEntry where
  entityType := "rule_pack"
  entityId := toString packId
  action := action
  actor := actor
  before := some (packSnapshot before)
  after := some (packSnapshot after)
  reason := reason

/-- The entry of a pack that came in. -/
def arrivalEntry (action actor : String) (after : RulePack) : AuditLogEntry where
  entityType := "rule_pack"
  entityId := idText after.id
  action := action
  actor := actor
  before := none
  after := some (packSnapshot after)
  reason := none

section

variable {repo : RulePackRepository σ ρ} {app app' : App σ} {r : ρ} {packId : Uuid}
  {actor : String} {reason : Option String} {lock : Option Nat}

theorem CreateRulePackUseCase.execute_ok {name : String} {region tenantId : Option String}
    {rules : List Rule}
    (h : CreateRulePackUseCase.execute repo name region tenantId rules actor app = .ok (r, app')) :
    ∃ t, let latest := (existingVersions repo name app.repository).max?
      let new := repo.new (newDraft name (createVersion latest) region tenantId rules actor latest)
        app.repository
      repo.save new.1 new.2 = .ok (r, t) ∧
        app' = writeAudit app t (arrivalEntry "created" actor (repo.pack t r)) := by
  obtain ⟨⟨saved, t⟩, hsave, h⟩ := Except.bind_ok_iff.mp h
  rw [Except.pure_ok_iff] at h
  cases h
  exact ⟨t, hsave, rfl⟩

theorem ImportRulePackUseCase.execute_ok {document : RulePackDocument}
    (h : ImportRulePackUseCase.execute repo document actor app = .ok (r, app')) :
    ∃ name rules t, document.name = some name ∧
      (document.rules.getD []).mapM ruleFromJson = .ok rules ∧
      versionTaken repo name document.version app.repository = none ∧
      let latest := (existingVersions repo name app.repository).max?
      let new := repo.new (newDraft name (importVersion document.version latest) document.region
        document.tenantId rules actor latest) app.repository
      repo.save new.1 new.2 = .ok (r, t) ∧
        app' = writeAudit app t (arrivalEntry "imported" actor (repo.pack t r)) := by
  obtain ⟨name, hname, h⟩ := Except.bind_ok_iff.mp h
  obtain ⟨rules, hrules, h⟩ := Except.bind_ok_iff.mp h
  have hname : document.name = some name := by
    unfold RuleData.required at hname
    split at hname
    · rename_i heq
      rw [heq, Except.ok.inj hname]
    · cases hname
  cases htaken : versionTaken repo name document.version app.repository with
  | some version =>
    rw [htaken] at h
    cases h
  | none =>
    rw [htaken] at h
    obtain ⟨⟨saved, t⟩, hsave, h⟩ := Except.bind_ok_iff.mp h
    rw [Except.pure_ok_iff] at h
    cases h
    exact ⟨name, rules, t, hname, hrules, htaken, hsave, rfl⟩

theorem UpdateRulePackMetadataUseCase.execute_ok {fields : List PackAttr}
    (h : UpdateRulePackMetadataUseCase.execute repo packId actor lock fields app = .ok (r, app')) :
    ∃ ref t, repo.getById packId app.repository = some ref ∧
      (repo.pack app.repository ref).status = .draft ∧
      repo.updateMetadata packId lock fields app.repository = .ok (r, t) ∧
      app' = writeAudit app t
        (changeEntry packId "updated" actor (repo.pack app.repository ref) (repo.pack t r) none) := by
  unfold UpdateRulePackMetadataUseCase.execute at h
  split at h
  · cases h
  · rename_i ref hget
    simp only at h
    split at h
    · cases h
    · rename_i hdraft
      obtain ⟨⟨updated, t⟩, hupdate, h⟩ := Except.bind_ok_iff.mp h
      rw [Except.pure_ok_iff] at h
      cases h
      exact ⟨ref, t, hget, by simpa using hdraft, hupdate, rfl⟩

theorem SoftDeleteRulePackUseCase.execute_ok
    (h : SoftDeleteRulePackUseCase.execute repo packId actor reason lock app = .ok (r, app')) :
    ∃ ref t, repo.getById packId app.repository = some ref ∧
      (repo.pack app.repository ref).status ≠ .active ∧
      repo.softDelete packId lock app.repository = .ok (r, t) ∧
      app' = writeAudit app t
        (changeEntry packId "deleted" actor (repo.pack app.repository ref) (repo.pack t r) reason) := by
  unfold SoftDeleteRulePackUseCase.execute at h
  split at h
  · cases h
  · rename_i ref hget
    simp only at h
    split at h
    · cases h
    · rename_i hactive
      obtain ⟨⟨deleted, t⟩, hdelete, h⟩ := Except.bind_ok_iff.mp h
      rw [Except.pure_ok_iff] at h
      cases h
      exact ⟨ref, t, hget, by simpa using hactive, hdelete, rfl⟩

theorem PublishRulePackUseCase.execute_ok
    (h : PublishRulePackUseCase.execute repo packId actor app = .ok (r, app')) :
    ∃ ref t, repo.getById packId app.repository = some ref ∧
      canTransition (repo.pack app.repository ref).status .published = true ∧
      (ValidateRulePackUseCase.execute (repo.pack app.repository ref)).isValid = true ∧
      repo.updateStatus packId .published none app.repository = .ok (r, t) ∧
      app' = writeAudit app t
        (changeEntry packId "published" actor (repo.pack app.repository ref) (repo.pack t r) none) := by
  unfold PublishRulePackUseCase.execute at h
  split at h
  · cases h
  · rename_i ref hget
    simp only at h
    split at h
    · cases h
    · rename_i htransition
      split at h
      · cases h
      · rename_i hvalid
        obtain ⟨⟨updated, t⟩, hupdate, h⟩ := Except.bind_ok_iff.mp h
        rw [Except.pure_ok_iff] at h
        cases h
        exact ⟨ref, t, hget, by simpa using htransition, by simpa using hvalid, hupdate, rfl⟩

theorem ActivateRulePackUseCase.execute_ok
    (h : ActivateRulePackUseCase.execute repo packId actor reason lock app = .ok (r, app')) :
    ∃ ref t, repo.getById packId app.repository = some ref ∧
      canTransition (repo.pack app.repository ref).status .active = true ∧
      repo.activate (repo.pack app.repository ref).name (repo.pack app.repository ref).version lock
        app.repository = .ok (r, t) ∧
      app' = writeAudit app t
        (changeEntry packId "activated" actor (repo.pack app.repository ref) (repo.pack t r)
          reason) := by
  unfold ActivateRulePackUseCase.execute at h
  split at h
  · cases h
  · rename_i ref hget
    simp only at h
    split at h
    · cases h
    · rename_i htransition
      obtain ⟨⟨activated, t⟩, hactivate, h⟩ := Except.bind_ok_iff.mp h
      rw [Except.pure_ok_iff] at h
      cases h
      exact ⟨ref, t, hget, by simpa using htransition, hactivate, rfl⟩

/-- The status before is read of the version rolled back from, after the activation. -/
theorem RollbackRulePackUseCase.execute_ok {name : String} {currentVersion : Int}
    (h : RollbackRulePackUseCase.execute repo name currentVersion actor reason lock app =
      .ok (r, app')) :
    ∃ ref parentVersion t, repo.get name currentVersion app.repository = some ref ∧
      (repo.pack app.repository ref).parentVersion = some parentVersion ∧
      (∀ n, lock = some n → (repo.pack app.repository ref).lockVersion = n) ∧
      repo.activate name parentVersion none app.repository = .ok (r, t) ∧
      app' = writeAudit app t {
        entityType := "rule_pack"
        entityId := ((repo.pack t r).id.map toString).getD name
        action := "rolled_back", actor
        before := some (.rollback name currentVersion (repo.pack t ref).status)
        after := some (.rollback name (repo.pack t r).version (repo.pack t r).status), reason } := by
  unfold RollbackRulePackUseCase.execute at h
  split at h
  · cases h
  · rename_i ref hget
    simp only at h
    split at h
    · cases h
    · rename_i parentVersion hparent
      obtain ⟨_, hcheck, h⟩ := Except.bind_ok_iff.mp h
      obtain ⟨⟨rolledBack, t⟩, hactivate, h⟩ := Except.bind_ok_iff.mp h
      rw [Except.pure_ok_iff] at h
      cases h
      exact ⟨ref, parentVersion, t, hget, hparent, checkRollbackLock_ok_iff.mp hcheck, hactivate,
        rfl⟩

end

/-! ## The use cases, one by one -/

namespace Lawful

variable {repo : RulePackRepository σ ρ} {V : StoreView σ} (L : Lawful repo V)
  {app app' : App σ} {r : ρ} {actor : String}

private theorem createVersion_fresh (versions : List Int) :
    createVersion versions.max? ∉ versions := by
  intro hmem
  cases hmax : versions.max? with
  | none => simp [List.max?_eq_none_iff.mp hmax] at hmem
  | some latest =>
    rw [hmax, createVersion] at hmem
    have hle := (List.max?_eq_some_iff.mp hmax).2 _ hmem
    omega

theorem nextVersion_fresh (versions : List Int) :
    versions.max?.getD 0 + 1 ∉ versions := by
  intro hmem
  cases hmax : versions.max? with
  | none => simp [List.max?_eq_none_iff.mp hmax] at hmem
  | some latest =>
    rw [hmax, Option.getD_some] at hmem
    have hle := (List.max?_eq_some_iff.mp hmax).2 _ hmem
    omega

theorem ne_version_of_fresh {name : String} {s : σ} {version : Int}
    (h : version ∉ existingVersions repo name s) :
    ∀ ref ∈ repo.listVersions name s, (repo.pack s ref).version ≠ version := by
  intro ref href heq
  exact h (List.mem_map.mpr ⟨ref, href, heq⟩)

theorem createRulePack_performs {name : String} {region tenantId : Option String}
    {rules : List Rule}
    (h : CreateRulePackUseCase.execute repo name region tenantId rules actor app = .ok (r, app')) :
    let latest := (existingVersions repo name app.repository).max?
    L.Performs app.repository
      (.saveNew (newDraft name (createVersion latest) region tenantId rules actor latest))
      app'.repository := by
  intro latest
  obtain ⟨t, hsave, rfl⟩ := CreateRulePackUseCase.execute_ok h
  have hfresh := ne_version_of_fresh (createVersion_fresh (existingVersions repo name app.repository))
  exact .saveNew rfl (Or.inl hfresh) hsave

theorem importRulePack_performs {document : RulePackDocument}
    (h : ImportRulePackUseCase.execute repo document actor app = .ok (r, app')) :
    ∃ name rules, document.name = some name ∧
      (document.rules.getD []).mapM ruleFromJson = .ok rules ∧
      versionTaken repo name document.version app.repository = none ∧
      let latest := (existingVersions repo name app.repository).max?
      L.Performs app.repository
        (.saveNew (newDraft name (importVersion document.version latest) document.region
          document.tenantId rules actor latest)) app'.repository := by
  obtain ⟨name, rules, t, hname, hrules, htaken, hsave, rfl⟩ := ImportRulePackUseCase.execute_ok h
  refine ⟨name, rules, hname, hrules, htaken, ?_⟩
  have hnext := ne_version_of_fresh (nextVersion_fresh (existingVersions repo name app.repository))
  -- an explicit version other than 0 is free, every other one is above the latest
  have hfree : (∀ ref ∈ repo.listVersions name app.repository,
      (repo.pack app.repository ref).version ≠ importVersion document.version
        (existingVersions repo name app.repository).max?) ∨
      repo.get name (importVersion document.version
        (existingVersions repo name app.repository).max?) app.repository = none := by
    unfold importVersion
    cases hreq : document.version with
    | none => exact Or.inl hnext
    | some version =>
      by_cases hzero : version = 0
      · subst hzero
        exact Or.inl hnext
      · right
        rw [versionTaken, hreq, Option.filter_eq_none_iff] at htaken
        simpa [hzero] using htaken version rfl
  exact .saveNew rfl hfree hsave

theorem updateMetadata_performs {packId : Uuid} {lock : Option Nat} {fields : List PackAttr}
    (hInv : L.Inv app.repository) (hmeta : V.inPlace → fields.all PackAttr.isMetadata = true)
    (h : UpdateRulePackMetadataUseCase.execute repo packId actor lock fields app = .ok (r, app')) :
    L.Performs app.repository (.updateMetadata packId lock fields) app'.repository := by
  obtain ⟨ref, t, hget, hdraft, hupdate, rfl⟩ := UpdateRulePackMetadataUseCase.execute_ok h
  have hp := (L.reads hInv (L.getById hInv hget)).1
  exact .updateMetadata hp hdraft hmeta hupdate

theorem softDelete_performs {packId : Uuid} {reason : Option String} {lock : Option Nat}
    (hInv : L.Inv app.repository)
    (h : SoftDeleteRulePackUseCase.execute repo packId actor reason lock app = .ok (r, app')) :
    L.Performs app.repository (.softDelete packId lock) app'.repository := by
  obtain ⟨ref, t, hget, hactive, hdelete, rfl⟩ := SoftDeleteRulePackUseCase.execute_ok h
  have hp := (L.reads hInv (L.getById hInv hget)).1
  exact .softDelete hp hactive hdelete

/-- Only a Draft can be published. -/
theorem draft_of_canTransition_published {status : PackStatus}
    (h : canTransition status .published = true) : status = .draft := by
  cases status <;> first | rfl | (revert h; decide) | (rename_i text; simp [canTransition,
    PackStatus.allowedTransitions] at h)

theorem publish_performs {packId : Uuid} (hInv : L.Inv app.repository)
    (h : PublishRulePackUseCase.execute repo packId actor app = .ok (r, app')) :
    L.Performs app.repository (.publish packId) app'.repository := by
  obtain ⟨ref, t, hget, htransition, hvalid, hupdate, rfl⟩ := PublishRulePackUseCase.execute_ok h
  have hp := (L.reads hInv (L.getById hInv hget)).1
  exact .publish hp (draft_of_canTransition_published htransition) hvalid hupdate

theorem activate_performs {packId : Uuid} {reason : Option String} {lock : Option Nat}
    (h : ActivateRulePackUseCase.execute repo packId actor reason lock app = .ok (r, app')) :
    ∃ ref, repo.getById packId app.repository = some ref ∧
      canTransition (repo.pack app.repository ref).status .active = true ∧
      L.Performs app.repository
        (.activate (some packId) (repo.pack app.repository ref).name
          (repo.pack app.repository ref).version lock) app'.repository := by
  obtain ⟨ref, t, hget, htransition, hactivate, rfl⟩ := ActivateRulePackUseCase.execute_ok h
  exact ⟨ref, hget, htransition, .activate hactivate⟩

theorem rollback_performs {name : String} {currentVersion : Int} {reason : Option String}
    {lock : Option Nat}
    (h : RollbackRulePackUseCase.execute repo name currentVersion actor reason lock app =
      .ok (r, app')) :
    ∃ ref parentVersion, repo.get name currentVersion app.repository = some ref ∧
      (repo.pack app.repository ref).parentVersion = some parentVersion ∧
      L.Performs app.repository (.activate none name parentVersion none) app'.repository := by
  obtain ⟨ref, parentVersion, t, hget, hparent, -, hactivate, rfl⟩ :=
    RollbackRulePackUseCase.execute_ok h
  exact ⟨ref, parentVersion, hget, hparent, .activate hactivate⟩

end Lawful

end PulseGuard
