import PulseGuard.Spec.Lifecycle
import PulseGuard.Spec.PairedCalls

/-!
# The two backends agree

`PostgresRulePackRepository` is written to the contract of `InMemoryRulePackRepository`. Here the
two are driven through one history of repository operations and use-case calls, in which the
identifiers that each store has drawn for itself name the same packs and rules. In every history
whose steps are portable both succeed on the same steps, return packs that show the same and hold
packs that show the same (`backends_agree`). A step is portable when it stays clear of what is
written differently in the two classes; `tenant_dropped` is a save that does not.
-/

namespace PulseGuard

variable {σ ρ : Type}

/-- An operation of the interface. A save is given a new pack, or one that was read by its name
    and version and then changed. -/
inductive Operation where
  | save (pack : RulePack)
  | saveRead (name : String) (version : Int) (fields : List PackAttr)
  | get (name : String) (version : Int)
  | getById (packId : Uuid)
  | getActive (name : String) (region : Option String)
  | listVersions (name : String)
  | updateMetadata (packId : Uuid) (expectedLockVersion : Option Nat) (fields : List PackAttr)
  | updateStatus (packId : Uuid) (status : PackStatus) (expectedLockVersion : Option Nat)
  | softDelete (packId : Uuid) (expectedLockVersion : Option Nat)
  | activate (name : String) (version : Int) (expectedLockVersion : Option Nat)

/-- What a query shows, in a store that stays as it is. -/
def showPacks (repo : RulePackRepository σ ρ) (app : App σ) (refs : List ρ) :
    Except PyError (List ShownPack) × App σ :=
  (.ok (refs.map fun ref => (repo.pack app.repository ref).shown), app)

/-- What a write shows, and the store it leaves; one that raises has changed nothing. -/
def showWritten (repo : RulePackRepository σ ρ) (app : App σ) :
    Except PyError (ρ × σ) → Except PyError (List ShownPack) × App σ
  | .ok (ref, s) => (.ok [(repo.pack s ref).shown], { app with repository := s })
  | .error e => (.error e, app)

/-- The packs that an operation shows, and the store it leaves. -/
def Operation.exec (repo : RulePackRepository σ ρ) :
    Operation → App σ → Except PyError (List ShownPack) × App σ
  | save pack, app =>
    let (ref, s) := repo.new pack app.repository
    showWritten repo app (repo.save ref s)
  | saveRead name version fields, app =>
    match repo.get name version app.repository with
    | none => showPacks repo app []
    | some ref =>
      let (ref, s) := repo.assign ref
        (fields.foldl PackAttr.set (repo.pack app.repository ref)) app.repository
      showWritten repo app (repo.save ref s)
  | get name version, app => showPacks repo app (repo.get name version app.repository).toList
  | getById packId, app => showPacks repo app (repo.getById packId app.repository).toList
  | getActive name region, app => showPacks repo app (repo.getActive name region app.repository).toList
  | listVersions name, app => showPacks repo app (repo.listVersions name app.repository)
  | updateMetadata packId lock fields, app =>
    showWritten repo app (repo.updateMetadata packId lock fields app.repository)
  | updateStatus packId status lock, app =>
    showWritten repo app (repo.updateStatus packId status lock app.repository)
  | softDelete packId lock, app => showWritten repo app (repo.softDelete packId lock app.repository)
  | activate name version lock, app =>
    showWritten repo app (repo.activate name version lock app.repository)

/-- A step of a history. -/
inductive Step where
  | operation (op : Operation)
  | call (request : Call)

/-- What a step shows, and the state it leaves. A call shows nothing. -/
def Step.exec (repo : RulePackRepository σ ρ) : Step → App σ → Except PyError (List ShownPack) × App σ
  | operation op, app => op.exec repo app
  | call request, app =>
    let (result, app) := request.exec repo app
    (result.map fun _ => [], app)

/-! ## The same step, made to two stores -/

/-- One operation, under the identifiers of two catalogues. -/
inductive SameOperation (c d : Catalogue) : Operation → Operation → Prop where
  | save (pack : RulePack) : SameOperation c d (.save pack) (.save pack)
  | saveRead (name : String) (version : Int) (fields : List PackAttr) :
      SameOperation c d (.saveRead name version fields) (.saveRead name version fields)
  | get (name : String) (version : Int) : SameOperation c d (.get name version) (.get name version)
  | getById {u v : Uuid} (hid : SameId c d u v) : SameOperation c d (.getById u) (.getById v)
  | getActive (name : String) (region : Option String) :
      SameOperation c d (.getActive name region) (.getActive name region)
  | listVersions (name : String) : SameOperation c d (.listVersions name) (.listVersions name)
  | updateMetadata {u v : Uuid} (hid : SameId c d u v) (lock : Option Nat) (fields : List PackAttr) :
      SameOperation c d (.updateMetadata u lock fields) (.updateMetadata v lock fields)
  | updateStatus {u v : Uuid} (hid : SameId c d u v) (status : PackStatus) (lock : Option Nat) :
      SameOperation c d (.updateStatus u status lock) (.updateStatus v status lock)
  | softDelete {u v : Uuid} (hid : SameId c d u v) (lock : Option Nat) :
      SameOperation c d (.softDelete u lock) (.softDelete v lock)
  | activate (name : String) (version : Int) (lock : Option Nat) :
      SameOperation c d (.activate name version lock) (.activate name version lock)

/-- One call, under the identifiers of two catalogues. -/
inductive SameCall (c d : Catalogue) : Call → Call → Prop where
  | createRulePack (name : String) (region tenantId : Option String) (rules : List Rule)
      (actor : String) : SameCall c d (.createRulePack name region tenantId rules actor)
        (.createRulePack name region tenantId rules actor)
  | importRulePack (document : RulePackDocument) (actor : String) :
      SameCall c d (.importRulePack document actor) (.importRulePack document actor)
  | updateMetadata {u v : Uuid} (hid : SameId c d u v) (actor : String) (lock : Option Nat)
      (fields : List PackAttr) :
      SameCall c d (.updateMetadata u actor lock fields) (.updateMetadata v actor lock fields)
  | createRule {u v : Uuid} (hid : SameId c d u v) (data : RuleData) (actor : String) :
      SameCall c d (.createRule u data actor) (.createRule v data actor)
  | updateRule {u v : Uuid} (hid : SameRule c d u v) (data : RuleData) (actor : String) :
      SameCall c d (.updateRule u data actor) (.updateRule v data actor)
  | deleteRule {u v : Uuid} (hid : SameRule c d u v) (actor : String) (reason : Option String) :
      SameCall c d (.deleteRule u actor reason) (.deleteRule v actor reason)
  | bulkCreateRules {u v : Uuid} (hid : SameId c d u v) (rulesData : List RuleData) (actor : String) :
      SameCall c d (.bulkCreateRules u rulesData actor) (.bulkCreateRules v rulesData actor)
  | publish {u v : Uuid} (hid : SameId c d u v) (actor : String) :
      SameCall c d (.publish u actor) (.publish v actor)
  | activate {u v : Uuid} (hid : SameId c d u v) (actor : String) (reason : Option String)
      (lock : Option Nat) :
      SameCall c d (.activate u actor reason lock) (.activate v actor reason lock)
  | rollback (name : String) (currentVersion : Int) (actor : String) (reason : Option String)
      (lock : Option Nat) : SameCall c d (.rollback name currentVersion actor reason lock)
        (.rollback name currentVersion actor reason lock)
  | softDelete {u v : Uuid} (hid : SameId c d u v) (actor : String) (reason : Option String)
      (lock : Option Nat) :
      SameCall c d (.softDelete u actor reason lock) (.softDelete v actor reason lock)
  | seed (ruleSetName : String) : SameCall c d (.seed ruleSetName) (.seed ruleSetName)
  | promoteToShadow {candidate candidate' active active' : Uuid}
      (hid : SameId c d candidate candidate') (hactive : SameId c d active active')
      (matrix : Option SlaMatrix) (sampleIncidents : List Incident) :
      SameCall c d (.promoteToShadow candidate active matrix sampleIncidents)
        (.promoteToShadow candidate' active' matrix sampleIncidents)

/-- One step, under the identifiers of two catalogues. -/
inductive SameStep (c d : Catalogue) : Step → Step → Prop where
  | operation {op op' : Operation} (h : SameOperation c d op op') :
      SameStep c d (.operation op) (.operation op')
  | call {call call' : Call} (h : SameCall c d call call') : SameStep c d (.call call) (.call call')

/-! ## Steps that both backends take alike -/

/-- An operation that stays clear of the differences, in memory with the catalogue `c` and in
    Postgres with `d`. -/
def Operation.Portable (c d : Catalogue) : Operation → Prop
  | save pack => Savable c pack
  | saveRead name version fields => ∀ field ∈ fields, field.Saved name version
  | get _ _ => True
  | getById packId => ∀ p, c packId = some p → p.status ≠ .archived
  | getActive name region => ∀ u v p q, c u = some p → c v = some q → p.ActiveIn name region →
      q.ActiveIn name region → u = v
  | listVersions _ => True
  | updateMetadata packId lock fields => ∀ p, c packId = some p → SameLock c d lock p.nameVersion ∧
      (LockMatches lock p → ∀ field ∈ fields, field.Shared p.name)
  | updateStatus packId _ lock => ∀ p, c packId = some p → SameLock c d lock p.nameVersion
  | softDelete packId lock => ∀ p, c packId = some p → SameLock c d lock p.nameVersion
  | activate name version lock => SameLock c d lock (toLex (name, version))

/-- And a call. -/
def Call.Portable (c d : Catalogue) : Call → Prop
  | createRulePack _ _ tenantId rules _ =>
    tenantId = none ∧ PostgresRulePackRepository.Storable rules
  | importRulePack document _ => document.Storable c
  | updateMetadata packId _ lock fields => ∀ p, c packId = some p → p.status = .draft →
      SameLock c d lock p.nameVersion ∧ (LockMatches lock p → ∀ field ∈ fields, field.Shared p.name)
  | createRule _ _ _ => True
  | updateRule ruleId data _ => ∀ u p, c u = some p → p.status = .draft →
      (∃ rule ∈ p.rules, rule.id = some ruleId) → ∀ code, data.ruleCode = some code →
      ∀ other ∈ p.rules, other.id ≠ some ruleId → other.ruleCode ≠ code
  | deleteRule _ _ _ => True
  | bulkCreateRules _ _ _ => True
  | publish _ _ => True
  | activate packId _ _ lock => ∀ p, c packId = some p → canTransition p.status .active = true →
      SameLock c d lock p.nameVersion
  | rollback name currentVersion _ _ lock => SameLock c d lock (toLex (name, currentVersion))
  | softDelete packId _ _ lock => ∀ p, c packId = some p →
      (p.status ≠ .active → SameLock c d lock p.nameVersion) ∧
      (p.status = .archived → ¬LockMatches lock p)
  | seed _ => True
  | promoteToShadow candidateId activeId _ _ => ∀ p q, c candidateId = some p → c activeId = some q →
      (ValidateRulePackUseCase.execute p).isValid = false

def Step.Portable (c d : Catalogue) : Step → Prop
  | operation op => op.Portable c d
  | call request => request.Portable c d

/-! ## Histories -/

/-- A condition on every step of a history, which is made to both stores. -/
def EachStep (order : RowOrder) (P : Catalogue → Catalogue → Step → Step → Prop) :
    List (Step × Step) → App InMemoryStore → App PostgresStore → Prop
  | [], _, _ => True
  | (step, step') :: rest, app, app' =>
    P (InMemoryRulePackRepository.catalogue app.repository)
        (PostgresRulePackRepository.catalogue app'.repository) step step' ∧
      EachStep order P rest (step.exec inMemoryRulePackRepository app).2
        (step'.exec (postgresRulePackRepository order) app').2

/-- Two catalogues that show the same packs. -/
def ShowSame (c d : Catalogue) : Prop :=
  (∀ u p, c u = some p → ∃ v q, d v = some q ∧ p.shown = q.shown) ∧
    ∀ v q, d v = some q → ∃ u p, c u = some p ∧ p.shown = q.shown

/-- Every step of a history succeeds in both stores or in neither, shows the same packs in both
    and leaves the same packs in both. -/
def BackendsAgree (order : RowOrder) :
    List (Step × Step) → App InMemoryStore → App PostgresStore → Prop
  | [], _, _ => True
  | (step, step') :: rest, app, app' =>
    let (result, app) := step.exec inMemoryRulePackRepository app
    let (result', app') := step'.exec (postgresRulePackRepository order) app'
    Except.Both Eq result result' ∧ ShowSame (InMemoryRulePackRepository.catalogue app.repository)
      (PostgresRulePackRepository.catalogue app'.repository) ∧ BackendsAgree order rest app app'

/-! ## One step -/

variable {order : RowOrder} {app : App InMemoryStore} {app' : App PostgresStore}

theorem SameEnd.of_written (hpaired : Paired app.repository app'.repository)
    {x : Except PyError (PackRef × InMemoryStore)} {y : Except PyError (RulePack × PostgresStore)}
    (h : Except.Both SameResult x y) :
    SameEnd Eq (showWritten inMemoryRulePackRepository app x)
      (showWritten (postgresRulePackRepository order) app' y) := by
  cases h with
  | ok h => exact ⟨.ok (congrArg (fun pack => [pack]) h.shown), h.paired⟩
  | error => exact ⟨.error, hpaired⟩

theorem SameEnd.of_query (hpaired : Paired app.repository app'.repository) {refs : List PackRef}
    {packs : List RulePack}
    (h : List.Forall₂ (SamePack app.repository app'.repository) refs packs) :
    SameEnd Eq (showPacks inMemoryRulePackRepository app refs)
      (showPacks (postgresRulePackRepository order) app' packs) := by
  refine ⟨.ok ?_, hpaired⟩
  induction h with
  | nil => rfl
  | cons hsame _ ih => exact congrArg₂ List.cons hsame.shown ih

/-- A query for one pack. -/
theorem SameEnd.of_option (hpaired : Paired app.repository app'.repository) {ref : Option PackRef}
    {pack : Option RulePack} (h : Option.Rel (SamePack app.repository app'.repository) ref pack) :
    SameEnd Eq (showPacks inMemoryRulePackRepository app ref.toList)
      (showPacks (postgresRulePackRepository order) app' pack.toList) := by
  apply SameEnd.of_query hpaired
  cases h with
  | none => exact .nil
  | some hsame => exact .cons hsame .nil

theorem Paired.operation (order : RowOrder) (h : Paired app.repository app'.repository)
    {op op' : Operation}
    (hsame : SameOperation (InMemoryRulePackRepository.catalogue app.repository)
      (PostgresRulePackRepository.catalogue app'.repository) op op')
    (hportable : op.Portable (InMemoryRulePackRepository.catalogue app.repository)
      (PostgresRulePackRepository.catalogue app'.repository)) :
    SameEnd Eq (op.exec inMemoryRulePackRepository app)
      (op'.exec (postgresRulePackRepository order) app') := by
  cases hsame with
  | save pack =>
    obtain ⟨x, y, hx, hy, hresult⟩ := h.save order hportable
    exact .of_written h (.of_ok hx hy hresult)
  | saveRead name version fields =>
    have hget : Option.Rel (SamePack app.repository app'.repository)
        (inMemoryRulePackRepository.get name version app.repository)
        ((postgresRulePackRepository order).get name version app'.repository) :=
      h.get order name version
    rw [Operation.exec, Operation.exec]
    rcases PyList.rel_cases hget with ⟨hm, hp⟩ | ⟨ref, q, hm, hp, hsame⟩
    · rw [hm, hp]
      exact .of_query h .nil
    · rw [hm, hp]
      obtain ⟨-, hname, hversion⟩ := (PostgresRulePackRepository.get_eq_some_iff h.postgres).mp hp
      have hfields : ∀ field ∈ fields, field.Saved q.name q.version := by
        rw [hname, hversion]
        exact hportable
      obtain ⟨x, y, hx, hy, hresult⟩ := h.saveRead order hsame hfields
      exact .of_written h (.of_ok hx hy hresult)
  | get name version => exact .of_option h (h.get order name version)
  | getById hid =>
    apply SameEnd.of_option h
    have hfound := h.found hid order
    generalize inMemoryRulePackRepository.getById _ app.repository = x at hfound ⊢
    generalize (postgresRulePackRepository order).getById _ app'.repository = y at hfound ⊢
    cases hfound with
    | none => exact .none
    | some hsame => exact .some hsame
    | hidden hp hstatus => exact absurd hstatus (hportable _ hp)
  | getActive name region => exact .of_option h ((h.getActive order name region).2 hportable)
  | listVersions name => exact .of_query h (h.listVersions order name)
  | updateMetadata hid lock fields =>
    exact .of_written h (h.updateMetadata hid fields (fun r hr => (hportable r hr).1)
      fun r hr => (hportable r hr).2)
  | updateStatus hid status lock => exact .of_written h (h.updateStatus hid hportable status)
  | softDelete hid lock => exact .of_written h (h.softDelete hid hportable)
  | activate name version lock => exact .of_written h (h.activate order hportable)

theorem Paired.call (order : RowOrder) (h : Paired app.repository app'.repository)
    {request request' : Call}
    (hsame : SameCall (InMemoryRulePackRepository.catalogue app.repository)
      (PostgresRulePackRepository.catalogue app'.repository) request request')
    (hportable : request.Portable (InMemoryRulePackRepository.catalogue app.repository)
      (PostgresRulePackRepository.catalogue app'.repository)) :
    SameEnd Eq (request.exec inMemoryRulePackRepository app)
      (request'.exec (postgresRulePackRepository order) app') := by
  cases hsame with
  | createRulePack name region tenantId rules actor =>
    obtain ⟨rfl, hrules⟩ := hportable
    exact .of_outcome h (h.createRulePack order hrules)
  | importRulePack document actor => exact .of_outcome h (h.importRulePack order hportable)
  | updateMetadata hid actor lock fields =>
    exact .of_outcome h (h.updateMetadataCall hid order
      (fun r hr hdraft => (hportable r hr hdraft).1) fun r hr hdraft => (hportable r hr hdraft).2)
  | createRule hid data actor =>
    exact .of_outcome h ((h.createRule order hid).mono fun _ _ hedit => hedit.paired)
  | updateRule hid data actor => exact .of_outcome h (h.updateRule order hid hportable)
  | deleteRule hid actor reason => exact .of_outcome h (h.deleteRule order hid)
  | bulkCreateRules hid rulesData actor =>
    have hbulk : SameEnd (fun _ _ => True)
        (BulkCreateRulesUseCase.execute inMemoryRulePackRepository _ actor rulesData app)
        (BulkCreateRulesUseCase.execute (postgresRulePackRepository order) _ actor rulesData app') :=
      h.bulkCreateRules order hid
    exact ⟨hbulk.result.bind fun _ _ _ => .ok rfl, hbulk.paired⟩
  | publish hid actor => exact .of_outcome h (h.publish hid order)
  | activate hid actor reason lock => exact .of_outcome h (h.activateCall hid order hportable)
  | rollback name currentVersion actor reason lock => exact .of_outcome h (h.rollback order hportable)
  | softDelete hid actor reason lock =>
    exact .of_outcome h (h.softDeleteCall hid order (fun r hr => (hportable r hr).1)
      fun r hr => (hportable r hr).2)
  | seed ruleSetName => exact .of_outcome h (h.seed order ruleSetName)
  | promoteToShadow hid hactive matrix sampleIncidents =>
    exact h.promoteToShadow order hid hactive hportable

/-- One portable step leaves paired stores paired. -/
theorem Paired.step (order : RowOrder) (h : Paired app.repository app'.repository) {step step' : Step}
    (hsame : SameStep (InMemoryRulePackRepository.catalogue app.repository)
      (PostgresRulePackRepository.catalogue app'.repository) step step')
    (hportable : step.Portable (InMemoryRulePackRepository.catalogue app.repository)
      (PostgresRulePackRepository.catalogue app'.repository)) :
    SameEnd Eq (step.exec inMemoryRulePackRepository app)
      (step'.exec (postgresRulePackRepository order) app') := by
  cases hsame with
  | operation hop => exact h.operation order hop hportable
  | call hcall =>
    obtain ⟨hresult, hpaired⟩ := h.call order hcall hportable
    exact ⟨hresult.bind fun _ _ _ => .ok rfl, hpaired⟩

/-! ## Every history -/

theorem Paired.history (order : RowOrder) {steps : List (Step × Step)}
    (h : Paired app.repository app'.repository) (hsame : EachStep order SameStep steps app app')
    (hportable : EachStep order (fun c d step _ => step.Portable c d) steps app app') :
    BackendsAgree order steps app app' := by
  induction steps generalizing app app' with
  | nil => trivial
  | cons pair rest ih =>
    obtain ⟨step, step'⟩ := pair
    obtain ⟨hresult, hpaired⟩ := h.step order hsame.1 hportable.1
    exact ⟨hresult, ⟨hpaired.level.forth, hpaired.level.back⟩, ih hpaired hsame.2 hportable.2⟩

end PulseGuard
