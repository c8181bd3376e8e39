import PulseGuard.Spec.PairedWrites

/-!
# Calls to the two backends

The use cases over two paired stores. Each call is taken apart into the queries and writes it
makes, which the two backends answer alike; what is left of a call is the condition of its one
write, in the state the call finds.
-/

namespace PulseGuard

open PostgresRulePackRepository (Storable FreeCodes ruleToDomain)

variable {α β : Type} {order : RowOrder} {m : InMemoryStore} {p : PostgresStore}
  {app : App InMemoryStore} {app' : App PostgresStore} {u v : Uuid} {actor : String}

/-- Two use cases that have returned leave paired stores. -/
def SameApp (x : α × App InMemoryStore) (y : β × App PostgresStore) : Prop :=
  Paired x.2.repository y.2.repository

/-- Two edits of rules leave paired stores, in which identifiers name the packs they named. -/
structure SameEdit (app : App InMemoryStore) (app' : App PostgresStore) (x : α × App InMemoryStore)
    (y : β × App PostgresStore) : Prop where
  paired : SameApp x y
  ids : ∀ u v, SameId (InMemoryRulePackRepository.catalogue app.repository)
      (PostgresRulePackRepository.catalogue app'.repository) u v →
    SameId (InMemoryRulePackRepository.catalogue x.2.repository)
      (PostgresRulePackRepository.catalogue y.2.repository) u v

/-- Two calls that both return or both raise, and leave paired stores. -/
structure SameEnd (r : α → β → Prop) (x : Except PyError α × App InMemoryStore)
    (y : Except PyError β × App PostgresStore) : Prop where
  result : Except.Both r x.1 y.1
  paired : Paired x.2.repository y.2.repository

theorem SameEnd.of_outcome {x : Except PyError (α × App InMemoryStore)}
    {y : Except PyError (β × App PostgresStore)} (hpaired : Paired app.repository app'.repository)
    (h : Except.Both SameApp x y) : SameEnd Eq (outcome app x) (outcome app' y) := by
  cases h with
  | ok h => exact ⟨.ok rfl, h⟩
  | error => exact ⟨.error, hpaired⟩

/-! ## Creation and import -/

theorem Paired.sameVersions (order : RowOrder) (h : Paired m p) (name : String) :
    existingVersions inMemoryRulePackRepository name m =
      existingVersions (postgresRulePackRepository order) name p := by
  have hversions := h.listVersions order name
  show (InMemoryRulePackRepository.listVersions name m).map (fun ref => (m.objects ref).version) =
    (PostgresRulePackRepository.listVersions order name p).map RulePack.version
  generalize InMemoryRulePackRepository.listVersions name m = refs at hversions ⊢
  generalize PostgresRulePackRepository.listVersions order name p = packs at hversions ⊢
  induction hversions with
  | nil => rfl
  | cons hsame _ ih => exact congrArg₂ List.cons (RulePack.version_of_shown hsame.shown) ih

/-- A Draft under a free version, over the latest one. -/
theorem savable_newDraft (h : InMemoryRulePackRepository.Shelved m) {name : String} {version : Int}
    (region : Option String) (actor : String) {rules : List Rule}
    (hfree : ∀ u r, InMemoryRulePackRepository.catalogue m u = some r → r.name = name →
      r.version ≠ version) (hrules : Storable rules) :
    Savable (InMemoryRulePackRepository.catalogue m)
      (newDraft name version region none rules actor
        (existingVersions inMemoryRulePackRepository name m).max?) where
  new := rfl
  rules := hrules
  overwrites := by
    intro u r hr hkey
    have hkey : (r.name, r.version) = (name, version) := hkey
    rw [Prod.mk.injEq] at hkey
    exact absurd hkey.2 (hfree u r hr hkey.1)
  fresh := by
    intro _
    refine ⟨rfl, fun latest hlatest => ?_⟩
    obtain ⟨ref, href, hversion⟩ := List.mem_map.mp (List.max?_mem hlatest)
    obtain ⟨hmem, hname⟩ := InMemoryRulePackRepository.mem_listVersions.mp href
    obtain ⟨u, -, hr⟩ := h.exists_id hmem
    exact ⟨u, _, hr, hname, hversion⟩

/-- A version above the existing ones is free. -/
theorem free_of_not_mem (h : InMemoryRulePackRepository.Shelved m) {name : String} {version : Int}
    (hnew : version ∉ existingVersions inMemoryRulePackRepository name m) :
    ∀ u r, InMemoryRulePackRepository.catalogue m u = some r → r.name = name →
      r.version ≠ version := by
  intro u r hr hname hversion
  obtain ⟨ref, hmem, -, rfl, -⟩ := h.exists_ref hr
  exact hnew (List.mem_map.mpr
    ⟨ref, InMemoryRulePackRepository.mem_listVersions.mpr ⟨hmem, hname⟩, hversion⟩)

/-- A creation gives the version that an import gets which asks for none. -/
theorem createVersion_eq (latest : Option Int) : createVersion latest = importVersion none latest := by
  cases latest with
  | none => rfl
  | some version => rfl

theorem Paired.createRulePack (order : RowOrder) (h : Paired app.repository app'.repository)
    {name : String} {region : Option String} {rules : List Rule} (hrules : Storable rules) :
    Except.Both SameApp
      (CreateRulePackUseCase.execute inMemoryRulePackRepository name region none rules actor app)
      (CreateRulePackUseCase.execute (postgresRulePackRepository order) name region none rules actor
        app') := by
  have hnew := Lawful.nextVersion_fresh
    (existingVersions inMemoryRulePackRepository name app.repository)
  obtain ⟨x, y, hx, hy, hsame⟩ := h.save order
    (savable_newDraft h.memory region actor (free_of_not_mem h.memory hnew) hrules)
  unfold CreateRulePackUseCase.execute
  rw [← h.sameVersions order name]
  simp only [createVersion_eq]
  exact (Except.Both.of_ok hx hy hsame).bind fun _ _ hsame => .ok hsame.paired

/-- The same version is taken. -/
theorem Paired.versionTaken (order : RowOrder) (h : Paired m p) (name : String)
    (requested : Option Int) :
    PulseGuard.versionTaken inMemoryRulePackRepository name requested m =
      PulseGuard.versionTaken (postgresRulePackRepository order) name requested p := by
  unfold PulseGuard.versionTaken
  congr 1
  funext version
  have hget := h.get order name version
  show (InMemoryRulePackRepository.get name version m).isSome =
    (PostgresRulePackRepository.get order name version p).isSome
  rcases PyList.rel_cases hget with ⟨hm, hp⟩ | ⟨ref, q, hm, hp, -⟩
  · rw [hm, hp]
    rfl
  · rw [hm, hp]
    rfl

/-- The rules of a document are new, and Postgres stores them without a change. -/
theorem plain_of_ruleFromJson {data : RuleData} {rule : Rule} (h : ruleFromJson data = .ok rule) :
    ruleToDomain rule = rule := by
  obtain ⟨_, -, h⟩ := Except.bind_ok_iff.mp h
  obtain ⟨_, -, h⟩ := Except.bind_ok_iff.mp h
  obtain ⟨_, -, h⟩ := Except.bind_ok_iff.mp h
  cases h
  unfold ruleToDomain
  by_cases htruthy : (data.exceptions.getD .none).truthy = true
  · simp [htruthy]
  · simp [htruthy]

theorem storable_of_ruleFromJson {data : List RuleData} {rules : List Rule}
    (h : data.mapM ruleFromJson = .ok rules) (hcodes : (rules.map Rule.ruleCode).Nodup) :
    Storable rules where
  new := by
    intro rule hrule
    obtain ⟨_, -, hread⟩ := Except.exists_of_mem_mapM h hrule
    exact id_of_ruleFromJson hread
  plain := by
    intro rule hrule
    obtain ⟨_, -, hread⟩ := Except.exists_of_mem_mapM h hrule
    exact plain_of_ruleFromJson hread
  codes := hcodes

/-- An import that is let in has no tenant, and a code for each of its rules. -/
def RulePackDocument.Storable (c : Catalogue) (document : RulePackDocument) : Prop :=
  ∀ name rules, document.name = some name → (document.rules.getD []).mapM ruleFromJson = .ok rules →
    (∀ version, document.version = some version →
      ∀ u p, c u = some p → p.name = name → p.version ≠ version) →
    document.tenantId = none ∧ (rules.map Rule.ruleCode).Nodup

/-- No pack has the version that a document asks for and is let in with. -/
theorem asked_free (h : InMemoryRulePackRepository.Shelved m) {name : String}
    {requested : Option Int}
    (htaken : versionTaken inMemoryRulePackRepository name requested m = none) :
    ∀ version, requested = some version → ∀ u r, InMemoryRulePackRepository.catalogue m u = some r →
      r.name = name → r.version ≠ version := by
  intro version hrequested u r hr hname hversion
  unfold versionTaken at htaken
  rw [hrequested, Option.filter_eq_none_iff] at htaken
  obtain ⟨ref, hmem, -, rfl, -⟩ := h.exists_ref hr
  have hget : InMemoryRulePackRepository.get name version m = some ref :=
    (InMemoryRulePackRepository.get_eq_some_iff h).mpr ⟨hmem, hname, hversion⟩
  apply htaken version rfl
  show (InMemoryRulePackRepository.get name version m).isSome = true
  rw [hget]
  rfl

theorem importVersion_free (h : InMemoryRulePackRepository.Shelved m) {name : String}
    {requested : Option Int}
    (hasked : ∀ version, requested = some version →
      ∀ u r, InMemoryRulePackRepository.catalogue m u = some r → r.name = name →
        r.version ≠ version) :
    ∀ u r, InMemoryRulePackRepository.catalogue m u = some r → r.name = name →
      r.version ≠ importVersion requested (existingVersions inMemoryRulePackRepository name m).max? := by
  have hnext := free_of_not_mem h
    (Lawful.nextVersion_fresh (existingVersions inMemoryRulePackRepository name m))
  unfold importVersion
  cases requested with
  | none => exact hnext
  | some version =>
    by_cases hzero : version = 0
    · subst hzero
      exact hnext
    · simp only [bne_iff_ne.mpr hzero, if_true]
      exact hasked version rfl

theorem Paired.importRulePack (order : RowOrder) (h : Paired app.repository app'.repository)
    {document : RulePackDocument}
    (hdocument : document.Storable (InMemoryRulePackRepository.catalogue app.repository)) :
    Except.Both SameApp
      (ImportRulePackUseCase.execute inMemoryRulePackRepository document actor app)
      (ImportRulePackUseCase.execute (postgresRulePackRepository order) document actor app') := by
  unfold ImportRulePackUseCase.execute
  cases hname : document.name with
  | none => exact .error
  | some name =>
    cases hrules : (document.rules.getD []).mapM ruleFromJson with
    | error e => exact .error
    | ok rules =>
      have htaken' := h.versionTaken order name document.version
      have hversions := h.sameVersions order name
      simp only [RuleData.required, Except.ok_bind, ← htaken', ← hversions]
      cases htaken : PulseGuard.versionTaken inMemoryRulePackRepository name document.version
          app.repository with
      | some version => exact .error
      | none =>
        have hasked := asked_free h.memory htaken
        obtain ⟨htenant, hcodes⟩ := hdocument name rules hname hrules hasked
        obtain ⟨x, y, hx, hy, hsame⟩ := h.save order
          (savable_newDraft h.memory document.region actor (importVersion_free h.memory hasked)
            (storable_of_ruleFromJson hrules hcodes))
        rw [htenant]
        exact (Except.Both.of_ok hx hy hsame).bind fun _ _ hsame => .ok hsame.paired

/-! ## The gate -/

/-- The gate reads nothing of a rule but what is shown of it. -/
theorem ValidateRulePackUseCase.executeOn_shown (rules : List Rule) :
    executeOn (rules.map Rule.shown) = executeOn rules := by
  have hcode (code : String) : byCode (rules.map Rule.shown) code = (byCode rules code).map Rule.shown := by
    unfold byCode
    rw [← List.map_reverse, List.find?_map]
    rfl
  have hconflict (rule : Rule) (code : String) :
      conflictErrors (rules.map Rule.shown) rule.shown code = conflictErrors rules rule code := by
    unfold conflictErrors
    rw [hcode]
    cases byCode rules code with
    | none => rfl
    | some other => rfl
  have hrule (rule : Rule) : ruleErrors (rules.map Rule.shown) rule.shown = ruleErrors rules rule := by
    unfold ruleErrors
    rw [show conflictErrors (rules.map Rule.shown) rule.shown = conflictErrors rules rule from
      funext (hconflict rule)]
    rfl
  unfold executeOn
  rw [List.flatMap_map, show (fun rule => ruleErrors (rules.map Rule.shown) (Rule.shown rule)) =
    ruleErrors rules from funext hrule, List.isEmpty_map]

theorem isValid_of_shown {p q : RulePack} (h : p.shown = q.shown) :
    ValidateRulePackUseCase.execute p = ValidateRulePackUseCase.execute q := by
  unfold ValidateRulePackUseCase.execute
  rw [← ValidateRulePackUseCase.executeOn_shown p.rules, RulePack.rules_of_shown h,
    ValidateRulePackUseCase.executeOn_shown]

/-! ## Calls on one pack -/

section

variable (hid : SameId (InMemoryRulePackRepository.catalogue app.repository)
  (PostgresRulePackRepository.catalogue app'.repository) u v)

include hid

/-- A call on one pack first looks it up. -/
theorem Paired.found (order : RowOrder) (h : Paired app.repository app'.repository) :
    FoundById app.repository app'.repository u v
      (inMemoryRulePackRepository.getById u app.repository)
      ((postgresRulePackRepository order).getById v app'.repository) :=
  h.getById order hid

theorem Paired.updateMetadataCall (order : RowOrder) (h : Paired app.repository app'.repository)
    {lock : Option Nat} {fields : List PackAttr}
    (hlock : ∀ r, InMemoryRulePackRepository.catalogue app.repository u = some r →
      r.status = .draft → SameLock (InMemoryRulePackRepository.catalogue app.repository)
        (PostgresRulePackRepository.catalogue app'.repository) lock r.nameVersion)
    (hfields : ∀ r, InMemoryRulePackRepository.catalogue app.repository u = some r →
      r.status = .draft → LockMatches lock r → ∀ field ∈ fields, field.Shared r.name) :
    Except.Both SameApp
      (UpdateRulePackMetadataUseCase.execute inMemoryRulePackRepository u actor lock fields app)
      (UpdateRulePackMetadataUseCase.execute (postgresRulePackRepository order) v actor lock fields
        app') := by
  have hfound := h.found hid order
  unfold UpdateRulePackMetadataUseCase.execute
  generalize inMemoryRulePackRepository.getById u app.repository = x at hfound ⊢
  generalize (postgresRulePackRepository order).getById v app'.repository = y at hfound ⊢
  cases hfound with
  | none => exact .error
  | @some ref q hsame hp _ _ =>
    have hstatus : (app.repository.objects ref).status = q.status :=
      RulePack.status_of_shown hsame.shown
    show Except.Both SameApp (if (app.repository.objects ref).status != .draft then _ else _)
      (if q.status != .draft then _ else _)
    by_cases hdraft : q.status = .draft
    · rw [hstatus, hdraft]
      have hr : ∀ r, InMemoryRulePackRepository.catalogue app.repository u = some r →
          r.status = .draft := by
        intro r hr
        rw [hp] at hr
        cases hr
        exact hstatus.trans hdraft
      have hwrite := h.updateMetadata hid fields (fun r hget => hlock r hget (hr r hget))
        fun r hget => hfields r hget (hr r hget)
      exact hwrite.bind fun _ _ hsame => .ok hsame.paired
    · rw [hstatus, if_pos (bne_iff_ne.mpr hdraft), if_pos (bne_iff_ne.mpr hdraft)]
      exact .error
  | @hidden ref hp hstatus =>
    show Except.Both SameApp (if (app.repository.objects ref).status != .draft then _ else _) _
    rw [hstatus]
    exact .error

theorem Paired.publish (order : RowOrder) (h : Paired app.repository app'.repository) :
    Except.Both SameApp
      (PublishRulePackUseCase.execute inMemoryRulePackRepository u actor app)
      (PublishRulePackUseCase.execute (postgresRulePackRepository order) v actor app') := by
  have hfound := h.found hid order
  unfold PublishRulePackUseCase.execute
  generalize inMemoryRulePackRepository.getById u app.repository = x at hfound ⊢
  generalize (postgresRulePackRepository order).getById v app'.repository = y at hfound ⊢
  cases hfound with
  | none => exact .error
  | @some ref q hsame _ _ _ =>
    have hstatus : (app.repository.objects ref).status = q.status :=
      RulePack.status_of_shown hsame.shown
    have hvalid : ValidateRulePackUseCase.execute
        (inMemoryRulePackRepository.pack app.repository ref) = ValidateRulePackUseCase.execute q :=
      isValid_of_shown hsame.shown
    show Except.Both SameApp
      (if !canTransition (app.repository.objects ref).status .published then _ else _)
      (if !canTransition q.status .published then _ else _)
    simp only [hvalid]
    rw [hstatus]
    split
    · exact .error
    · show Except.Both SameApp (if !(ValidateRulePackUseCase.execute q).isValid then _ else _)
        (if !(ValidateRulePackUseCase.execute q).isValid then _ else _)
      split
      · exact .error
      · have hwrite := h.updateStatus hid (fun r _ => sameLock_none _ _ r.nameVersion) .published
        exact hwrite.bind fun _ _ hsame => .ok hsame.paired
  | @hidden ref hp hstatus =>
    show Except.Both SameApp
      (if !canTransition (app.repository.objects ref).status .published then _ else _) _
    rw [hstatus]
    exact .error

theorem Paired.activateCall (order : RowOrder) (h : Paired app.repository app'.repository)
    {reason : Option String} {lock : Option Nat}
    (hlock : ∀ r, InMemoryRulePackRepository.catalogue app.repository u = some r →
      canTransition r.status .active = true →
      SameLock (InMemoryRulePackRepository.catalogue app.repository)
        (PostgresRulePackRepository.catalogue app'.repository) lock r.nameVersion) :
    Except.Both SameApp
      (ActivateRulePackUseCase.execute inMemoryRulePackRepository u actor reason lock app)
      (ActivateRulePackUseCase.execute (postgresRulePackRepository order) v actor reason lock
        app') := by
  have hfound := h.found hid order
  unfold ActivateRulePackUseCase.execute
  generalize inMemoryRulePackRepository.getById u app.repository = x at hfound ⊢
  generalize (postgresRulePackRepository order).getById v app'.repository = y at hfound ⊢
  cases hfound with
  | none => exact .error
  | @some ref q hsame hp _ _ =>
    have hstatus : (app.repository.objects ref).status = q.status :=
      RulePack.status_of_shown hsame.shown
    have hname : (app.repository.objects ref).name = q.name := RulePack.name_of_shown hsame.shown
    have hversion : (app.repository.objects ref).version = q.version :=
      RulePack.version_of_shown hsame.shown
    show Except.Both SameApp
      (if !canTransition (app.repository.objects ref).status .active then _ else _)
      (if !canTransition q.status .active then _ else _)
    cases hallowed : canTransition q.status .active with
    | false =>
      rw [hstatus, hallowed]
      exact .error
    | true =>
      rw [hstatus, hallowed]
      have hcheck := hlock _ hp (by rw [hstatus, hallowed])
      unfold RulePack.nameVersion at hcheck
      have hwrite := h.activate order hcheck
      rw [hname, hversion] at hwrite
      show Except.Both SameApp
        (InMemoryRulePackRepository.activate (app.repository.objects ref).name
          (app.repository.objects ref).version lock app.repository >>= _) _
      rw [hname, hversion]
      exact hwrite.bind fun _ _ hsame => .ok hsame.paired
  | @hidden ref hp hstatus =>
    show Except.Both SameApp
      (if !canTransition (app.repository.objects ref).status .active then _ else _) _
    rw [hstatus]
    exact .error

/-- A pack that is archived already is hidden by Postgres; in memory its deletion has to fail
    at the lock check. -/
theorem Paired.softDeleteCall (order : RowOrder) (h : Paired app.repository app'.repository)
    {reason : Option String} {lock : Option Nat}
    (hlock : ∀ r, InMemoryRulePackRepository.catalogue app.repository u = some r →
      r.status ≠ .active → SameLock (InMemoryRulePackRepository.catalogue app.repository)
        (PostgresRulePackRepository.catalogue app'.repository) lock r.nameVersion)
    (harchived : ∀ r, InMemoryRulePackRepository.catalogue app.repository u = some r →
      r.status = .archived → ¬LockMatches lock r) :
    Except.Both SameApp
      (SoftDeleteRulePackUseCase.execute inMemoryRulePackRepository u actor reason lock app)
      (SoftDeleteRulePackUseCase.execute (postgresRulePackRepository order) v actor reason lock
        app') := by
  have hfound := h.found hid order
  unfold SoftDeleteRulePackUseCase.execute
  generalize inMemoryRulePackRepository.getById u app.repository = x at hfound ⊢
  generalize (postgresRulePackRepository order).getById v app'.repository = y at hfound ⊢
  cases hfound with
  | none => exact .error
  | @some ref q hsame hp _ _ =>
    have hstatus : (app.repository.objects ref).status = q.status :=
      RulePack.status_of_shown hsame.shown
    show Except.Both SameApp (if (app.repository.objects ref).status == .active then _ else _)
      (if q.status == .active then _ else _)
    by_cases hactive : q.status = .active
    · rw [hstatus, hactive]
      exact .error
    · rw [hstatus, if_neg (by simpa using hactive), if_neg (by simpa using hactive)]
      have hr : ∀ r, InMemoryRulePackRepository.catalogue app.repository u = some r →
          r.status ≠ .active := by
        intro r hr
        rw [hp] at hr
        cases hr
        rw [hstatus]
        exact hactive
      have hwrite := h.softDelete hid fun r hget => hlock r hget (hr r hget)
      exact hwrite.bind fun _ _ hsame => .ok hsame.paired
  | @hidden ref hp hstatus =>
    show Except.Both SameApp (if (app.repository.objects ref).status == .active then _ else _) _
    rw [hstatus]
    obtain ⟨-, hcases⟩ := InMemoryRulePackRepository.updateById_cases (u := u) h.memory lock
      fun p => { p with status := .archived }
    obtain ⟨e, he⟩ := (hcases _ hp).1 (harchived _ hp hstatus)
    show Except.Both SameApp
      (InMemoryRulePackRepository.softDelete u lock app.repository >>= _) _
    unfold InMemoryRulePackRepository.softDelete
    rw [he]
    exact .error

end

theorem Paired.rollback (order : RowOrder) (h : Paired app.repository app'.repository) {name : String}
    {version : Int} {reason : Option String} {lock : Option Nat}
    (hlock : SameLock (InMemoryRulePackRepository.catalogue app.repository)
      (PostgresRulePackRepository.catalogue app'.repository) lock (toLex (name, version))) :
    Except.Both SameApp
      (RollbackRulePackUseCase.execute inMemoryRulePackRepository name version actor reason lock app)
      (RollbackRulePackUseCase.execute (postgresRulePackRepository order) name version actor reason
        lock app') := by
  have hget : Option.Rel (SamePack app.repository app'.repository)
      (inMemoryRulePackRepository.get name version app.repository)
      ((postgresRulePackRepository order).get name version app'.repository) :=
    h.get order name version
  unfold RollbackRulePackUseCase.execute
  rcases PyList.rel_cases hget with ⟨hm, hp⟩ | ⟨ref, q, hm, hp, hsame⟩
  · rw [hm, hp]
    exact .error
  · rw [hm, hp]
    have hparent : (app.repository.objects ref).parentVersion = q.parentVersion :=
      RulePack.parentVersion_of_shown hsame.shown
    have hcheck : checkRollbackLock name version (app.repository.objects ref).lockVersion lock =
        .ok () ↔ checkRollbackLock name version q.lockVersion lock = .ok () := by
      rw [checkRollbackLock_ok_iff, checkRollbackLock_ok_iff]
      exact hlock.found h hp hsame
    have hpack : inMemoryRulePackRepository.pack app.repository ref = app.repository.objects ref := rfl
    simp only [hpack, hparent, pack_postgres]
    cases q.parentVersion with
    | none => exact .error
    | some parentVersion =>
      apply (Except.Both.of_iff hcheck).bind
      intro _ _ _
      have hwrite := h.activate order
        (sameLock_none _ _ (toLex (name, parentVersion)))
      exact hwrite.bind fun _ _ hsame => .ok hsame.paired

/-! ## Rule edits -/

/-- The codes of a pack are the same in both stores. -/
theorem checkCode_of_shown {rules rules' : List Rule}
    (h : rules.map Rule.shown = rules'.map Rule.shown) (u v : Uuid) (ruleCode : String) :
    checkCode u ruleCode rules = .ok () ↔ checkCode v ruleCode rules' = .ok () := by
  have hany : ∀ rules : List Rule, rules.any (fun r => r.ruleCode == ruleCode) =
      (rules.map Rule.ruleCode).any (· == ruleCode) := by
    intro rules
    rw [List.any_map]
    rfl
  unfold checkCode
  rw [hany, hany, codes_of_shown h]
  cases (rules'.map Rule.ruleCode).any (· == ruleCode) with
  | true => simp
  | false => simp

theorem Paired.createRule (order : RowOrder) (h : Paired app.repository app'.repository)
    (hid : SameId (InMemoryRulePackRepository.catalogue app.repository)
      (PostgresRulePackRepository.catalogue app'.repository) u v) {data : RuleData} :
    Except.Both (SameEdit app app')
      (CreateRuleUseCase.execute inMemoryRulePackRepository u data actor app)
      (CreateRuleUseCase.execute (postgresRulePackRepository order) v data actor app') := by
  have hfound := h.found hid order
  unfold CreateRuleUseCase.execute
  generalize inMemoryRulePackRepository.getById u app.repository = x at hfound ⊢
  generalize (postgresRulePackRepository order).getById v app'.repository = y at hfound ⊢
  cases hfound with
  | none => exact .error
  | @some ref q hsame _ hq _ =>
    have hstatus : (app.repository.objects ref).status = q.status :=
      RulePack.status_of_shown hsame.shown
    have hrules := RulePack.rules_of_shown hsame.shown
    show Except.Both (SameEdit app app') (if (app.repository.objects ref).status != .draft then _ else _)
      (if q.status != .draft then _ else _)
    by_cases hdraft : q.status = .draft
    · rw [hstatus, hdraft]
      apply (Except.Both.self (ruleFromJson data)).bind
      intro rule _ h
      obtain ⟨rfl, hrule⟩ := h
      show Except.Both (SameEdit app app')
        (checkCode u rule.ruleCode (app.repository.objects ref).rules >>= _)
        (checkCode v rule.ruleCode q.rules >>= _)
      apply (Except.Both.of_iff (checkCode_of_shown hrules u v rule.ruleCode)).bind
      intro _ _ hcode
      simp only [identified, id_of_ruleFromJson hrule]
      -- the new rule is the same but for its identifier
      have hids : ∀ r ∈ q.rules ++ [{ rule with id := some app'.repository.nextUuid }],
          r.id.isSome = true := by
        intro r hr
        rcases List.mem_append.mp hr with hr | hr
        · exact PostgresRulePackRepository.isSome_id_of_catalogue h.postgres.inv hq r hr
        · rw [List.mem_singleton.mp hr]
          rfl
      have hfree : FreeCodes q.rules
          (q.rules ++ [{ rule with id := some app'.repository.nextUuid }]) :=
        .append (h.postgres.codes v q hq) (checkCode_ok hcode)
      have hshown : ((app.repository.objects ref).rules ++
            [{ rule with id := some app.repository.nextUuid }]).map Rule.shown =
          ((q.rules ++ [{ rule with id := some app'.repository.nextUuid }]).map
            ruleToDomain).map Rule.shown := by
        have hplain : ∀ r ∈ q.rules ++ [{ rule with id := some app'.repository.nextUuid }],
            ruleToDomain r = r := by
          intro r hr
          rcases List.mem_append.mp hr with hr | hr
          · exact plain_of_catalogue hq r hr
          · rw [List.mem_singleton.mp hr]
            exact congrArg (fun r : Rule => { r with id := some app'.repository.nextUuid })
              (plain_of_ruleFromJson hrule)
        rw [map_of_plain hplain, List.map_append, List.map_append, hrules]
        rfl
      obtain ⟨x, y, hx, hy, hpaired, hkeys, hkeys'⟩ := h.uuid4.saveRules order
        ⟨hsame.stored, hsame.read, hsame.shown⟩ hids hfree hshown
      exact .of_ok (Except.bind_ok_iff.mpr ⟨x, hx, rfl⟩) (Except.bind_ok_iff.mpr ⟨y, hy, rfl⟩)
        ⟨hpaired, fun u v hid => hid.of_sameKeys hkeys hkeys'⟩
    · rw [hstatus, if_pos (bne_iff_ne.mpr hdraft), if_pos (bne_iff_ne.mpr hdraft)]
      exact .error
  | @hidden ref hp hstatus =>
    show Except.Both (SameEdit app app') (if (app.repository.objects ref).status != .draft then _ else _) _
    rw [hstatus]
    exact .error

/-- A bulk creation is one creation after another, up to the first that is refused. -/
theorem Paired.bulkCreateRules (order : RowOrder) {rulesData : List RuleData}
    (h : Paired app.repository app'.repository)
    (hid : SameId (InMemoryRulePackRepository.catalogue app.repository)
      (PostgresRulePackRepository.catalogue app'.repository) u v) :
    SameEnd (fun _ _ => True)
      (BulkCreateRulesUseCase.execute inMemoryRulePackRepository u actor rulesData app)
      (BulkCreateRulesUseCase.execute (postgresRulePackRepository order) v actor rulesData app') := by
  induction rulesData generalizing app app' with
  | nil => exact ⟨.ok trivial, h⟩
  | cons data rest ih =>
    have hfirst : Except.Both (SameEdit app app')
        (CreateRuleUseCase.execute inMemoryRulePackRepository u data actor app)
        (CreateRuleUseCase.execute (postgresRulePackRepository order) v data actor app') :=
      h.createRule order hid
    unfold BulkCreateRulesUseCase.execute
    generalize CreateRuleUseCase.execute inMemoryRulePackRepository u data actor app = x at hfirst ⊢
    generalize CreateRuleUseCase.execute (postgresRulePackRepository order) v data actor app' = y
      at hfirst ⊢
    cases hfirst with
    | error => exact ⟨.error, h⟩
    | @ok x y hedit =>
      have hrest := ih hedit.paired (hedit.ids u v hid)
      refine ⟨?_, hrest.paired⟩
      show Except.Both (fun _ _ => True)
        ((BulkCreateRulesUseCase.execute inMemoryRulePackRepository u actor rest x.2).1.map _)
        ((BulkCreateRulesUseCase.execute (postgresRulePackRepository order) v actor rest y.2).1.map _)
      exact hrest.result.bind fun _ _ _ => .ok trivial

/-- What an update makes of the code of a rule. -/
theorem ruleCode_of_override {rule updated : Rule} {data : RuleData}
    (h : ruleFromJson ((ruleToJson rule).override data) = .ok updated) :
    updated.ruleCode = data.ruleCode.getD rule.ruleCode := by
  obtain ⟨code, hcode, h⟩ := Except.bind_ok_iff.mp h
  obtain ⟨_, -, h⟩ := Except.bind_ok_iff.mp h
  obtain ⟨_, -, h⟩ := Except.bind_ok_iff.mp h
  cases h
  show code = data.ruleCode.getD rule.ruleCode
  have hcode : RuleData.required "ruleCode" (data.ruleCode <|> some rule.ruleCode) = .ok code := hcode
  cases hdata : data.ruleCode with
  | none =>
    rw [hdata] at hcode
    exact (Except.ok.inj hcode).symm
  | some code' =>
    rw [hdata] at hcode
    exact (Except.ok.inj hcode).symm

theorem Paired.updateRule (order : RowOrder) (h : Paired app.repository app'.repository)
    (hid : SameRule (InMemoryRulePackRepository.catalogue app.repository)
      (PostgresRulePackRepository.catalogue app'.repository) u v) {data : RuleData}
    (hcode : ∀ w r, InMemoryRulePackRepository.catalogue app.repository w = some r →
      r.status = .draft → (∃ rule ∈ r.rules, rule.id = some u) →
      ∀ code, data.ruleCode = some code → ∀ other ∈ r.rules, other.id ≠ some u →
        other.ruleCode ≠ code) :
    Except.Both SameApp
      (UpdateRuleUseCase.execute inMemoryRulePackRepository u data actor app)
      (UpdateRuleUseCase.execute (postgresRulePackRepository order) v data actor app') := by
  have hfound := h.foundRule order hid
  unfold UpdateRuleUseCase.execute
  -- both scans find the rule, or none does
  rcases PyList.rel_cases hfound with ⟨hm, hp⟩ | ⟨⟨ref, rule⟩, ⟨q, rule'⟩, hm, hp, hsame, hnamed⟩
  · rw [hm, hp]
    exact .error
  · rw [hm, hp]
    have hstatus : (app.repository.objects ref).status = q.status :=
      RulePack.status_of_shown hsame.shown
    have hrules := SameRule.named h hid hsame
    obtain ⟨v', hq⟩ := hsame.read
    obtain ⟨hmem, hruleId⟩ := rule_of_findRule hp
    show Except.Both SameApp (if (app.repository.objects ref).status != .draft then _ else _)
      (if q.status != .draft then _ else _)
    by_cases hdraft : q.status = .draft
    · rw [hstatus, hdraft]
      -- what is sent is laid over the same rule, so both payloads are parsed alike
      have hjson : ruleToJson rule.shown = ruleToJson rule'.shown := congrArg ruleToJson hnamed.1
      show Except.Both SameApp (ruleFromJson ((ruleToJson rule.shown).override data) >>= _)
        (ruleFromJson ((ruleToJson rule'.shown).override data) >>= _)
      rw [hjson]
      apply (Except.Both.self (ruleFromJson ((ruleToJson rule'.shown).override data))).bind
      intro updated _ h
      obtain ⟨rfl, hupdated⟩ := h
      have hids : ∀ r ∈ replaceRule v { updated with id := rule'.id } q.rules,
          r.id.isSome = true := by
        intro r hr
        rcases mem_replaceRule hr with rfl | ⟨hr, -⟩
        · exact Option.isSome_of_eq_some hruleId
        · exact PostgresRulePackRepository.isSome_id_of_catalogue h.postgres.inv hq r hr
      -- the code stays, or is one that no other rule has
      have hfree : FreeCodes q.rules (replaceRule v { updated with id := rule'.id } q.rules) := by
        have hid' : Rule.id { updated with id := rule'.id } = some v := hruleId
        apply FreeCodes.replaceRule (h.postgres.codes v' q hq) hid'
        intro r hr hne
        show r.ruleCode ≠ updated.ruleCode
        rw [ruleCode_of_override hupdated]
        cases hdata : data.ruleCode with
        | none =>
          intro hsamecode
          exact hne ((h.postgres.codes v' q hq r hr rule' hmem hsamecode).trans hruleId)
        | some code =>
          obtain ⟨other, hother, hothernamed⟩ := PyList.exists_left_of_forall₂ hrules hr
          obtain ⟨own, hown, hownnamed⟩ := PyList.exists_left_of_forall₂ hrules hmem
          obtain ⟨w, -, hw⟩ := h.memory.exists_id hsame.stored
          have hothercode : r.shown.ruleCode = other.shown.ruleCode :=
            congrArg Rule.ruleCode hothernamed.1.symm
          rw [show r.ruleCode = other.ruleCode from hothercode]
          exact hcode w _ hw (hstatus.trans hdraft) ⟨own, hown, hownnamed.2.mpr hruleId⟩ code hdata
            other hother fun hu => hne (hothernamed.2.mp hu)
      -- and the rules that are saved show the same
      have hshown : (replaceRule u { updated with id := rule.id }
            (app.repository.objects ref).rules).map Rule.shown =
          ((replaceRule v { updated with id := rule'.id } q.rules).map ruleToDomain).map
            Rule.shown := by
        have hplain : ∀ r ∈ replaceRule v { updated with id := rule'.id } q.rules,
            ruleToDomain r = r := by
          intro r hr
          rcases mem_replaceRule hr with rfl | ⟨hr, -⟩
          · exact congrArg (fun r : Rule => { r with id := rule'.id })
              (plain_of_ruleFromJson hupdated)
          · exact plain_of_catalogue hq r hr
        rw [map_of_plain hplain]
        exact shown_replaceRule hrules rfl
      obtain ⟨x, y, hx, hy, hpaired, -⟩ :=
        h.saveRules order hsame hids hfree hshown
      show Except.Both SameApp (InMemoryRulePackRepository.save ref _ >>= _)
        (PostgresRulePackRepository.save order _ _ >>= _)
      exact (Except.Both.of_ok hx hy hpaired).bind fun _ _ hpaired => .ok hpaired
    · rw [hstatus, if_pos (bne_iff_ne.mpr hdraft), if_pos (bne_iff_ne.mpr hdraft)]
      exact .error

theorem Paired.deleteRule (order : RowOrder) (h : Paired app.repository app'.repository)
    (hid : SameRule (InMemoryRulePackRepository.catalogue app.repository)
      (PostgresRulePackRepository.catalogue app'.repository) u v) {reason : Option String} :
    Except.Both SameApp
      (DeleteRuleUseCase.execute inMemoryRulePackRepository u actor reason app)
      (DeleteRuleUseCase.execute (postgresRulePackRepository order) v actor reason app') := by
  have hfound := h.foundRule order hid
  unfold DeleteRuleUseCase.execute
  rcases PyList.rel_cases hfound with ⟨hm, hp⟩ | ⟨⟨ref, rule⟩, ⟨q, rule'⟩, hm, hp, hsame, -⟩
  · rw [hm, hp]
    exact .error
  · rw [hm, hp]
    have hstatus : (app.repository.objects ref).status = q.status :=
      RulePack.status_of_shown hsame.shown
    obtain ⟨v', hq⟩ := hsame.read
    show Except.Both SameApp (if (app.repository.objects ref).status != .draft then _ else _)
      (if q.status != .draft then _ else _)
    by_cases hdraft : q.status = .draft
    · rw [hstatus, hdraft]
      have hids : ∀ r ∈ disableRule v q.rules, r.id.isSome = true := by
        intro r hr
        obtain ⟨old, hold, hdisabled⟩ := mem_disableRule hr
        rw [hdisabled]
        exact PostgresRulePackRepository.isSome_id_of_catalogue h.postgres.inv hq old hold
      have hshown : (disableRule u (app.repository.objects ref).rules).map Rule.shown =
          ((disableRule v q.rules).map ruleToDomain).map Rule.shown := by
        have hplain : ∀ r ∈ disableRule v q.rules, ruleToDomain r = r := by
          intro r hr
          obtain ⟨old, hold, hdisabled⟩ := mem_disableRule hr
          rw [hdisabled]
          exact congrArg (fun rule : Rule => { rule with enabled := r.enabled })
            (plain_of_catalogue hq old hold)
        rw [map_of_plain hplain]
        exact shown_disableRule (SameRule.named h hid hsame)
      obtain ⟨x, y, hx, hy, hpaired, -⟩ := h.saveRules order hsame hids
        (.disableRule v (h.postgres.codes v' q hq)) hshown
      show Except.Both SameApp (InMemoryRulePackRepository.save ref _ >>= _)
        (PostgresRulePackRepository.save order _ _ >>= _)
      exact (Except.Both.of_ok hx hy hpaired).bind fun _ _ hpaired => .ok hpaired
    · rw [hstatus, if_pos (bne_iff_ne.mpr hdraft), if_pos (bne_iff_ne.mpr hdraft)]
      exact .error

/-! ## Seeding and promotion -/

/-- The rules of the fixture are new and have codes of their own. -/
theorem storable_fixture : Storable InMemoryRuleRepository.getActive.rules where
  new := by
    have hall : InMemoryRuleRepository.getActive.rules.all (fun rule => rule.id.isNone) = true := by
      decide +kernel
    intro rule hrule
    simpa using List.all_eq_true.mp hall rule hrule
  plain := by
    have hall : InMemoryRuleRepository.getActive.rules.all
        (fun rule => rule.exceptions.all (·.tree.truthy)) = true := by
      decide +kernel
    intro rule hrule
    have htruthy := List.all_eq_true.mp hall rule hrule
    unfold ruleToDomain
    cases hexceptions : rule.exceptions with
    | none =>
      rw [Option.filter_none, ← hexceptions]
    | some exceptions =>
      rw [hexceptions] at htruthy
      have htruthy : exceptions.tree.truthy = true := htruthy
      rw [Option.filter_some, if_pos htruthy, ← hexceptions]
  codes := by decide +kernel

/-- The pack that the seeding activates. -/
theorem Paired.seedSave (order : RowOrder) (h : Paired m p) (ruleSetName : String) :
    Except.Both SameResult (seedSave inMemoryRulePackRepository ruleSetName m)
      (seedSave (postgresRulePackRepository order) ruleSetName p) := by
  have hget : Option.Rel (SamePack m p)
      (inMemoryRulePackRepository.get (fixturePack ruleSetName).name
        (fixturePack ruleSetName).version m)
      ((postgresRulePackRepository order).get (fixturePack ruleSetName).name
        (fixturePack ruleSetName).version p) := h.get order _ _
  unfold PulseGuard.seedSave
  rcases PyList.rel_cases hget with ⟨hm, hp⟩ | ⟨ref, q, hm, hp, hsame⟩
  · simp only [hm, hp]
    have hsavable : Savable (InMemoryRulePackRepository.catalogue m) (fixturePack ruleSetName) := by
      refine ⟨rfl, storable_fixture, fun u r hr hkey => ?_, fun _ => ⟨rfl, fun version hversion => ?_⟩⟩
      · -- a pack of this name and version would have been found
        obtain ⟨ref, hmem, -, rfl, -⟩ := h.memory.exists_ref hr
        have hkey : ((m.objects ref).name, (m.objects ref).version) =
          ((fixturePack ruleSetName).name, (fixturePack ruleSetName).version) := hkey
        rw [Prod.mk.injEq] at hkey
        have hfound := (InMemoryRulePackRepository.get_eq_some_iff h.memory).mpr
          ⟨hmem, hkey.1, hkey.2⟩
        have hm : InMemoryRulePackRepository.get (fixturePack ruleSetName).name
          (fixturePack ruleSetName).version m = none := hm
        rw [hm] at hfound
        cases hfound
      · cases hversion
    obtain ⟨x, y, hx, hy, hsame⟩ := h.save order hsavable
    exact .of_ok hx hy hsame
  · simp only [hm, hp]
    exact .ok ⟨h, hsame.shown⟩

theorem Paired.seed (order : RowOrder) (h : Paired app.repository app'.repository)
    (ruleSetName : String) :
    Except.Both SameApp
      (SeedActivePolicyOnStartupUseCase.execute inMemoryRulePackRepository ruleSetName app)
      (SeedActivePolicyOnStartupUseCase.execute (postgresRulePackRepository order) ruleSetName
        app') := by
  obtain ⟨hsome, -⟩ := h.getActive order ruleSetName none
  have hsome : (inMemoryRulePackRepository.getActive ruleSetName none app.repository).isSome =
    ((postgresRulePackRepository order).getActive ruleSetName none app'.repository).isSome := hsome
  unfold SeedActivePolicyOnStartupUseCase.execute
  cases hm : inMemoryRulePackRepository.getActive ruleSetName none app.repository with
  | some ref =>
    cases hp : (postgresRulePackRepository order).getActive ruleSetName none app'.repository with
    | some q => exact .ok h
    | none =>
      rw [hm, hp] at hsome
      cases hsome
  | none =>
    cases hp : (postgresRulePackRepository order).getActive ruleSetName none app'.repository with
    | some q =>
      rw [hm, hp] at hsome
      cases hsome
    | none =>
      apply (h.seedSave order ruleSetName).bind
      intro x y hsame
      show Except.Both SameApp
        (InMemoryRulePackRepository.activate (x.2.objects x.1).name (x.2.objects x.1).version none
          x.2 >>= _)
        (PostgresRulePackRepository.activate order y.1.name y.1.version none y.2 >>= _)
      rw [RulePack.name_of_shown hsame.shown, RulePack.version_of_shown hsame.shown]
      have hwrite := hsame.paired.activate order (sameLock_none _ _ (toLex (y.1.name, y.1.version)))
      exact hwrite.bind fun _ _ hsame => .ok hsame.paired

/-- The promotion of a pack that is not found, or not valid, changes nothing. -/
theorem exec_promoteToShadow_of_invalid {σ ρ : Type} {repo : RulePackRepository σ ρ}
    {candidateId activeId : Uuid} (matrix : Option SlaMatrix) (sampleIncidents : List Incident)
    {app : App σ}
    (h : ∀ candidate active, repo.getById candidateId app.repository = some candidate →
      repo.getById activeId app.repository = some active →
      (ValidateRulePackUseCase.execute (repo.pack app.repository candidate)).isValid = false) :
    ∃ e, (Call.promoteToShadow candidateId activeId matrix sampleIncidents).exec repo app =
      (.error e, app) := by
  rw [Call.exec]
  cases hcandidate : repo.getById candidateId app.repository with
  | none => exact ⟨_, rfl⟩
  | some candidate =>
    cases hactive : repo.getById activeId app.repository with
    | none => exact ⟨_, rfl⟩
    | some active =>
      have hrefused := h candidate active hcandidate hactive
      unfold PromoteToShadowUseCase.execute
      simp only [hrefused]
      exact ⟨_, rfl⟩

/-- So the promotion of a pack that memory refuses. -/
theorem Paired.promoteToShadow (order : RowOrder) (h : Paired app.repository app'.repository)
    {candidate candidate' active active' : Uuid} {matrix : Option SlaMatrix}
    {sampleIncidents : List Incident}
    (hid : SameId (InMemoryRulePackRepository.catalogue app.repository)
      (PostgresRulePackRepository.catalogue app'.repository) candidate candidate')
    (hactive : SameId (InMemoryRulePackRepository.catalogue app.repository)
      (PostgresRulePackRepository.catalogue app'.repository) active active')
    (hinvalid : ∀ r q, InMemoryRulePackRepository.catalogue app.repository candidate = some r →
      InMemoryRulePackRepository.catalogue app.repository active = some q →
      (ValidateRulePackUseCase.execute r).isValid = false) :
    SameEnd Eq
      ((Call.promoteToShadow candidate active matrix sampleIncidents).exec
        inMemoryRulePackRepository app)
      ((Call.promoteToShadow candidate' active' matrix sampleIncidents).exec
        (postgresRulePackRepository order) app') := by
  have hmemory : ∀ r q, inMemoryRulePackRepository.getById candidate app.repository = some r →
      inMemoryRulePackRepository.getById active app.repository = some q →
      (ValidateRulePackUseCase.execute (app.repository.objects r)).isValid = false := by
    intro r q hr hq
    have hr : InMemoryRulePackRepository.getById candidate app.repository = some r := hr
    have hq : InMemoryRulePackRepository.getById active app.repository = some q := hq
    apply hinvalid _ (app.repository.objects q)
    · unfold InMemoryRulePackRepository.catalogue
      rw [hr]
      rfl
    · unfold InMemoryRulePackRepository.catalogue
      rw [hq]
      rfl
  have hpostgres : ∀ r q, (postgresRulePackRepository order).getById candidate' app'.repository = some r →
      (postgresRulePackRepository order).getById active' app'.repository = some q →
      (ValidateRulePackUseCase.execute r).isValid = false := by
    intro r q hr hq
    have hfound := h.found hid order
    have hfound' := h.found hactive order
    rw [hr] at hfound
    rw [hq] at hfound'
    generalize inMemoryRulePackRepository.getById candidate app.repository = x at hfound
    generalize inMemoryRulePackRepository.getById active app.repository = y at hfound'
    cases hfound with
    | some hsame hp =>
      cases hfound' with
      | some hsame' hp' =>
        rw [← isValid_of_shown hsame.shown]
        exact hinvalid _ _ hp hp'
  obtain ⟨e, he⟩ := exec_promoteToShadow_of_invalid matrix sampleIncidents hmemory
  obtain ⟨e', he'⟩ := exec_promoteToShadow_of_invalid matrix sampleIncidents hpostgres
  rw [he, he']
  exact ⟨.error, h⟩

end PulseGuard
