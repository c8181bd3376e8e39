import PulseGuard.Spec.RepositoryLaws

/-!
# Calls as runs of writes

The rule edits and the seeding, over a lawful repository, and the assembly: every call is a
run of saves followed by at most one other write, and a list of calls is a run of writes.
-/

namespace PulseGuard

open Run

variable {σ ρ : Type}

theorem checkCode_ok_iff {packId : Uuid} {ruleCode : String} {rules : List Rule} :
    checkCode packId ruleCode rules = .ok () ↔ ∀ r ∈ rules, r.ruleCode ≠ ruleCode := by
  unfold checkCode
  split
  · rename_i hany
    obtain ⟨r, hr, hcode⟩ := List.any_eq_true.mp hany
    constructor
    · intro h
      cases h
    · intro h
      exact absurd (beq_iff_eq.mp hcode) (h r hr)
  · rename_i hany
    refine ⟨fun _ r hr hcode => hany ?_, fun _ => rfl⟩
    exact List.any_eq_true.mpr ⟨r, hr, beq_iff_eq.mpr hcode⟩

/-- What `_find_rule` returns is a rule of the pack, with the identifier asked for. -/
theorem rule_of_findRule {repo : RulePackRepository σ ρ} {ruleId : Uuid} {s : σ} {ref : ρ}
    {rule : Rule} (h : findRule repo ruleId s = some (ref, rule)) :
    rule ∈ (repo.pack s ref).rules ∧ rule.id = some ruleId := by
  obtain ⟨ref', -, hfound⟩ := List.exists_of_findSome?_eq_some h
  obtain ⟨found, hfind, hpair⟩ := Option.map_eq_some_iff.mp hfound
  cases hpair
  exact ⟨List.mem_of_find?_eq_some hfind, by simpa using List.find?_some hfind⟩

/-- A creation that returns found a Draft that has no rule of the code, and saved the pack with
    one rule more. -/
theorem CreateRuleUseCase.execute_ok {repo : RulePackRepository σ ρ} {app app' : App σ}
    {packId : Uuid} {data : RuleData} {actor : String} {created : Rule}
    (h : CreateRuleUseCase.execute repo packId data actor app = .ok (created, app')) :
    ∃ ref rule saved t, repo.getById packId app.repository = some ref ∧
      (repo.pack app.repository ref).status = .draft ∧ ruleFromJson data = .ok rule ∧
      (∀ r ∈ (repo.pack app.repository ref).rules, r.ruleCode ≠ rule.ruleCode) ∧
      let new := identified repo rule app.repository
      let edited := repo.assign ref { repo.pack app.repository ref with
        rules := (repo.pack app.repository ref).rules ++ [new.1] } new.2
      repo.save edited.1 edited.2 = .ok (saved, t) ∧ app'.repository = t := by
  unfold CreateRuleUseCase.execute at h
  split at h
  · cases h
  · rename_i ref hget
    simp only at h
    split at h
    · cases h
    · rename_i hstatus
      obtain ⟨rule, hrule, h⟩ := Except.bind_ok_iff.mp h
      obtain ⟨_, hcode, h⟩ := Except.bind_ok_iff.mp h
      obtain ⟨⟨saved, t⟩, hsave, h⟩ := Except.bind_ok_iff.mp h
      rw [Except.pure_ok_iff] at h
      cases h
      exact ⟨ref, rule, saved, t, hget, by simpa using hstatus, hrule,
        checkCode_ok_iff.mp hcode, hsave, rfl⟩

namespace Lawful

variable {repo : RulePackRepository σ ρ} {V : StoreView σ} (L : Lawful repo V)
  {app app' : App σ} {actor : String}

theorem createRule_performs {packId : Uuid} {data : RuleData} {created : Rule}
    (hInv : L.Inv app.repository)
    (h : CreateRuleUseCase.execute repo packId data actor app = .ok (created, app')) :
    ∃ ref rule, repo.getById packId app.repository = some ref ∧
      (repo.pack app.repository ref).status = .draft ∧ ruleFromJson data = .ok rule ∧
      L.Performs app.repository
        (.saveEdited (repo.pack app.repository ref)
          ((repo.pack app.repository ref).rules ++ [(identified repo rule app.repository).1]))
        app'.repository := by
  obtain ⟨ref, rule, saved, t, hget, hdraft, hrule, -, hsave, hstored⟩ :=
    CreateRuleUseCase.execute_ok h
  refine ⟨ref, rule, hget, hdraft, hrule, ?_⟩
  rw [hstored]
  have hreads := L.getById hInv hget
  unfold identified at hsave ⊢
  cases hid : rule.id with
  | some id =>
    rw [hid] at hsave
    exact .saveEdited (Or.inl rfl) hreads hdraft hsave
  | none =>
    rw [hid] at hsave
    exact .saveEdited (Or.inr rfl) hreads hdraft hsave

/-- What `_find_rule` returns is a pack of the store. -/
theorem reads_of_findRule {ruleId : Uuid} {s : σ} {ref : ρ} {rule : Rule} (hInv : L.Inv s)
    (h : findRule repo ruleId s = some (ref, rule)) : ∃ u, L.Reads s ref u := by
  unfold findRule at h
  rw [List.findSome?_eq_some_iff] at h
  obtain ⟨before, ref', after, hlist, hfind, -⟩ := h
  obtain ⟨found, -, hpair⟩ := Option.map_eq_some_iff.mp hfind
  cases hpair
  exact L.listAll hInv (by rw [hlist]; simp)

theorem updateRule_performs {ruleId : Uuid} {data : RuleData} {updated : Rule}
    (hInv : L.Inv app.repository)
    (h : UpdateRuleUseCase.execute repo ruleId data actor app = .ok (updated, app')) :
    ∃ ref rule rule', findRule repo ruleId app.repository = some (ref, rule) ∧
      (repo.pack app.repository ref).status = .draft ∧
      ruleFromJson ((ruleToJson rule).override data) = .ok rule' ∧
      L.Performs app.repository
        (.saveEdited (repo.pack app.repository ref)
          (replaceRule ruleId { rule' with id := rule.id } (repo.pack app.repository ref).rules))
        app'.repository := by
  unfold UpdateRuleUseCase.execute at h
  split at h
  · cases h
  · rename_i ref rule hfind
    simp only at h
    split at h
    · cases h
    · rename_i hstatus
      have hdraft : (repo.pack app.repository ref).status = .draft := by simpa using hstatus
      obtain ⟨rule', hrule', h⟩ := Except.bind_ok_iff.mp h
      obtain ⟨⟨saved, t⟩, hsave, h⟩ := Except.bind_ok_iff.mp h
      rw [Except.pure_ok_iff] at h
      cases h
      obtain ⟨u, hreads⟩ := L.reads_of_findRule hInv hfind
      exact ⟨ref, rule, rule', hfind, hdraft, hrule',
        .saveEdited (Or.inl rfl) hreads hdraft hsave⟩

theorem deleteRule_performs {ruleId : Uuid} {reason : Option String} {deleted : Rule}
    (hInv : L.Inv app.repository)
    (h : DeleteRuleUseCase.execute repo ruleId actor reason app = .ok (deleted, app')) :
    ∃ ref rule, findRule repo ruleId app.repository = some (ref, rule) ∧
      (repo.pack app.repository ref).status = .draft ∧
      L.Performs app.repository
        (.saveEdited (repo.pack app.repository ref)
          (disableRule ruleId (repo.pack app.repository ref).rules)) app'.repository := by
  unfold DeleteRuleUseCase.execute at h
  split at h
  · cases h
  · rename_i ref rule hfind
    simp only at h
    split at h
    · cases h
    · rename_i hstatus
      have hdraft : (repo.pack app.repository ref).status = .draft := by simpa using hstatus
      obtain ⟨⟨saved, t⟩, hsave, h⟩ := Except.bind_ok_iff.mp h
      rw [Except.pure_ok_iff] at h
      cases h
      obtain ⟨u, hreads⟩ := L.reads_of_findRule hInv hfind
      exact ⟨ref, rule, hfind, hdraft, .saveEdited (Or.inl rfl) hreads hdraft hsave⟩

/-- The fixture is saved under its name and version, or a pack is there already. -/
theorem seedSave_performs {ruleSetName : String} {s t : σ} {ref : ρ} (hInv : L.Inv s)
    (h : seedSave repo ruleSetName s = .ok (ref, t)) :
    L.Inv t ∧ (t = s ∧ (repo.get ruleSetName (fixturePack ruleSetName).version s).isSome = true ∨
      repo.get ruleSetName (fixturePack ruleSetName).version s = none ∧
        L.Performs s (.saveNew (fixturePack ruleSetName)) t ∧
        (repo.pack t ref).name = ruleSetName ∧
        (repo.pack t ref).version = (fixturePack ruleSetName).version) := by
  unfold seedSave at h
  simp only [show (fixturePack ruleSetName).name = ruleSetName from rfl] at h
  cases hget : repo.get ruleSetName (fixturePack ruleSetName).version s with
  | some existing =>
    rw [hget] at h
    cases h
    exact ⟨hInv, Or.inl ⟨rfl, by simp⟩⟩
  | none =>
    rw [hget] at h
    obtain ⟨hInv', -, hname, hversion⟩ := L.saveNew hInv rfl (Or.inr hget) h
    exact ⟨hInv', Or.inr ⟨rfl, .saveNew rfl (Or.inr hget) h, hname, hversion⟩⟩

theorem seed_performs {ruleSetName : String} {result : SeedResult}
    (h : SeedActivePolicyOnStartupUseCase.execute repo ruleSetName app = .ok (result, app')) :
    app' = app ∨ repo.getActive ruleSetName none app.repository = none ∧
      ∃ ref t, seedSave repo ruleSetName app.repository = .ok (ref, t) ∧
        L.Performs t
          (.activate none (repo.pack t ref).name (repo.pack t ref).version none)
          app'.repository := by
  unfold SeedActivePolicyOnStartupUseCase.execute at h
  cases hactive : repo.getActive ruleSetName none app.repository with
  | some ref =>
    rw [hactive] at h
    cases h
    exact Or.inl rfl
  | none =>
    rw [hactive] at h
    obtain ⟨⟨ref, t⟩, hsave, h⟩ := Except.bind_ok_iff.mp h
    obtain ⟨⟨activated, t'⟩, hactivate, h⟩ := Except.bind_ok_iff.mp h
    rw [Except.pure_ok_iff] at h
    cases h
    exact Or.inr ⟨rfl, ref, t, hsave, .activate hactivate⟩

/-! ## Any call, and any list of calls -/

/-- A run of saves, then at most one other write. -/
def CallRunOf (step : σ → Write → σ → Prop) (P : σ → Write → Prop) (s t : σ) : Prop :=
  ∃ s', RunWhere step (fun s w => P s w ∧ w.IsSave) s s' ∧ (t = s' ∨ StepWhere step P s' t)

/-- The writes of a call, as the abstract model sees them. -/
def CallRun (repo : RulePackRepository σ ρ) (V : StoreView σ) (P : σ → Write → Prop)
    (s t : σ) : Prop :=
  CallRunOf (WriteStep repo V) P s t

section

variable {step step' : σ → Write → σ → Prop} {P : σ → Write → Prop} {s t : σ}

theorem CallRunOf.refl (s : σ) : CallRunOf step P s s := ⟨s, .refl, Or.inl rfl⟩

theorem CallRunOf.single {w : Write} (hw : P s w) (h : step s w t) : CallRunOf step P s t :=
  ⟨s, .refl, Or.inr ⟨w, hw, h⟩⟩

theorem CallRunOf.run (h : CallRunOf step P s t) : RunWhere step P s t := by
  obtain ⟨s', hsaves, hlast⟩ := h
  have hrun := RunWhere.mono (fun _ _ hw => hw.1) hsaves
  rcases hlast with rfl | hstep
  · exact hrun
  · exact hrun.tail hstep

theorem CallRunOf.mono_step (hstep : ∀ s w t, P s w → step s w t → step' s w t)
    (h : CallRunOf step P s t) : CallRunOf step' P s t := by
  obtain ⟨s', hsaves, hlast⟩ := h
  refine ⟨s', hsaves.mono_step fun s w t hw => hstep s w t hw.1, ?_⟩
  rcases hlast with hsame | ⟨w, hw, hlast⟩
  · exact Or.inl hsame
  · exact Or.inr ⟨w, hw, hstep _ _ _ hw hlast⟩

end

theorem CallRun.run {P : σ → Write → Prop} {s t : σ} (h : CallRun repo V P s t) :
    RunWhere (WriteStep repo V) P s t :=
  CallRunOf.run h

/-- A call that raises makes no write, one that returns the write it is specified by. -/
private theorem outcome_performs {α : Type} {result : Except PyError (α × App σ)}
    {P : σ → Write → Prop} (hInv : L.Inv app.repository)
    (hok : ∀ a app', result = .ok (a, app') → ∃ w, P app.repository w ∧
      L.Performs app.repository w app'.repository) :
    L.Inv (outcome app result).2.repository ∧
      CallRunOf L.Performs (fun s w => L.Inv s ∧ P s w) app.repository
        (outcome app result).2.repository := by
  unfold outcome
  split
  · obtain ⟨w, hw, hperforms⟩ := hok _ _ rfl
    exact ⟨(hperforms.step hInv).1, .single ⟨hInv, hw⟩ hperforms⟩
  · exact ⟨hInv, .refl _⟩

/-- A bulk creation is a run of saves, also when some rule is refused. -/
theorem bulkCreateRules_performs {P : σ → Write → Prop} {packId : Uuid}
    (rulesData : List RuleData) {app : App σ} (hInv : L.Inv app.repository)
    (heach : BulkEach repo (CreateRuleEach repo P packId) packId actor rulesData app) :
    let t := (BulkCreateRulesUseCase.execute repo packId actor rulesData app).2.repository
    L.Inv t ∧ RunWhere L.Performs (fun s w => (L.Inv s ∧ P s w) ∧ w.IsSave) app.repository t := by
  induction rulesData generalizing app with
  | nil => exact ⟨hInv, .refl⟩
  | cons data rest ih =>
    obtain ⟨hdata, hrest⟩ := heach
    rw [BulkCreateRulesUseCase.execute]
    cases hcreate : CreateRuleUseCase.execute repo packId data actor app with
    | error e => exact ⟨hInv, .refl⟩
    | ok result =>
      obtain ⟨rule, app'⟩ := result
      obtain ⟨ref, rule', hget, hdraft, hrule, hperforms⟩ := L.createRule_performs hInv hcreate
      obtain ⟨hfinal, hrun⟩ := ih (hperforms.step hInv).1 (hrest rule app' hcreate)
      exact ⟨hfinal,
        .head ⟨_, ⟨⟨hInv, hdata ref rule' hget hdraft hrule⟩, trivial⟩, hperforms⟩ hrun⟩

/-- A call whose writes all meet a condition performs such writes: saves, then at most one
    other. -/
theorem exec_performs {P : σ → Write → Prop}
    (hmeta : ∀ s u lock fields, P s (.updateMetadata u lock fields) → V.inPlace →
      fields.all PackAttr.isMetadata = true)
    {call : Call} {app : App σ} (hInv : L.Inv app.repository) (heach : call.Each repo P app) :
    L.Inv (call.exec repo app).2.repository ∧
      CallRunOf L.Performs (fun s w => L.Inv s ∧ P s w) app.repository
        (call.exec repo app).2.repository := by
  have hstay : L.Inv app.repository ∧
      CallRunOf L.Performs (fun s w => L.Inv s ∧ P s w) app.repository app.repository :=
    ⟨hInv, .refl _⟩
  -- a call that raises makes no write, each of the others one, but for the two that save first
  cases call with
  | createRulePack name region tenantId rules actor =>
    exact L.outcome_performs hInv fun r app' h => ⟨_, heach, L.createRulePack_performs h⟩
  | importRulePack document actor =>
    refine L.outcome_performs hInv fun r app' h => ?_
    obtain ⟨name, rules, hname, hrules, htaken, hperforms⟩ := L.importRulePack_performs h
    exact ⟨_, heach name rules hname hrules htaken, hperforms⟩
  | updateMetadata packId actor lock fields =>
    exact L.outcome_performs hInv fun r app' h =>
      ⟨_, heach, L.updateMetadata_performs hInv (hmeta _ _ _ _ heach) h⟩
  | createRule packId data actor =>
    refine L.outcome_performs hInv fun r app' h => ?_
    obtain ⟨ref, rule, hget, hdraft, hrule, hperforms⟩ := L.createRule_performs hInv h
    exact ⟨_, heach ref rule hget hdraft hrule, hperforms⟩
  | updateRule ruleId data actor =>
    refine L.outcome_performs hInv fun r app' h => ?_
    obtain ⟨ref, rule, rule', hfind, hdraft, hrule, hperforms⟩ := L.updateRule_performs hInv h
    exact ⟨_, heach ref rule rule' hfind hdraft hrule, hperforms⟩
  | deleteRule ruleId actor reason =>
    refine L.outcome_performs hInv fun r app' h => ?_
    obtain ⟨ref, rule, hfind, hdraft, hperforms⟩ := L.deleteRule_performs hInv h
    exact ⟨_, heach ref rule hfind hdraft, hperforms⟩
  | bulkCreateRules packId rulesData actor =>
    -- one save for each rule that was created before one was refused
    obtain ⟨hInv', hrun⟩ := L.bulkCreateRules_performs rulesData hInv heach
    exact ⟨hInv', _, hrun, Or.inl rfl⟩
  | publish packId actor =>
    exact L.outcome_performs hInv fun r app' h => ⟨_, heach, L.publish_performs hInv h⟩
  | activate packId actor reason lock =>
    refine L.outcome_performs hInv fun r app' h => ?_
    obtain ⟨ref, hget, htransition, hperforms⟩ := L.activate_performs h
    exact ⟨_, heach ref hget htransition, hperforms⟩
  | rollback name currentVersion actor reason lock =>
    refine L.outcome_performs hInv fun r app' h => ?_
    obtain ⟨ref, parentVersion, hget, hparent, hperforms⟩ := L.rollback_performs h
    exact ⟨_, heach ref parentVersion hget hparent, hperforms⟩
  | softDelete packId actor reason lock =>
    exact L.outcome_performs hInv fun r app' h => ⟨_, heach, L.softDelete_performs hInv h⟩
  | seed ruleSetName =>
    rw [Call.exec]
    cases hseed : SeedActivePolicyOnStartupUseCase.execute repo ruleSetName app with
    | error e => exact hstay
    | ok result =>
      obtain ⟨seedResult, app'⟩ := result
      rcases L.seed_performs hseed with rfl | ⟨hactive, ref, t, hsave, hactivate⟩
      · exact hstay
      · -- the save of the fixture, if it was not there, then its activation
        obtain ⟨hfixture, htarget⟩ := heach hactive
        obtain ⟨hInvt, hsaved⟩ := L.seedSave_performs hInv hsave
        refine ⟨(hactivate.step hInvt).1, t, ?_,
          Or.inr ⟨_, ⟨hInvt, htarget ref t hsave⟩, hactivate⟩⟩
        rcases hsaved with ⟨rfl, -⟩ | ⟨hget, hperforms, -, -⟩
        · exact .refl
        · exact .single ⟨_, ⟨⟨hInv, hfixture hget⟩, trivial⟩, hperforms⟩
  | promoteToShadow candidateId activeId matrix incidents =>
    rw [Call.exec]
    cases hcandidate : repo.getById candidateId app.repository with
    | none => exact hstay
    | some candidate =>
      cases hactive : repo.getById activeId app.repository with
      | none => exact hstay
      | some active =>
        simp only
        unfold PromoteToShadowUseCase.execute
        simp only
        split
        · exact hstay
        · rename_i hvalid
          have hreads := L.getById hInv hcandidate
          -- with Postgres the mark is set on a copy, and nothing is written
          by_cases hsame : (repo.assign candidate { repo.pack app.repository candidate with
              status := .shadow } app.repository).2 = app.repository
          · simp only [hsame]
            exact hstay
          · have hperforms : L.Performs app.repository (.promoteToShadow candidateId) _ :=
              .promoteToShadow hreads (by simpa using hvalid) rfl hsame
            exact ⟨(hperforms.step hInv).1, .single ⟨hInv, heach⟩ hperforms⟩

/-- A list of calls whose writes all meet a condition performs such writes. -/
theorem runCalls_performs {P : σ → Write → Prop}
    (hmeta : ∀ s u lock fields, P s (.updateMetadata u lock fields) → V.inPlace →
      fields.all PackAttr.isMetadata = true)
    {calls : List Call} {app : App σ} (hInv : L.Inv app.repository)
    (heach : CallsEach repo P calls app) :
    L.Inv (runCalls repo calls app).repository ∧
      RunWhere L.Performs (fun s w => L.Inv s ∧ P s w) app.repository
        (runCalls repo calls app).repository := by
  induction calls generalizing app with
  | nil => exact ⟨hInv, .refl⟩
  | cons call rest ih =>
    obtain ⟨hcall, hrest⟩ := heach
    obtain ⟨hInv', hstep⟩ := L.exec_performs hmeta hInv hcall
    obtain ⟨hfinal, hrun⟩ := ih hInv' hrest
    exact ⟨hfinal, hstep.run.trans hrun⟩

/-- A list of calls whose writes all meet a condition is a run of such writes. -/
theorem runCalls_run {P : σ → Write → Prop}
    (hmeta : ∀ s u lock fields, P s (.updateMetadata u lock fields) → V.inPlace →
      fields.all PackAttr.isMetadata = true)
    {calls : List Call} {app : App σ} (hInv : L.Inv app.repository)
    (heach : CallsEach repo P calls app) :
    L.Inv (runCalls repo calls app).repository ∧
      RunWhere (WriteStep repo V) (fun s w => L.Inv s ∧ P s w) app.repository
        (runCalls repo calls app).repository := by
  obtain ⟨hInv', hrun⟩ := L.runCalls_performs hmeta hInv heach
  exact ⟨hInv', hrun.mono_step fun s w t hw h => (h.step hw.1).2⟩

end Lawful

end PulseGuard
