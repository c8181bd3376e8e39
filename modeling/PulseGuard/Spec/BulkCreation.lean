import PulseGuard.Spec.RuleIds

/-!
# Bulk creation

A bulk creation is a loop of creations, each of which saves its rule before the next payload is
looked at. So it is all or nothing exactly when nothing is refused or the first payload is
(`bulk_all_or_nothing_iff`); `second_code_taken` is a bulk creation that raises and leaves a rule.
-/

namespace PulseGuard

open InMemoryRulePackRepository

/-- The audit entry of a created rule. -/
def createdEntry (actor : String) (rule : Rule) : AuditLogEntry where
  entityType := "rule"
  entityId := idText rule.id
  action := "created"
  actor := actor
  before := none
  after := some (.rule rule.id (ruleToJson rule))
  reason := none

/-- The rules of the pack that `get_by_id` returns. -/
def rulesById (packId : Uuid) (s : InMemoryStore) : Option (List Rule) :=
  (getById packId s).map (rulesOf s)

/-- A rule is that of a payload, under an identifier that was drawn for it. -/
def Creates (data : RuleData) (rule : Rule) : Prop :=
  ∃ parsed id, ruleFromJson data = .ok parsed ∧ rule = { parsed with id := some id }

/-- All the rules of a bulk creation are added to the pack in order, with one audit entry each,
    or it raises and leaves the rules of the pack and the audit trail. -/
def AllOrNothing (packId : Uuid) (actor : String) (rulesData : List RuleData)
    (app : App InMemoryStore) : Prop :=
  let result :=
    BulkCreateRulesUseCase.execute inMemoryRulePackRepository packId actor rulesData app
  (∃ created, result.1 = .ok created ∧ List.Forall₂ Creates rulesData created ∧
    rulesById packId result.2.repository =
      (rulesById packId app.repository).map (· ++ created) ∧
    result.2.audit = app.audit ++ created.map (createdEntry actor)) ∨
  ∃ e, result.1 = .error e ∧
    rulesById packId result.2.repository = rulesById packId app.repository ∧
    result.2.audit = app.audit

/-- The payloads are rules with different codes that none of some rules has. -/
def NewCodes (rules : List Rule) (rulesData : List RuleData) : Prop :=
  ∃ new, rulesData.mapM ruleFromJson = .ok new ∧ (new.map Rule.ruleCode).Nodup ∧
    ∀ rule ∈ new, ∀ r ∈ rules, r.ruleCode ≠ rule.ruleCode

/-- The pack is a Draft that takes every payload of a list. -/
def TakesAll (packId : Uuid) (s : InMemoryStore) (rulesData : List RuleData) : Prop :=
  ∃ ref, getById packId s = some ref ∧ (s.objects ref).status = .draft ∧
    NewCodes (rulesOf s ref) rulesData

/-- Some rules were added to the pack `ref`, with their audit entries. -/
structure Added (packId : Uuid) (actor : String) (app app' : App InMemoryStore) (ref : PackRef)
    (created : List Rule) : Prop where
  get : getById packId app'.repository = some ref
  pack : app'.repository.objects ref =
    { app.repository.objects ref with rules := rulesOf app.repository ref ++ created }
  audit : app'.audit = app.audit ++ created.map (createdEntry actor)

section

variable {packId : Uuid} {actor : String} {app app' app'' : App InMemoryStore} {ref : PackRef}
  {data : RuleData} {rules created more : List Rule}

theorem Added.rulesOf_eq (h : Added packId actor app app' ref created) :
    rulesOf app'.repository ref = rulesOf app.repository ref ++ created :=
  congrArg RulePack.rules h.pack

theorem Added.rulesById_eq (h : Added packId actor app app' ref created) :
    rulesById packId app'.repository = some (rulesOf app.repository ref ++ created) := by
  rw [rulesById, h.get, Option.map_some, h.rulesOf_eq]

theorem Added.status (h : Added packId actor app app' ref created) :
    (app'.repository.objects ref).status = (app.repository.objects ref).status := by
  rw [h.pack]

theorem Added.trans (h : Added packId actor app app' ref created)
    (h' : Added packId actor app' app'' ref more) :
    Added packId actor app app'' ref (created ++ more) where
  get := h'.get
  pack := by rw [h'.pack, h.rulesOf_eq, h.pack, List.append_assoc]
  audit := by rw [h'.audit, h.audit, List.map_append, List.append_assoc]

/-! ## One creation -/

variable (actor)

/-- A creation that is not refused adds its rule. -/
theorem createRule_adds {rule : Rule} (hget : getById packId app.repository = some ref)
    (hdraft : (app.repository.objects ref).status = .draft) (hrule : ruleFromJson data = .ok rule)
    (hcode : ∀ r ∈ rulesOf app.repository ref, r.ruleCode ≠ rule.ruleCode) :
    ∃ created app', CreateRuleUseCase.execute inMemoryRulePackRepository packId data actor app =
        .ok (created, app') ∧ Creates data created ∧ created.ruleCode = rule.ruleCode ∧
      Added packId actor app app' ref [created] := by
  obtain ⟨hmem, hid⟩ := getById_mem hget
  let created : Rule := { rule with id := some app.repository.nextUuid }
  let q : RulePack := { app.repository.objects ref with
    rules := rulesOf app.repository ref ++ [created] }
  let s : InMemoryStore := {
    objects := Function.update app.repository.objects ref q
    nextRef := app.repository.nextRef
    store := app.repository.store.set (q.name, q.version) ref
    nextUuid := app.repository.nextUuid + 1 }
  -- each step of the use case returns, in its order
  have hstatus : ¬((inMemoryRulePackRepository.pack app.repository ref).status != .draft) = true := by
    rw [show (inMemoryRulePackRepository.pack app.repository ref).status = .draft from hdraft]
    decide
  have hnew : identified inMemoryRulePackRepository rule app.repository =
      (created, (uuid4 app.repository).2) := by
    unfold identified
    rw [id_of_ruleFromJson hrule]
    rfl
  have hsave : save ref (assign ref q (uuid4 app.repository).2).2 = .ok (ref, s) := by
    have hqid : ((assign ref q (uuid4 app.repository).2).2.objects ref).id = some packId := by
      simp [assign, q, hid]
    unfold save
    rw [assignId_of_some hqid]
    simp [assign, uuid4, s]
  refine ⟨created, writeAudit app s (createdEntry actor created), ?_,
    ⟨rule, _, hrule, rfl⟩, rfl, ?_, Function.update_self .., rfl⟩
  · unfold CreateRuleUseCase.execute
    rw [show inMemoryRulePackRepository.getById packId app.repository = some ref from hget]
    simp only [if_neg hstatus]
    refine Except.bind_ok_iff.mpr ⟨rule, hrule, Except.bind_ok_iff.mpr
      ⟨(), checkCode_ok_iff.mpr hcode, ?_⟩⟩
    rw [hnew]
    exact Except.bind_ok_iff.mpr ⟨(ref, s), hsave, rfl⟩
  · -- the objects have the identifiers they had
    have hids : ∀ r, (s.objects r).id = (app.repository.objects r).id := by
      intro r
      by_cases hr : r = ref
      · subst hr
        simp [s, q]
      · simp [s, Function.update_of_ne hr]
    show getById packId s = some ref
    unfold getById
    simp only [hids]
    exact Dict.find?_values_set hget _

/-- A creation that is refused raises. -/
theorem createRule_refused (h : ¬TakesAll packId app.repository [data]) :
    ∃ e, CreateRuleUseCase.execute inMemoryRulePackRepository packId data actor app = .error e := by
  cases hexecute : CreateRuleUseCase.execute inMemoryRulePackRepository packId data actor app with
  | error e => exact ⟨e, rfl⟩
  | ok result =>
    obtain ⟨created, app'⟩ := result
    obtain ⟨ref, rule, saved, t, hget, hdraft, hrule, hcode, -⟩ :=
      CreateRuleUseCase.execute_ok hexecute
    have hnew : NewCodes (rulesOf app.repository ref) [data] := by
      refine ⟨[rule], Except.mapM_ok_iff.mpr (.cons hrule .nil), List.nodup_singleton _, ?_⟩
      intro r hr
      rw [List.mem_singleton.mp hr]
      exact hcode
    exact absurd ⟨ref, hget, hdraft, hnew⟩ h

/-! ## The loop -/

/-- What is asked of the payloads, the first one apart. -/
theorem newCodes_cons {rulesData : List RuleData} :
    NewCodes rules (data :: rulesData) ↔ ∃ rule, ruleFromJson data = .ok rule ∧
      (∀ r ∈ rules, r.ruleCode ≠ rule.ruleCode) ∧
      ∀ x : Rule, x.ruleCode = rule.ruleCode → NewCodes (rules ++ [x]) rulesData := by
  constructor
  · intro h
    obtain ⟨new, hnew, hnodup, hfree⟩ := h
    cases Except.mapM_ok_iff.mp hnew with
    | @cons _ rule _ rest hrule hrest =>
      rw [List.map_cons, List.nodup_cons] at hnodup
      rw [List.forall_mem_cons] at hfree
      refine ⟨rule, hrule, hfree.1, fun x hx =>
        ⟨rest, Except.mapM_ok_iff.mpr hrest, hnodup.2, fun r hr r' hr' => ?_⟩⟩
      rcases List.mem_append.mp hr' with hold | hlast
      · exact hfree.2 r hr r' hold
      · rw [List.mem_singleton.mp hlast, hx]
        intro heq
        exact hnodup.1 (heq ▸ List.mem_map_of_mem hr)
  · intro h
    obtain ⟨rule, hrule, hcode, hrest⟩ := h
    obtain ⟨rest, hmap, hnodup, hfree⟩ := hrest rule rfl
    refine ⟨rule :: rest, Except.mapM_ok_iff.mpr (.cons hrule (Except.mapM_ok_iff.mp hmap)), ?_, ?_⟩
    · rw [List.map_cons, List.nodup_cons]
      refine ⟨fun hmem => ?_, hnodup⟩
      obtain ⟨r, hr, heq⟩ := List.mem_map.mp hmem
      exact hfree r hr rule (List.mem_append_right _ (List.mem_singleton.mpr rfl)) heq.symm
    · rw [List.forall_mem_cons]
      exact ⟨hcode, fun r hr r' hr' => hfree r hr r' (List.mem_append_left _ hr')⟩

/-- What a bulk creation leaves in a Draft: the rules of the payloads before the first one that is
    refused, which are none only when that is the first of all. -/
theorem bulk_run (rulesData : List RuleData) (hget : getById packId app.repository = some ref)
    (hdraft : (app.repository.objects ref).status = .draft) :
    let result :=
      BulkCreateRulesUseCase.execute inMemoryRulePackRepository packId actor rulesData app
    ∃ created, Added packId actor app result.2 ref created ∧
      (created = [] → ∀ data ∈ rulesData.head?, ¬TakesAll packId app.repository [data]) ∧
      (result.1 = .ok created ∧ List.Forall₂ Creates rulesData created ∧
          NewCodes (rulesOf app.repository ref) rulesData ∨
        (∃ e, result.1 = .error e) ∧ ¬NewCodes (rulesOf app.repository ref) rulesData) := by
  induction rulesData generalizing app with
  | nil =>
    refine ⟨[], ⟨hget, ?_, ?_⟩, ?_, Or.inl ⟨rfl, .nil, [], rfl, List.nodup_nil, ?_⟩⟩
    · rw [List.append_nil]
      rfl
    · exact (List.append_nil _).symm
    · intro _ data hdata
      cases hdata
    · intro rule hrule
      cases hrule
  | cons data rest ih =>
    by_cases htakes : TakesAll packId app.repository [data]
    · obtain ⟨ref', hget', -, hnew⟩ := htakes
      obtain rfl : ref' = ref := Option.some.inj (hget'.symm.trans hget)
      obtain ⟨rule, hrule, hcode, -⟩ := newCodes_cons.mp hnew
      obtain ⟨first, app', hexecute, hcreates, hfirst, hadded⟩ :=
        createRule_adds actor hget hdraft hrule hcode
      obtain ⟨created, hmore, -, hresult⟩ := ih hadded.get (hadded.status.trans hdraft)
      rw [hadded.rulesOf_eq] at hresult
      -- the rest of the payloads meets the pack with the first rule in it
      have hcodes : NewCodes (rulesOf app.repository ref') (data :: rest) ↔
          NewCodes (rulesOf app.repository ref' ++ [first]) rest := by
        rw [newCodes_cons]
        constructor
        · intro h
          obtain ⟨rule', hrule', -, hrest⟩ := h
          rw [hrule] at hrule'
          cases hrule'
          exact hrest first hfirst
        · intro h
          refine ⟨rule, hrule, hcode, fun x hx => ?_⟩
          obtain ⟨new, hmap, hnodup, hfree⟩ := h
          refine ⟨new, hmap, hnodup, fun r hr r' hr' => ?_⟩
          rcases List.mem_append.mp hr' with hold | hlast
          · exact hfree r hr r' (List.mem_append_left _ hold)
          · rw [List.mem_singleton.mp hlast, hx, ← hfirst]
            exact hfree r hr first (List.mem_append_right _ (List.mem_singleton.mpr rfl))
      simp only [BulkCreateRulesUseCase.execute, hexecute, hcodes]
      refine ⟨first :: created, hadded.trans hmore, fun h => absurd h (List.cons_ne_nil _ _), ?_⟩
      rcases hresult with ⟨hok, hall, hfree⟩ | ⟨⟨e, herror⟩, hrefused⟩
      · exact Or.inl ⟨by rw [hok]; rfl, .cons hcreates hall, hfree⟩
      · exact Or.inr ⟨⟨e, by rw [herror]; rfl⟩, hrefused⟩
    · obtain ⟨e, hexecute⟩ := createRule_refused actor htakes
      simp only [BulkCreateRulesUseCase.execute, hexecute]
      refine ⟨[], ⟨hget, ?_, ?_⟩, ?_, Or.inr ⟨⟨e, rfl⟩, fun hnew => htakes ⟨ref, hget, hdraft, ?_⟩⟩⟩
      · rw [List.append_nil]
        rfl
      · exact (List.append_nil _).symm
      · intro _ data' hdata
        rw [List.head?_cons, Option.mem_some_iff] at hdata
        rw [← hdata]
        exact htakes
      · obtain ⟨rule, hrule, hcode, -⟩ := newCodes_cons.mp hnew
        refine newCodes_cons.mpr ⟨rule, hrule, hcode, fun x _ => ⟨[], rfl, List.nodup_nil, ?_⟩⟩
        intro r hr
        cases hr

end

/-- A bulk creation is all or nothing exactly when its first payload is refused, if there is one,
    or the pack is a Draft that takes them all. -/
theorem bulk_all_or_nothing_iff (packId : Uuid) (actor : String) (rulesData : List RuleData)
    (app : App InMemoryStore) :
    AllOrNothing packId actor rulesData app ↔
      (∀ data ∈ rulesData.head?, ¬TakesAll packId app.repository [data]) ∨
        TakesAll packId app.repository rulesData := by
  cases rulesData with
  | nil =>
    refine iff_of_true (Or.inl ⟨[], rfl, .nil, ?_, (List.append_nil _).symm⟩) (Or.inl ?_)
    · simp [BulkCreateRulesUseCase.execute]
    · intro data hdata
      cases hdata
  | cons data rest =>
    simp only [List.head?_cons, Option.mem_some_iff, forall_eq']
    by_cases hfirst : TakesAll packId app.repository [data]
    · obtain ⟨ref, hget, hdraft, hnew⟩ := hfirst
      have hbefore : rulesById packId app.repository = some (rulesOf app.repository ref) := by
        rw [rulesById, hget, Option.map_some]
      obtain ⟨created, hadded, hsome, hresult⟩ :=
        bulk_run actor (data :: rest) hget hdraft
      constructor
      · intro h
        right
        rcases hresult with ⟨-, -, hall⟩ | ⟨⟨e, herror⟩, -⟩
        · exact ⟨ref, hget, hdraft, hall⟩
        · -- it raised, and the first rule is in the pack
          exfalso
          rcases h with ⟨_, hok, -⟩ | ⟨_, -, hsame, -⟩
          · rw [herror] at hok
            cases hok
          · rw [hbefore] at hsame
            have hnone : created = [] := by
              simpa using Option.some.inj (hadded.rulesById_eq.symm.trans hsame)
            exact hsome hnone data rfl ⟨ref, hget, hdraft, hnew⟩
      · intro h
        rcases h with hrefused | ⟨ref', hget', -, hall⟩
        · exact absurd ⟨ref, hget, hdraft, hnew⟩ hrefused
        · rw [hget] at hget'
          cases hget'
          rcases hresult with ⟨hok, hcreates, -⟩ | ⟨-, hrefused⟩
          · refine Or.inl ⟨created, hok, hcreates, ?_, hadded.audit⟩
            rw [hbefore]
            exact hadded.rulesById_eq
          · exact absurd hall hrefused
    · -- refused at once: nothing is written
      obtain ⟨e, hexecute⟩ := createRule_refused actor hfirst
      refine iff_of_true (Or.inr ⟨e, ?_⟩) (Or.inl hfirst)
      simp [BulkCreateRulesUseCase.execute, hexecute]

/-- A Draft without rules, and two payloads with one code: the creation raises, and the first rule
    and its audit entry stay. -/
theorem second_code_taken :
    ¬∀ packId actor rulesData app, AllOrNothing packId actor rulesData app := by
  intro h
  have hstart := h 0 "editor" [ruleToJson (plainRule "R1"), ruleToJson (plainRule "R1")]
    (runCalls inMemoryRulePackRepository [.createRulePack "noc" none none [] "editor"]
      inMemoryStart)
  rcases hstart with ⟨_, hok, -⟩ | ⟨_, -, -, haudit⟩
  · cases hok
  · exact absurd (congrArg List.length haudit) (by decide)

end PulseGuard
