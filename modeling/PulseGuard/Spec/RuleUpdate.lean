import PulseGuard.Spec.PairedCalls
import PulseGuard.Spec.RuleIds

/-!
# Updates of a rule

An update encodes the rule, lays the payload over it and decodes the result, which sets the fields
that were sent and keeps the others (`ruleFromJson_override`). The pack is then saved under its name
and version, which may be another pack's key since a Draft was renamed: the update of a rule changes
that rule only, exactly when its pack takes no other pack's only key (`update_changes_only_iff`).
-/

namespace PulseGuard

open InMemoryRulePackRepository

/-- A rule with the fields of a partial update, an empty exceptions clause meaning none. -/
def Rule.edited (rule : Rule) (data : RuleData) : Rule where
  ruleCode := data.ruleCode.getD rule.ruleCode
  name := data.name.getD rule.name
  description := data.description.getD rule.description
  family := data.family.getD rule.family
  familyOrder := data.familyOrder.getD rule.familyOrder
  priorityWeight := data.priorityWeight.getD rule.priorityWeight
  severityBand := data.severityBand.getD rule.severityBand
  contributionScore := data.contributionScore.getD rule.contributionScore
  conditions := (data.conditions.map RuleCondition.mk).getD rule.conditions
  exceptions := match data.exceptions with
    | some tree => if tree.truthy then some ⟨tree⟩ else none
    | none => rule.exceptions
  conflictGroup := data.conflictGroup.getD rule.conflictGroup
  conflictsWith := data.conflictsWith.getD rule.conflictsWith
  isSuppressor := data.isSuppressor.getD rule.isSuppressor
  nonSuppressible := data.nonSuppressible.getD rule.nonSuppressible
  cooldownMinutes := data.cooldownMinutes.getD rule.cooldownMinutes
  actions := data.actions.getD rule.actions
  mitigations := data.mitigations.getD rule.mitigations
  sequencing := data.sequencing.getD rule.sequencing
  slaTarget := data.slaTarget.getD rule.slaTarget
  ruleStatus := data.ruleStatus.getD rule.ruleStatus
  enabled := data.enabled.getD rule.enabled
  id := rule.id

/-- The exceptions clause of a rule is not an empty one. -/
def Rule.KeepsClause (rule : Rule) : Prop := rule.exceptions.filter (·.tree.truthy) = rule.exceptions

/-- What a call does to a store when it changes one rule of the object `ref`: the other rules, their
    order, and all else of the pack stay, as do the other stored packs. -/
structure ChangesRule (s t : InMemoryStore) (ref : PackRef) (before : List Rule) (updated : Rule)
    (after : List Rule) : Prop where
  pack : t.objects ref = { s.objects ref with rules := before ++ updated :: after }
  stored : ∀ other, other ∈ refs t ↔ other ∈ refs s
  others : ∀ other ∈ refs s, other ≠ ref → t.objects other = s.objects other

/-- An update by the identifier of a rule between two parts of a pack: it edits that rule and
    changes nothing else, or it raises and changes nothing. -/
def UpdatesOnly (ref : PackRef) (before : List Rule) (rule : Rule) (after : List Rule)
    (ruleId : Uuid) (data : RuleData) (actor : String) (app : App InMemoryStore) : Prop :=
  let result := (Call.updateRule ruleId data actor).exec inMemoryRulePackRepository app
  (result.1 = .ok () → ChangesRule app.repository result.2.repository ref before
    (rule.edited data) after) ∧ ∀ e, result.1 = .error e → result.2 = app

/-- The name and version of an object are the only key of another one. -/
def TakesOnlyKey (s : InMemoryStore) (ref : PackRef) : Prop :=
  ∃ other, other ≠ ref ∧ s.store.get? (keyOf (s.objects ref)) = some other ∧
    ∀ key, s.store.get? key = some other → key = keyOf (s.objects ref)

/-! ## The payload of an update -/

section

variable {α : Type} {x : Option α} {v d : α}

theorem getD_override : (x <|> some v).getD d = x.getD v := by
  cases x with
  | none => rfl
  | some _ => rfl

theorem required_override {key : String} :
    RuleData.required key (x <|> some v) = .ok (x.getD v) := by
  cases x with
  | none => rfl
  | some _ => rfl

end

/-- What an update makes of a rule: the fields that were sent are set and the others kept, but for
    an empty exceptions clause and the identifier. -/
theorem ruleFromJson_override (rule : Rule) (data : RuleData) :
    ruleFromJson ((ruleToJson rule).override data) = .ok { rule.edited data with
      exceptions := if data.exceptions.isSome then (rule.edited data).exceptions
        else rule.exceptions.filter (·.tree.truthy)
      id := none } := by
  have hexceptions :
      (let tree := (data.exceptions <|>
          some ((rule.exceptions.map RuleCondition.tree).getD .none)).getD .none
        if tree.truthy then some (RuleCondition.mk tree) else none) =
      if data.exceptions.isSome then (rule.edited data).exceptions
        else rule.exceptions.filter (·.tree.truthy) := by
    unfold Rule.edited
    cases data.exceptions with
    | some tree => rfl
    | none =>
      cases rule.exceptions with
      | none => rfl
      | some clause =>
        by_cases htruthy : clause.tree.truthy = true
        · simp [Option.filter, htruthy]
        · simp [Option.filter, htruthy]
  have hconditions : RuleCondition.mk (data.conditions.getD rule.conditions.tree) =
      (data.conditions.map RuleCondition.mk).getD rule.conditions := by
    cases data.conditions with
    | none => rfl
    | some _ => rfl
  rw [← hexceptions]
  simp only [ruleFromJson, RuleData.override, ruleToJson, required_override, getD_override]
  simp only [Rule.edited, ← hconditions]
  rfl

/-! ## Rules with identifiers of their own -/

/-- A call as the routes make it: a pack is created with rules that have no identifiers yet, and an
    update of metadata names metadata fields. -/
def Call.AsRouted : Call → App InMemoryStore → Prop
  | createRulePack _ _ _ rules _, _ => ∀ rule ∈ rules, rule.id = none
  | updateMetadata _ _ _ fields, _ => fields.all PackAttr.isMetadata = true
  | _, _ => True

namespace InMemoryRulePackRepository

variable {s t : InMemoryStore}

/-- The rule at a place of an object has an identifier. -/
def IdAt (s : InMemoryStore) (ref : PackRef) (i : Nat) (id : Uuid) : Prop :=
  ((rulesOf s ref).map Rule.id)[i]? = some (some id)

/-- The identifiers of rules were drawn, each for one rule of one object. -/
structure OwnIds (s : InMemoryStore) : Prop where
  drawn : ∀ ref i id, IdAt s ref i id → id < s.nextUuid
  unique : ∀ ref i ref' j id, IdAt s ref i id → IdAt s ref' j id → ref = ref' ∧ i = j

/-- The condition on a write: its rules have the identifiers of the pack, or one more that was
    drawn for a new rule. -/
def WritesOwnIds (s : InMemoryStore) : Write → Prop
  | .saveNew p => ∀ rule ∈ p.rules, rule.id = none
  | .saveEdited p rules => rules.map Rule.id = p.rules.map Rule.id ∨
    ∃ rule id, rules = p.rules ++ [rule] ∧ rule.id = some id ∧ id < s.nextUuid ∧
      ∀ ref i, ¬IdAt s ref i id
  | .updateMetadata _ _ fields => fields.all PackAttr.isMetadata = true
  | _ => True

/-- Identifiers that stay where they are stay their rules' own. -/
theorem OwnIds.of_idAt (h : OwnIds s) (hsupply : s.nextUuid ≤ t.nextUuid)
    (hids : ∀ ref i id, IdAt t ref i id → IdAt s ref i id) : OwnIds t where
  drawn ref i id hid := lt_of_lt_of_le (h.drawn ref i id (hids ref i id hid)) hsupply
  unique ref i ref' j id hid hid' :=
    h.unique ref i ref' j id (hids ref i id hid) (hids ref' j id hid')

theorem OwnIds.of_rules (h : OwnIds s) (hsupply : s.nextUuid ≤ t.nextUuid)
    (hids : ∀ ref, (rulesOf t ref).map Rule.id = (rulesOf s ref).map Rule.id) : OwnIds t := by
  refine h.of_idAt hsupply fun ref i id hid => ?_
  rw [IdAt, hids ref] at hid
  exact hid

/-- An identifier in a list with one more rule is one of the list, or that of the rule, at the
    end. -/
theorem idAt_append {rules : List Rule} {rule : Rule} {new id : Uuid} {i : Nat}
    (hnew : rule.id = some new) (h : ((rules ++ [rule]).map Rule.id)[i]? = some (some id)) :
    (rules.map Rule.id)[i]? = some (some id) ∨ i = rules.length ∧ id = new := by
  rw [List.map_append, List.getElem?_append] at h
  split at h
  · exact Or.inl h
  · rename_i hlt
    rw [List.map_singleton, List.getElem?_singleton, hnew, List.length_map] at h
    rw [List.length_map] at hlt
    split at h
    · rename_i hzero
      exact Or.inr ⟨by omega, (Option.some.inj (Option.some.inj h)).symm⟩
    · cases h

theorem OwnIds.wrote (h : OwnIds s) {w : Write} (hwrote : Wrote s t w)
    (hsupply : s.nextUuid ≤ t.nextUuid) (hw : WritesOwnIds s w) : OwnIds t := by
  cases hwrote with
  | @saveNew p hfree hstore hobjects =>
    refine h.of_idAt hsupply fun ref i id hid => ?_
    unfold IdAt rulesOf at hid
    -- what a new object holds was drawn from the supply; the older objects keep their rules
    by_cases hr : ref = s.nextRef
    · rw [hobjects, hr, Function.update_self] at hid
      obtain ⟨rule, hrule, heq⟩ := List.mem_map.mp (List.mem_of_getElem? hid)
      rw [hw rule hrule] at heq
      cases heq
    · rw [hobjects, Function.update_of_ne hr] at hid
      exact hid
  | @saveEdited ref rules hmem hstore hobjects =>
    have hother : ∀ r, r ≠ ref → rulesOf t r = rulesOf s r := by
      intro r hr
      unfold rulesOf
      rw [hobjects, Function.update_of_ne hr]
    have hedited : rulesOf t ref = rules := by
      unfold rulesOf
      rw [hobjects, Function.update_self]
    rcases hw with hsame | ⟨rule, new, happend, hnew, hlt, hfree⟩
    · -- an edit that keeps the pack's identifiers
      refine h.of_rules hsupply fun r => ?_
      by_cases hr : r = ref
      · rw [hr, hedited, hsame]
        rfl
      · rw [hother r hr]
    · -- the new identifier is at the end of the edited pack only
      have hplace : ∀ r i id, IdAt t r i id →
          IdAt s r i id ∨ r = ref ∧ i = (rulesOf s ref).length ∧ id = new := by
        intro r i id hid
        unfold IdAt at hid
        by_cases hr : r = ref
        · rw [hr, hedited, happend] at hid
          rw [hr]
          exact (idAt_append hnew hid).imp_right fun hend => ⟨rfl, hend⟩
        · rw [hother r hr] at hid
          exact Or.inl hid
      refine ⟨fun r i id hid => ?_, fun r i r' j id hid hid' => ?_⟩
      · rcases hplace r i id hid with hold | ⟨-, -, rfl⟩
        · exact lt_of_lt_of_le (h.drawn r i id hold) hsupply
        · exact lt_of_lt_of_le hlt hsupply
      · -- two places with one identifier: both old, both new, or one of each
        rcases hplace r i id hid with hold | ⟨hr, hi, rfl⟩
        · rcases hplace r' j id hid' with hold' | ⟨-, -, rfl⟩
          · exact h.unique r i r' j id hold hold'
          · exact absurd hold (hfree r i)
        · rcases hplace r' j id hid' with hold' | ⟨hr', hj, -⟩
          · exact absurd hold' (hfree r' j)
          · exact ⟨hr.trans hr'.symm, hi.trans hj.symm⟩
  | @updateMetadata u lock fields ref hget hmeta hstore hobjects =>
    refine h.of_rules hsupply fun r => ?_
    unfold rulesOf
    by_cases hr : r = ref
    · rw [hobjects, hr, Function.update_self]
      -- the metadata assignments leave the rules alone
      exact congrArg (List.map Rule.id) (foldl_set_metadata fields hmeta (s.objects ref)).2.1
    · rw [hobjects, Function.update_of_ne hr]
  | status hsave hstore hobjects =>
    refine h.of_rules hsupply fun r => ?_
    unfold rulesOf
    rw [hobjects r]

theorem keeps_ownIds : lawful.Keeps OwnIds WritesOwnIds where
  metadata := fun _ _ _ _ hw _ => hw
  write := fun _ _ _ hInv h hw hperforms =>
    h.wrote (wrote_of_performs hperforms) (hperforms.step hInv).2.1 hw
  draw := fun s h => h.of_idAt (t := (uuid4 s).2) (Nat.le_succ _) fun _ _ _ hid => hid
  create := fun s _ _ _ _ h _ _ _ => Or.inr ⟨_, s.nextUuid, rfl, rfl, Nat.lt_succ_self _,
    fun r i hid => absurd (h.drawn r i _ hid) (Nat.lt_irrefl _)⟩

theorem writesOwnIds_of_routed {call : Call} {app : App InMemoryStore} (hcall : call.AsRouted app)
    (hcreates : ¬call.CreatesRules) : call.Each inMemoryRulePackRepository WritesOwnIds app := by
  cases call with
  | createRulePack name region tenantId rules actor => exact hcall
  | importRulePack document actor =>
    intro name rules hname hrules htaken latest rule hrule
    obtain ⟨data, -, hdata⟩ := Except.exists_of_mem_mapM hrules hrule
    exact id_of_ruleFromJson hdata
  | updateMetadata packId actor lock fields => exact hcall
  | updateRule ruleId data actor =>
    intro ref rule updated hfind hdraft hrule
    obtain ⟨-, hid⟩ := rule_of_findRule hfind
    exact Or.inl (@map_id_replaceRule ruleId { updated with id := rule.id } hid _)
  | deleteRule ruleId actor reason =>
    intro ref rule hfind hdraft
    exact Or.inl (map_disableRule (fun _ _ => rfl) ruleId _)
  | createRule => exact absurd trivial hcreates
  | bulkCreateRules => exact absurd trivial hcreates
  | seed ruleSetName =>
    exact fun hactive => ⟨fun hget => storable_fixture.new, fun ref t hsave => trivial⟩
  | activate => exact fun _ _ _ => trivial
  | rollback => exact fun _ _ _ _ => trivial
  | _ => trivial

/-! ## The update of one rule -/

section

variable {app : App InMemoryStore} {ref : PackRef} {ruleId : Uuid} {rule : Rule}
  {before after : List Rule}

theorem idAt_of_rules (hrules : rulesOf s ref = before ++ rule :: after)
    (hid : rule.id = some ruleId) : IdAt s ref before.length ruleId := by
  unfold IdAt
  rw [hrules, List.map_append, List.getElem?_append_right (by simp)]
  simp [hid]

/-- A rule that the scan finds by the identifier of a rule is that rule. -/
theorem OwnIds.rule_of_findRule (h : OwnIds s) (hrules : rulesOf s ref = before ++ rule :: after)
    (hid : rule.id = some ruleId) {ref' : PackRef} {rule' : Rule}
    (hfind : findRule inMemoryRulePackRepository ruleId s = some (ref', rule')) :
    ref' = ref ∧ rule' = rule := by
  obtain ⟨hmem, hid'⟩ := PulseGuard.rule_of_findRule hfind
  obtain ⟨before', after', hrules'⟩ := List.append_of_mem hmem
  obtain ⟨href, hlength⟩ := h.unique _ _ _ _ _ (idAt_of_rules hrules' hid') (idAt_of_rules hrules hid)
  subst href
  have hsame : before' ++ rule' :: after' = before ++ rule :: after := hrules'.symm.trans hrules
  have hparts := List.append_inj hsame hlength
  exact ⟨rfl, (List.cons.inj hparts.2).1⟩

/-- The scan finds the rules of the packs that it gets to. -/
theorem OwnIds.findRule_iff (h : OwnIds s)
    (hrules : rulesOf s ref = before ++ rule :: after) (hid : rule.id = some ruleId) :
    findRule inMemoryRulePackRepository ruleId s = some (ref, rule) ↔
      ref ∈ listAll none none true 10000 0 s := by
  constructor
  · intro hfind
    unfold findRule at hfind
    obtain ⟨ref', hmem, hfound⟩ := List.exists_of_findSome?_eq_some hfind
    obtain ⟨_, -, hpair⟩ := Option.map_eq_some_iff.mp hfound
    cases hpair
    exact hmem
  · intro hlisted
    have hsome : (findRule inMemoryRulePackRepository ruleId s).isSome = true := by
      unfold findRule
      rw [List.findSome?_isSome_iff]
      refine ⟨ref, hlisted, ?_⟩
      rw [Option.isSome_map, List.find?_isSome]
      refine ⟨rule, ?_, beq_iff_eq.mpr hid⟩
      show rule ∈ rulesOf s ref
      rw [hrules]
      exact List.mem_append_right _ List.mem_cons_self
    obtain ⟨⟨ref', rule'⟩, hfind⟩ := Option.isSome_iff_exists.mp hsome
    obtain ⟨rfl, rfl⟩ := h.rule_of_findRule hrules hid hfind
    exact hfind

/-- Only the rule itself is replaced. -/
theorem OwnIds.replaceRule_eq (h : OwnIds s) (hrules : rulesOf s ref = before ++ rule :: after)
    (hid : rule.id = some ruleId) (updated : Rule) :
    replaceRule ruleId updated (rulesOf s ref) = before ++ updated :: after := by
  have hbefore : ∀ r ∈ before, r.id ≠ some ruleId := by
    intro r hr heq
    obtain ⟨first, rest, rfl⟩ := List.append_of_mem hr
    have hrules' : rulesOf s ref = first ++ r :: (rest ++ rule :: after) := by
      rw [hrules, List.append_assoc, List.cons_append]
    have hplace := (h.unique _ _ _ _ _ (idAt_of_rules hrules' heq) (idAt_of_rules hrules hid)).2
    rw [List.length_append, List.length_cons] at hplace
    omega
  have hafter : ∀ r ∈ after, r.id ≠ some ruleId := by
    intro r hr heq
    obtain ⟨first, rest, rfl⟩ := List.append_of_mem hr
    have hrules' : rulesOf s ref = (before ++ rule :: first) ++ r :: rest := by
      rw [hrules, List.append_assoc, List.cons_append]
    have hplace := (h.unique _ _ _ _ _ (idAt_of_rules hrules' heq) (idAt_of_rules hrules hid)).2
    rw [List.length_append, List.length_cons] at hplace
    omega
  rw [hrules, replaceRule_around hid hbefore hafter]

/-- An update of a rule of a Draft returns: it is refused before it writes, or not at all. -/
theorem updateRule_returns (hfind : findRule inMemoryRulePackRepository ruleId app.repository =
      some (ref, rule)) (hdraft : (app.repository.objects ref).status = .draft) {u : Uuid}
    (hu : (app.repository.objects ref).id = some u) (data : RuleData) (actor : String) :
    ∃ updated app', ruleFromJson ((ruleToJson rule).override data) = .ok updated ∧
      UpdateRuleUseCase.execute inMemoryRulePackRepository ruleId data actor app =
        .ok ({ updated with id := rule.id }, app') ∧
      app'.repository.store =
        app.repository.store.set (keyOf (app.repository.objects ref)) ref ∧
      app'.repository.objects = Function.update app.repository.objects ref
        { app.repository.objects ref with
          rules := replaceRule ruleId { updated with id := rule.id }
            (rulesOf app.repository ref) } := by
  obtain ⟨updated, hupdated⟩ : ∃ updated,
      ruleFromJson ((ruleToJson rule).override data) = .ok updated :=
    ⟨_, ruleFromJson_override rule data⟩
  have hstatus : ¬((inMemoryRulePackRepository.pack app.repository ref).status != .draft) = true := by
    rw [show (inMemoryRulePackRepository.pack app.repository ref).status = .draft from hdraft]
    decide
  let q : RulePack := { app.repository.objects ref with
    rules := replaceRule ruleId { updated with id := rule.id } (rulesOf app.repository ref) }
  obtain ⟨t, hsave⟩ : ∃ t, save ref (assign ref q app.repository).2 = .ok (ref, t) := ⟨_, rfl⟩
  obtain ⟨hstore, hobjects⟩ := saveEdited_ok (q := q) hu hsave
  refine ⟨updated, ?_⟩
  unfold UpdateRuleUseCase.execute
  rw [hfind]
  simp only [if_neg hstatus]
  exact ⟨_, hupdated, Except.bind_ok_iff.mpr ⟨updated, hupdated,
    Except.bind_ok_iff.mpr ⟨(ref, t), hsave, rfl⟩⟩, hstore, hobjects⟩

/-- An update of a rule that the scan does not find raises. -/
theorem updateRule_raises
    (hfind : findRule inMemoryRulePackRepository ruleId app.repository = none) (data : RuleData)
    (actor : String) :
    UpdateRuleUseCase.execute inMemoryRulePackRepository ruleId data actor app =
      .error (noSuchRule ruleId) := by
  unfold UpdateRuleUseCase.execute
  rw [hfind]

/-- The save of an object keeps every stored one, exactly when it takes no other one's only key. -/
theorem refs_of_save_iff (hmem : ref ∈ refs s)
    (hstore : t.store = s.store.set (keyOf (s.objects ref)) ref) :
    (∀ other, other ∈ refs t ↔ other ∈ refs s) ↔ ¬TakesOnlyKey s ref := by
  have hrefs : ∀ other, other ∈ refs t ↔ other = ref ∨
      ∃ key, key ≠ keyOf (s.objects ref) ∧ s.store.get? key = some other := by
    intro other
    unfold refs
    rw [hstore]
    exact Dict.mem_values_set s.store _ ref other
  constructor
  · intro h htakes
    obtain ⟨other, hne, hget, honly⟩ := htakes
    rcases (hrefs other).mp ((h other).mpr (mem_refs_of_get hget)) with heq | ⟨key, hkey, hget'⟩
    · exact hne heq
    · exact hkey (honly key hget')
  · intro h other
    rw [hrefs]
    constructor
    · intro hother
      rcases hother with rfl | ⟨key, -, hget⟩
      · exact hmem
      · exact (Dict.mem_values_iff s.store).mpr ⟨key, hget⟩
    · intro hother
      obtain ⟨key, hget⟩ := (Dict.mem_values_iff s.store).mp hother
      by_contra hnot
      rw [not_or] at hnot
      have honly : ∀ key, s.store.get? key = some other → key = keyOf (s.objects ref) := by
        intro key hget
        by_contra hne
        exact hnot.2 ⟨key, hne, hget⟩
      exact h ⟨other, hnot.1, honly key hget ▸ hget, honly⟩

end

end InMemoryRulePackRepository

/-- What an update makes of a rule is the edited rule, exactly when it sends an exceptions clause or
    the rule has no empty one. -/
theorem updated_eq_edited_iff {rule updated : Rule} {data : RuleData}
    (h : ruleFromJson ((ruleToJson rule).override data) = .ok updated) :
    { updated with id := rule.id } = rule.edited data ↔
      (data.exceptions = none → rule.KeepsClause) := by
  rw [ruleFromJson_override] at h
  cases h
  cases hexceptions : data.exceptions with
  | some tree => simp [Rule.edited]
  | none =>
    have hedited : (rule.edited data).exceptions = rule.exceptions := by
      unfold Rule.edited
      rw [hexceptions]
    simp only [Option.isSome_none, Bool.false_eq_true, if_false, forall_const]
    constructor
    · intro h
      exact (congrArg Rule.exceptions h).trans hedited
    · intro h
      rw [show rule.exceptions.filter (·.tree.truthy) = (rule.edited data).exceptions from
        h.trans hedited.symm]
      rfl

/-- The update of a rule of a Draft, after calls as the routes make them: it edits the rule and
    changes nothing else, or raises and changes nothing, exactly when the scan does not get to the
    pack, or the name and version of the pack are no other pack's only key and the update keeps no
    empty exceptions clause. -/
theorem update_changes_only_iff (calls : List Call)
    (hcalls : CallsMeet inMemoryRulePackRepository Call.AsRouted calls inMemoryStart) :
    let app := runCalls inMemoryRulePackRepository calls inMemoryStart
    ∀ ref before rule after ruleId, ref ∈ refs app.repository →
      (app.repository.objects ref).status = .draft →
      rulesOf app.repository ref = before ++ rule :: after → rule.id = some ruleId →
      ∀ data actor, UpdatesOnly ref before rule after ruleId data actor app ↔
        (ref ∈ listAll none none true 10000 0 app.repository →
          ¬TakesOnlyKey app.repository ref ∧ (data.exceptions = none → rule.KeepsClause)) := by
  intro app ref before rule after ruleId hmem hdraft hrules hid data actor
  have hstart : OwnIds inMemoryStart.repository := by
    refine ⟨fun ref i id hid => ?_, fun ref i ref' j id hid => ?_⟩
    · cases hid
    · cases hid
  have hInvStart : lawful.Inv inMemoryStart.repository := inv_init
  -- only what the run before leaves of the store is used from here on
  obtain ⟨hInv, hown⟩ : Inv app.repository ∧ OwnIds app.repository :=
    keeps_ownIds.runCalls (fun _ _ _ _ hcall => writesOwnIds_of_routed hcall) hInvStart hstart hcalls
  clear_value app
  by_cases hlisted : ref ∈ listAll none none true 10000 0 app.repository
  · obtain ⟨u, hu, -⟩ := hInv.identified ref hmem
    -- the update finds the rule in this pack: its identifier is in no other
    have hfind := (hown.findRule_iff hrules hid).mpr hlisted
    obtain ⟨updated, app', hupdated, hexecute, hstore, hobjects⟩ :=
      updateRule_returns hfind hdraft hu data actor
    rw [hown.replaceRule_eq hrules hid] at hobjects
    have hexec : (Call.updateRule ruleId data actor).exec inMemoryRulePackRepository app =
        (.ok (), app') := by
      simp only [Call.exec, hexecute, outcome]
    rw [UpdatesOnly, hexec, ← refs_of_save_iff hmem hstore, ← updated_eq_edited_iff hupdated]
    constructor
    · intro h _
      obtain ⟨hpack, hstored, -⟩ := h.1 rfl
      refine ⟨hstored, ?_⟩
      simp only [hobjects, Function.update_self] at hpack
      -- the two lists of rules agree at the updated one
      have hlist := congrArg RulePack.rules hpack
      exact (List.cons.inj (List.append_cancel_left hlist)).1
    · intro h
      obtain ⟨hstored, hedited⟩ := h hlisted
      refine ⟨fun _ => ⟨?_, hstored, fun other _ hne => ?_⟩, fun e herror => ?_⟩
      · simp only [hobjects, Function.update_self, hedited]
      · simp only [hobjects, Function.update_of_ne hne]
      · cases herror
  · -- the update raises
    refine iff_of_true ?_ fun h => absurd h hlisted
    have hfind : findRule inMemoryRulePackRepository ruleId app.repository = none := by
      by_contra hsome
      obtain ⟨⟨ref', rule'⟩, hfind⟩ := Option.ne_none_iff_exists'.mp hsome
      obtain ⟨rfl, rfl⟩ := hown.rule_of_findRule hrules hid hfind
      exact hlisted ((hown.findRule_iff hrules hid).mp hfind)
    have hexec : (Call.updateRule ruleId data actor).exec inMemoryRulePackRepository app =
        (.error (noSuchRule ruleId), app) := by
      simp only [Call.exec, updateRule_raises hfind data actor, outcome]
    rw [UpdatesOnly, hexec]
    refine ⟨fun hok => ?_, fun _ _ => rfl⟩
    cases hok

/-- A Draft with one rule, which gets another name and weight. -/
theorem update_changes_only_one :
    UpdatesOnly 0 [] { plainRule "R1" with id := some 1 } [] 1
      { name := some "Renamed", priorityWeight := some 80 } "editor"
      (runCalls inMemoryRulePackRepository
        [.createRulePack "noc" none none [] "editor",
          .createRule 0 (ruleToJson (plainRule "R1")) "editor"] inMemoryStart) := by
  have hcalls : CallsMeet inMemoryRulePackRepository Call.AsRouted
      [.createRulePack "noc" none none [] "editor",
        .createRule 0 (ruleToJson (plainRule "R1")) "editor"] inMemoryStart :=
    ⟨fun _ hrule => (nomatch hrule), trivial, trivial⟩
  refine (update_changes_only_iff _ hcalls 0 [] _ [] 1 (List.mem_singleton.mpr rfl) rfl rfl rfl _
    "editor").mpr fun _ => ⟨fun htakes => ?_, fun _ => rfl⟩
  obtain ⟨other, hne, hget, -⟩ := htakes
  cases hget
  exact hne rfl

/-- A Draft that was renamed to another pack's name: the update of its rule loses that pack. -/
theorem update_loses_pack :
    ¬∀ calls ref before rule after ruleId data actor,
      let app := runCalls inMemoryRulePackRepository calls inMemoryStart
      ref ∈ refs app.repository → (app.repository.objects ref).status = .draft →
      rulesOf app.repository ref = before ++ rule :: after → rule.id = some ruleId →
      UpdatesOnly ref before rule after ruleId data actor app := by
  intro h
  have hupdate := h [.createRulePack "noc" none none [] "editor",
    .createRulePack "edge" none none [] "editor",
    .createRule 1 (ruleToJson (plainRule "R1")) "editor",
    .updateMetadata 1 "editor" none [.name "noc"]] 1 [] { plainRule "R1" with id := some 2 } [] 2
    { name := some "Renamed" } "editor"
    (List.mem_cons_of_mem _ (List.mem_singleton.mpr rfl)) rfl rfl rfl
  have hstored := (hupdate.1 rfl).stored 0
  exact absurd (hstored.mpr List.mem_cons_self) (by decide)

end PulseGuard
