import PulseGuard.Spec.RuleEntries
import PulseGuard.Spec.StoreCoherent

/-!
# Rules by their identifiers

A rule is looked up by its identifier alone, by a scan over all packs. In memory only a creation
of a rule gives it one: the rules of a created or imported pack have none. So every stored rule is
found, updated and deleted by an identifier of its own as long as packs come in without rules
(`rules_addressable`); `inline_rule_without_id` is a pack that does not.
-/

namespace PulseGuard

open Run

namespace InMemoryRulePackRepository

variable {s t : InMemoryStore}

/-- The rules of an object. -/
def rulesOf (s : InMemoryStore) (ref : PackRef) : List Rule := (s.objects ref).rules

/-- Every rule of every stored pack has an identifier, and no other stored rule has it. -/
structure RulesIdentified (s : InMemoryStore) : Prop where
  isSome : ∀ ref ∈ refs s, ∀ rule ∈ rulesOf s ref, rule.id.isSome = true
  nodup : ∀ ref ∈ refs s, ((rulesOf s ref).map Rule.id).Nodup
  apart : ∀ ref ∈ refs s, ∀ ref' ∈ refs s, ∀ rule ∈ rulesOf s ref, ∀ rule' ∈ rulesOf s ref',
    rule.id = rule'.id → ref = ref'

/-- One rule of one pack is another after a call, and nothing else is changed. -/
def ChangesOnly (s t : InMemoryStore) (ref : PackRef) (rule rule' : Rule) : Prop :=
  refs t = refs s ∧ (∀ other, other ≠ ref → t.objects other = s.objects other) ∧
    ∃ before after, rulesOf s ref = before ++ rule :: after ∧
      t.objects ref = { s.objects ref with rules := before ++ rule' :: after }

/-- What get, update and delete do by the identifier of a rule. -/
structure ActsOn (app : App InMemoryStore) (ruleId : Uuid) (ref : PackRef) (rule : Rule) : Prop where
  get : GetRuleUseCase.execute inMemoryRulePackRepository ruleId app.repository = .ok rule
  update : ∀ data actor updated, (app.repository.objects ref).status = .draft →
    ruleFromJson ((ruleToJson rule).override data) = .ok updated →
    ∃ app', UpdateRuleUseCase.execute inMemoryRulePackRepository ruleId data actor app =
        .ok ({ updated with id := rule.id }, app') ∧
      ChangesOnly app.repository app'.repository ref rule { updated with id := rule.id }
  delete : ∀ actor reason, (app.repository.objects ref).status = .draft →
    ∃ app', DeleteRuleUseCase.execute inMemoryRulePackRepository ruleId actor reason app =
        .ok ({ rule with enabled := false }, app') ∧
      ChangesOnly app.repository app'.repository ref rule { rule with enabled := false }
  frozen : ∀ data actor reason, (app.repository.objects ref).status ≠ .draft →
    (∃ e, UpdateRuleUseCase.execute inMemoryRulePackRepository ruleId data actor app = .error e) ∧
    ∃ e, DeleteRuleUseCase.execute inMemoryRulePackRepository ruleId actor reason app = .error e

/-- Rules with identifiers of their own, drawn before, that no stored rule has. -/
structure FreshRules (s : InMemoryStore) (rules : List Rule) : Prop where
  drawn : ∀ rule ∈ rules, ∃ id, rule.id = some id ∧ id < s.nextUuid
  nodup : (rules.map Rule.id).Nodup
  apart : ∀ ref ∈ refs s, ∀ rule ∈ rules, ∀ rule' ∈ rulesOf s ref, rule.id ≠ rule'.id

end InMemoryRulePackRepository

open InMemoryRulePackRepository

/-- A call that lets no rule in without an identifier of its own: a pack is created with such
    rules or none and imported with none, and no fixture is seeded. An update of metadata leaves
    the name of its pack. -/
def Call.BringsIds : Call → App InMemoryStore → Prop
  | createRulePack _ _ _ rules _, app => FreshRules app.repository rules
  | importRulePack document _, app => ∀ name rules, document.name = some name →
    (document.rules.getD []).mapM ruleFromJson = .ok rules →
    versionTaken inMemoryRulePackRepository name document.version app.repository = none → rules = []
  | updateMetadata packId _ lock fields, app =>
    KeepsNames app.repository (.updateMetadata packId lock fields)
  | seed ruleSetName, app => getActive ruleSetName none app.repository = none →
    (get ruleSetName (fixturePack ruleSetName).version app.repository).isSome = true
  | _, _ => True

namespace InMemoryRulePackRepository

variable {s t : InMemoryStore}

/-! ## The invariant -/

/-- The invariant: packs are stored under their names and versions, and the identifiers of their
    rules were drawn and are different. -/
structure Identified (s : InMemoryStore) : Prop where
  keyed : Keyed s
  drawn : ∀ ref ∈ refs s, ∀ rule ∈ rulesOf s ref, ∃ id, rule.id = some id ∧ id < s.nextUuid
  nodup : ∀ ref ∈ refs s, ((rulesOf s ref).map Rule.id).Nodup
  apart : ∀ ref ∈ refs s, ∀ ref' ∈ refs s, ∀ rule ∈ rulesOf s ref, ∀ rule' ∈ rulesOf s ref',
    rule.id = rule'.id → ref = ref'

theorem Identified.rulesIdentified (h : Identified s) : RulesIdentified s := by
  refine ⟨fun ref href rule hrule => ?_, h.nodup, h.apart⟩
  obtain ⟨id, hid, -⟩ := h.drawn ref href rule hrule
  exact Option.isSome_of_eq_some hid

/-- The rules that a save writes: with identifiers of their own, drawn before, that at most rules
    of the pack itself have. -/
structure WritesIds (s : InMemoryStore) (p : RulePack) (rules : List Rule) : Prop where
  drawn : ∀ rule ∈ rules, ∃ id, rule.id = some id ∧ id < s.nextUuid
  nodup : (rules.map Rule.id).Nodup
  apart : ∀ ref ∈ refs s, ∀ rule ∈ rules, ∀ rule' ∈ rulesOf s ref, rule.id = rule'.id →
    (s.objects ref).id = p.id

/-- The condition on a write. -/
def KeepsIds (s : InMemoryStore) : Write → Prop
  | .saveNew p => WritesIds s p p.rules
  | .saveEdited p rules => WritesIds s p rules
  | .updateMetadata u lock fields => KeepsNames s (.updateMetadata u lock fields)
  | _ => True

theorem KeepsIds.keepsNames {w : Write} (h : KeepsIds s w) : KeepsNames s w := by
  cases w with
  | updateMetadata => exact h
  | _ => trivial

/-- A save puts rules into one object, and stores no other that was not stored. -/
theorem Identified.change (h : Identified s) (hkeyed : Keyed t) (hsupply : s.nextUuid ≤ t.nextUuid)
    {ref : PackRef} {rules : List Rule} (hrefs : ∀ r ∈ refs t, r = ref ∨ r ∈ refs s)
    (hrules : rulesOf t ref = rules) (hother : ∀ r, r ≠ ref → rulesOf t r = rulesOf s r)
    (hdrawn : ∀ rule ∈ rules, ∃ id, rule.id = some id ∧ id < s.nextUuid)
    (hnodup : (rules.map Rule.id).Nodup)
    (hapart : ∀ r ∈ refs s, r ≠ ref → ∀ rule ∈ rules, ∀ rule' ∈ rulesOf s r, rule.id ≠ rule'.id) :
    Identified t := by
  have hold : ∀ r ∈ refs t, r ≠ ref → r ∈ refs s := by
    intro r hr hne
    rcases hrefs r hr with heq | hmem
    · exact absurd heq hne
    · exact hmem
  refine ⟨hkeyed, fun r hr rule hrule => ?_, fun r hr => ?_, fun r hr r' hr' rule hrule rule' hrule' hid => ?_⟩
  · have hbefore : ∃ id, rule.id = some id ∧ id < s.nextUuid := by
      by_cases hne : r = ref
      · rw [hne, hrules] at hrule
        exact hdrawn rule hrule
      · rw [hother r hne] at hrule
        exact h.drawn r (hold r hr hne) rule hrule
    obtain ⟨id, hid, hlt⟩ := hbefore
    exact ⟨id, hid, lt_of_lt_of_le hlt hsupply⟩
  · by_cases hne : r = ref
    · rw [hne, hrules]
      exact hnodup
    · rw [hother r hne]
      exact h.nodup r (hold r hr hne)
  · by_cases hne : r = ref
    · by_cases hne' : r' = ref
      · rw [hne, hne']
      · rw [hne, hrules] at hrule
        rw [hother r' hne'] at hrule'
        exact absurd hid (hapart r' (hold r' hr' hne') hne' rule hrule rule' hrule')
    · rw [hother r hne] at hrule
      by_cases hne' : r' = ref
      · rw [hne', hrules] at hrule'
        exact absurd hid.symm (hapart r (hold r hr hne) hne rule' hrule' rule hrule)
      · rw [hother r' hne'] at hrule'
        exact h.apart r (hold r hr hne) r' (hold r' hr' hne') rule hrule rule' hrule' hid

/-- Other writes leave the rules. -/
theorem Identified.same (h : Identified s) (hkeyed : Keyed t) (hsupply : s.nextUuid ≤ t.nextUuid)
    (hstore : t.store = s.store) (hrules : ∀ r, rulesOf t r = rulesOf s r) : Identified t := by
  have hrefs : refs t = refs s := by
    unfold refs
    rw [hstore]
  constructor
  · exact hkeyed
  · intro r hr rule hrule
    rw [hrefs] at hr
    rw [hrules] at hrule
    obtain ⟨id, hid, hlt⟩ := h.drawn r hr rule hrule
    exact ⟨id, hid, lt_of_lt_of_le hlt hsupply⟩
  · intro r hr
    rw [hrefs] at hr
    rw [hrules]
    exact h.nodup r hr
  · intro r hr r' hr' rule hrule rule' hrule'
    rw [hrefs] at hr hr'
    rw [hrules] at hrule hrule'
    exact h.apart r hr r' hr' rule hrule rule' hrule'

/-- The packs that are stored after one was put under a key. -/
theorem mem_refs_of_set {key : String × Int} {ref r : PackRef} (hstore : t.store = s.store.set key ref)
    (hr : r ∈ refs t) : r = ref ∨ r ∈ refs s := by
  unfold refs at hr
  rw [hstore] at hr
  rcases (Dict.mem_values_set s.store key ref r).mp hr with heq | ⟨key', -, hget⟩
  · exact Or.inl heq
  · exact Or.inr ((Dict.mem_values_iff s.store).mpr ⟨key', hget⟩)

theorem Identified.wrote (h : Identified s) (hInv : Inv s) {w : Write} (hwrote : Wrote s t w)
    (hsupply : s.nextUuid ≤ t.nextUuid) (hid : ∀ p, w = .saveNew p → p.id = none)
    (hw : KeepsIds s w) : Identified t := by
  have hkeyed : Keyed t := keyed_of_wrote hInv h.keyed hwrote hw.keepsNames
  cases hwrote with
  | @saveNew p hfree hstore hobjects =>
    obtain ⟨hdrawn, hnodup, hapart⟩ := hw
    refine h.change hkeyed hsupply (fun r hr => mem_refs_of_set hstore hr) ?_ ?_ hdrawn hnodup ?_
    · unfold rulesOf
      rw [hobjects, Function.update_self]
    · intro r hne
      unfold rulesOf
      rw [hobjects, Function.update_of_ne hne]
    · intro r hr _ rule hrule rule' hrule' heq
      -- a stored pack has an identifier, a new one has none
      obtain ⟨u, hu, -⟩ := hInv.identified r hr
      have hsame := hapart r hr rule hrule rule' hrule' heq
      rw [hid p rfl, hu] at hsame
      cases hsame
  | @saveEdited ref rules hmem hstore hobjects =>
    obtain ⟨hdrawn, hnodup, hapart⟩ := hw
    refine h.change hkeyed hsupply (fun r hr => mem_refs_of_set hstore hr) ?_ ?_ hdrawn hnodup ?_
    · unfold rulesOf
      rw [hobjects, Function.update_self]
    · intro r hne
      unfold rulesOf
      rw [hobjects, Function.update_of_ne hne]
    · intro r hr hne rule hrule rule' hrule' heq
      exact hne (hInv.distinct r ref hr hmem (hapart r hr rule hrule rule' hrule' heq))
  | @updateMetadata u lock fields ref hget hmeta hstore hobjects =>
    refine h.same hkeyed hsupply hstore fun r => ?_
    unfold rulesOf
    by_cases hr : r = ref
    · rw [hobjects, hr, Function.update_self]
      exact (foldl_set_metadata fields hmeta (s.objects ref)).2.1
    · rw [hobjects, Function.update_of_ne hr]
  | status hsave hstore hobjects =>
    refine h.same hkeyed hsupply hstore fun r => ?_
    unfold rulesOf
    rw [hobjects r]

/-- A new pack has no identifier yet. -/
theorem id_of_performs {p : RulePack} (h : lawful.Performs s (.saveNew p) t) : p.id = none := by
  cases h with
  | saveNew hid hfree hsave => exact hid

/-- What a creation writes to the pack `ref`: its rules, and one with the next identifier. -/
theorem Identified.writesIds_append (h : Identified s) {ref : PackRef} (hmem : ref ∈ refs s)
    {rule : Rule} (hid : rule.id = some s.nextUuid) :
    WritesIds (uuid4 s).2 (s.objects ref) (rulesOf s ref ++ [rule]) := by
  have hnew : ∀ r ∈ refs s, ∀ rule' ∈ rulesOf s r, rule'.id ≠ rule.id := by
    intro r hr rule' hrule' heq
    obtain ⟨id, hid', hlt⟩ := h.drawn r hr rule' hrule'
    rw [heq, hid] at hid'
    cases hid'
    exact lt_irrefl _ hlt
  constructor
  · intro r hr
    rcases List.mem_append.mp hr with hr | hr
    · obtain ⟨id, hid', hlt⟩ := h.drawn ref hmem r hr
      exact ⟨id, hid', Nat.lt_succ_of_lt hlt⟩
    · rw [List.mem_singleton.mp hr]
      exact ⟨s.nextUuid, hid, Nat.lt_succ_self _⟩
  · rw [List.map_append, List.nodup_append]
    refine ⟨h.nodup ref hmem, List.nodup_singleton _, fun id hid id' hid' => ?_⟩
    obtain ⟨r, hr, rfl⟩ := List.mem_map.mp hid
    rw [List.map_singleton, List.mem_singleton] at hid'
    rw [hid']
    exact hnew ref hmem r hr
  · intro r hr rule₁ hrule₁ rule₂ hrule₂ heq
    rcases List.mem_append.mp hrule₁ with hold | hlast
    · rw [h.apart ref hmem r hr rule₁ hold rule₂ hrule₂ heq]
      rfl
    · rw [List.mem_singleton.mp hlast] at heq
      exact absurd heq.symm (hnew r hr rule₂ hrule₂)

/-- What an edit writes that keeps the identifiers of its pack. -/
theorem Identified.writesIds_edit (h : Identified s) {ref : PackRef} (hmem : ref ∈ refs s)
    {rules : List Rule} (hids : rules.map Rule.id = (rulesOf s ref).map Rule.id) :
    WritesIds s (s.objects ref) rules := by
  have hold : ∀ rule ∈ rules, ∃ r ∈ rulesOf s ref, r.id = rule.id := by
    intro rule hrule
    have hid : rule.id ∈ (rulesOf s ref).map Rule.id := hids ▸ List.mem_map_of_mem hrule
    exact List.mem_map.mp hid
  constructor
  · intro rule hrule
    obtain ⟨r, hr, heq⟩ := hold rule hrule
    rw [← heq]
    exact h.drawn ref hmem r hr
  · rw [hids]
    exact h.nodup ref hmem
  · intro r hr rule hrule rule' hrule' heq
    obtain ⟨own, hown, hsame⟩ := hold rule hrule
    rw [h.apart ref hmem r hr own hown rule' hrule' (hsame.trans heq)]

theorem keeps_identified : lawful.Keeps Identified KeepsIds where
  metadata := fun _ _ _ _ hw _ => hw.1
  write := by
    intro s w t hInv h hw hperforms
    refine h.wrote hInv (wrote_of_performs hperforms) (hperforms.step hInv).2.1 ?_ hw
    rintro p rfl
    exact id_of_performs hperforms
  draw := fun s h => h.same (t := (uuid4 s).2) h.keyed (Nat.le_succ _) rfl fun _ => rfl
  create := fun _ ref _ _ _ h hreads _ _ => h.writesIds_append hreads.1 rfl

theorem keepsIds_of_brings {call : Call} {app : App InMemoryStore} (hInv : Inv app.repository)
    (h : Identified app.repository) (hcall : call.BringsIds app) (hcreates : ¬call.CreatesRules) :
    call.Each inMemoryRulePackRepository KeepsIds app := by
  have hfresh : ∀ {p : RulePack}, FreshRules app.repository p.rules →
      KeepsIds app.repository (.saveNew p) := fun hrules =>
    ⟨hrules.drawn, hrules.nodup, fun ref href rule hrule rule' hrule' heq =>
      absurd heq (hrules.apart ref href rule hrule rule' hrule')⟩
  have hread : ∀ {ruleId ref rule},
      findRule inMemoryRulePackRepository ruleId app.repository = some (ref, rule) →
      ref ∈ refs app.repository := by
    intro ruleId ref rule hfind
    obtain ⟨u, hmem, -⟩ := lawful.reads_of_findRule hInv hfind
    exact hmem
  cases call with
  | createRulePack name region tenantId rules actor => exact hfresh hcall
  | importRulePack document actor =>
    intro name rules hname hrules htaken
    apply hfresh
    rw [show rules = [] from hcall name rules hname hrules htaken]
    exact ⟨fun _ hrule => (nomatch hrule), List.nodup_nil, fun _ _ _ hrule => (nomatch hrule)⟩
  | updateMetadata packId actor lock fields => exact hcall
  | updateRule ruleId data actor =>
    intro ref rule updated hfind hdraft hrule
    obtain ⟨-, hid⟩ := rule_of_findRule hfind
    have hids := @map_id_replaceRule ruleId { updated with id := rule.id } hid
      (rulesOf app.repository ref)
    exact h.writesIds_edit (hread hfind) hids
  | deleteRule ruleId actor reason =>
    intro ref rule hfind hdraft
    exact h.writesIds_edit (hread hfind) (map_disableRule (fun _ _ => rfl) ruleId _)
  | createRule => exact absurd trivial hcreates
  | bulkCreateRules => exact absurd trivial hcreates
  | seed ruleSetName =>
    intro hactive
    refine ⟨fun hget => ?_, fun ref t hsave => trivial⟩
    have hsome := hcall hactive
    rw [show get ruleSetName (fixturePack ruleSetName).version app.repository = none from hget]
      at hsome
    cases hsome
  | activate => exact fun _ _ _ => trivial
  | rollback => exact fun _ _ _ _ => trivial
  | _ => trivial

/-! ## Lookups and edits by identifier -/

/-- The rules around the one that an edit finds. -/
theorem edits_around {rules before after : List Rule} {rule : Rule} {ruleId : Uuid}
    (hrules : rules = before ++ rule :: after) (hid : rule.id = some ruleId)
    (hnodup : (rules.map Rule.id).Nodup) :
    (∀ updated, replaceRule ruleId updated rules = before ++ updated :: after) ∧
      disableRule ruleId rules = before ++ { rule with enabled := false } :: after := by
  subst hrules
  rw [List.map_append, List.map_cons, List.nodup_append, List.nodup_cons] at hnodup
  obtain ⟨-, ⟨hafter, -⟩, happart⟩ := hnodup
  have hne : ∀ r ∈ before, r.id ≠ some ruleId := by
    intro r hr
    rw [← hid]
    exact happart _ (List.mem_map_of_mem hr) _ List.mem_cons_self
  have hne' : ∀ r ∈ after, r.id ≠ some ruleId := by
    intro r hr heq
    rw [← hid] at heq
    exact hafter (heq ▸ List.mem_map_of_mem hr)
  constructor
  · exact replaceRule_around hid hne hne'
  · clear happart hafter hne'
    induction before with
    | nil =>
      unfold disableRule
      rw [List.nil_append, List.replaceF_cons, hid, beq_self_eq_true, if_pos rfl]
      rfl
    | cons r rest ih =>
      rw [List.forall_mem_cons] at hne
      have hskip : (r.id == some ruleId) = false := beq_false_of_ne hne.1
      unfold disableRule at ih ⊢
      rw [List.cons_append, List.replaceF_cons, hskip, if_neg Bool.false_ne_true]
      simp only [ih hne.2, List.cons_append]

/-- A rule of a stored pack is the one that the scan finds, when the scan gets to its pack. -/
theorem Identified.findRule (hInv : Inv s) (h : Identified s) (hlength : (refs s).length ≤ 10000) {ref : PackRef}
    (hmem : ref ∈ refs s) {rule : Rule} (hrule : rule ∈ rulesOf s ref) {ruleId : Uuid}
    (hid : rule.id = some ruleId) :
    findRule inMemoryRulePackRepository ruleId s = some (ref, rule) := by
  have hlisted : ref ∈ inMemoryRulePackRepository.listAll none none true 10000 0 s := by
    show ref ∈ (((refs s).insertionSort fun a b =>
      (s.objects a).nameVersion ≤ (s.objects b).nameVersion).drop 0).take 10000
    rw [List.drop_zero, List.take_of_length_le (by rw [List.length_insertionSort]; exact hlength),
      List.mem_insertionSort]
    exact hmem
  have hsome : (PulseGuard.findRule inMemoryRulePackRepository ruleId s).isSome = true := by
    unfold PulseGuard.findRule
    rw [List.findSome?_isSome_iff]
    refine ⟨ref, hlisted, ?_⟩
    rw [Option.isSome_map, List.find?_isSome]
    exact ⟨rule, hrule, beq_iff_eq.mpr hid⟩
  obtain ⟨⟨ref', rule'⟩, hfind⟩ := Option.isSome_iff_exists.mp hsome
  obtain ⟨hrule', hid'⟩ := rule_of_findRule hfind
  have hmem' : ref' ∈ refs s := by
    obtain ⟨u, hmem', -⟩ := lawful.reads_of_findRule hInv hfind
    exact hmem'
  obtain rfl : ref' = ref := h.apart ref' hmem' ref hmem rule' hrule' rule hrule (hid'.trans hid.symm)
  have hsame : rule' = rule :=
    List.inj_on_of_nodup_map (h.nodup ref' hmem) hrule' hrule (hid'.trans hid.symm)
  rw [hfind, hsame]

/-- The save of an edited pack that is stored under its name and version. -/
theorem save_in_place (hInv : Inv s) (hkeyed : Keyed s) {ref : PackRef} (hmem : ref ∈ refs s)
    (rules : List Rule) :
    save ref (assign ref { s.objects ref with rules } s).2 =
      .ok (ref, (assign ref { s.objects ref with rules } s).2) := by
  obtain ⟨u, hu, -⟩ := hInv.identified ref hmem
  have hid : ((assign ref { s.objects ref with rules } s).2.objects ref).id = some u := by
    simp [assign, hu]
  have hkey : s.store.get? (keyOf (s.objects ref)) = some ref := hkeyed.get_of_mem hmem
  have hset : s.store.set (keyOf (s.objects ref)) ref = s.store := Dict.set_of_get? s.store hkey
  unfold save
  rw [assignId_of_some hid]
  simp only [assign, Function.update_self]
  exact congrArg (fun store => Except.ok (ref, { (assign ref { s.objects ref with rules } s).2 with
    store := store })) hset

theorem changesOnly_assign {ref : PackRef} {before after : List Rule} {rule rule' : Rule}
    (hrules : rulesOf s ref = before ++ rule :: after) :
    ChangesOnly s (assign ref { s.objects ref with rules := before ++ rule' :: after } s).2 ref rule
      rule' := by
  refine ⟨rfl, fun other hne => Function.update_of_ne hne .., before, after, hrules, ?_⟩
  exact Function.update_self ..

section

variable {app : App InMemoryStore} {ruleId : Uuid} {ref : PackRef} {rule : Rule}

/-- An update of a rule of a Draft puts the pack back with the rule replaced. -/
theorem updateRule_in_place {data : RuleData} {updated : Rule} (hInv : Inv app.repository)
    (hkeyed : Keyed app.repository) (hmem : ref ∈ refs app.repository)
    (hfind : PulseGuard.findRule inMemoryRulePackRepository ruleId app.repository = some (ref, rule))
    (hdraft : (app.repository.objects ref).status = .draft)
    (hupdated : ruleFromJson ((ruleToJson rule).override data) = .ok updated) (actor : String) :
    ∃ app', UpdateRuleUseCase.execute inMemoryRulePackRepository ruleId data actor app =
        .ok ({ updated with id := rule.id }, app') ∧
      app'.repository = (assign ref { app.repository.objects ref with
        rules := replaceRule ruleId { updated with id := rule.id } (rulesOf app.repository ref) }
        app.repository).2 := by
  have hstatus : ¬((inMemoryRulePackRepository.pack app.repository ref).status != .draft) = true := by
    rw [show (inMemoryRulePackRepository.pack app.repository ref).status = .draft from hdraft]
    decide
  unfold UpdateRuleUseCase.execute
  rw [hfind]
  simp only [if_neg hstatus]
  exact ⟨_, Except.bind_ok_iff.mpr ⟨updated, hupdated,
    Except.bind_ok_iff.mpr ⟨_, save_in_place hInv hkeyed hmem _, rfl⟩⟩, rfl⟩

/-- A deletion of a rule of a Draft puts the pack back with the rule disabled. -/
theorem deleteRule_in_place (hInv : Inv app.repository) (hkeyed : Keyed app.repository)
    (hmem : ref ∈ refs app.repository)
    (hfind : PulseGuard.findRule inMemoryRulePackRepository ruleId app.repository = some (ref, rule))
    (hdraft : (app.repository.objects ref).status = .draft) (actor : String)
    (reason : Option String) :
    ∃ app', DeleteRuleUseCase.execute inMemoryRulePackRepository ruleId actor reason app =
        .ok ({ rule with enabled := false }, app') ∧
      app'.repository = (assign ref { app.repository.objects ref with
        rules := disableRule ruleId (rulesOf app.repository ref) } app.repository).2 := by
  have hstatus : ¬((inMemoryRulePackRepository.pack app.repository ref).status != .draft) = true := by
    rw [show (inMemoryRulePackRepository.pack app.repository ref).status = .draft from hdraft]
    decide
  unfold DeleteRuleUseCase.execute
  rw [hfind]
  simp only [if_neg hstatus]
  exact ⟨_, Except.bind_ok_iff.mpr ⟨_, save_in_place hInv hkeyed hmem _, rfl⟩, rfl⟩

/-- The rules of a pack that is not a Draft are not edited. -/
theorem edits_refused
    (hfind : PulseGuard.findRule inMemoryRulePackRepository ruleId app.repository = some (ref, rule))
    (hdraft : (app.repository.objects ref).status ≠ .draft) (data : RuleData) (actor : String)
    (reason : Option String) :
    (∃ e, UpdateRuleUseCase.execute inMemoryRulePackRepository ruleId data actor app = .error e) ∧
    ∃ e, DeleteRuleUseCase.execute inMemoryRulePackRepository ruleId actor reason app = .error e := by
  have hstatus : ((inMemoryRulePackRepository.pack app.repository ref).status != .draft) = true :=
    bne_iff_ne.mpr hdraft
  unfold UpdateRuleUseCase.execute DeleteRuleUseCase.execute
  rw [hfind]
  simp only [if_pos hstatus]
  exact ⟨⟨_, rfl⟩, ⟨_, rfl⟩⟩

theorem Identified.actsOn (hInv : Inv app.repository) (h : Identified app.repository)
    (hlength : (refs app.repository).length ≤ 10000) (hmem : ref ∈ refs app.repository)
    (hrule : rule ∈ rulesOf app.repository ref) (hid : rule.id = some ruleId) :
    ActsOn app ruleId ref rule := by
  have hfind := Identified.findRule hInv h hlength hmem hrule hid
  obtain ⟨before, after, hrules⟩ := List.append_of_mem hrule
  obtain ⟨hreplace, hdisable⟩ := edits_around hrules hid (h.nodup ref hmem)
  constructor
  · unfold GetRuleUseCase.execute
    rw [hfind]
  · intro data actor updated hdraft hupdated
    obtain ⟨app', hexecute, ht⟩ := updateRule_in_place hInv h.keyed hmem hfind hdraft hupdated actor
    rw [hreplace] at ht
    exact ⟨app', hexecute, ht ▸ changesOnly_assign hrules⟩
  · intro actor reason hdraft
    obtain ⟨app', hexecute, ht⟩ := deleteRule_in_place hInv h.keyed hmem hfind hdraft actor reason
    rw [hdisable] at ht
    exact ⟨app', hexecute, ht ▸ changesOnly_assign hrules⟩
  · intro data actor reason hdraft
    exact edits_refused hfind hdraft data actor reason

end

end InMemoryRulePackRepository

/-- Rules by their identifiers: after calls that let no rule in without one of its own, every
    stored rule has an identifier that no other has; and with no more packs than the scan looks
    at, get, update and delete by it act on that rule of that pack and on nothing else. -/
theorem rules_addressable (calls : List Call)
    (hcalls : CallsMeet inMemoryRulePackRepository Call.BringsIds calls inMemoryStart) :
    let app := runCalls inMemoryRulePackRepository calls inMemoryStart
    RulesIdentified app.repository ∧
      ((refs app.repository).length ≤ 10000 → ∀ ref ∈ refs app.repository,
        ∀ rule ∈ rulesOf app.repository ref, ∀ ruleId, rule.id = some ruleId →
          ActsOn app ruleId ref rule) := by
  intro app
  have hInv : lawful.Inv inMemoryStart.repository := inv_init
  have hstart : Identified inMemoryStart.repository :=
    ⟨keyed_init, fun _ href => (nomatch href), fun _ href => (nomatch href), fun _ href => (nomatch href)⟩
  obtain ⟨hInv', h⟩ := keeps_identified.runCalls
    (fun call app hInv h hcall => keepsIds_of_brings hInv h hcall) hInv hstart hcalls
  exact ⟨h.rulesIdentified, fun hlength ref hmem rule hrule ruleId hid =>
    h.actsOn hInv' hlength hmem hrule hid⟩

/-- A pack that is created empty, and two rules that are then created in it: the second is found
    by the third identifier that was drawn. -/
theorem rules_addressable_created :
    ∃ rule, GetRuleUseCase.execute inMemoryRulePackRepository 2
      (runCalls inMemoryRulePackRepository
        [.createRulePack "noc" none none [] "editor",
          .bulkCreateRules 0 [ruleToJson (plainRule "R1"), ruleToJson (plainRule "R2")] "editor"]
        inMemoryStart).repository = .ok rule ∧ rule.ruleCode = "R2" := by
  have hcalls : CallsMeet inMemoryRulePackRepository Call.BringsIds
      [.createRulePack "noc" none none [] "editor",
        .bulkCreateRules 0 [ruleToJson (plainRule "R1"), ruleToJson (plainRule "R2")] "editor"]
      inMemoryStart := by
    refine ⟨⟨?_, List.nodup_nil, ?_⟩, trivial, trivial⟩
    · simp
    · simp
  obtain ⟨-, hacts⟩ := rules_addressable _ hcalls
  have hmem : (0 : PackRef) ∈ refs (runCalls inMemoryRulePackRepository
      [.createRulePack "noc" none none [] "editor",
        .bulkCreateRules 0 [ruleToJson (plainRule "R1"), ruleToJson (plainRule "R2")] "editor"]
      inMemoryStart).repository := List.mem_singleton.mpr rfl
  have hget := (hacts (by decide) 0 hmem { plainRule "R2" with id := some 2 }
    (List.mem_cons_of_mem _ (List.mem_singleton.mpr rfl)) 2 rfl).get
  exact ⟨_, hget, rfl⟩

/-- A pack that is created with a rule: the rule has no identifier. -/
theorem inline_rule_without_id :
    ¬∀ calls, RulesIdentified
      (runCalls inMemoryRulePackRepository calls inMemoryStart).repository := by
  intro h
  have hmem : (0 : PackRef) ∈ refs (runCalls inMemoryRulePackRepository [createPlain "noc" none]
      inMemoryStart).repository := List.mem_singleton.mpr rfl
  have hsome := (h [createPlain "noc" none]).isSome 0 hmem (plainRule "R1") List.mem_cons_self
  cases hsome

end PulseGuard
