import PulseGuard.Spec.PairedCalls
import PulseGuard.Spec.RuleEntries
import PulseGuard.Spec.StoreCoherent

/-!
# Rule codes within a pack

A creation of a rule refuses a code that the pack has. A creation of a pack, an import and an
update of a rule check nothing: Postgres has a constraint that refuses what they write, in memory
nothing does. So rule codes are unique in every state on Postgres, and in memory as long as what
is sent has codes of its own (`codes_unique`); `code_twice` is a pack with one code twice.
-/

namespace PulseGuard

/-- The rules of a pack have codes of their own. -/
def RulePack.UniqueCodes (p : RulePack) : Prop := (p.rules.map Rule.ruleCode).Nodup

/-- So do those of every stored pack. -/
def Catalogue.UniqueCodes (c : Catalogue) : Prop := ∀ u p, c u = some p → p.UniqueCodes

/-- A call that sends no code twice: not in the rules of a pack that is created or imported, and
    in an update of a Draft not the code of a rule that is not updated. -/
def Call.SendsOwnCodes {σ ρ : Type} (repo : RulePackRepository σ ρ) : Call → App σ → Prop
  | createRulePack _ _ _ rules _, _ => (rules.map Rule.ruleCode).Nodup
  | importRulePack document _, app => ∀ name rules, document.name = some name →
    (document.rules.getD []).mapM ruleFromJson = .ok rules →
    versionTaken repo name document.version app.repository = none → (rules.map Rule.ruleCode).Nodup
  | updateMetadata _ _ _ fields, _ => fields.all PackAttr.isMetadata = true
  | updateRule ruleId data _, app => ∀ ref rule updated,
    findRule repo ruleId app.repository = some (ref, rule) →
    (repo.pack app.repository ref).status = .draft →
    ruleFromJson ((ruleToJson rule).override data) = .ok updated →
    (∀ r ∈ (repo.pack app.repository ref).rules, r.id = some ruleId → r = rule) ∧
    ∀ r ∈ (repo.pack app.repository ref).rules, r.id ≠ some ruleId →
      r.ruleCode ≠ updated.ruleCode
  | _, _ => True

/-! ## Edits of a list of rules -/

section

variable {rules : List Rule} {ruleId : Uuid}

theorem uniqueCodes_append {rule : Rule} (hcodes : (rules.map Rule.ruleCode).Nodup)
    (hcode : ∀ r ∈ rules, r.ruleCode ≠ rule.ruleCode) :
    ((rules ++ [rule]).map Rule.ruleCode).Nodup := by
  rw [List.map_append, List.nodup_append]
  refine ⟨hcodes, List.nodup_singleton _, ?_⟩
  intro code hmem code' hmem'
  obtain ⟨r, hr, rfl⟩ := List.mem_map.mp hmem
  rw [List.map_singleton, List.mem_singleton] at hmem'
  rw [hmem']
  exact hcode r hr

/-- An update keeps codes apart when it replaces one rule, by one with a code that no other
    rule has. -/
theorem uniqueCodes_replaceRule {rule updated : Rule} (hcodes : (rules.map Rule.ruleCode).Nodup)
    (honly : ∀ r ∈ rules, r.id = some ruleId → r = rule)
    (hcode : ∀ r ∈ rules, r.id ≠ some ruleId → r.ruleCode ≠ updated.ruleCode) :
    ((replaceRule ruleId updated rules).map Rule.ruleCode).Nodup := by
  unfold replaceRule
  rw [List.map_map, List.Nodup, List.pairwise_map]
  rw [List.Nodup, List.pairwise_map] at hcodes
  refine hcodes.imp_of_mem ?_
  intro a b ha hb hne
  simp only [Function.comp_apply, beq_iff_eq]
  by_cases hida : a.id = some ruleId
  · by_cases hidb : b.id = some ruleId
    · -- both are the rule that is replaced
      rw [honly a ha hida, honly b hb hidb] at hne
      exact absurd rfl hne
    · rw [if_pos hida, if_neg hidb]
      exact fun heq => hcode b hb hidb heq.symm
  · by_cases hidb : b.id = some ruleId
    · rw [if_neg hida, if_pos hidb]
      exact hcode a ha hida
    · rw [if_neg hida, if_neg hidb]
      exact hne

end

/-! ## In memory -/

namespace InMemoryRulePackRepository

/-- The rules of every object have codes of their own. -/
def UniqueCodes (s : InMemoryStore) : Prop := ∀ ref, (s.objects ref).UniqueCodes

/-- A write of rules with codes of their own. -/
def WritesOwnCodes (_ : InMemoryStore) : Write → Prop
  | .saveNew p => p.UniqueCodes
  | .saveEdited _ rules => (rules.map Rule.ruleCode).Nodup
  | .updateMetadata _ _ fields => fields.all PackAttr.isMetadata = true
  | _ => True

variable {s t : InMemoryStore} {w : Write}

/-- An object is changed to one whose rules have codes of their own. -/
theorem UniqueCodes.update (h : UniqueCodes s) {ref : PackRef} {p : RulePack} (hp : p.UniqueCodes)
    (hobjects : t.objects = Function.update s.objects ref p) : UniqueCodes t := by
  intro ref'
  rw [hobjects]
  by_cases hr : ref' = ref
  · rw [hr, Function.update_self]
    exact hp
  · rw [Function.update_of_ne hr]
    exact h ref'

theorem UniqueCodes.wrote (h : UniqueCodes s) (hwrote : Wrote s t w) (hw : WritesOwnCodes s w) :
    UniqueCodes t := by
  cases hwrote with
  | saveNew hfree hstore hobjects =>
    apply h.update ?_ hobjects
    exact hw
  | saveEdited hmem hstore hobjects =>
    apply h.update ?_ hobjects
    exact hw
  | @updateMetadata u lock fields ref hget hmeta hstore hobjects =>
    apply h.update ?_ hobjects
    obtain ⟨-, hrules, -⟩ := foldl_set_metadata fields hmeta (s.objects ref)
    show ((fields.foldl PackAttr.set (s.objects ref)).rules.map Rule.ruleCode).Nodup
    rw [hrules]
    exact h ref
  | status hsave hstore hobjects =>
    intro ref
    rw [hobjects ref]
    exact h ref

theorem keeps_uniqueCodes : lawful.Keeps UniqueCodes WritesOwnCodes where
  metadata := fun _ _ _ _ hw _ => hw
  write := fun _ _ _ _ h hw hperforms => h.wrote (wrote_of_performs hperforms) hw
  draw := fun _ h => h
  create := fun _ ref _ _ _ h _ _ hcode => uniqueCodes_append (h ref) hcode

/-- What a call sends is what it writes. -/
theorem writesOwnCodes_of_sends {call : Call} {app : App InMemoryStore}
    (h : UniqueCodes app.repository) (hcall : call.SendsOwnCodes inMemoryRulePackRepository app)
    (hcreates : ¬call.CreatesRules) : call.Each inMemoryRulePackRepository WritesOwnCodes app := by
  cases call with
  | createRulePack name region tenantId rules actor => exact hcall
  | importRulePack document actor =>
    intro name rules hname hrules htaken
    exact hcall name rules hname hrules htaken
  | updateMetadata packId actor lock fields => exact hcall
  | updateRule ruleId data actor =>
    intro ref rule updated hfind hdraft hrule
    obtain ⟨honly, hcode⟩ := hcall ref rule updated hfind hdraft hrule
    exact uniqueCodes_replaceRule (h ref) honly hcode
  | deleteRule ruleId actor reason =>
    intro ref rule hfind hdraft
    show ((disableRule ruleId (app.repository.objects ref).rules).map Rule.ruleCode).Nodup
    rw [map_disableRule fun _ _ => rfl]
    exact h ref
  | createRule => exact absurd trivial hcreates
  | bulkCreateRules => exact absurd trivial hcreates
  | seed ruleSetName =>
    intro hactive
    exact ⟨fun hget => storable_fixture.codes, fun ref t hsave => trivial⟩
  | activate => exact fun _ _ _ => trivial
  | rollback => exact fun _ _ _ _ => trivial
  | _ => trivial

end InMemoryRulePackRepository

/-! ## In Postgres -/

/-- The identifiers that rules come with are different, and were drawn before `next`. -/
structure DrawnIds (next : Uuid) (rules : List Rule) : Prop where
  nodup : (rules.filterMap Rule.id).Nodup
  drawn : ∀ id ∈ rules.filterMap Rule.id, id < next

/-- A call that makes up no identifiers: the rules of a new pack come without, or with ones that
    were drawn before. -/
def Call.SendsDrawnIds : Call → App PostgresStore → Prop
  | createRulePack _ _ _ rules _, app => DrawnIds app.repository.nextUuid rules
  | _, _ => True

theorem DrawnIds.of_none (next : Uuid) {rules : List Rule} (h : ∀ rule ∈ rules, rule.id = none) :
    DrawnIds next rules := by
  have hnil : rules.filterMap Rule.id = [] := List.filterMap_eq_nil_iff.mpr h
  constructor
  · rw [hnil]
    exact List.nodup_nil
  · rw [hnil]
    exact fun _ hid => nomatch hid

/-- Only the identifiers matter. -/
theorem DrawnIds.of_map_id {next : Uuid} {rules rules' : List Rule} (h : DrawnIds next rules)
    (hids : rules'.map Rule.id = rules.map Rule.id) : DrawnIds next rules' := by
  have hsame : rules'.filterMap Rule.id = rules.filterMap Rule.id := by
    rw [← Function.id_comp Rule.id, ← List.filterMap_map, ← List.filterMap_map, hids]
  constructor
  · rw [hsame]
    exact h.nodup
  · rw [hsame]
    exact h.drawn

theorem DrawnIds.mono {next next' : Uuid} {rules : List Rule} (h : DrawnIds next rules)
    (hle : next ≤ next') : DrawnIds next' rules :=
  ⟨h.nodup, fun id hid => lt_of_lt_of_le (h.drawn id hid) hle⟩

/-- One more rule gets the next identifier. -/
theorem DrawnIds.append {next : Uuid} {rules : List Rule} (h : DrawnIds next rules) {rule : Rule}
    (hid : rule.id = some next) : DrawnIds (next + 1) (rules ++ [rule]) := by
  have hids : (rules ++ [rule]).filterMap Rule.id = rules.filterMap Rule.id ++ [next] := by
    rw [List.filterMap_append, List.filterMap_cons_some hid, List.filterMap_nil]
  constructor
  · rw [hids, List.nodup_append]
    refine ⟨h.nodup, List.nodup_singleton _, fun id hmem id' hmem' => ?_⟩
    rw [List.mem_singleton.mp hmem']
    exact Nat.ne_of_lt (h.drawn id hmem)
  · intro id hmem
    rw [hids] at hmem
    rcases List.mem_append.mp hmem with hmem | hmem
    · exact Nat.lt_succ_of_lt (h.drawn id hmem)
    · rw [List.mem_singleton.mp hmem]
      exact Nat.lt_succ_self _

namespace PostgresRulePackRepository

variable {order : RowOrder} {s t : PostgresStore}

/-- The rules of a row: with identifiers drawn for them, and with codes of their own. -/
structure OwnRows (next : Uuid) (rules : List Rule) : Prop where
  ids : (rules.map Rule.id).Nodup
  drawn : ∀ rule ∈ rules, ∃ id, rule.id = some id ∧ id < next
  codes : (rules.map Rule.ruleCode).Nodup

/-- Every row is as the constraints of the tables ask. -/
def Enforced (s : PostgresStore) : Prop := ∀ row ∈ s.ruleSets, OwnRows s.nextUuid row.rules

theorem OwnRows.mono {n m : Uuid} {rules : List Rule} (h : OwnRows n rules) (hle : n ≤ m) :
    OwnRows m rules := by
  refine ⟨h.ids, fun rule hrule => ?_, h.codes⟩
  obtain ⟨id, hid, hlt⟩ := h.drawn rule hrule
  exact ⟨id, hid, lt_of_lt_of_le hlt hle⟩

theorem OwnRows.drawnIds {next : Uuid} {rules : List Rule} (h : OwnRows next rules) :
    DrawnIds next rules := by
  constructor
  · rw [← Function.id_comp Rule.id, ← List.filterMap_map]
    refine h.ids.filterMap fun a a' id ha ha' => ?_
    exact (Option.mem_def.mp ha).trans (Option.mem_def.mp ha').symm
  · intro id hid
    obtain ⟨rule, hrule, hsome⟩ := List.mem_filterMap.mp hid
    obtain ⟨id', hid', hlt⟩ := h.drawn rule hrule
    rw [hsome] at hid'
    cases hid'
    exact hlt

/-- The identifiers that a save writes: those the rules have, and new ones. -/
theorem rulesToOrm_drawn {rules : List Rule} {s : PostgresStore} (h : DrawnIds s.nextUuid rules) :
    ((rulesToOrm rules s).1.map Rule.id).Nodup ∧
      ∀ row ∈ (rulesToOrm rules s).1, ∃ id, row.id = some id ∧ id < (rulesToOrm rules s).2.nextUuid ∧
        (id ∈ rules.filterMap Rule.id ∨ s.nextUuid ≤ id) := by
  induction rules generalizing s with
  | nil => exact ⟨List.nodup_nil, fun row hrow => nomatch hrow⟩
  | cons rule rest ih =>
    obtain ⟨hnodup, hdrawn⟩ := h
    cases hid : rule.id with
    | some id =>
      -- a rule with an identifier keeps it
      rw [List.filterMap_cons_some hid] at hnodup hdrawn ⊢
      rw [List.nodup_cons] at hnodup
      rw [List.forall_mem_cons] at hdrawn
      obtain ⟨hids, hrows⟩ := ih ⟨hnodup.2, hdrawn.2⟩
      have hcons : rulesToOrm (rule :: rest) s = (rule :: (rulesToOrm rest s).1, (rulesToOrm rest s).2) := by
        rw [rulesToOrm, hid]
      have hsupply := (rulesToOrm_spec rest s).2.1
      rw [hcons, List.map_cons, List.nodup_cons, List.forall_mem_cons]
      refine ⟨⟨?_, hids⟩, ⟨id, hid, lt_of_lt_of_le hdrawn.1 hsupply, .inl List.mem_cons_self⟩, ?_⟩
      · intro hmem
        obtain ⟨row, hrow, hsame⟩ := List.mem_map.mp hmem
        obtain ⟨id', hid', -, hwhere⟩ := hrows row hrow
        rw [hsame, hid] at hid'
        cases hid'
        rcases hwhere with hold | hnew
        · -- a later row has the identifier: it came with a later rule, or was drawn
          exact hnodup.1 hold
        · exact absurd hdrawn.1 (Nat.not_lt.mpr hnew)
      · intro row hrow
        obtain ⟨id', hid', hlt, hwhere⟩ := hrows row hrow
        exact ⟨id', hid', hlt, hwhere.imp_left (List.mem_cons_of_mem _)⟩
    | none =>
      -- a rule without one takes the next of the supply, which no later row has
      rw [List.filterMap_cons_none hid] at hnodup hdrawn ⊢
      have hlater : ∀ id ∈ rest.filterMap Rule.id, id < (uuid4 s).2.nextUuid :=
        fun id hmem => Nat.lt_succ_of_lt (hdrawn id hmem)
      obtain ⟨hids, hrows⟩ := ih ⟨hnodup, hlater⟩
      have hcons : rulesToOrm (rule :: rest) s = ({ rule with id := some s.nextUuid } ::
          (rulesToOrm rest (uuid4 s).2).1, (rulesToOrm rest (uuid4 s).2).2) := by
        rw [rulesToOrm, hid]
        rfl
      have hsupply : s.nextUuid < (rulesToOrm rest (uuid4 s).2).2.nextUuid :=
        (rulesToOrm_spec rest (uuid4 s).2).2.1
      rw [hcons, List.map_cons, List.nodup_cons, List.forall_mem_cons]
      refine ⟨⟨?_, hids⟩, ⟨s.nextUuid, rfl, hsupply, .inr (le_refl _)⟩, ?_⟩
      · intro hmem
        obtain ⟨row, hrow, hsame⟩ := List.mem_map.mp hmem
        obtain ⟨id', hid', -, hwhere⟩ := hrows row hrow
        rw [hsame] at hid'
        cases hid'
        rcases hwhere with hold | hnew
        · exact absurd (hdrawn _ hold) (lt_irrefl _)
        · exact absurd hnew (Nat.not_succ_le_self _)
      · intro row hrow
        obtain ⟨id', hid', hlt, hwhere⟩ := hrows row hrow
        exact ⟨id', hid', hlt, hwhere.imp_right fun hnew => le_of_lt hnew⟩

/-- A row that is flushed is in the table, the rows of other identifiers stay, and none of them
    has its code. -/
theorem flushRule_ok {rows rows' : List Rule} {rule : Rule} (h : flushRule rows rule = .ok rows') :
    rule ∈ rows' ∧ ∀ r ∈ rows, r.id ≠ rule.id → r ∈ rows' ∧ r.ruleCode ≠ rule.ruleCode := by
  unfold flushRule at h
  split at h
  · cases h
  · rename_i hclash
    have hcode : ∀ r ∈ rows, r.id ≠ rule.id → r.ruleCode ≠ rule.ruleCode := by
      intro r hr hne hsame
      apply hclash
      exact List.any_eq_true.mpr ⟨r, hr, by simp [hne, hsame]⟩
    split at h
    · rename_i hfound
      cases h
      obtain ⟨old, hold, hid⟩ := List.any_eq_true.mp hfound
      refine ⟨List.mem_map.mpr ⟨old, hold, if_pos hid⟩, fun r hr hne => ⟨?_, hcode r hr hne⟩⟩
      exact List.mem_map.mpr ⟨r, hr, if_neg fun heq => hne (beq_iff_eq.mp heq)⟩
    · cases h
      refine ⟨List.mem_append_right _ List.mem_cons_self, fun r hr hne => ⟨?_, hcode r hr hne⟩⟩
      exact List.mem_append_left _ hr

/-- The constraint on codes: rows of different identifiers are flushed one after another only
    when they have codes of their own. -/
theorem codes_of_foldlM_flushRule {flushed rules rows result : List Rule}
    (hrows : ∀ r ∈ flushed, r ∈ rows) (hids : ((flushed ++ rules).map Rule.id).Nodup)
    (hcodes : (flushed.map Rule.ruleCode).Nodup) (h : rules.foldlM flushRule rows = .ok result) :
    ((flushed ++ rules).map Rule.ruleCode).Nodup := by
  induction rules generalizing flushed rows with
  | nil =>
    rw [List.append_nil]
    exact hcodes
  | cons rule rest ih =>
    rw [List.foldlM_cons] at h
    obtain ⟨rows', hflush, hrest⟩ := Except.bind_ok_iff.mp h
    obtain ⟨hwritten, hothers⟩ := flushRule_ok hflush
    rw [List.append_cons] at hids ⊢
    have hne : ∀ r ∈ flushed, r.id ≠ rule.id := by
      rw [List.map_append, List.nodup_append, List.map_append, List.nodup_append] at hids
      intro r hr
      exact hids.1.2.2 _ (List.mem_map_of_mem hr) _ (List.mem_singleton.mpr rfl)
    have hstay : ∀ r ∈ flushed, r ∈ rows' ∧ r.ruleCode ≠ rule.ruleCode :=
      fun r hr => hothers r (hrows r hr) (hne r hr)
    refine ih ?_ hids (uniqueCodes_append hcodes fun r hr => (hstay r hr).2) hrest
    intro r hr
    rcases List.mem_append.mp hr with hr | hr
    · exact (hstay r hr).1
    · rw [List.mem_singleton.mp hr]
      exact hwritten

/-- What a flush that returns has written. -/
theorem ownRows_of_flushRules {next : Uuid} {rows rules result : List Rule}
    (hids : (rules.map Rule.id).Nodup) (hdrawn : ∀ rule ∈ rules, ∃ id, rule.id = some id ∧ id < next)
    (h : flushRules rows rules = .ok result) : OwnRows next result := by
  rw [flushRules_ok h]
  obtain ⟨result', hflush, -⟩ := Except.bind_ok_iff.mp h
  -- the rows of a flush are the rules, updates before inserts
  have hperm := List.filter_append_perm (fun rule => rows.any fun r => r.id == rule.id) rules
  have hcodes := @codes_of_foldlM_flushRule [] _ _ _ (fun _ hr => nomatch hr)
    ((hperm.map Rule.id).nodup_iff.mpr hids) List.nodup_nil hflush
  exact ⟨hids, hdrawn, (hperm.map Rule.ruleCode).nodup_iff.mp hcodes⟩

/-- The rows after the rules of one pack were drawn identifiers for and flushed. -/
private theorem Enforced.flushed (hs : Enforced s) {rules rows result : List Rule}
    (hids : DrawnIds s.nextUuid rules) (hflush : flushRules rows (rulesToOrm rules s).1 = .ok result) :
    (rulesToOrm rules s).2.ruleSets = s.ruleSets ∧ Enforced (rulesToOrm rules s).2 ∧
      OwnRows (rulesToOrm rules s).2.nextUuid result := by
  obtain ⟨htable, hsupply, -⟩ := rulesToOrm_spec rules s
  obtain ⟨hnodup, hdrawn⟩ := rulesToOrm_drawn hids
  have hsets : (rulesToOrm rules s).2.ruleSets = s.ruleSets := by rw [htable]
  refine ⟨hsets, ?_, ownRows_of_flushRules hnodup (fun row hrow => ?_) hflush⟩
  · intro row hrow
    rw [hsets] at hrow
    exact (hs row hrow).mono hsupply
  · obtain ⟨id, hid, hlt, -⟩ := hdrawn row hrow
    exact ⟨id, hid, hlt⟩

/-- A row is written. -/
theorem Enforced.writeRow (hs : Enforced s) {row : RuleSetRow} (hrow : OwnRows s.nextUuid row.rules) :
    Enforced (writeRow row s) := by
  intro row' hmem
  obtain ⟨old, hold, hsame⟩ := List.mem_map.mp hmem
  split at hsame
  · rw [← hsame]
    exact hrow
  · rw [← hsame]
    exact hs old hold

/-- A commit writes the rules of its row. -/
theorem Enforced.commitRow (hs : Enforced s) {changed : Bool} {row row' : RuleSetRow}
    (hrow : OwnRows s.nextUuid row.rules) (h : commitRow changed row s = .ok (row', t)) :
    Enforced t := by
  unfold PostgresRulePackRepository.commitRow at h
  split at h
  · cases h
  · cases h
    apply hs.writeRow
    split
    · exact hrow
    · exact hrow

theorem Enforced.save (hs : Enforced s) {p r : RulePack} (hids : DrawnIds s.nextUuid p.rules)
    (h : save order p s = .ok (r, t)) : Enforced t := by
  unfold PostgresRulePackRepository.save at h
  split at h
  · rename_i row hfirst
    obtain ⟨rules, hflush, h⟩ := Except.bind_ok_iff.mp h
    obtain ⟨⟨row', t'⟩, hcommit, h⟩ := Except.bind_ok_iff.mp h
    rw [Except.pure_ok_iff] at h
    cases h
    obtain ⟨-, hs', hrules⟩ := hs.flushed hids hflush
    exact hs'.commitRow hrules hcommit
  · obtain ⟨rules, hflush, h⟩ := Except.bind_ok_iff.mp h
    rw [Except.pure_ok_iff] at h
    cases h
    -- the identifier of the row is drawn before those of its rules
    have hs' : Enforced (uuid4 s).2 := fun row hrow => (hs row hrow).mono (Nat.le_succ _)
    obtain ⟨-, hs'', hrules⟩ := hs'.flushed (hids.mono (Nat.le_succ _)) hflush
    intro row hrow
    rcases List.mem_append.mp hrow with hrow | hrow
    · exact hs'' row hrow
    · rw [List.mem_singleton.mp hrow]
      exact hrules

/-- An update by identifier that leaves the rules of its row. -/
theorem Enforced.updateById (hs : Enforced s) {u : Uuid} {lock : Option Nat}
    {f : RuleSetRow → Bool × RuleSetRow} (hf : ∀ row, (f row).2.rules = row.rules) {r : RulePack}
    (h : updateById u lock f s = .ok (r, t)) : Enforced t := by
  unfold PostgresRulePackRepository.updateById at h
  split at h
  · cases h
  · rename_i row hrow
    obtain ⟨_, -, h⟩ := Except.bind_ok_iff.mp h
    obtain ⟨⟨row', t'⟩, hcommit, h⟩ := Except.bind_ok_iff.mp h
    rw [Except.pure_ok_iff] at h
    cases h
    apply hs.commitRow ?_ hcommit
    rw [hf row]
    exact hs row (row?_mem hrow).1

theorem Enforced.activate (hs : Enforced s) {name : String} {version : Int} {lock : Option Nat}
    {r : RulePack} (h : activate order name version lock s = .ok (r, t)) : Enforced t := by
  obtain ⟨target, -, -, rfl⟩ := activate_ok h
  intro row hrow
  obtain ⟨old, hold, rfl⟩ := List.mem_map.mp hrow
  have hrules : (activateRow name target.id old).rules = old.rules := by
    unfold activateRow
    split
    · rfl
    · split
      · rfl
      · rfl
  rw [hrules]
  exact hs old hold

/-- A write of rules whose identifiers, if they have any, were drawn. -/
def WritesDrawnIds (s : PostgresStore) : Write → Prop
  | .saveNew p => DrawnIds s.nextUuid p.rules
  | .saveEdited _ rules => DrawnIds s.nextUuid rules
  | _ => True

theorem Enforced.performs (hs : Enforced s) {w : Write} (hw : WritesDrawnIds s w)
    (h : (lawful order).Performs s w t) : Enforced t := by
  cases h with
  | saveNew hid hfree hsave => exact hs.save hw hsave
  | @saveEdited s' _ p r u rules hs' hreads hdraft hsave =>
    have hids : DrawnIds s.nextUuid rules := hw
    have hsave : PostgresRulePackRepository.save order { p with rules } s' = .ok (r, t) := hsave
    rcases hs' with rfl | rfl
    · exact hs.save hids hsave
    · have hdrawn : Enforced (uuid4 s).2 := fun row hrow => (hs row hrow).mono (Nat.le_succ _)
      have hids' : DrawnIds (uuid4 s).2.nextUuid rules := hids.mono (Nat.le_succ _)
      exact hdrawn.save hids' hsave
  | @updateMetadata _ _ _ fields _ _ hp hdraft hmeta hupdate =>
    exact hs.updateById (fun row => (foldl_setColumn fields false row).2.2.2.1) hupdate
  | @publish _ u r _ hp hdraft hvalid hupdate =>
    have hupdate : updateStatus u .published none s = .ok (r, t) := hupdate
    unfold updateStatus at hupdate
    exact hs.updateById (fun _ => rfl) hupdate
  | @softDelete _ u lock r _ hp hactive hdelete =>
    have hdelete : softDelete u lock s = .ok (r, t) := hdelete
    unfold softDelete at hdelete
    exact hs.updateById (fun _ => rfl) hdelete
  | activate hactivate => exact hs.activate hactivate
  | promoteToShadow hreads hvalid ht hne => exact absurd ht hne

/-- The rules of a pack that is read are those of its row. -/
theorem Enforced.drawnIds (hs : Enforced s) {u : Uuid} {p : RulePack} (hp : catalogue s u = some p) :
    DrawnIds s.nextUuid p.rules ∧ p.UniqueCodes := by
  obtain ⟨row, hrow, rfl⟩ := exists_row hp
  have hown := hs row (row?_mem hrow).1
  have hcodes : (row.rules.map ruleToDomain).map Rule.ruleCode = row.rules.map Rule.ruleCode := by
    rw [List.map_map]
    rfl
  refine ⟨hown.drawnIds.of_map_id ?_, ?_⟩
  · show (row.rules.map ruleToDomain).map Rule.id = row.rules.map Rule.id
    rw [List.map_map]
    rfl
  · show ((row.rules.map ruleToDomain).map Rule.ruleCode).Nodup
    rw [hcodes]
    exact hown.codes

theorem keeps_enforced (order : RowOrder) : (lawful order).Keeps Enforced WritesDrawnIds where
  metadata := fun _ _ _ _ _ hinPlace => absurd hinPlace id
  write := fun _ _ _ _ hs hw hperforms => hs.performs hw hperforms
  draw := fun _ hs row hrow => (hs row hrow).mono (Nat.le_succ _)
  create := fun _ _ _ _ _ hs hreads _ _ => (hs.drawnIds hreads).1.append rfl

theorem writesDrawnIds_of_sends {call : Call} {app : App PostgresStore}
    (hInv : Inv app.repository) (hs : Enforced app.repository) (hcall : call.SendsDrawnIds app)
    (hcreates : ¬call.CreatesRules) :
    call.Each (postgresRulePackRepository order) WritesDrawnIds app := by
  have hread : ∀ {ruleId p rule},
      findRule (postgresRulePackRepository order) ruleId app.repository = some (p, rule) →
      DrawnIds app.repository.nextUuid p.rules := by
    intro ruleId p rule hfind
    obtain ⟨u, hu⟩ := (lawful order).reads_of_findRule hInv hfind
    exact (hs.drawnIds hu).1
  cases call with
  | createRulePack name region tenantId rules actor => exact hcall
  | importRulePack document actor =>
    intro name rules hname hrules htaken
    apply DrawnIds.of_none
    intro rule hrule
    obtain ⟨data, -, hdata⟩ := Except.exists_of_mem_mapM hrules hrule
    exact id_of_ruleFromJson hdata
  | updateRule ruleId data actor =>
    intro p rule updated hfind hdraft hrule
    obtain ⟨hmem, hid⟩ := rule_of_findRule hfind
    have hids := @map_id_replaceRule ruleId { updated with id := rule.id } hid p.rules
    exact (hread hfind).of_map_id hids
  | deleteRule ruleId actor reason =>
    intro p rule hfind hdraft
    exact (hread hfind).of_map_id (map_disableRule (fun _ _ => rfl) ruleId _)
  | createRule => exact absurd trivial hcreates
  | bulkCreateRules => exact absurd trivial hcreates
  | seed ruleSetName =>
    intro hactive
    exact ⟨fun hget => .of_none _ storable_fixture.new, fun ref t hsave => trivial⟩
  | activate => exact fun _ _ _ => trivial
  | rollback => exact fun _ _ _ _ => trivial
  | _ => trivial

end PostgresRulePackRepository

/-! ## Both backends -/

/-- Rule codes within a pack: on Postgres they are unique in every state that calls lead to whose
    rules come without identifiers that were made up; in memory, in every state that calls lead
    to which send no code twice. -/
theorem codes_unique (calls : List Call) (order : RowOrder) :
    (CallsMeet inMemoryRulePackRepository (Call.SendsOwnCodes inMemoryRulePackRepository) calls
      inMemoryStart → (InMemoryRulePackRepository.catalogue
        (runCalls inMemoryRulePackRepository calls inMemoryStart).repository).UniqueCodes) ∧
    (CallsMeet (postgresRulePackRepository order) Call.SendsDrawnIds calls postgresStart →
      (PostgresRulePackRepository.catalogue
        (runCalls (postgresRulePackRepository order) calls postgresStart).repository).UniqueCodes) := by
  constructor
  · intro hcalls
    have hInv : InMemoryRulePackRepository.lawful.Inv inMemoryStart.repository :=
      InMemoryRulePackRepository.inv_init
    have hstart : InMemoryRulePackRepository.UniqueCodes inMemoryStart.repository :=
      fun _ => List.nodup_nil
    obtain ⟨-, hunique⟩ := InMemoryRulePackRepository.keeps_uniqueCodes.runCalls
      (fun call app _ h hcall => InMemoryRulePackRepository.writesOwnCodes_of_sends h hcall)
      hInv hstart hcalls
    intro u p hp
    obtain ⟨ref, -, rfl⟩ := Option.map_eq_some_iff.mp hp
    exact hunique ref
  · intro hcalls
    have hInv : (PostgresRulePackRepository.lawful order).Inv postgresStart.repository :=
      PostgresRulePackRepository.inv_init
    have hstart : PostgresRulePackRepository.Enforced postgresStart.repository :=
      fun _ hrow => nomatch hrow
    obtain ⟨-, henforced⟩ := (PostgresRulePackRepository.keeps_enforced order).runCalls
      (fun call app hInv hs hcall => PostgresRulePackRepository.writesDrawnIds_of_sends hInv hs hcall)
      hInv hstart hcalls
    exact fun u p hp => (henforced.drawnIds hp).2

/-- A pack, two rules more, and an update that gives the last one a code that is free. -/
theorem codes_unique_update :
    (InMemoryRulePackRepository.catalogue (runCalls inMemoryRulePackRepository
      [createPlain "noc" none, .createRule 0 (ruleToJson (plainRule "R2")) "editor",
        .updateRule 1 { ruleCode := some "R3" } "editor"] inMemoryStart).repository).UniqueCodes ∧
    (PostgresRulePackRepository.catalogue (runCalls (postgresRulePackRepository writtenOrder)
      [createPlain "noc" none, .createRule 0 (ruleToJson (plainRule "R2")) "editor",
        .updateRule 1 { ruleCode := some "R3" } "editor"] postgresStart).repository).UniqueCodes := by
  have hplain : ([plainRule "R1"].map Rule.ruleCode).Nodup := List.nodup_singleton _
  constructor
  · apply (codes_unique _ writtenOrder).1
    refine ⟨hplain, trivial, ?_, trivial⟩
    intro ref rule updated hfind hdraft hupdated
    cases hfind
    cases hupdated
    show (∀ r ∈ [plainRule "R1", { plainRule "R2" with id := some 1 }], r.id = some 1 →
        r = { plainRule "R2" with id := some 1 }) ∧
      ∀ r ∈ [plainRule "R1", { plainRule "R2" with id := some 1 }], r.id ≠ some 1 →
        r.ruleCode ≠ "R3"
    simp [plainRule]
  · apply (codes_unique _ writtenOrder).2
    exact ⟨.of_none _ (by simp [plainRule]), trivial, trivial, trivial⟩

/-- In memory a pack is created with two rules of one code, and stored. -/
theorem code_twice :
    ¬∀ calls, (InMemoryRulePackRepository.catalogue
      (runCalls inMemoryRulePackRepository calls inMemoryStart).repository).UniqueCodes := by
  intro h
  have htwice := h [.createRulePack "noc" none none [plainRule "R1", plainRule "R1"] "editor"] 0 _ rfl
  revert htwice
  unfold RulePack.UniqueCodes
  decide

end PulseGuard
