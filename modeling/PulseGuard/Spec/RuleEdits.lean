import PulseGuard.Spec.RequestSections

/-!
# Concurrent rule edits

Rule edits of one Draft, in any interleaving of their sections. As long as every save finds the
rules that its request read, no request fails and the stored rules are those of the start,
edited in turn by the requests that saved (`no_lost_edits`). Nothing makes sure of that:
`edit_lost` is two creations that both report success and leave one rule.
-/

namespace PulseGuard

open Interleaving PostgresRulePackRepository

variable {ι : Type} {order : RowOrder} {u : Uuid}

/-- What an edit makes of a list of rules, as they read once stored. -/
inductive RuleEdit.Edits : RuleEdit → List Rule → List Rule → Prop where
  | createRule {packId id : Uuid} {data : RuleData} {rule : Rule} {before : List Rule}
      (hrule : ruleFromJson data = .ok rule) :
      Edits (.createRule packId data) before
        ((before ++ [{ rule with id := some id }]).map ruleToDomain)
  | updateRule {ruleId : Uuid} {data : RuleData} {rule updated : Rule} {before : List Rule}
      (hmem : rule ∈ before) (hid : rule.id = some ruleId)
      (hrule : ruleFromJson ((ruleToJson rule).override data) = .ok updated) :
      Edits (.updateRule ruleId data) before
        ((replaceRule ruleId { updated with id := rule.id } before).map ruleToDomain)
  | deleteRule {ruleId : Uuid} {rule : Rule} {before : List Rule} (hmem : rule ∈ before)
      (hid : rule.id = some ruleId) :
      Edits (.deleteRule ruleId) before ((disableRule ruleId before).map ruleToDomain)

/-- The rules after the edits of some requests, one after another. -/
inductive EditedInTurn (requests : ι → PackRequest) (before : List Rule) :
    List ι → List Rule → Prop where
  | start : EditedInTurn requests before [] before
  | edit {done : List ι} {i : ι} {request : RuleEdit} {rules rules' : List Rule}
      (hdone : EditedInTurn requests before done rules) (hrequest : requests i = .edit request)
      (hedits : request.Edits rules rules') : EditedInTurn requests before (i :: done) rules'

/-- An edit that its use case accepts for the pack `u`: the pack is a Draft, the payload is a
    rule, and its code no other rule's of the pack. -/
inductive Accepted (order : RowOrder) (s : PostgresStore) (u : Uuid) (pack : RulePack) :
    RuleEdit → Prop where
  | createRule {data : RuleData} {rule : Rule} (hget : getById order u s = some pack)
      (hdraft : pack.status = .draft) (hrule : ruleFromJson data = .ok rule)
      (hcode : ∀ r ∈ pack.rules, r.ruleCode ≠ rule.ruleCode) :
      Accepted order s u pack (.createRule u data)
  | updateRule {ruleId : Uuid} {data : RuleData} {rule updated : Rule}
      (hfind : findRule (postgresRulePackRepository order) ruleId s = some (pack, rule))
      (hid : pack.id = some u) (hdraft : pack.status = .draft)
      (hrule : ruleFromJson ((ruleToJson rule).override data) = .ok updated)
      (hcode : ∀ r ∈ pack.rules, r.id ≠ some ruleId → r.ruleCode ≠ updated.ruleCode) :
      Accepted order s u pack (.updateRule ruleId data)
  | deleteRule {ruleId : Uuid} {rule : Rule}
      (hfind : findRule (postgresRulePackRepository order) ruleId s = some (pack, rule))
      (hid : pack.id = some u) (hdraft : pack.status = .draft) :
      Accepted order s u pack (.deleteRule ruleId)

/-- A code belongs to one rule. -/
def OwnCodes (rules : List Rule) : Prop :=
  ∀ r ∈ rules, ∀ r' ∈ rules, r.ruleCode = r'.ruleCode → r.id = r'.id

/-- No section is disturbed: a request is accepted when it reads, and when it saves, the rules
    of the pack are those it read and no other pack has its name and version. -/
structure Undisturbed (order : RowOrder) (u : Uuid) (requests : ι → PackRequest) (x : PackConfig ι)
    (i : ι) : Prop where
  read : x.phase i = .ready → ∃ request pack, requests i = .edit request ∧
    Accepted order x.state u pack request ∧ OwnCodes pack.rules
  save : ∀ pack rules, x.phase i = .holds (.save pack rules) → ∀ v q,
    catalogue x.state v = some q → q.name = pack.name → q.version = pack.version →
    v = u ∧ q.rules = pack.rules

/-- No request has failed, and the stored rules of the pack are those of `before`, edited in
    turn by the requests that have reported success. -/
structure EditsKept (u : Uuid) (before : List Rule) (requests : ι → PackRequest)
    (x : PackConfig ι) : Prop where
  succeed : ∀ i error, x.phase i ≠ .refused error ∧ ∀ held, x.phase i ≠ .wrote held (.error error)
  kept : ∃ q done, catalogue x.state u = some q ∧ q.status = .draft ∧ done.Nodup ∧
    (∀ i, i ∈ done ↔ ∃ held, x.phase i = .wrote held (.ok ())) ∧
    EditedInTurn requests before done q.rules

/-! ## Saves that succeed -/

namespace PostgresRulePackRepository

/-- The codes of the rules to write are those of no other rule, old or new. -/
def FreeCodes (rows rules : List Rule) : Prop :=
  ∀ r ∈ rows ++ rules, ∀ rule ∈ rules, r.ruleCode = rule.ruleCode → r.id = rule.id

/-- Rules with codes of their own are written one after another. -/
theorem foldlM_flushRule_ok {rows rules : List Rule} (h : FreeCodes rows rules) :
    ∃ result, rules.foldlM flushRule rows = .ok result := by
  induction rules generalizing rows with
  | nil => exact ⟨rows, rfl⟩
  | cons rule rest ih =>
    have hcode : (rows.any fun r => r.id != rule.id && r.ruleCode == rule.ruleCode) = false := by
      rw [List.any_eq_false]
      intro r hr hclash
      rw [Bool.and_eq_true, bne_iff_ne, beq_iff_eq] at hclash
      exact hclash.1 (h r (List.mem_append_left _ hr) rule List.mem_cons_self hclash.2)
    have hwritten : ∃ rows', flushRule rows rule = .ok rows' ∧
        ∀ r ∈ rows', r ∈ rows ∨ r = rule := by
      unfold flushRule
      rw [hcode]
      simp only [Bool.false_eq_true, if_false]
      split
      · refine ⟨_, rfl, fun r hr => ?_⟩
        obtain ⟨old, hold, rfl⟩ := List.mem_map.mp hr
        split
        · exact Or.inr rfl
        · exact Or.inl hold
      · refine ⟨_, rfl, fun r hr => ?_⟩
        rw [List.mem_append, List.mem_singleton] at hr
        exact hr
    obtain ⟨rows', hflush, hrows'⟩ := hwritten
    rw [List.foldlM_cons, hflush]
    apply ih
    intro r hr r' hr'
    apply h r ?_ r' (List.mem_cons_of_mem _ hr')
    rw [List.mem_append] at hr ⊢
    rcases hr with hr | hr
    · rcases hrows' r hr with hr | rfl
      · exact Or.inl hr
      · exact Or.inr List.mem_cons_self
    · exact Or.inr (List.mem_cons_of_mem _ hr)

theorem flushRules_succeeds {rows rules : List Rule} (h : FreeCodes rows rules) :
    flushRules rows rules = .ok rules := by
  let old := rules.filter fun rule => rows.any fun r => r.id == rule.id
  let new := rules.filter fun rule => !rows.any fun r => r.id == rule.id
  have hsub : ∀ rule ∈ old ++ new, rule ∈ rules := by
    intro rule hrule
    rcases List.mem_append.mp hrule with hrule | hrule
    · exact (List.mem_filter.mp hrule).1
    · exact (List.mem_filter.mp hrule).1
  have hfree : FreeCodes rows (old ++ new) := by
    intro r hr rule hrule
    apply h r ?_ rule (hsub rule hrule)
    rw [List.mem_append] at hr ⊢
    exact hr.imp_right (hsub r)
  obtain ⟨result, hresult⟩ := foldlM_flushRule_ok hfree
  show ((old ++ new).foldlM flushRule rows >>= fun _ => .ok rules) = .ok rules
  rw [hresult]
  rfl

/-- A commit succeeds when no other row has the name and version. -/
theorem commitRow_succeeds (changed : Bool) (row : RuleSetRow) {s : PostgresStore}
    (hkey : ∀ r ∈ s.ruleSets, r.name = row.name → r.version = row.version → r.id = row.id) :
    ∃ result, commitRow changed row s = .ok result := by
  have hfree : violatesVersionKey row s = false := by
    unfold violatesVersionKey
    rw [Bool.and_eq_false_iff, List.any_eq_false]
    right
    intro r hr hclash
    simp only [Bool.and_eq_true, bne_iff_ne, beq_iff_eq] at hclash
    obtain ⟨⟨⟨⟨hne, hname⟩, hversion⟩, -⟩, -⟩ := hclash
    exact hne (hkey r hr hname hversion)
  unfold commitRow
  rw [hfree]
  exact ⟨_, rfl⟩

/-- A save over a row succeeds when the codes are free and no other row has the name and
    version. -/
theorem saveExisting_succeeds {p : RulePack} {row : RuleSetRow} {s : PostgresStore}
    (hcodes : FreeCodes row.rules (rulesToOrm p.rules s).1)
    (hkey : ∀ r ∈ s.ruleSets, r.name = row.name → r.version = row.version → r.id = row.id) :
    ∃ result, saveExisting p row s = .ok result := by
  obtain ⟨htable, -⟩ := rulesToOrm_spec p.rules s
  unfold saveExisting
  simp only [flushRules_succeeds hcodes]
  rw [htable]
  apply Except.exists_bind_ok rfl
  obtain ⟨⟨row', t⟩, hcommit⟩ := commitRow_succeeds
    (p.status != row.status || p.region != row.region || p.createdBy != row.createdBy)
    { row with status := p.status, region := p.region, createdBy := p.createdBy
               rules := (rulesToOrm p.rules s).1 }
    (s := { s with nextUuid := (rulesToOrm p.rules s).2.nextUuid }) hkey
  apply Except.exists_bind_ok hcommit
  exact ⟨_, rfl⟩

end PostgresRulePackRepository

/-! ## Sections of an edit -/

section

variable {s t : PostgresStore} {pack : RulePack}

theorem mem_replaceRule {ruleId : Uuid} {updated r : Rule} {rules : List Rule}
    (h : r ∈ replaceRule ruleId updated rules) :
    r = updated ∨ r ∈ rules ∧ r.id ≠ some ruleId := by
  obtain ⟨old, hold, rfl⟩ := List.mem_map.mp h
  split
  · exact Or.inl rfl
  · rename_i hid
    exact Or.inr ⟨hold, by simpa using hid⟩

/-- A deletion changes nothing of a rule but whether it is enabled. -/
theorem mem_disableRule {ruleId : Uuid} {r : Rule} {rules : List Rule}
    (h : r ∈ disableRule ruleId rules) : ∃ old ∈ rules, r = { old with enabled := r.enabled } := by
  induction rules with
  | nil => cases h
  | cons rule rest ih =>
    unfold disableRule at h ih
    rw [List.replaceF_cons] at h
    split at h
    · rcases List.mem_cons.mp h with rfl | h
      · exact ⟨r, List.mem_cons_self, rfl⟩
      · obtain ⟨old, hold, hsame⟩ := ih h
        exact ⟨old, List.mem_cons_of_mem _ hold, hsame⟩
    · rename_i hsome
      split at hsome
      · cases hsome
        rcases List.mem_cons.mp h with rfl | h
        · exact ⟨rule, List.mem_cons_self, rfl⟩
        · exact ⟨r, List.mem_cons_of_mem _ h, rfl⟩
      · cases hsome

/-! The edits leave every code to one rule. -/

namespace PostgresRulePackRepository

variable {rules : List Rule}

theorem FreeCodes.refl (hown : OwnCodes rules) : FreeCodes rules rules := by
  intro r hr
  have hmem : r ∈ rules := by
    simpa using hr
  exact hown r hmem

theorem FreeCodes.append {rule : Rule} (hown : OwnCodes rules)
    (hcode : ∀ r ∈ rules, r.ruleCode ≠ rule.ruleCode) : FreeCodes rules (rules ++ [rule]) := by
  intro r hmem r' hmem' heq
  have hr : r ∈ rules ∨ r = rule := by
    simpa using hmem
  have hr' : r' ∈ rules ∨ r' = rule := by
    simpa using hmem'
  rcases hr with hr | hr
  · rcases hr' with hr' | hr'
    · exact hown r hr r' hr' heq
    · exact absurd (heq.trans (congrArg Rule.ruleCode hr')) (hcode r hr)
  · rcases hr' with hr' | hr'
    · exact absurd (heq.symm.trans (congrArg Rule.ruleCode hr)) (hcode r' hr')
    · rw [hr, hr']

theorem FreeCodes.replaceRule {ruleId : Uuid} {updated : Rule} (hown : OwnCodes rules)
    (hid : updated.id = some ruleId)
    (hcode : ∀ r ∈ rules, r.id ≠ some ruleId → r.ruleCode ≠ updated.ruleCode) :
    FreeCodes rules (replaceRule ruleId updated rules) := by
  intro r hmem r' hmem' heq
  have hr : r ∈ rules ∨ r = updated := by
    rcases List.mem_append.mp hmem with hr | hr
    · exact Or.inl hr
    · exact (mem_replaceRule hr).symm.imp_left And.left
  rcases hr with hr | hr
  · rcases mem_replaceRule hmem' with hr' | ⟨hr', -⟩
    · rw [hr'] at heq ⊢
      by_cases hsame : r.id = some ruleId
      · exact hsame.trans hid.symm
      · exact absurd heq (hcode r hr hsame)
    · exact hown r hr r' hr' heq
  · rcases mem_replaceRule hmem' with hr' | ⟨hr', hne⟩
    · rw [hr, hr']
    · exact absurd (heq.symm.trans (congrArg Rule.ruleCode hr)) (hcode r' hr' hne)

theorem FreeCodes.disableRule (ruleId : Uuid) (hown : OwnCodes rules) :
    FreeCodes rules (disableRule ruleId rules) := by
  intro r hr r' hr' heq
  have hold : ∃ old ∈ rules, r = { old with enabled := r.enabled } := by
    rcases List.mem_append.mp hr with hr | hr
    · exact ⟨r, hr, rfl⟩
    · exact mem_disableRule hr
  obtain ⟨old, hmem, hsame⟩ := hold
  obtain ⟨old', hmem', hsame'⟩ := mem_disableRule hr'
  rw [hsame, hsame'] at heq ⊢
  exact hown old hmem old' hmem' heq

/-- Every rule of a pack has the key of its row. -/
theorem isSome_id_of_catalogue (hs : Inv s) (hpack : catalogue s u = some pack) :
    ∀ rule ∈ pack.rules, rule.id.isSome = true := by
  obtain ⟨row, hrow, rfl⟩ := exists_row hpack
  intro rule hrule
  obtain ⟨old, hold, rfl⟩ := List.mem_map.mp hrule
  exact hs.ruleIds row (row?_mem hrow).1 old hold

end PostgresRulePackRepository

theorem Accepted.catalogue {request : RuleEdit} (hs : Inv s)
    (h : Accepted order s u pack request) : catalogue s u = some pack := by
  have hfound : ∀ {ruleId : Uuid} {rule : Rule},
      findRule (postgresRulePackRepository order) ruleId s = some (pack, rule) →
      pack.id = some u → PostgresRulePackRepository.catalogue s u = some pack := by
    intro ruleId rule hfind hid
    obtain ⟨v, hv⟩ := (lawful order).reads_of_findRule hs hfind
    have hvid : pack.id = some v := ((lawful order).reads hs hv).2
    obtain rfl : v = u := Option.some.inj (hvid.symm.trans hid)
    exact hv
  cases h with
  | createRule hget => exact (lawful order).getById hs hget
  | updateRule hfind hid => exact hfound hfind hid
  | deleteRule hfind hid => exact hfound hfind hid

/-- An accepted edit reads the pack, and what it will save has free codes. -/
theorem Accepted.read {request : RuleEdit} (h : Accepted order s u pack request)
    (hown : OwnCodes pack.rules) :
    ∃ rules t, request.read order s = .ok (.save pack rules, t) ∧
      ReadsAs order s u pack (.edit request) (.save pack rules) t ∧ FreeCodes pack.rules rules := by
  cases h with
  | @createRule data rule hget hdraft hrule hcode =>
    have hcheck : checkCode u rule.ruleCode pack.rules = .ok () := checkCode_ok_iff.mpr hcode
    refine ⟨pack.rules ++ [{ rule with id := some s.nextUuid }], (uuid4 s).2, ?_,
      .createRule hdraft hrule hcode, ?_⟩
    · have hnew : identified (postgresRulePackRepository order) rule s =
          ({ rule with id := some s.nextUuid }, (uuid4 s).2) := by
        unfold identified
        rw [id_of_ruleFromJson hrule]
        rfl
      simp only [RuleEdit.read, hget, hdraft, hrule, bind, Except.bind, hcheck, hnew]
      rfl
    · exact .append hown hcode
  | @updateRule ruleId data rule updated hfind hid hdraft hrule hcode =>
    have hruleId := (rule_of_findRule hfind).2
    refine ⟨replaceRule ruleId { updated with id := rule.id } pack.rules, s, ?_,
      .updateRule hdraft hfind hrule, ?_⟩
    · simp only [RuleEdit.read, hfind, hdraft, hrule]
      rfl
    · exact .replaceRule hown hruleId hcode
  | @deleteRule ruleId rule hfind hid hdraft =>
    refine ⟨disableRule ruleId pack.rules, s, ?_, .deleteRule hdraft hfind, ?_⟩
    · simp only [RuleEdit.read, hfind, hdraft]
      rfl
    · exact .disableRule ruleId hown

/-- What an edit read and will save: a Draft, and its edited rules, which all have keys. -/
theorem ReadsAs.edits {request : RuleEdit} {rules : List Rule} (hs : Inv s)
    (hpack : catalogue s u = some pack)
    (h : ReadsAs order s u pack (.edit request) (.save pack rules) t) :
    pack.status = .draft ∧ request.Edits pack.rules (rules.map ruleToDomain) ∧
      ∀ rule ∈ rules, rule.id.isSome = true := by
  have hids := isSome_id_of_catalogue hs hpack
  cases h with
  | createRule hdraft hrule hcode =>
    refine ⟨hdraft, .createRule hrule, fun rule hmem => ?_⟩
    rcases List.mem_append.mp hmem with hmem | hmem
    · exact hids rule hmem
    · rw [List.mem_singleton.mp hmem]
      rfl
  | updateRule hdraft hfind hrule =>
    obtain ⟨hmem, hid⟩ := rule_of_findRule hfind
    refine ⟨hdraft, .updateRule hmem hid hrule, fun rule hrule => ?_⟩
    rcases mem_replaceRule hrule with rfl | ⟨hrule, -⟩
    · have hsome := hids _ hmem
      exact hsome
    · exact hids rule hrule
  | deleteRule hdraft hfind =>
    obtain ⟨hmem, hid⟩ := rule_of_findRule hfind
    refine ⟨hdraft, .deleteRule hmem hid, fun rule hrule => ?_⟩
    obtain ⟨old, hold, hsame⟩ := mem_disableRule hrule
    rw [hsame]
    exact hids old hold

end

/-! ## Schedules -/

/-- A save that finds the rules that were read, under a name and version of its pack's own,
    stores the edited ones. -/
theorem save_undisturbed (order : RowOrder) {s : PostgresStore} {pack q : RulePack} {rules : List Rule} (hs : Inv s)
    (hq : catalogue s u = some q) (hname : q.name = pack.name) (hversion : q.version = pack.version)
    (halone : ∀ v q, catalogue s v = some q → q.name = pack.name → q.version = pack.version →
      v = u ∧ q.rules = pack.rules)
    (hids : ∀ rule ∈ rules, rule.id.isSome = true) (hcodes : FreeCodes pack.rules rules) :
    ∃ t q', HeldPack.write order (.save pack rules) s = .ok ((), t) ∧ Inv t ∧
      catalogue t = (catalogue s).put u q' ∧
      q' = { q with
        status := pack.status, region := pack.region, createdBy := pack.createdBy
        rules := rules.map ruleToDomain, lockVersion := q'.lockVersion } := by
  obtain ⟨old, hold, hread⟩ := exists_row hq
  obtain ⟨hmem, holdid⟩ := row?_mem hold
  have holdname : old.name = pack.name := by
    rw [← hname, ← hread]
    rfl
  have holdversion : old.version = pack.version := by
    rw [← hversion, ← hread]
    rfl
  -- the query by name and version finds the row of the pack
  obtain ⟨row, hfirst⟩ := first_isSome order hmem
  rw [holdname, holdversion] at hfirst
  obtain ⟨hrow, hrowname, hrowversion⟩ := first_mem hfirst
  have hkey : ∀ r ∈ s.ruleSets, r.name = row.name → r.version = row.version → r.id = row.id := by
    intro r hr hrname hrversion
    have hr := (halone r.id (toDomain s r) (catalogue_of_mem hs hr) (hrname.trans hrowname)
      (hrversion.trans hrowversion)).1
    have hrow := (halone row.id (toDomain s row) (catalogue_of_mem hs hrow) hrowname hrowversion).1
    exact hr.trans hrow.symm
  have hrules : row.rules.map ruleToDomain = pack.rules :=
    (halone row.id (toDomain s row) (catalogue_of_mem hs hrow) hrowname hrowversion).2
  have hfree : FreeCodes row.rules rules := by
    intro r hr rule hrule heq
    rcases List.mem_append.mp hr with hr | hr
    · have hstored : ruleToDomain r ∈ pack.rules := hrules ▸ List.mem_map_of_mem hr
      exact hcodes (ruleToDomain r) (List.mem_append_left _ hstored) rule hrule heq
    · exact hcodes r (List.mem_append_right _ hr) rule hrule heq
  have hsame : (rulesToOrm rules s).1 = rules := (rulesToOrm_spec rules s).2.2.2.2 hids
  have hfree : FreeCodes row.rules (rulesToOrm rules s).1 := hsame.symm ▸ hfree
  obtain ⟨⟨saved, t⟩, hsave⟩ := saveExisting_succeeds (p := { pack with rules }) hfree hkey
  have hwrite : HeldPack.write order (.save pack rules) s = .ok ((), t) := by
    unfold HeldPack.write PostgresRulePackRepository.save
    simp only [hfirst, hsave]
    rfl
  obtain ⟨hInv, hwrites⟩ := HeldPack.write_ok hs hwrite
  cases hwrites with
  | @overwrite _ q₀ q' _ v _ hunder hq₀ hq' hstored ht =>
    obtain rfl := Under.unique (under_of_first hfirst) hunder
    obtain rfl := (halone row.id (toDomain s row) (catalogue_of_mem hs hrow) hrowname hrowversion).1
    rw [hq] at hq₀
    cases hq₀
    rw [hstored hids] at hq'
    exact ⟨t, q', hwrite, hInv, ht, hq'⟩
  | insert hnone =>
    rw [hfirst] at hnone
    cases hnone

/-- The invariant of a schedule: besides what is kept, what the requests hold. -/
structure Editing (u : Uuid) (p : RulePack) (requests : ι → PackRequest) (x : PackConfig ι) : Prop
    extends EditsKept u p.rules requests x where
  inv : Inv x.state
  key : ∀ q, catalogue x.state u = some q → q.name = p.name ∧ q.version = p.version
  held : ∀ i held, x.phase i = .holds held → ∃ request pack rules, requests i = .edit request ∧
    held = .save pack rules ∧ pack.name = p.name ∧ pack.version = p.version ∧
    pack.status = .draft ∧ request.Edits pack.rules (rules.map ruleToDomain) ∧
    (∀ rule ∈ rules, rule.id.isSome = true) ∧ FreeCodes pack.rules rules

variable [DecidableEq ι] {p : RulePack} {requests : ι → PackRequest} {x y : PackConfig ι} {i : ι}

/-- Every undisturbed section keeps the invariant. -/
theorem Editing.step (h : Editing u p requests x)
    (hstep : (packRequests order requests).Step x i y)
    (hundisturbed : Undisturbed order u requests x i) : Editing u p requests y := by
  cases hstep with
  | idle => exact h
  | @read held t hphase hread =>
    -- a section that reads: the request is accepted, and draws at most an identifier
    obtain ⟨request, pack, hrequest, haccepted, hown⟩ := hundisturbed.read hphase
    have hpack := haccepted.catalogue h.inv
    obtain ⟨rules, t', hreads, hreadsAs, hcodes⟩ := haccepted.read hown
    have hread : (requests i).read order x.state = .ok (held, t) := hread
    rw [hrequest] at hread
    cases hread.symm.trans hreads
    obtain ⟨hdraft, hedits, hids⟩ := hreadsAs.edits h.inv hpack
    have hsame : catalogue t = catalogue x.state ∧ Inv t := by
      rcases hreadsAs.state with rfl | rfl
      · exact ⟨rfl, h.inv⟩
      · exact ⟨rfl, (lawful order).inv_uuid4 h.inv⟩
    obtain ⟨q, done, hq, hstatus, hnodup, hdone, hturn⟩ := h.kept
    -- no phase but its own changes, and nothing that is stored
    refine ⟨⟨fun j error => ⟨fun hj => ?_, fun held' hj => ?_⟩, q, done, ?_, hstatus, hnodup, fun j => ?_,
      hturn⟩, hsame.2, ?_, ?_⟩
    · rcases phase_update hj with ⟨-, heq⟩ | ⟨-, hold⟩
      · cases heq
      · exact (h.succeed j error).1 hold
    · rcases phase_update hj with ⟨-, heq⟩ | ⟨-, hold⟩
      · cases heq
      · exact (h.succeed j error).2 held' hold
    · show catalogue t u = some q
      rw [hsame.1, hq]
    · -- a read reports nothing
      rw [hdone]
      by_cases hj : j = i
      · subst hj
        simp [hphase]
      · show _ ↔ ∃ held', Function.update x.phase i _ j = _
        rw [Function.update_of_ne hj]
    · intro q' hq'
      have hq' : catalogue t u = some q' := hq'
      rw [hsame.1] at hq'
      exact h.key q' hq'
    · intro j held' hj
      rcases phase_update hj with ⟨rfl, heq⟩ | ⟨-, hold⟩
      · cases heq
        obtain ⟨hname, hversion⟩ := h.key pack hpack
        exact ⟨request, pack, rules, hrequest, rfl, hname, hversion, hdraft, hedits, hids, hcodes⟩
      · exact h.held j held' hold
  | refuse hphase hread =>
    obtain ⟨request, pack, hrequest, haccepted, hown⟩ := hundisturbed.read hphase
    -- an accepted request is not refused
    obtain ⟨rules, t', hreads, -⟩ := haccepted.read hown
    have hread : (requests i).read order x.state = _ := hread
    rw [hrequest] at hread
    cases hread.symm.trans hreads
  | @write held r t hphase hwrite =>
    -- a section that writes: nobody has written since it read, so it saves what it edited
    obtain ⟨request, pack, rules, hrequest, rfl, hname, hversion, hdraft, hedits, hids, hcodes⟩ :=
      h.held i held hphase
    obtain ⟨q, done, hq, hstatus, hnodup, hdone, hturn⟩ := h.kept
    obtain ⟨hqname, hqversion⟩ := h.key q hq
    have halone := hundisturbed.save pack rules hphase
    obtain ⟨t', q', hwrite', hInv, ht, hq'⟩ := save_undisturbed order h.inv hq
      (hqname.trans hname.symm) (hqversion.trans hversion.symm) halone hids hcodes
    have hstored : catalogue t' u = some q' := by rw [ht, Catalogue.put_self]
    have hwrite : HeldPack.write order (.save pack rules) x.state = .ok (r, t) := hwrite
    cases hwrite.symm.trans hwrite'
    have hrules : q.rules = pack.rules :=
      (halone u q hq (hqname.trans hname.symm) (hqversion.trans hversion.symm)).2
    -- it has not reported before, and is the last of those that have now
    have hnew : i ∉ done := by
      intro hmem
      obtain ⟨held, hwrote⟩ := (hdone i).mp hmem
      rw [hphase] at hwrote
      cases hwrote
    refine ⟨⟨fun j error => ⟨fun hj => ?_, fun held' hj => ?_⟩, q', i :: done, hstored, ?_, ?_,
      fun j => ?_, ?_⟩, hInv, ?_, ?_⟩
    · rcases phase_update hj with ⟨-, heq⟩ | ⟨-, hold⟩
      · cases heq
      · exact (h.succeed j error).1 hold
    · rcases phase_update hj with ⟨-, heq⟩ | ⟨-, hold⟩
      · cases heq
      · exact (h.succeed j error).2 held' hold
    · rw [hq']
      exact hdraft
    · exact List.nodup_cons.mpr ⟨hnew, hnodup⟩
    · show _ ↔ ∃ held', Function.update x.phase i _ j = _
      by_cases hj : j = i
      · subst hj
        rw [Function.update_self]
        simp
      · rw [Function.update_of_ne hj, ← hdone, List.mem_cons, or_iff_right hj]
    · rw [hq']
      rw [← hrules] at hedits
      exact .edit hturn hrequest hedits
    · intro q'' hq''
      obtain rfl : q' = q'' := Option.some.inj (hstored.symm.trans hq'')
      rw [hq']
      exact ⟨hqname, hqversion⟩
    · intro j held' hj
      rcases phase_update hj with ⟨-, heq⟩ | ⟨-, hold⟩
      · cases heq
      · exact h.held j held' hold
  | @fail held e hphase hwrite =>
    -- the same save does not fail
    obtain ⟨request, pack, rules, hrequest, rfl, hname, hversion, hdraft, hedits, hids, hcodes⟩ :=
      h.held i held hphase
    obtain ⟨q, done, hq, -⟩ := h.kept
    obtain ⟨hqname, hqversion⟩ := h.key q hq
    obtain ⟨t', -, hwrite', -⟩ := save_undisturbed order h.inv hq
      (hqname.trans hname.symm) (hqversion.trans hversion.symm)
      (hundisturbed.save pack rules hphase) hids hcodes
    have hwrite : HeldPack.write order (.save pack rules) x.state = .error e := hwrite
    cases hwrite.symm.trans hwrite'

/-- From any state that calls lead to: in every interleaving of edits of a Draft in which no
    section is disturbed, no request fails, and the stored rules are those of the Draft, edited
    in turn by the requests that have reported success. -/
theorem no_lost_edits (order : RowOrder) (calls : List Call) (u : Uuid) (p : RulePack)
    (requests : ι → PackRequest) (schedule : List ι) :
    let start : PackConfig ι :=
      .start (runCalls (postgresRulePackRepository order) calls postgresStart).repository
    let sys := packRequests order requests
    catalogue start.state u = some p → p.status = .draft →
    sys.Meets (Undisturbed order u requests) schedule start →
    EditsKept u p.rules requests (sys.run schedule start) := by
  intro start sys hp hdraft hundisturbed
  have hstart : Editing u p requests start := by
    refine ⟨⟨fun i error => ⟨fun h => (by cases h), fun held h => (by cases h)⟩, p, [], hp, hdraft,
      List.nodup_nil, fun i => ?_, .start⟩, inv_runCalls order calls, fun q hq => ?_,
      fun i held h => (by cases h)⟩
    · simp [start, Config.start]
    · cases hp.symm.trans hq
      exact ⟨rfl, rfl⟩
  have hstep : ∀ x i y, sys.Step x i y → Undisturbed order u requests x i →
      Editing u p requests x → Editing u p requests y := fun _ _ _ hstep hP h => h.step hstep hP
  exact ((sys.run_where hundisturbed).invariant _ hstep hstart).toEditsKept

/-- Two edits, side by side. -/
def twoEdits (first second : RuleEdit) : Bool → PackRequest
  | false => .edit first
  | true => .edit second

/-- The creation of a plain rule in the pack 0. -/
def addPlain (ruleCode : String) : RuleEdit := .createRule 0 (ruleToJson (plainRule ruleCode))

/-- A rule is created, then another one deleted. -/
theorem no_lost_edits_sequential :
    EditsKept 0 ((catalogue onePack 0).elim [] RulePack.rules) (twoEdits (addPlain "R2") (.deleteRule 1))
      ((packRequests writtenOrder (twoEdits (addPlain "R2") (.deleteRule 1))).run
        [false, false, true, true] (.start onePack)) := by
  have hundisturbed : (packRequests writtenOrder (twoEdits (addPlain "R2") (.deleteRule 1))).Meets
      (Undisturbed writtenOrder 0 (twoEdits (addPlain "R2") (.deleteRule 1)))
      [false, false, true, true] (.start onePack) := by
    refine ⟨⟨fun _ => ?_, ?_⟩, ⟨?_, ?_⟩, ⟨fun _ => ?_, ?_⟩, ⟨?_, ?_⟩, trivial⟩
    · refine ⟨_, _, rfl, .createRule rfl rfl rfl ?_, ?_⟩
      · decide
      · unfold OwnCodes
        decide
    · intro pack rules hheld
      cases hheld
    · intro hready
      cases hready
    · intro pack rules hheld v q hq hname hversion
      cases hheld
      match v with
      | 0 =>
        cases hq
        exact ⟨rfl, rfl⟩
      | v + 1 => cases hq
    · refine ⟨_, _, rfl, .deleteRule rfl rfl rfl, ?_⟩
      unfold OwnCodes
      decide
    · intro pack rules hheld
      cases hheld
    · intro hready
      cases hready
    · intro pack rules hheld v q hq hname hversion
      cases hheld
      match v with
      | 0 =>
        cases hq
        exact ⟨rfl, rfl⟩
      | v + 1 => cases hq
  exact no_lost_edits writtenOrder [createPlain "noc" none] 0 _ _ _ rfl rfl hundisturbed

omit [DecidableEq ι] in
/-- Creations add a rule each. -/
theorem EditedInTurn.length {before rules : List Rule} {done : List ι}
    (hcreates : ∀ i request, requests i = .edit request →
      ∃ packId data, request = .createRule packId data)
    (h : EditedInTurn requests before done rules) : rules.length = before.length + done.length := by
  induction h with
  | start => rfl
  | edit hdone hrequest hedits ih =>
    obtain ⟨packId, data, rfl⟩ := hcreates _ _ hrequest
    cases hedits
    simp only [List.length_map, List.length_append, List.length_cons, List.length_nil, ih]
    omega

/-- Two creations that both read before either saves both report success, and one of the two
    rules is not stored. -/
theorem edit_lost :
    ¬∀ (first second : RuleEdit) (schedule : List Bool),
      let x := (packRequests writtenOrder (twoEdits first second)).run schedule (.start onePack)
      (∀ i, ∃ held, x.phase i = .wrote held (.ok ())) →
      ∃ q done, catalogue x.state 0 = some q ∧ (∀ i, i ∈ done) ∧
        EditedInTurn (twoEdits first second) ((catalogue onePack 0).elim [] RulePack.rules) done
          q.rules := by
  intro h
  have hsuccess : ∀ i, ∃ held, ((packRequests writtenOrder
      (twoEdits (addPlain "R2") (addPlain "R3"))).run [false, true, false, true]
      (.start onePack)).phase i = .wrote held (.ok ()) := by
    intro i
    cases i with
    | false => exact ⟨_, rfl⟩
    | true => exact ⟨_, rfl⟩
  obtain ⟨q, done, hq, hdone, hturn⟩ := h _ _ _ hsuccess
  have hcreates : ∀ i request, twoEdits (addPlain "R2") (addPlain "R3") i = .edit request →
      ∃ packId data, request = .createRule packId data := by
    intro i request hrequest
    cases i with
    | false =>
      cases hrequest
      exact ⟨_, _, rfl⟩
    | true =>
      cases hrequest
      exact ⟨_, _, rfl⟩
  have hlength := hturn.length hcreates
  cases hq
  -- one rule was there and two are stored, so one creation is missing
  have hone : done.length = 1 := by
    have htwo : 1 + 1 = 1 + done.length := hlength
    exact (Nat.add_left_cancel htwo).symm
  obtain ⟨a, rfl⟩ := List.length_eq_one_iff.mp hone
  have hfalse := List.mem_singleton.mp (hdone false)
  have htrue := List.mem_singleton.mp (hdone true)
  rw [← hfalse] at htrue
  cases htrue

end PulseGuard
