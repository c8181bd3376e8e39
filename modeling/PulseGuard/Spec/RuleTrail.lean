import PulseGuard.ForStd.Ledger
import PulseGuard.Spec.AuditTrail
import PulseGuard.Spec.RuleUpdate

/-!
# The history of a rule

What the rule entries of the audit trail say. Every edit of a rule records its payload before and
after, so the entries are a sound ledger of the payloads, up to those of the rules there are
(`rule_history`): nothing changes a rule without an entry. Nobody has to hold back for this, as
packs have to for theirs (`audit_chain`), because no call but the rule edits changes a rule.
-/

namespace PulseGuard

/-- The payload that a snapshot of a rule shows. -/
def AuditSnapshot.ruleData : AuditSnapshot → Option RuleData
  | rule _ data => some data
  | _ => none

namespace AuditLogEntry

/-- The payload of the rule before, if it was there. -/
def ruleBefore (entry : AuditLogEntry) : Option RuleData := entry.before.bind AuditSnapshot.ruleData

def ruleAfter (entry : AuditLogEntry) : Option RuleData := entry.after.bind AuditSnapshot.ruleData

/-- What an entry of a rule says is what its action does. -/
def Truthful (entry : AuditLogEntry) : Prop :=
  (entry.action = "created" ∧ entry.ruleBefore = none ∧ entry.ruleAfter.isSome = true) ∨
  (entry.action = "updated" ∧ entry.ruleBefore.isSome = true ∧ entry.ruleAfter.isSome = true) ∨
  ∃ data, entry.action = "deleted" ∧ entry.ruleBefore = some data ∧
    entry.ruleAfter = some { data with enabled := some false }

end AuditLogEntry

/-- The changes of rules that some entries show. -/
def ruleLedger (audit : List AuditLogEntry) : List (Ledger.Change String RuleData) :=
  (audit.filter fun entry => entry.entityType == "rule").map fun entry =>
    ⟨entry.entityId, entry.ruleBefore, entry.ruleAfter⟩

theorem ruleLedger_append (audit rest : List AuditLogEntry) :
    ruleLedger (audit ++ rest) = ruleLedger audit ++ ruleLedger rest := by
  unfold ruleLedger
  rw [List.filter_append, List.map_append]

theorem ruleLedger_eq_nil {audit : List AuditLogEntry}
    (h : ∀ entry ∈ audit, entry.entityType ≠ "rule") : ruleLedger audit = [] := by
  unfold ruleLedger
  rw [List.filter_eq_nil_iff.mpr fun entry hentry => by simpa using h entry hentry]
  rfl

namespace InMemoryRulePackRepository

variable {s t : InMemoryStore} {app app' : App InMemoryStore} {u v : Uuid} {ref : PackRef}
  {rule : Rule} {rules : List Rule} {data : RuleData}

/-- A list has a rule with an identifier and a payload. -/
def HoldsIn (rules : List Rule) (u : Uuid) (data : RuleData) : Prop :=
  ∃ rule ∈ rules, rule.id = some u ∧ ruleToJson rule = data

/-- Some object has a rule with an identifier and a payload. -/
def Holds (s : InMemoryStore) (u : Uuid) (data : RuleData) : Prop :=
  ∃ ref, HoldsIn (rulesOf s ref) u data

theorem not_holdsIn (h : ∀ rule ∈ rules, rule.id ≠ some u) : ¬HoldsIn rules u data := by
  intro hholds
  obtain ⟨rule, hmem, hid, -⟩ := hholds
  exact h rule hmem hid

theorem holdsIn_append {rules' : List Rule} :
    HoldsIn (rules ++ rules') u data ↔ HoldsIn rules u data ∨ HoldsIn rules' u data := by
  unfold HoldsIn
  simp only [List.mem_append, or_and_right, exists_or]

/-- One object, and the others. -/
theorem holds_split (s : InMemoryStore) (ref : PackRef) : Holds s u data ↔
    HoldsIn (rulesOf s ref) u data ∨ ∃ r, r ≠ ref ∧ HoldsIn (rulesOf s r) u data := by
  constructor
  · intro h
    obtain ⟨r, hr⟩ := h
    by_cases heq : r = ref
    · exact .inl (heq ▸ hr)
    · exact .inr ⟨r, heq, hr⟩
  · intro h
    cases h with
    | inl hhere => exact ⟨ref, hhere⟩
    | inr hother =>
      obtain ⟨r, -, hr⟩ := hother
      exact ⟨r, hr⟩

theorem holds_update (h : rulesOf t = Function.update (rulesOf s) ref rules) : Holds t u data ↔
    HoldsIn rules u data ∨ ∃ r, r ≠ ref ∧ HoldsIn (rulesOf s r) u data := by
  have hothers : (∃ r, r ≠ ref ∧ HoldsIn (rulesOf t r) u data) ↔
      ∃ r, r ≠ ref ∧ HoldsIn (rulesOf s r) u data := by
    apply exists_congr
    intro r
    apply and_congr_right
    intro hr
    rw [h, Function.update_of_ne hr]
  rw [holds_split t ref, hothers, h, Function.update_self]

theorem OwnIds.holds_drawn (h : OwnIds s) (hholds : Holds s u data) : u < s.nextUuid := by
  obtain ⟨ref, rule, hmem, hid, -⟩ := hholds
  obtain ⟨before, after, hrules⟩ := List.append_of_mem hmem
  exact h.drawn _ _ _ (idAt_of_rules hrules hid)

/-- An identifier has one payload. -/
theorem OwnIds.holds_iff (h : OwnIds s) (hmem : rule ∈ rulesOf s ref) (hid : rule.id = some u) :
    Holds s u data ↔ ruleToJson rule = data := by
  constructor
  · intro hholds
    obtain ⟨ref', rule', hmem', hid', hdata⟩ := hholds
    obtain ⟨before, after, hrules⟩ := List.append_of_mem hmem
    obtain ⟨before', after', hrules'⟩ := List.append_of_mem hmem'
    obtain ⟨rfl, hlength⟩ := h.unique _ _ _ _ _ (idAt_of_rules hrules' hid') (idAt_of_rules hrules hid)
    -- The two are at one place of one pack.
    have hparts := List.append_inj (hrules'.symm.trans hrules) hlength
    rw [← (List.cons.inj hparts.2).1]
    exact hdata
  · intro hdata
    exact ⟨ref, rule, hmem, hid, hdata⟩

/-! ## The rules after a write -/

/-- The writes that edit no rule. -/
def LeavesRules (s : InMemoryStore) (w : Write) : Prop :=
  WritesOwnIds s w ∧ ∀ p rules, w ≠ .saveEdited p rules

theorem rulesOf_saveEdited {p : RulePack} (hwrote : Wrote s t (.saveEdited p rules)) :
    ∃ ref, p = s.objects ref ∧ ref ∈ refs s ∧
      rulesOf t = Function.update (rulesOf s) ref rules := by
  cases hwrote with
  | @saveEdited ref rules hmem hstore hobjects =>
    refine ⟨ref, rfl, hmem, ?_⟩
    funext r
    unfold rulesOf
    by_cases hr : r = ref
    · rw [hobjects, hr, Function.update_self, Function.update_self]
    · rw [hobjects, Function.update_of_ne hr, Function.update_of_ne hr]
  | status hsave => exact absurd trivial hsave

/-- A write fills a new object, or changes the rules of a stored one, or changes no rules. -/
theorem rulesOf_wrote {w : Write} (hwrote : Wrote s t w) :
    (∃ p, w = .saveNew p ∧ rulesOf t = Function.update (rulesOf s) s.nextRef p.rules) ∨
    (∃ ref rules, w = .saveEdited (s.objects ref) rules ∧ ref ∈ refs s ∧
      rulesOf t = Function.update (rulesOf s) ref rules) ∨ rulesOf t = rulesOf s := by
  -- One case for each way of writing: a new pack, the rules of a Draft, or neither.
  cases hwrote with
  | @saveNew p hfree hstore hobjects =>
    refine .inl ⟨p, rfl, ?_⟩
    funext r
    unfold rulesOf
    by_cases hr : r = s.nextRef
    · rw [hobjects, hr, Function.update_self, Function.update_self]
    · rw [hobjects, Function.update_of_ne hr, Function.update_of_ne hr]
  | @saveEdited ref rules hmem hstore hobjects =>
    have hwrote : Wrote s t (.saveEdited (s.objects ref) rules) := .saveEdited hmem hstore hobjects
    obtain ⟨ref', hp, hmem', hrules⟩ := rulesOf_saveEdited hwrote
    exact .inr (.inl ⟨ref', rules, congrArg (Write.saveEdited · rules) hp, hmem', hrules⟩)
  | @updateMetadata u lock fields ref hget hmeta hstore hobjects =>
    refine .inr (.inr ?_)
    funext r
    unfold rulesOf
    by_cases hr : r = ref
    · rw [hobjects, hr, Function.update_self]
      exact (foldl_set_metadata fields hmeta (s.objects ref)).2.1
    · rw [hobjects, Function.update_of_ne hr]
  | status hsave hstore hobjects =>
    refine .inr (.inr ?_)
    funext r
    unfold rulesOf
    rw [hobjects r]

theorem nextRef_save {r : PackRef} (h : save ref s = .ok (r, t)) : t.nextRef = s.nextRef := by
  unfold save at h
  cases h
  show (assignId ref s).nextRef = s.nextRef
  unfold assignId
  split <;> rfl

theorem nextRef_updateById {lock : Option Nat} {f : RulePack → RulePack} {r : PackRef}
    (h : updateById u lock f s = .ok (r, t)) : t.nextRef = s.nextRef := by
  unfold updateById at h
  split at h
  · cases h
  · obtain ⟨_, -, h⟩ := Except.bind_ok_iff.mp h
    cases h
    rfl

theorem nextRef_deprecateActive (rs : List PackRef) (s : InMemoryStore) :
    (rs.foldl deprecateActive s).nextRef = s.nextRef := by
  induction rs generalizing s with
  | nil => rfl
  | cons r rs ih =>
    rw [List.foldl_cons, ih]
    simp only [deprecateActive]
    split <;> rfl

/-- No write gives an address back. -/
theorem nextRef_performs {w : Write} (h : lawful.Performs s w t) : s.nextRef ≤ t.nextRef := by
  -- No write takes a reference back.
  cases h with
  | saveNew hid hfree hsave =>
    rw [nextRef_save hsave]
    exact Nat.le_succ _
  | saveEdited hs' hreads hdraft hsave =>
    rw [nextRef_save hsave]
    cases hs' with
    | inl h =>
      rw [h]
      exact le_refl _
    | inr h =>
      rw [h]
      exact le_refl _
  | @updateMetadata p u lock fields r _ hp hdraft hmeta hupdate =>
    have hupdate : updateById u lock (fields.foldl PackAttr.set ·) s = .ok (r, t) := hupdate
    exact le_of_eq (nextRef_updateById hupdate).symm
  | @publish p u r _ hp hdraft hvalid hupdate =>
    have hupdate : updateById u none (fun p => { p with status := .published }) s = .ok (r, t) :=
      hupdate
    exact le_of_eq (nextRef_updateById hupdate).symm
  | @softDelete p u lock r _ hp hactive hdelete =>
    have hdelete : updateById u lock (fun p => { p with status := .archived }) s = .ok (r, t) :=
      hdelete
    exact le_of_eq (nextRef_updateById hdelete).symm
  | activate hactivate =>
    have hactivate : activate _ _ _ s = .ok (_, t) := hactivate
    unfold activate at hactivate
    split at hactivate
    · cases hactivate
    · obtain ⟨_, -, h⟩ := Except.bind_ok_iff.mp hactivate
      cases h
      exact le_of_eq (nextRef_deprecateActive _ s).symm
  | promoteToShadow hreads hvalid ht hne =>
    rw [ht]
    exact le_refl _

/-- Every rule with an identifier has one of its own, in an object that there is. -/
structure OwnRules (s : InMemoryStore) : Prop where
  ids : OwnIds s
  fresh : ∀ ref, s.nextRef ≤ ref → rulesOf s ref = []

theorem keeps_ownRules : lawful.Keeps OwnRules WritesOwnIds where
  metadata := keeps_ownIds.metadata
  write := by
    intro s w t hInv h hw hperforms
    have hwrote := wrote_of_performs hperforms
    have hInv' := (hperforms.step hInv).1
    have hle := nextRef_performs hperforms
    refine ⟨keeps_ownIds.write s w t hInv h.ids hw hperforms, fun r hr => ?_⟩
    have hold : rulesOf s r = [] := h.fresh r (le_trans hle hr)
    -- The object that gets rules is stored then, so its address was given out.
    rcases rulesOf_wrote hwrote with ⟨p, rfl, hrules⟩ | ⟨ref, rules, rfl, hmem, hrules⟩ | hrules
    · have hlt : s.nextRef < t.nextRef := by
        cases hwrote with
        | saveNew hfree hstore hobjects =>
          apply hInv'.allocated
          exact (Dict.mem_values_iff t.store).mpr ⟨_, by rw [hstore, Dict.get?_set, if_pos rfl]⟩
        | status hsave => exact absurd trivial hsave
      have hne : r ≠ s.nextRef := (lt_of_lt_of_le hlt hr).ne'
      rw [hrules, Function.update_of_ne hne]
      exact hold
    · have hlt := lt_of_lt_of_le (hInv.allocated _ hmem) hle
      have hne : r ≠ ref := (lt_of_lt_of_le hlt hr).ne'
      rw [hrules, Function.update_of_ne hne]
      exact hold
    · rw [hrules]
      exact hold
  draw := fun s h => ⟨keeps_ownIds.draw s h.ids, h.fresh⟩
  create := fun s ref u rule hInv h => keeps_ownIds.create s ref u rule hInv h.ids

theorem OwnRules.holds_of_wrote (h : OwnRules s) {w : Write} (hwrote : Wrote s t w)
    (hw : LeavesRules s w) : Holds t u data ↔ Holds s u data := by
  rcases rulesOf_wrote hwrote with ⟨p, rfl, hrules⟩ | ⟨ref, rules, rfl, -, -⟩ | hrules
  · -- Neither the rules of a new pack have identifiers, nor was there anything in its place.
    have hnew : ∀ rule ∈ p.rules, rule.id ≠ some u := by
      intro rule hrule hid
      rw [hw.1 rule hrule] at hid
      cases hid
    have hold : ¬HoldsIn (rulesOf s s.nextRef) u data := by
      rw [h.fresh _ (le_refl _)]
      exact not_holdsIn fun _ hrule => absurd hrule List.not_mem_nil
    rw [holds_update hrules, holds_split s s.nextRef, or_iff_right hold,
      or_iff_right (not_holdsIn hnew)]
  · exact absurd rfl (hw.2 _ _)
  · unfold Holds
    rw [hrules]

/-- A rule takes the place of what had its identifier, or of nothing. -/
theorem OwnIds.holds_put (h : OwnIds t) {before old after : List Rule}
    (hrules : rulesOf s ref = before ++ old ++ after) (hold : ∀ r ∈ old, r.id = some u)
    (hid : rule.id = some u)
    (ht : rulesOf t = Function.update (rulesOf s) ref (before ++ [rule] ++ after)) :
    Holds t v data ↔ if v = u then ruleToJson rule = data else Holds s v data := by
  by_cases hv : v = u
  · subst hv
    have hmem : rule ∈ rulesOf t ref := by
      rw [ht, Function.update_self]
      simp
    rw [if_pos rfl, h.holds_iff hmem hid]
  · -- Under another identifier the two lists hold the same.
    have hne : some u ≠ some v := fun heq => hv (Option.some.inj heq).symm
    have hnot : ¬HoldsIn [rule] v data := not_holdsIn fun r hr => by
      rw [List.mem_singleton.mp hr, hid]
      exact hne
    have hnot' : ¬HoldsIn old v data := not_holdsIn fun r hr => by
      rw [hold r hr]
      exact hne
    rw [if_neg hv, holds_update ht, holds_split s ref, hrules]
    simp only [holdsIn_append, or_iff_left hnot, or_iff_left hnot']

/-! ## The invariant -/

/-- The payloads that the ledger leads to. -/
def recorded (app : App InMemoryStore) : Ledger.Store String RuleData :=
  Ledger.replay (fun _ => none) (ruleLedger app.audit)

/-- The entries of rules are a ledger of the rules there are. -/
structure Trailed (app : App InMemoryStore) : Prop where
  inv : lawful.Inv app.repository
  own : OwnRules app.repository
  sound : Ledger.Sound (fun _ => none) (ruleLedger app.audit)
  current : ∀ u data, recorded app (toString u) = some data ↔ Holds app.repository u data
  truthful : ∀ entry ∈ app.audit, entry.entityType = "rule" → entry.Truthful

/-- What edits no rule, and records none, keeps it. -/
theorem Trailed.kept (h : Trailed app) (hInv : lawful.Inv app'.repository)
    (hown : OwnRules app'.repository) {entries : List AuditLogEntry}
    (haudit : app'.audit = app.audit ++ entries) (hentries : ∀ e ∈ entries, e.entityType ≠ "rule")
    (hholds : ∀ u data, Holds app'.repository u data ↔ Holds app.repository u data) :
    Trailed app' := by
  have hledger : ruleLedger app'.audit = ruleLedger app.audit := by
    rw [haudit, ruleLedger_append, ruleLedger_eq_nil hentries, List.append_nil]
  refine ⟨hInv, hown, ?_, fun u data => ?_, fun e he htype => ?_⟩
  · rw [hledger]
    exact h.sound
  · unfold recorded
    rw [hledger, hholds]
    exact h.current u data
  · rw [haudit, List.mem_append] at he
    cases he with
    | inl hold => exact h.truthful e hold htype
    | inr hnew => exact absurd htype (hentries e hnew)

/-- An edit of one rule that is recorded keeps it. -/
theorem Trailed.edited (h : Trailed app) (hInv : lawful.Inv app'.repository)
    (hown : OwnRules app'.repository) {entry : AuditLogEntry} {after : RuleData}
    (haudit : app'.audit = app.audit ++ [entry]) (htype : entry.entityType = "rule")
    (hkey : entry.entityId = toString u) (htruthful : entry.Truthful)
    (hbefore : ∀ data, entry.ruleBefore = some data ↔ Holds app.repository u data)
    (hafter : entry.ruleAfter = some after)
    (hholds : ∀ v data, Holds app'.repository v data ↔
      if v = u then after = data else Holds app.repository v data) : Trailed app' := by
  have hledger : ruleLedger app'.audit =
      ruleLedger app.audit ++ [⟨toString u, entry.ruleBefore, some after⟩] := by
    have hentry : ruleLedger [entry] = [⟨entry.entityId, entry.ruleBefore, entry.ruleAfter⟩] := by
      simp [ruleLedger, htype]
    rw [haudit, ruleLedger_append, hentry, hkey, hafter]
  refine ⟨hInv, hown, ?_, fun v data => ?_, fun e he => ?_⟩
  · rw [hledger]
    apply h.sound.append
    -- Before, the entry shows the rule there is, which is what the ledger leads to.
    refine ⟨Option.ext fun data => ?_, trivial⟩
    exact (hbefore data).trans (h.current u data).symm
  · unfold recorded
    rw [hledger, Ledger.replay_concat, hholds]
    by_cases hv : v = u
    · subst hv
      rw [if_pos rfl, Ledger.Change.apply, Function.update_self]
      exact Option.some_inj
    · have hne : toString v ≠ toString u := fun heq => hv (toString_uuid_inj heq)
      rw [if_neg hv, Ledger.Change.apply_of_ne hne]
      exact h.current v data
  · rw [haudit, List.mem_append, List.mem_singleton] at he
    cases he with
    | inl hold => exact h.truthful e hold
    | inr hnew =>
      rw [hnew]
      exact fun _ => htruthful

/-! ## Edits of rules -/

/-- An edit of a stored pack that puts a rule in the place of what had its identifier, or of
    nothing, is recorded with the rule before and after. -/
theorem Trailed.put (h : Trailed app) {s : InMemoryStore} (hs : rulesOf s = rulesOf app.repository)
    {p : RulePack} {before old after : List Rule}
    (hwrote : Wrote s app'.repository (.saveEdited p (before ++ [rule] ++ after)))
    (hrules : p.rules = before ++ old ++ after) (hold : ∀ r ∈ old, r.id = some u)
    (hid : rule.id = some u) (hInv : lawful.Inv app'.repository) (hown : OwnRules app'.repository)
    {entry : AuditLogEntry} (haudit : app'.audit = app.audit ++ [entry])
    (htype : entry.entityType = "rule") (hkey : entry.entityId = toString u)
    (htruthful : entry.Truthful)
    (hbefore : ∀ data, entry.ruleBefore = some data ↔ Holds app.repository u data)
    (hafter : entry.ruleAfter = some (ruleToJson rule)) : Trailed app' := by
  refine h.edited hInv hown haudit htype hkey htruthful hbefore hafter fun v data => ?_
  obtain ⟨ref, rfl, -, ht⟩ := rulesOf_saveEdited hwrote
  rw [hs] at ht
  have hthere : rulesOf app.repository ref = before ++ old ++ after := by
    rw [← hs]
    exact hrules
  exact hown.ids.holds_put hthere hold hid ht

/-- A creation records the rule under the identifier drawn for it. -/
theorem createRule_records {packId : Uuid} {actor : String} {created : Rule}
    (hcreate : CreateRuleUseCase.execute inMemoryRulePackRepository packId data actor app =
      .ok (created, app')) : ∃ rule t, ruleFromJson data = .ok rule ∧
    created = { rule with id := some app.repository.nextUuid } ∧
    app' = writeAudit app t {
      entityType := "rule", entityId := idText created.id, action := "created", actor
      before := none, after := some (.rule created.id (ruleToJson created)), reason := none } := by
  unfold CreateRuleUseCase.execute at hcreate
  split at hcreate
  · cases hcreate
  · rename_i ref hget
    simp only at hcreate
    split at hcreate
    · cases hcreate
    · obtain ⟨rule, hrule, h⟩ := Except.bind_ok_iff.mp hcreate
      obtain ⟨_, -, h⟩ := Except.bind_ok_iff.mp h
      -- A payload has no identifier, so one is drawn.
      have hnew : identified inMemoryRulePackRepository rule app.repository =
          ({ rule with id := some app.repository.nextUuid }, (uuid4 app.repository).2) := by
        unfold identified
        rw [id_of_ruleFromJson hrule]
        rfl
      rw [hnew] at h
      obtain ⟨⟨saved, t⟩, -, h⟩ := Except.bind_ok_iff.mp h
      cases h
      exact ⟨rule, t, hrule, rfl, rfl⟩

theorem Trailed.createRule (h : Trailed app) {packId : Uuid} {actor : String} {created : Rule}
    (hcreate : CreateRuleUseCase.execute inMemoryRulePackRepository packId data actor app =
      .ok (created, app')) : Trailed app' := by
  obtain ⟨hInv, hown⟩ := keeps_ownRules.createRule h.inv h.own hcreate
  obtain ⟨rule, t, hrule, rfl, happ⟩ := createRule_records hcreate
  obtain ⟨ref, rule', hreads, -, hrule', -, hperforms⟩ := lawful.createRule_saves h.inv hcreate
  obtain rfl : rule' = rule := Except.ok.inj (hrule'.symm.trans hrule)
  have hwrote := wrote_of_performs hperforms
  rw [← List.append_nil (_ ++ [_])] at hwrote
  have hrules : ∀ rules : List Rule, rules = rules ++ [] ++ [] := fun rules => by simp
  have hdrawn : rulesOf (uuid4 app.repository).2 = rulesOf app.repository := rfl
  refine h.put hdrawn hwrote (hrules _) (fun r hr => absurd hr List.not_mem_nil) rfl hInv hown
    (congrArg App.audit happ) rfl rfl (.inl ⟨rfl, rfl, rfl⟩) (fun data => ?_) rfl
  constructor
  · intro hnone
    cases hnone
  · intro hholds
    exact absurd (h.own.ids.holds_drawn hholds) (Nat.lt_irrefl _)

theorem Trailed.bulkCreateRules (h : Trailed app) {packId : Uuid} {actor : String}
    (rulesData : List RuleData) :
    Trailed (BulkCreateRulesUseCase.execute inMemoryRulePackRepository packId actor rulesData
      app).2 := by
  induction rulesData generalizing app with
  | nil => exact h
  | cons data rest ih =>
    rw [BulkCreateRulesUseCase.execute]
    cases hcreate : CreateRuleUseCase.execute inMemoryRulePackRepository packId data actor app with
    | error e => exact h
    | ok result => exact ih (h.createRule hcreate)

/-- Only the rule itself is disabled. -/
theorem OwnIds.disableRule_eq (h : OwnIds s) {before after : List Rule} {ruleId : Uuid}
    (hrules : rulesOf s ref = before ++ rule :: after) (hid : rule.id = some ruleId) :
    disableRule ruleId (rulesOf s ref) = before ++ { rule with enabled := false } :: after := by
  have hbefore : ∀ r ∈ before, r.id ≠ some ruleId := by
    intro r hr heq
    obtain ⟨first, rest, rfl⟩ := List.append_of_mem hr
    have hrules' : rulesOf s ref = first ++ r :: (rest ++ rule :: after) := by
      rw [hrules, List.append_assoc, List.cons_append]
    have hplace := (h.unique _ _ _ _ _ (idAt_of_rules hrules' heq) (idAt_of_rules hrules hid)).2
    rw [List.length_append, List.length_cons] at hplace
    omega
  rw [hrules]
  clear hrules
  unfold disableRule
  induction before with
  | nil => simp [hid]
  | cons r rest ih =>
    rw [List.forall_mem_cons] at hbefore
    have hskip : (r.id == some ruleId) = false := beq_false_of_ne hbefore.1
    rw [List.cons_append, List.replaceF_cons, hskip, if_neg Bool.false_ne_true]
    simp only [ih hbefore.2, List.cons_append]

theorem updateRule_records {ruleId : Uuid} {actor : String} {updated : Rule}
    (hupdate : UpdateRuleUseCase.execute inMemoryRulePackRepository ruleId data actor app =
      .ok (updated, app')) : ∃ ref rule t,
    findRule inMemoryRulePackRepository ruleId app.repository = some (ref, rule) ∧
    app' = writeAudit app t {
      entityType := "rule", entityId := toString ruleId, action := "updated", actor
      before := some (.rule rule.id (ruleToJson rule))
      after := some (.rule updated.id (ruleToJson updated)), reason := none } ∧
    ∃ rule', ruleFromJson ((ruleToJson rule).override data) = .ok rule' ∧
      updated = { rule' with id := rule.id } := by
  unfold UpdateRuleUseCase.execute at hupdate
  split at hupdate
  · cases hupdate
  · rename_i ref rule hfind
    simp only at hupdate
    split at hupdate
    · cases hupdate
    · obtain ⟨rule', hrule', h⟩ := Except.bind_ok_iff.mp hupdate
      obtain ⟨⟨saved, t⟩, -, h⟩ := Except.bind_ok_iff.mp h
      cases h
      exact ⟨ref, rule, t, hfind, rfl, rule', hrule', rfl⟩

theorem deleteRule_records {ruleId : Uuid} {actor : String} {reason : Option String}
    {deleted : Rule}
    (hdelete : DeleteRuleUseCase.execute inMemoryRulePackRepository ruleId actor reason app =
      .ok (deleted, app')) : ∃ ref rule t,
    findRule inMemoryRulePackRepository ruleId app.repository = some (ref, rule) ∧
    app' = writeAudit app t {
      entityType := "rule", entityId := toString ruleId, action := "deleted", actor
      before := some (.rule rule.id (ruleToJson rule))
      after := some (.rule deleted.id (ruleToJson deleted)), reason } ∧
    deleted = { rule with enabled := false } := by
  unfold DeleteRuleUseCase.execute at hdelete
  split at hdelete
  · cases hdelete
  · rename_i ref rule hfind
    simp only at hdelete
    split at hdelete
    · cases hdelete
    · obtain ⟨⟨saved, t⟩, -, h⟩ := Except.bind_ok_iff.mp hdelete
      cases h
      exact ⟨ref, rule, t, hfind, rfl, rfl⟩

/-- The edit of the rule that was found, recorded with the rule before and after. -/
theorem Trailed.replaced (h : Trailed app) {ruleId : Uuid} {rule' : Rule}
    (hfind : findRule inMemoryRulePackRepository ruleId app.repository = some (ref, rule))
    (hid' : rule'.id = rule.id)
    (hedited : ∀ before after, rulesOf app.repository ref = before ++ rule :: after →
      rules = before ++ rule' :: after)
    (hperforms : lawful.Performs app.repository
      (.saveEdited (app.repository.objects ref) rules) app'.repository)
    {entry : AuditLogEntry} (haudit : app'.audit = app.audit ++ [entry])
    (htype : entry.entityType = "rule") (hkey : entry.entityId = toString ruleId)
    (htruthful : entry.Truthful) (hbefore : entry.ruleBefore = some (ruleToJson rule))
    (hafter : entry.ruleAfter = some (ruleToJson rule')) : Trailed app' := by
  obtain ⟨hmem, hid⟩ := rule_of_findRule hfind
  have hmem : rule ∈ rulesOf app.repository ref := hmem
  obtain ⟨before, after, hrules⟩ := List.append_of_mem hmem
  rw [hedited before after hrules] at hperforms
  -- The identifiers of the pack stay, as the rule keeps its own.
  have hids : WritesOwnIds app.repository
      (.saveEdited (app.repository.objects ref) (before ++ rule' :: after)) := by
    refine .inl ?_
    show _ = (rulesOf app.repository ref).map Rule.id
    rw [hrules]
    simp only [List.map_append, List.map_cons, hid']
  have hown := keeps_ownRules.write _ _ _ h.inv h.own hids hperforms
  have hwrote := wrote_of_performs hperforms
  have hparts : ∀ r : Rule, before ++ r :: after = before ++ [r] ++ after := fun r => by simp
  rw [hparts] at hwrote
  refine h.put rfl hwrote (hrules.trans (hparts rule)) ?_ (hid'.trans hid) (hperforms.step h.inv).1
    hown haudit htype hkey htruthful (fun data => ?_) hafter
  · intro r hr
    rw [List.mem_singleton.mp hr, hid]
  · rw [hbefore, h.own.ids.holds_iff hmem hid]
    exact Option.some_inj

theorem Trailed.updateRule (h : Trailed app) {ruleId : Uuid} {actor : String} {updated : Rule}
    (hupdate : UpdateRuleUseCase.execute inMemoryRulePackRepository ruleId data actor app =
      .ok (updated, app')) : Trailed app' := by
  obtain ⟨ref, rule, t, hfind, happ, rule', hrule', rfl⟩ := updateRule_records hupdate
  obtain ⟨_, _, _, hfind', -, hsame, hperforms⟩ := lawful.updateRule_performs h.inv hupdate
  rw [hfind] at hfind'
  cases hfind'
  cases hsame.symm.trans hrule'
  obtain ⟨-, hid⟩ := rule_of_findRule hfind
  have hid' : ({ rule' with id := rule.id } : Rule).id = rule.id := rfl
  exact h.replaced hfind hid' (fun before after hrules => h.own.ids.replaceRule_eq hrules hid _)
    hperforms (congrArg App.audit happ) rfl rfl (.inr (.inl ⟨rfl, rfl, rfl⟩)) rfl rfl

theorem Trailed.deleteRule (h : Trailed app) {ruleId : Uuid} {actor : String}
    {reason : Option String} {deleted : Rule}
    (hdelete : DeleteRuleUseCase.execute inMemoryRulePackRepository ruleId actor reason app =
      .ok (deleted, app')) : Trailed app' := by
  obtain ⟨ref, rule, t, hfind, happ, rfl⟩ := deleteRule_records hdelete
  obtain ⟨_, _, hfind', -, hperforms⟩ := lawful.deleteRule_performs h.inv hdelete
  rw [hfind] at hfind'
  cases hfind'
  obtain ⟨-, hid⟩ := rule_of_findRule hfind
  have hid' : ({ rule with enabled := false } : Rule).id = rule.id := rfl
  exact h.replaced hfind hid' (fun before after hrules => h.own.ids.disableRule_eq hrules hid)
    hperforms (congrArg App.audit happ) rfl rfl (.inr (.inr ⟨ruleToJson rule, rfl, rfl, rfl⟩)) rfl
    rfl

/-! ## Other calls -/

/-- The calls that edit rules. -/
def Call.EditsRules : Call → Prop
  | .createRule .. | .bulkCreateRules .. | .updateRule .. | .deleteRule .. => True
  | _ => False

theorem leavesRules {call : Call} (hcall : call.AsRouted app) (hedits : ¬Call.EditsRules call) :
    call.Each inMemoryRulePackRepository LeavesRules app := by
  have hcreates : ¬call.CreatesRules := by
    intro hcreates
    cases call with
    | createRule | bulkCreateRules => exact hedits trivial
    | _ => exact hcreates
  refine (writesOwnIds_of_routed hcall hcreates).map₂
    (Q := fun _ w => ∀ p rules, w ≠ .saveEdited p rules) ?_ fun s w hw hedit => ⟨hw, hedit⟩
  cases call with
  | createRule | bulkCreateRules | updateRule | deleteRule => exact absurd trivial hedits
  | _ => simp [Call.Each]

/-- Where nothing is recorded, nothing of a rule is. -/
theorem audit_unchanged {app' : App InMemoryStore} (h : app'.audit = app.audit) :
    ∃ entries, app'.audit = app.audit ++ entries ∧ ∀ e ∈ entries, e.entityType ≠ "rule" :=
  ⟨[], by rw [h, List.append_nil], fun e he => absurd he List.not_mem_nil⟩

/-- What a call that returns records is of a pack. -/
theorem audit_outcome {α : Type} {result : Except PyError (α × App InMemoryStore)}
    (hok : ∀ a app', result = .ok (a, app') →
      ∃ t entry, app' = writeAudit app t entry ∧ entry.entityType = "rule_pack") :
    ∃ entries, (outcome app result).2.audit = app.audit ++ entries ∧
      ∀ e ∈ entries, e.entityType ≠ "rule" := by
  unfold outcome
  split
  · obtain ⟨t, entry, rfl, htype⟩ := hok _ _ rfl
    refine ⟨[entry], rfl, fun e he => ?_⟩
    rw [List.mem_singleton.mp he, htype]
    decide
  · exact audit_unchanged rfl

theorem audit_exec {call : Call} (hedits : ¬Call.EditsRules call) :
    ∃ entries, (call.exec inMemoryRulePackRepository app).2.audit = app.audit ++ entries ∧
      ∀ e ∈ entries, e.entityType ≠ "rule" := by
  cases call with
  | createRule | bulkCreateRules | updateRule | deleteRule => exact absurd trivial hedits
  | createRulePack =>
    refine audit_outcome fun r app' h => ?_
    obtain ⟨t, -, rfl⟩ := CreateRulePackUseCase.execute_ok h
    exact ⟨t, _, rfl, rfl⟩
  | importRulePack =>
    refine audit_outcome fun r app' h => ?_
    obtain ⟨_, _, t, -, -, -, -, rfl⟩ := ImportRulePackUseCase.execute_ok h
    exact ⟨t, _, rfl, rfl⟩
  | updateMetadata =>
    refine audit_outcome fun r app' h => ?_
    obtain ⟨_, t, -, -, -, rfl⟩ := UpdateRulePackMetadataUseCase.execute_ok h
    exact ⟨t, _, rfl, rfl⟩
  | publish =>
    refine audit_outcome fun r app' h => ?_
    obtain ⟨_, t, -, -, -, -, rfl⟩ := PublishRulePackUseCase.execute_ok h
    exact ⟨t, _, rfl, rfl⟩
  | activate =>
    refine audit_outcome fun r app' h => ?_
    obtain ⟨_, t, -, -, -, rfl⟩ := ActivateRulePackUseCase.execute_ok h
    exact ⟨t, _, rfl, rfl⟩
  | rollback =>
    refine audit_outcome fun r app' h => ?_
    obtain ⟨_, _, t, -, -, -, -, rfl⟩ := RollbackRulePackUseCase.execute_ok h
    exact ⟨t, _, rfl, rfl⟩
  | softDelete =>
    refine audit_outcome fun r app' h => ?_
    obtain ⟨_, t, -, -, -, rfl⟩ := SoftDeleteRulePackUseCase.execute_ok h
    exact ⟨t, _, rfl, rfl⟩
  | seed ruleSetName =>
    -- The seeding and the promotion record nothing.
    apply audit_unchanged
    rw [Call.exec]
    cases hseed : SeedActivePolicyOnStartupUseCase.execute inMemoryRulePackRepository ruleSetName
        app with
    | error e => rfl
    | ok result =>
      unfold SeedActivePolicyOnStartupUseCase.execute at hseed
      split at hseed
      · cases hseed
        rfl
      · obtain ⟨_, -, hseed⟩ := Except.bind_ok_iff.mp hseed
        obtain ⟨_, -, hseed⟩ := Except.bind_ok_iff.mp hseed
        cases hseed
        rfl
  | promoteToShadow candidateId activeId matrix sampleIncidents =>
    apply audit_unchanged
    rw [Call.exec]
    split
    · simp only [PromoteToShadowUseCase.execute]
      split <;> rfl
    · rfl
    · rfl

/-! ## One call -/

theorem Trailed.exec (h : Trailed app) {call : Call} (hcall : call.AsRouted app) :
    Trailed (call.exec inMemoryRulePackRepository app).2 := by
  by_cases hedits : Call.EditsRules call
  · cases call with
    | createRule packId data actor =>
      rw [Call.exec]
      cases hcreate : CreateRuleUseCase.execute inMemoryRulePackRepository packId data actor app with
      | error e => exact h
      | ok result => exact h.createRule hcreate
    | bulkCreateRules packId rulesData actor => exact h.bulkCreateRules rulesData
    | updateRule ruleId data actor =>
      rw [Call.exec]
      cases hupdate : UpdateRuleUseCase.execute inMemoryRulePackRepository ruleId data actor app with
      | error e => exact h
      | ok result => exact h.updateRule hupdate
    | deleteRule ruleId actor reason =>
      rw [Call.exec]
      cases hdelete : DeleteRuleUseCase.execute inMemoryRulePackRepository ruleId actor reason app with
      | error e => exact h
      | ok result => exact h.deleteRule hdelete
    | _ => exact absurd hedits id
  · obtain ⟨entries, haudit, hentries⟩ : ∃ entries,
        (call.exec inMemoryRulePackRepository app).2.audit = app.audit ++ entries ∧
          ∀ e ∈ entries, e.entityType ≠ "rule" := audit_exec hedits
    obtain ⟨hInv, hrun⟩ := lawful.exec_performs (fun _ _ _ _ hw _ => keeps_ownRules.metadata _ _ _ _ hw.1 trivial)
      h.inv (leavesRules hcall hedits)
    -- No write of the call changes what is held.
    have hkept : OwnRules (call.exec inMemoryRulePackRepository app).2.repository ∧ ∀ u data,
        Holds (call.exec inMemoryRulePackRepository app).2.repository u data ↔
          Holds app.repository u data := by
      refine Run.RunWhere.invariant
        (fun t => OwnRules t ∧ ∀ u data, Holds t u data ↔ Holds app.repository u data) ?_ hrun.run
        ⟨h.own, fun _ _ => Iff.rfl⟩
      intro s w t hperforms hw hs
      refine ⟨keeps_ownRules.write s w t hw.1 hs.1 hw.2.1 hperforms, fun u data => ?_⟩
      rw [hs.1.holds_of_wrote (wrote_of_performs hperforms) hw.2]
      exact hs.2 u data
    exact h.kept hInv hkept.1 haudit hentries hkept.2

end InMemoryRulePackRepository

end PulseGuard
