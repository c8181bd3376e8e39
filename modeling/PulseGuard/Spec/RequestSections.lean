import PulseGuard.Native.Requests
import PulseGuard.Spec.Lifecycle

/-!
# What the sections of a request do

The reading section of a rule edit, a publication or an activation returns a pack of the store
in the status that its use case allows (`PackRequest.read_ok`). The writing section of a held
pack, however old it is, puts one pack, or deprecates others of its name
(`HeldPack.write_ok`).
-/

namespace PulseGuard

open PostgresRulePackRepository

/-- The configurations of requests on packs. -/
abbrev PackConfig (ι : Type) : Type :=
  Interleaving.Config ι PostgresStore PyError HeldPack Unit

variable {order : RowOrder} {s t : PostgresStore}

/-- A payload has no identifier for its rule. -/
theorem id_of_ruleFromJson {data : RuleData} {rule : Rule} (h : ruleFromJson data = .ok rule) :
    rule.id = none := by
  obtain ⟨_, -, h⟩ := Except.bind_ok_iff.mp h
  obtain ⟨_, -, h⟩ := Except.bind_ok_iff.mp h
  obtain ⟨_, -, h⟩ := Except.bind_ok_iff.mp h
  cases h
  rfl

/-! ## Reading -/

/-- What a request reads in `s`: the pack `u`, and what its use case makes of it. The read of a
    creation draws the identifier of the new rule. -/
inductive ReadsAs (order : RowOrder) (s : PostgresStore) (u : Uuid) (pack : RulePack) :
    PackRequest → HeldPack → PostgresStore → Prop where
  | createRule {data : RuleData} {rule : Rule} (hdraft : pack.status = .draft)
      (hrule : ruleFromJson data = .ok rule)
      (hcode : ∀ r ∈ pack.rules, r.ruleCode ≠ rule.ruleCode) :
      ReadsAs order s u pack (.edit (.createRule u data))
        (.save pack (pack.rules ++ [{ rule with id := some s.nextUuid }])) (uuid4 s).2
  | updateRule {ruleId : Uuid} {data : RuleData} {rule updated : Rule} (hdraft : pack.status = .draft)
      (hfind : findRule (postgresRulePackRepository order) ruleId s = some (pack, rule))
      (hrule : ruleFromJson ((ruleToJson rule).override data) = .ok updated) :
      ReadsAs order s u pack (.edit (.updateRule ruleId data))
        (.save pack (replaceRule ruleId { updated with id := rule.id } pack.rules)) s
  | deleteRule {ruleId : Uuid} {rule : Rule} (hdraft : pack.status = .draft)
      (hfind : findRule (postgresRulePackRepository order) ruleId s = some (pack, rule)) :
      ReadsAs order s u pack (.edit (.deleteRule ruleId)) (.save pack (disableRule ruleId pack.rules)) s
  | publish (hdraft : pack.status = .draft)
      (hvalid : (ValidateRulePackUseCase.execute pack).isValid = true) :
      ReadsAs order s u pack (.publish u) (.publish u pack) s
  | activate {lock : Option Nat} (htransition : canTransition pack.status .active = true) :
      ReadsAs order s u pack (.activate u lock) (.activate pack lock) s

theorem checkCode_ok {packId : Uuid} {code : String} {rules : List Rule}
    (h : checkCode packId code rules = .ok ()) : ∀ r ∈ rules, r.ruleCode ≠ code := by
  unfold checkCode at h
  split at h
  · cases h
  · rename_i hany
    intro r hr hcode
    exact hany (List.any_eq_true.mpr ⟨r, hr, by simp [hcode]⟩)

private theorem RuleEdit.read_ok {request : RuleEdit} {held : HeldPack} (hs : Inv s)
    (h : request.read order s = .ok (held, t)) :
    ∃ u pack, catalogue s u = some pack ∧ ReadsAs order s u pack (.edit request) held t := by
  cases request with
  | createRule packId data =>
    rw [RuleEdit.read] at h
    split at h
    · cases h
    · rename_i pack hget
      have hpack : catalogue s packId = some pack := (lawful order).getById hs hget
      split at h
      · cases h
      · rename_i hstatus
        have hdraft : pack.status = .draft := by simpa using hstatus
        obtain ⟨rule, hrule, h⟩ := Except.bind_ok_iff.mp h
        obtain ⟨_, hcode, h⟩ := Except.bind_ok_iff.mp h
        have hid := id_of_ruleFromJson hrule
        unfold identified at h
        simp only [hid, Except.pure_ok_iff] at h
        cases h
        exact ⟨packId, pack, hpack, .createRule hdraft hrule (checkCode_ok hcode)⟩
  | updateRule ruleId data =>
    rw [RuleEdit.read] at h
    split at h
    · cases h
    · rename_i pack rule hfind
      obtain ⟨u, hpack⟩ := (lawful order).reads_of_findRule hs hfind
      split at h
      · cases h
      · rename_i hstatus
        have hdraft : pack.status = .draft := by simpa using hstatus
        obtain ⟨updated, hrule, h⟩ := Except.bind_ok_iff.mp h
        rw [Except.pure_ok_iff] at h
        cases h
        exact ⟨u, pack, hpack, .updateRule hdraft hfind hrule⟩
  | deleteRule ruleId =>
    rw [RuleEdit.read] at h
    split at h
    · cases h
    · rename_i pack rule hfind
      obtain ⟨u, hpack⟩ := (lawful order).reads_of_findRule hs hfind
      split at h
      · cases h
      · rename_i hstatus
        have hdraft : pack.status = .draft := by simpa using hstatus
        cases h
        exact ⟨u, pack, hpack, .deleteRule hdraft hfind⟩

/-- A request that is not refused has read a pack of the store. -/
theorem PackRequest.read_ok {request : PackRequest} {held : HeldPack} (hs : Inv s)
    (h : request.read order s = .ok (held, t)) :
    ∃ u pack, catalogue s u = some pack ∧ ReadsAs order s u pack request held t := by
  cases request with
  | edit request => exact RuleEdit.read_ok hs h
  | publish packId =>
    rw [PackRequest.read] at h
    split at h
    · cases h
    · rename_i pack hget
      split at h
      · cases h
      · rename_i htransition
        simp only at h
        split at h
        · cases h
        · rename_i hvalid
          cases h
          exact ⟨packId, pack, (lawful order).getById hs hget, .publish
            (Lawful.draft_of_canTransition_published (by simpa using htransition)) (by simpa using hvalid)⟩
  | activate packId lock =>
    rw [PackRequest.read] at h
    split at h
    · cases h
    · rename_i pack hget
      split at h
      · cases h
      · rename_i htransition
        cases h
        exact ⟨packId, pack, (lawful order).getById hs hget, .activate (by simpa using htransition)⟩

/-- A read leaves the table as it is. -/
theorem ReadsAs.state {u : Uuid} {pack : RulePack} {request : PackRequest} {held : HeldPack}
    (h : ReadsAs order s u pack request held t) : t = s ∨ t = (uuid4 s).2 := by
  cases h with
  | createRule => exact Or.inr rfl
  | _ => exact Or.inl rfl

/-! ## Writing -/

/-- What the write of a held pack does in `s`. -/
inductive WritesAs (order : RowOrder) (s : PostgresStore) : HeldPack → PostgresStore → Prop where
  /-- A save takes the row under the key of the pack. -/
  | overwrite {pack q q' : RulePack} {rules : List Rule} {v : Uuid} {t : PostgresStore}
      (hunder : Under (postgresRulePackRepository order) s pack.name pack.version v)
      (hq : catalogue s v = some q)
      (hq' : q' = { q with
        status := pack.status, region := pack.region, createdBy := pack.createdBy
        rules := q'.rules, lockVersion := q'.lockVersion })
      (hrules : (∀ rule ∈ rules, rule.id.isSome = true) → q'.rules = rules.map ruleToDomain)
      (ht : catalogue t = (catalogue s).put v q') : WritesAs order s (.save pack rules) t
  /-- A save of a pack whose key has no row any more adds one. -/
  | insert {pack q : RulePack} {rules : List Rule} {v : Uuid} {t : PostgresStore}
      (hfirst : first order pack.name pack.version s = none) (hnew : catalogue s v = none)
      (ht : catalogue t = (catalogue s).put v q) : WritesAs order s (.save pack rules) t
  | publish {pack q : RulePack} {u : Uuid} {n : Nat} {t : PostgresStore} (hq : catalogue s u = some q)
      (ht : catalogue t = (catalogue s).put u { q with status := .published, lockVersion := n }) :
      WritesAs order s (.publish u pack) t
  | activate {pack q : RulePack} {lock : Option Nat} {v : Uuid} {n : Nat} {t : PostgresStore}
      (hunder : Under (postgresRulePackRepository order) s pack.name pack.version v)
      (hq : catalogue s v = some q)
      (ht : catalogue t =
        (catalogue s).activate pack.name v { q with status := .active, lockVersion := n }) :
      WritesAs order s (.activate pack lock) t

/-- The row that a query by name and version returns is what `get` shows. -/
theorem under_of_first {name : String} {version : Int} {row : RuleSetRow}
    (h : first order name version s = some row) :
    Under (postgresRulePackRepository order) s name version row.id := by
  refine ⟨toDomain s row, ?_, rfl⟩
  show (first order name version s).map (toDomain s) = some (toDomain s row)
  rw [h, Option.map_some]

private theorem HeldPack.save_ok {pack : RulePack} {rules : List Rule} (hs : Inv s)
    (h : HeldPack.write order (.save pack rules) s = .ok ((), t)) :
    Inv t ∧ WritesAs order s (.save pack rules) t := by
  obtain ⟨⟨saved, t'⟩, h, hpair⟩ := Except.bind_ok_iff.mp h
  rw [Except.pure_ok_iff] at hpair
  cases hpair
  unfold PostgresRulePackRepository.save at h
  cases hfirst : first order pack.name pack.version s with
  | none =>
    simp only [hfirst] at h
    obtain ⟨row, hid, -, -, -, -, -, -, -, -, -, -, hInv, ht⟩ := saveNew_effect hs h
    refine ⟨hInv, .insert hfirst ?_ ht⟩
    cases hold : catalogue s row.id with
    | none => rfl
    | some q =>
      obtain ⟨old, hrow, -⟩ := exists_row hold
      have hlt := hs.bound old (row?_mem hrow).1
      have heq : old.id = s.nextUuid := (row?_mem hrow).2.trans hid
      exact absurd heq (Nat.ne_of_lt hlt)
  | some row =>
    simp only [hfirst] at h
    obtain ⟨hmem, -, -⟩ := first_mem hfirst
    obtain ⟨row', hid, hname, hversion, htenant, hparent, hstatus, hregion, hcreated, -, -, hrules,
      -, -, hInv, ht⟩ := saveExisting_effect hs hmem h
    refine ⟨hInv, .overwrite (under_of_first hfirst) (catalogue_of_mem hs hmem) ?_ ?_ ht⟩
    · unfold toDomain
      simp only [hid, hname, hversion, htenant, hparent, hstatus, hregion, hcreated]
    · intro hids
      show row'.rules.map ruleToDomain = rules.map ruleToDomain
      rw [hrules hids]

/-- What the write of a held pack has done when it returns. -/
theorem HeldPack.write_ok {held : HeldPack} (hs : Inv s)
    (h : held.write order s = .ok ((), t)) : Inv t ∧ WritesAs order s held t := by
  cases held with
  | save pack rules => exact HeldPack.save_ok hs h
  | publish packId pack =>
    obtain ⟨⟨updated, t'⟩, h, hpair⟩ := Except.bind_ok_iff.mp h
    rw [Except.pure_ok_iff] at hpair
    cases hpair
    cases hrow : row? packId s with
    | none =>
      unfold updateStatus updateById at h
      rw [hrow] at h
      cases h
    | some old =>
      obtain ⟨hmem, rfl⟩ := row?_mem hrow
      have hold := catalogue_of_mem hs hmem
      obtain ⟨row, row', hread, -, -, -, hrow', -, hInv, ht⟩ := updateById_effect
        (f := fun row => (PackStatus.published != row.status, { row with status := .published })) hs
        hold (fun row => ⟨rfl, rfl, rfl, rfl⟩) h
      refine ⟨hInv, .publish (n := row'.lockVersion) hold ?_⟩
      rw [ht, ← hread]
      congr 1
      rw [hrow']
      split <;> rfl
  | activate pack lock =>
    obtain ⟨⟨activated, t'⟩, h, hpair⟩ := Except.bind_ok_iff.mp h
    rw [Except.pure_ok_iff] at hpair
    cases hpair
    obtain ⟨hInv, -, heffect⟩ := activate_effect none hs h
    cases heffect with
    | @activate p p' _ v _ _ _ _ hp hunder hlock hp' hbump ht =>
      refine ⟨hInv, .activate (n := p'.lockVersion) hunder hp ?_⟩
      rw [← hp']
      exact ht

/-- The tables with one Draft of one rule. -/
def onePack : PostgresStore :=
  (runCalls (postgresRulePackRepository writtenOrder) [createPlain "noc" none] postgresStart).repository

end PulseGuard
