import PulseGuard.Spec.PairedBackends

/-!
# Writes to the two backends

Each write of the interface, made to two paired stores: under the condition stated with it both
backends raise, or both leave paired stores. What goes wrong without the condition is the
difference between the two classes: Postgres drops the tenant of a new pack, reads its parent
off another row, keeps codes unique, skips a column that does not change and ignores attributes
that `update_metadata` does not know.
-/

namespace PulseGuard

open InMemoryRulePackRepository (refs)
open PostgresRulePackRepository (Storable FreeCodes ruleToDomain)

variable {order : RowOrder} {m : InMemoryStore} {p : PostgresStore} {u v : Uuid} {ref : PackRef}
  {q : RulePack}

/-- Rules that show the same have the same codes. -/
theorem codes_of_shown {rules rules' : List Rule}
    (h : rules.map Rule.shown = rules'.map Rule.shown) :
    rules.map Rule.ruleCode = rules'.map Rule.ruleCode := by
  have hcodes := congrArg (List.map Rule.ruleCode) h
  rw [List.map_map, List.map_map] at hcodes
  exact hcodes

/-- Drawing identifiers. -/
theorem Paired.uuid4 (h : Paired m p) :
    Paired (InMemoryRulePackRepository.uuid4 m).2 (PostgresRulePackRepository.uuid4 p).2 where
  memory := ⟨InMemoryRulePackRepository.lawful.inv_uuid4 h.memory.inv, h.memory.keyed⟩
  postgres := ⟨(PostgresRulePackRepository.lawful writtenOrder).inv_uuid4 h.postgres.inv,
    h.postgres.distinct, h.postgres.codes⟩
  level := h.level

/-! ## Saves -/

/-- A new pack that both backends store as it is. Over a pack of its name and version it has the
    tenant and the parent of that pack and none of its codes; under a name and version of its
    own it has no tenant, and the parent it names is stored. -/
structure Savable (c : Catalogue) (pack : RulePack) : Prop where
  new : pack.id = none
  rules : Storable pack.rules
  overwrites : ∀ u p, c u = some p → p.nameVersion = pack.nameVersion →
    pack.tenantId = p.tenantId ∧ pack.parentVersion = p.parentVersion ∧
      ∀ rule ∈ pack.rules, ∀ r ∈ p.rules, r.ruleCode ≠ rule.ruleCode
  fresh : (∀ u p, c u = some p → p.nameVersion ≠ pack.nameVersion) → pack.tenantId = none ∧
    ∀ version, pack.parentVersion = some version →
      ∃ u p, c u = some p ∧ p.name = pack.name ∧ p.version = version

theorem Savable.of_level {c d : Catalogue} {pack : RulePack} (hs : Savable c pack)
    (h : Level c d) : Savable d pack where
  new := hs.new
  rules := hs.rules
  overwrites := by
    intro v q hq hkey
    obtain ⟨u, p, hp, hshown⟩ := h.back v q hq
    obtain ⟨htenant, hparent, hcodes⟩ := hs.overwrites u p hp
      ((RulePack.nameVersion_of_shown hshown).trans hkey)
    refine ⟨htenant.trans (congrArg ShownPack.tenantId hshown),
      hparent.trans (RulePack.parentVersion_of_shown hshown), ?_⟩
    intro rule hrule r hr
    have hmem : r.ruleCode ∈ p.rules.map Rule.ruleCode := by
      rw [codes_of_shown (RulePack.rules_of_shown hshown)]
      exact List.mem_map_of_mem hr
    obtain ⟨r', hr', hsame⟩ := List.mem_map.mp hmem
    rw [← hsame]
    exact hcodes rule hrule r' hr'
  fresh := by
    intro hfree
    have hfree' : ∀ u p, c u = some p → p.nameVersion ≠ pack.nameVersion := by
      intro u p hp hkey
      obtain ⟨v, q, hq, hshown⟩ := h.forth u p hp
      exact hfree v q hq ((RulePack.nameVersion_of_shown hshown).symm.trans hkey)
    obtain ⟨htenant, hparent⟩ := hs.fresh hfree'
    refine ⟨htenant, fun version hversion => ?_⟩
    obtain ⟨u, p, hp, hname, hpversion⟩ := hparent version hversion
    obtain ⟨v, q, hq, hshown⟩ := h.forth u p hp
    exact ⟨v, q, hq, (RulePack.name_of_shown hshown).symm.trans hname,
      (RulePack.version_of_shown hshown).symm.trans hpversion⟩

/-- A savable pack is saved by Postgres, under a key of its own or over the pack there. -/
theorem PostgresRulePackRepository.save_puts (order : RowOrder)
    (hs : PostgresRulePackRepository.Shelved p) {pack : RulePack}
    (hsavable : Savable (PostgresRulePackRepository.catalogue p) pack) :
    ∃ r t q, PostgresRulePackRepository.save order pack p = .ok (r, t) ∧
      PostgresRulePackRepository.Shelved t ∧ r.shown = pack.shown ∧ q.shown = pack.shown ∧
      (PostgresRulePackRepository.catalogue p).Puts q (PostgresRulePackRepository.catalogue t) := by
  by_cases htaken : ∃ u old, PostgresRulePackRepository.catalogue p u = some old ∧
      old.nameVersion = pack.nameVersion
  · obtain ⟨u, old, hold, hkey⟩ := htaken
    obtain ⟨htenant, hparent, hcodes⟩ := hsavable.overwrites u old hold hkey
    have hkey : (old.name, old.version) = (pack.name, pack.version) := hkey
    rw [Prod.mk.injEq] at hkey
    exact overwrite_puts order hs hold hkey.1 hkey.2 hsavable.rules hcodes htenant hparent
  · have hfree : ∀ u old, PostgresRulePackRepository.catalogue p u = some old →
        old.nameVersion ≠ pack.nameVersion :=
      fun u old hold hkey => htaken ⟨u, old, hold, hkey⟩
    obtain ⟨htenant, hparent⟩ := hsavable.fresh hfree
    exact saveNew_puts order hs hsavable.new hfree hsavable.rules htenant hparent

/-- A savable pack is saved by both. -/
theorem Paired.save (order : RowOrder) (h : Paired m p) {pack : RulePack}
    (hsavable : Savable (InMemoryRulePackRepository.catalogue m) pack) :
    ∃ x y, InMemoryRulePackRepository.save (InMemoryRulePackRepository.new pack m).1
        (InMemoryRulePackRepository.new pack m).2 = .ok x ∧
      PostgresRulePackRepository.save order pack p = .ok y ∧ SameResult x y := by
  obtain ⟨ref, m', hsave, hm, hobject, hputs⟩ :=
    InMemoryRulePackRepository.saveNew_puts h.memory hsavable.new
  obtain ⟨r, p', q, hsave', hp, hr, hq, hputs'⟩ :=
    PostgresRulePackRepository.save_puts order h.postgres (hsavable.of_level h.level)
  have hshown : RulePack.shown { pack with id := some m.nextUuid } = pack.shown := rfl
  refine ⟨_, _, hsave, hsave', ⟨hm, hp, h.level.puts hputs hputs' (hshown.trans hq.symm)⟩, ?_⟩
  show (m'.objects ref).shown = r.shown
  rw [hobject, hr, hshown]

theorem PostgresRulePackRepository.id_of_catalogue
    (hq : PostgresRulePackRepository.catalogue p v = some q) : q.id = some v := by
  obtain ⟨row, hrow, rfl⟩ := PostgresRulePackRepository.exists_row hq
  exact congrArg some (PostgresRulePackRepository.row?_mem hrow).2

/-- A pack that was read is saved by both, when it was edited in status, region, author and
    rules, and the rules show the same once stored. -/
theorem Paired.saveEdited (order : RowOrder) (h : Paired m p) (hsame : SamePack m p ref q)
    {pack pack' : RulePack} (hkey : pack.nameVersion = (m.objects ref).nameVersion)
    (hid : pack.id = (m.objects ref).id) (hkey' : pack'.nameVersion = q.nameVersion)
    (hids : ∀ rule ∈ pack'.rules, rule.id.isSome = true) (hcodes : FreeCodes q.rules pack'.rules)
    (hshown : pack.shown = RulePack.shown { q with
      status := pack'.status, region := pack'.region, rules := pack'.rules.map ruleToDomain }) :
    ∃ x y, InMemoryRulePackRepository.save ref
        (InMemoryRulePackRepository.assign ref pack m).2 = .ok x ∧
      PostgresRulePackRepository.save order pack' p = .ok y ∧ Paired x.2 y.2 ∧
      (x.2.objects x.1).shown = pack.shown ∧ y.1.shown = pack'.shown ∧
      (InMemoryRulePackRepository.catalogue m).SameKeys (InMemoryRulePackRepository.catalogue x.2) ∧
      (PostgresRulePackRepository.catalogue p).SameKeys (PostgresRulePackRepository.catalogue y.2) := by
  have hsave := InMemoryRulePackRepository.save_assign h.memory hsame.stored hkey hid
  obtain ⟨hm, hputs⟩ := h.memory.assign hsame.stored hkey hid
  generalize hm' : (InMemoryRulePackRepository.assign ref pack m).2 = m' at hsave hm hputs
  have hobject : m'.objects ref = pack := by
    rw [← hm']
    exact Function.update_self ..
  obtain ⟨v, hq⟩ := hsame.read
  have hkeys' : (pack'.name, pack'.version) = (q.name, q.version) := hkey'
  rw [Prod.mk.injEq] at hkeys'
  obtain ⟨r', p', q', hsave', hp, hr', hq', hputs'⟩ :=
    PostgresRulePackRepository.saveEdited_puts order h.postgres hq hkeys'.1.symm hkeys'.2.symm hids
      hcodes
  have hkeys : (InMemoryRulePackRepository.catalogue m).SameKeys
      (InMemoryRulePackRepository.catalogue m') := by
    obtain ⟨u, hu, hold⟩ := h.memory.exists_id hsame.stored
    obtain ⟨w, hw⟩ := hputs.there
    obtain ⟨-, -, -, -, hwid⟩ := hm.exists_ref hw
    obtain rfl : u = w := Option.some.inj (hu.symm.trans (hid.symm.trans hwid))
    exact hputs.sameKeys h.memory.distinct hold hkey hw
  have hkeys' : (PostgresRulePackRepository.catalogue p).SameKeys
      (PostgresRulePackRepository.catalogue p') := by
    obtain ⟨w, hw⟩ := hputs'.there
    have hwid := PostgresRulePackRepository.id_of_catalogue hw
    rw [hq'] at hwid
    obtain rfl : v = w := Option.some.inj ((PostgresRulePackRepository.id_of_catalogue hq).symm.trans hwid)
    have hkey : q'.nameVersion = q.nameVersion := by
      rw [hq']
      rfl
    exact hputs'.sameKeys h.postgres.distinct hq hkey hw
  refine ⟨_, _, hsave, hsave', ⟨hm, hp, h.level.puts hputs hputs' ?_⟩, ?_, hr', hkeys, hkeys'⟩
  · rw [hq']
    exact hshown
  · exact congrArg RulePack.shown hobject

/-- So is a pack with new rules. -/
theorem Paired.saveRules (order : RowOrder) (h : Paired m p) (hsame : SamePack m p ref q)
    {rules rules' : List Rule} (hids : ∀ rule ∈ rules', rule.id.isSome = true)
    (hcodes : FreeCodes q.rules rules')
    (hrules : rules.map Rule.shown = (rules'.map ruleToDomain).map Rule.shown) :
    ∃ x y, InMemoryRulePackRepository.save ref
        (InMemoryRulePackRepository.assign ref { m.objects ref with rules } m).2 = .ok x ∧
      PostgresRulePackRepository.save order { q with rules := rules' } p = .ok y ∧
      Paired x.2 y.2 ∧
      (InMemoryRulePackRepository.catalogue m).SameKeys (InMemoryRulePackRepository.catalogue x.2) ∧
      (PostgresRulePackRepository.catalogue p).SameKeys (PostgresRulePackRepository.catalogue y.2) := by
  have hkey : RulePack.nameVersion { m.objects ref with rules } = (m.objects ref).nameVersion := rfl
  have hid : RulePack.id { m.objects ref with rules } = (m.objects ref).id := rfl
  have hkey' : RulePack.nameVersion { q with rules := rules' } = q.nameVersion := rfl
  have hshown : RulePack.shown { m.objects ref with rules } =
      RulePack.shown { q with rules := rules'.map ruleToDomain } := by
    rw [← RulePack.status_of_shown hsame.shown]
    exact RulePack.shown_congr hsame.shown hrules
  obtain ⟨x, y, hx, hy, hpaired, -, -, hkeys⟩ :=
    h.saveEdited order hsame hkey hid hkey' hids hcodes hshown
  exact ⟨x, y, hx, hy, hpaired, hkeys⟩

/-- Rules of a row read as they are. -/
theorem plain_of_catalogue {q : RulePack} (hq : PostgresRulePackRepository.catalogue p v = some q) :
    ∀ rule ∈ q.rules, ruleToDomain rule = rule := by
  obtain ⟨row, -, rfl⟩ := PostgresRulePackRepository.exists_row hq
  intro rule hrule
  obtain ⟨old, -, rfl⟩ := List.mem_map.mp hrule
  exact PostgresRulePackRepository.ruleToDomain_ruleToDomain old

theorem map_of_plain {rules : List Rule} (h : ∀ rule ∈ rules, ruleToDomain rule = rule) :
    rules.map ruleToDomain = rules :=
  (List.map_congr_left h).trans (List.map_id _)

/-- An attribute that a save over a row writes: status, region and author, and the name and
    version that the pack has. A lock version is kept in memory only, and not shown. -/
def PackAttr.Saved (name : String) (version : Int) : PackAttr → Prop
  | .name value => value = name
  | .version value => value = version
  | .status _ => True
  | .region _ => True
  | .createdBy _ => True
  | .lockVersion _ => True
  | _ => False

/-- Packs that show the same still do when the same attributes are set on them. -/
private theorem shown_foldl_set_congr {pack pack' : RulePack} (fields : List PackAttr)
    (h : pack.shown = pack'.shown) :
    (fields.foldl PackAttr.set pack).shown = (fields.foldl PackAttr.set pack').shown := by
  induction fields generalizing pack pack' with
  | nil => exact h
  | cons attr rest ih =>
    apply ih
    unfold RulePack.shown at h ⊢
    rw [ShownPack.mk.injEq] at h ⊢
    obtain ⟨hname, hversion, hstatus, hregion, htenant, hparent, hrules⟩ := h
    cases attr with
    | name => exact ⟨rfl, hversion, hstatus, hregion, htenant, hparent, hrules⟩
    | version => exact ⟨hname, rfl, hstatus, hregion, htenant, hparent, hrules⟩
    | status => exact ⟨hname, hversion, rfl, hregion, htenant, hparent, hrules⟩
    | region => exact ⟨hname, hversion, hstatus, rfl, htenant, hparent, hrules⟩
    | rules => exact ⟨hname, hversion, hstatus, hregion, htenant, hparent, rfl⟩
    | parentVersion => exact ⟨hname, hversion, hstatus, hregion, htenant, rfl, hrules⟩
    | tenantId => exact ⟨hname, hversion, hstatus, hregion, rfl, hparent, hrules⟩
    | _ => exact ⟨hname, hversion, hstatus, hregion, htenant, hparent, hrules⟩

/-- What saved attributes make of a pack. -/
private theorem foldl_set_saved {pack : RulePack} {fields : List PackAttr}
    (h : ∀ field ∈ fields, field.Saved pack.name pack.version) :
    let edited := fields.foldl PackAttr.set pack
    edited = { pack with
      status := edited.status, region := edited.region, createdBy := edited.createdBy
      lockVersion := edited.lockVersion } := by
  induction fields generalizing pack with
  | nil => rfl
  | cons attr rest ih =>
    obtain ⟨hattr, hrest⟩ := List.forall_mem_cons.mp h
    have hset : (attr.set pack).name = pack.name ∧ (attr.set pack).version = pack.version ∧
        attr.set pack = { pack with
          status := (attr.set pack).status, region := (attr.set pack).region
          createdBy := (attr.set pack).createdBy, lockVersion := (attr.set pack).lockVersion } := by
      cases attr with
      | name value =>
        obtain rfl : value = pack.name := hattr
        exact ⟨rfl, rfl, rfl⟩
      | version value =>
        obtain rfl : value = pack.version := hattr
        exact ⟨rfl, rfl, rfl⟩
      | status => exact ⟨rfl, rfl, rfl⟩
      | region => exact ⟨rfl, rfl, rfl⟩
      | createdBy => exact ⟨rfl, rfl, rfl⟩
      | lockVersion => exact ⟨rfl, rfl, rfl⟩
      | _ => cases hattr
    obtain ⟨hname, hversion, hset⟩ := hset
    have hrest' : ∀ field ∈ rest, field.Saved (attr.set pack).name (attr.set pack).version := by
      rw [hname, hversion]
      exact hrest
    intro edited
    have hfold : edited = { attr.set pack with
        status := edited.status, region := edited.region, createdBy := edited.createdBy
        lockVersion := edited.lockVersion } := ih hrest'
    rw [hset] at hfold
    exact hfold

/-- A pack that was read is saved by both with saved attributes. -/
theorem Paired.saveRead (order : RowOrder) (h : Paired m p) (hsame : SamePack m p ref q)
    {fields : List PackAttr}
    (hfields : ∀ field ∈ fields, field.Saved q.name q.version) :
    ∃ x y, InMemoryRulePackRepository.save ref
        (InMemoryRulePackRepository.assign ref (fields.foldl PackAttr.set (m.objects ref)) m).2 =
        .ok x ∧
      PostgresRulePackRepository.save order (fields.foldl PackAttr.set q) p = .ok y ∧
      SameResult x y := by
  obtain ⟨v, hq⟩ := hsame.read
  have hfields' : ∀ field ∈ fields, field.Saved (m.objects ref).name (m.objects ref).version := by
    rw [RulePack.name_of_shown hsame.shown, RulePack.version_of_shown hsame.shown]
    exact hfields
  have hedited := foldl_set_saved hfields'
  have hedited' := foldl_set_saved hfields
  have hshown := shown_foldl_set_congr fields hsame.shown
  generalize fields.foldl PackAttr.set (m.objects ref) = pack at hedited hshown ⊢
  generalize fields.foldl PackAttr.set q = pack' at hedited' hshown ⊢
  have hkey : pack.nameVersion = (m.objects ref).nameVersion := by
    rw [hedited]
    rfl
  have hid : pack.id = (m.objects ref).id := by
    rw [hedited]
  have hkey' : pack'.nameVersion = q.nameVersion := by
    rw [hedited']
    rfl
  have hrules : pack'.rules = q.rules := by
    rw [hedited']
  have hstored : pack.shown = RulePack.shown { q with
      status := pack'.status, region := pack'.region, rules := pack'.rules.map ruleToDomain } := by
    rw [hshown, hrules, map_of_plain (plain_of_catalogue hq)]
    have hread := congrArg RulePack.shown hedited'
    exact hread
  have hids : ∀ rule ∈ pack'.rules, rule.id.isSome = true := by
    rw [hrules]
    exact PostgresRulePackRepository.isSome_id_of_catalogue h.postgres.inv hq
  have hcodes : FreeCodes q.rules pack'.rules := by
    rw [hrules]
    exact .refl (h.postgres.codes v q hq)
  obtain ⟨x, y, hx, hy, hpaired, hxshown, hyshown, -⟩ :=
    h.saveEdited order hsame hkey hid hkey' hids hcodes hstored
  exact ⟨x, y, hx, hy, hpaired, hxshown.trans (hshown.trans hyshown.symm)⟩

/-! ## Updates by identifier -/

/-- The packs of a name and version in the two stores pass the lock check alike. -/
def SameLock (c d : Catalogue) (lock : Option Nat) (key : String ×ₗ Int) : Prop :=
  ∀ u v p q, c u = some p → d v = some q → p.nameVersion = key → q.nameVersion = key →
    (LockMatches lock p ↔ LockMatches lock q)

theorem sameLock_none (c d : Catalogue) (key : String ×ₗ Int) : SameLock c d none key :=
  fun _ _ _ _ _ _ _ _ => ⟨fun _ _ h => (by cases h), fun _ _ h => (by cases h)⟩

/-- An update that does the same to what both stores show of a pack, and leaves its name,
    version and identifier. -/
theorem Paired.updateById (h : Paired m p)
    (hid : SameId (InMemoryRulePackRepository.catalogue m) (PostgresRulePackRepository.catalogue p) u v)
    {lock : Option Nat} {f : RulePack → RulePack} {g : RuleSetRow → Bool × RuleSetRow}
    (hlock : ∀ r, InMemoryRulePackRepository.catalogue m u = some r →
      SameLock (InMemoryRulePackRepository.catalogue m) (PostgresRulePackRepository.catalogue p) lock
        r.nameVersion)
    (hf : ∀ r, InMemoryRulePackRepository.catalogue m u = some r → LockMatches lock r →
      (f r).nameVersion = r.nameVersion ∧ (f r).id = r.id)
    (hg : ∀ row, (g row).2.id = row.id ∧ (g row).2.version = row.version ∧
      (g row).2.parentVersionId = row.parentVersionId ∧ (g row).2.rules = row.rules)
    (hsame : ∀ r row, InMemoryRulePackRepository.catalogue m u = some r → LockMatches lock r →
      r.shown = (PostgresRulePackRepository.toDomain p row).shown →
      (f r).shown = (PostgresRulePackRepository.toDomain p (g row).2).shown) :
    Except.Both SameResult (InMemoryRulePackRepository.updateById u lock f m)
      (PostgresRulePackRepository.updateById v lock g p) := by
  obtain ⟨hmnone, hmsome⟩ := InMemoryRulePackRepository.updateById_cases (u := u) h.memory lock f
  obtain ⟨hpnone, hpsome⟩ := PostgresRulePackRepository.updateById_cases (u := v) h.postgres lock g hg
  rcases hid.cases h.level with ⟨hp, hq⟩ | ⟨r, q, hp, hq, hshown⟩
  · -- neither backend has the pack
    obtain ⟨e, hm⟩ := hmnone hp
    obtain ⟨e', hp'⟩ := hpnone hq
    rw [hm, hp']
    exact .error
  · obtain ⟨hmstale, hmfresh⟩ := hmsome r hp
    obtain ⟨hpstale, hpfresh⟩ := hpsome q hq
    have hcheck := hlock r hp u v r q hp hq rfl (RulePack.nameVersion_of_shown hshown).symm
    by_cases hmatches : LockMatches lock r
    · -- both have it, and the lock version is right on both or stale on both
      obtain ⟨hkey, hfid⟩ := hf r hp hmatches
      obtain ⟨ref, m', hm, hmemory, hobject, hputs⟩ := hmfresh hkey hfid hmatches
      obtain ⟨row, rfl, hupdate⟩ := hpfresh (hcheck.mp hmatches)
      have hshown' := hsame r row hp hmatches hshown
      have hname : (g row).2.name = row.name := by
        have hfname : (f r).name = r.name := congrArg (fun key => (ofLex key).1) hkey
        calc (g row).2.name = (f r).name := (RulePack.name_of_shown hshown').symm
          _ = r.name := hfname
          _ = row.name := RulePack.name_of_shown hshown
      obtain ⟨q', p', hp', hpostgres, hq', hputs'⟩ := hupdate hname
      have hresult : RulePack.shown { f r with lockVersion := (f r).lockVersion + 1 } = q'.shown := by
        rw [hq']
        exact hshown'
      rw [hm, hp']
      refine .ok ⟨⟨hmemory, hpostgres, h.level.puts hputs hputs' hresult⟩, ?_⟩
      show (m'.objects ref).shown = q'.shown
      rw [hobject]
      exact hresult
    · obtain ⟨e, hm⟩ := hmstale hmatches
      obtain ⟨e', hp'⟩ := hpstale fun hq' => hmatches (hcheck.mpr hq')
      rw [hm, hp']
      exact .error

theorem Paired.updateStatus (h : Paired m p)
    (hid : SameId (InMemoryRulePackRepository.catalogue m) (PostgresRulePackRepository.catalogue p) u v)
    {lock : Option Nat} (hlock : ∀ r, InMemoryRulePackRepository.catalogue m u = some r →
      SameLock (InMemoryRulePackRepository.catalogue m) (PostgresRulePackRepository.catalogue p) lock
        r.nameVersion) (status : PackStatus) :
    Except.Both SameResult (InMemoryRulePackRepository.updateStatus u status lock m)
      (PostgresRulePackRepository.updateStatus v status lock p) := by
  apply h.updateById hid hlock
  · intro r _ _
    exact ⟨rfl, rfl⟩
  · intro row
    exact ⟨rfl, rfl, rfl, rfl⟩
  · intro r row _ _ hshown
    exact RulePack.shown_congr hshown (RulePack.rules_of_shown hshown)

theorem Paired.softDelete (h : Paired m p)
    (hid : SameId (InMemoryRulePackRepository.catalogue m) (PostgresRulePackRepository.catalogue p) u v)
    {lock : Option Nat} (hlock : ∀ r, InMemoryRulePackRepository.catalogue m u = some r →
      SameLock (InMemoryRulePackRepository.catalogue m) (PostgresRulePackRepository.catalogue p) lock
        r.nameVersion) :
    Except.Both SameResult (InMemoryRulePackRepository.softDelete u lock m)
      (PostgresRulePackRepository.softDelete v lock p) := by
  apply h.updateById hid hlock
  · intro r _ _
    exact ⟨rfl, rfl⟩
  · intro row
    exact ⟨rfl, rfl, rfl, rfl⟩
  · intro r row _ _ hshown
    exact RulePack.shown_congr hshown (RulePack.rules_of_shown hshown)

/-- An attribute that both backends set: a region, a tenant, an author, and the name that the
    pack has. A lock version is set in memory only, and not shown. -/
def PackAttr.Shared (name : String) : PackAttr → Prop
  | .name value => value = name
  | .region value => value.isSome = true
  | .tenantId value => value.isSome = true
  | .createdBy _ => True
  | .lockVersion _ => True
  | _ => False

/-- One attribute. -/
private theorem shown_set {r : RulePack} {b : Bool} {row : RuleSetRow} {attr : PackAttr}
    (hshown : r.shown = (PostgresRulePackRepository.toDomain p row).shown)
    (hattr : attr.Shared r.name) :
    (attr.set r).name = r.name ∧ (attr.set r).version = r.version ∧ (attr.set r).id = r.id ∧
      (attr.set r).shown =
        (PostgresRulePackRepository.toDomain p
          (PostgresRulePackRepository.setColumn (b, row) attr).2).shown := by
  have hshown' := hshown
  unfold RulePack.shown at hshown'
  rw [ShownPack.mk.injEq] at hshown'
  obtain ⟨hname, hversion, hstatus, hregion, htenant, hparent, hrules⟩ := hshown'
  cases attr with
  | name value =>
    obtain rfl : value = r.name := hattr
    refine ⟨rfl, rfl, rfl, ?_⟩
    unfold RulePack.shown
    rw [ShownPack.mk.injEq]
    exact ⟨rfl, hversion, hstatus, hregion, htenant, hparent, hrules⟩
  | region value =>
    cases value with
    | none => cases hattr
    | some region =>
      refine ⟨rfl, rfl, rfl, ?_⟩
      unfold RulePack.shown
      rw [ShownPack.mk.injEq]
      exact ⟨hname, hversion, hstatus, rfl, htenant, hparent, hrules⟩
  | tenantId value =>
    cases value with
    | none => cases hattr
    | some tenant =>
      refine ⟨rfl, rfl, rfl, ?_⟩
      unfold RulePack.shown
      rw [ShownPack.mk.injEq]
      exact ⟨hname, hversion, hstatus, hregion, rfl, hparent, hrules⟩
  | createdBy value => exact ⟨rfl, rfl, rfl, hshown⟩
  | lockVersion value => exact ⟨rfl, rfl, rfl, hshown⟩
  | _ => cases hattr

/-- And all of them. -/
private theorem shown_foldl_set {fields : List PackAttr} {r : RulePack} {b : Bool} {row : RuleSetRow}
    (hshown : r.shown = (PostgresRulePackRepository.toDomain p row).shown)
    (hfields : ∀ field ∈ fields, field.Shared r.name) :
    (fields.foldl PackAttr.set r).nameVersion = r.nameVersion ∧
      (fields.foldl PackAttr.set r).id = r.id ∧
      (fields.foldl PackAttr.set r).shown =
        (PostgresRulePackRepository.toDomain p
          (fields.foldl PostgresRulePackRepository.setColumn (b, row)).2).shown := by
  induction fields generalizing r b row with
  | nil => exact ⟨rfl, rfl, hshown⟩
  | cons attr rest ih =>
    obtain ⟨hattr, hrest⟩ := List.forall_mem_cons.mp hfields
    obtain ⟨hname, hversion, hid, hset⟩ := shown_set (b := b) hshown hattr
    rw [← hname] at hrest
    obtain ⟨hkey, hid', hfold⟩ := ih hset hrest
    refine ⟨hkey.trans ?_, hid'.trans hid, hfold⟩
    unfold RulePack.nameVersion
    rw [hname, hversion]

theorem Paired.updateMetadata (h : Paired m p)
    (hid : SameId (InMemoryRulePackRepository.catalogue m) (PostgresRulePackRepository.catalogue p) u v)
    {lock : Option Nat} (fields : List PackAttr)
    (hlock : ∀ r, InMemoryRulePackRepository.catalogue m u = some r →
      SameLock (InMemoryRulePackRepository.catalogue m) (PostgresRulePackRepository.catalogue p) lock
        r.nameVersion)
    (hfields : ∀ r, InMemoryRulePackRepository.catalogue m u = some r → LockMatches lock r →
      ∀ field ∈ fields, field.Shared r.name) :
    Except.Both SameResult (InMemoryRulePackRepository.updateMetadata u lock fields m)
      (PostgresRulePackRepository.updateMetadata v lock fields p) := by
  have hcolumns := PostgresRulePackRepository.foldl_setColumn fields false
  apply h.updateById hid hlock
  · intro r hr hmatches
    obtain ⟨v', q, hq, hshown⟩ := h.level.forth u r hr
    obtain ⟨row, -, rfl⟩ := PostgresRulePackRepository.exists_row hq
    obtain ⟨hkey, hid', -⟩ := shown_foldl_set (b := false) hshown (hfields r hr hmatches)
    exact ⟨hkey, hid'⟩
  · intro row
    obtain ⟨hid', hversion, hparent, hrules, -⟩ := hcolumns row
    exact ⟨hid', hversion, hparent, hrules⟩
  · intro r row hr hmatches hshown
    exact (shown_foldl_set hshown (hfields r hr hmatches)).2.2

/-! ## Activation -/

theorem SameLock.found {name : String} {version : Int} {lock : Option Nat}
    (hlock : SameLock (InMemoryRulePackRepository.catalogue m)
      (PostgresRulePackRepository.catalogue p) lock (toLex (name, version))) (h : Paired m p)
    (hp : PostgresRulePackRepository.get order name version p = some q)
    (hsame : SamePack m p ref q) : LockMatches lock (m.objects ref) ↔ LockMatches lock q := by
  obtain ⟨u, -, hr⟩ := h.memory.exists_id hsame.stored
  obtain ⟨v, hq⟩ := hsame.read
  obtain ⟨-, hname, hversion⟩ := (PostgresRulePackRepository.get_eq_some_iff h.postgres).mp hp
  have hkey : q.nameVersion = toLex (name, version) := by
    unfold RulePack.nameVersion
    rw [hname, hversion]
  exact hlock u v _ q hr hq ((RulePack.nameVersion_of_shown hsame.shown).trans hkey) hkey

theorem Paired.activate (order : RowOrder) (h : Paired m p) {name : String} {version : Int}
    {lock : Option Nat}
    (hlock : SameLock (InMemoryRulePackRepository.catalogue m)
      (PostgresRulePackRepository.catalogue p) lock (toLex (name, version))) :
    Except.Both SameResult (InMemoryRulePackRepository.activate name version lock m)
      (PostgresRulePackRepository.activate order name version lock p) := by
  obtain ⟨hmnone, hmsome⟩ := InMemoryRulePackRepository.activate_cases h.memory name version lock
  obtain ⟨hpnone, hpsome⟩ :=
    PostgresRulePackRepository.activate_cases order h.postgres name version lock
  rcases PyList.rel_cases (h.get order name version) with ⟨hm, hp⟩ | ⟨ref, q, hm, hp, hsame⟩
  · obtain ⟨e, hm'⟩ := hmnone hm
    obtain ⟨e', hp'⟩ := hpnone hp
    rw [hm', hp']
    exact .error
  · obtain ⟨hmstale, hmfresh⟩ := hmsome ref hm
    obtain ⟨hpstale, hpfresh⟩ := hpsome q hp
    have hcheck := hlock.found h hp hsame
    by_cases hmatches : LockMatches lock (m.objects ref)
    · obtain ⟨m', u, r', hm', hmemory, hobject, hu, hr', hmlevel⟩ := hmfresh hmatches
      obtain ⟨q', p', v, hp', hpostgres, hv, hq', hplevel⟩ := hpfresh (hcheck.mp hmatches)
      have hshown : r'.shown = q'.shown := by
        rw [hr', hq']
        exact RulePack.shown_congr hsame.shown (RulePack.rules_of_shown hsame.shown)
      have hlevel : Level (InMemoryRulePackRepository.catalogue m')
          (PostgresRulePackRepository.catalogue p') := by
        rw [hmlevel, hplevel]
        apply h.level.activate hu hv hsame.shown _ _ hshown
        · rw [hr']
          rfl
        · rw [hq']
          rfl
      rw [hm', hp']
      refine .ok ⟨⟨hmemory, hpostgres, hlevel⟩, ?_⟩
      show (m'.objects ref).shown = q'.shown
      rw [hobject, hshown]
    · obtain ⟨e, hm'⟩ := hmstale hmatches
      obtain ⟨e', hp'⟩ := hpstale fun hq' => hmatches (hcheck.mpr hq')
      rw [hm', hp']
      exact .error

/-! ## Rules -/

/-- Two identifiers that name the same rules of every pack that is in both stores. -/
def SameRule (c d : Catalogue) (u v : Uuid) : Prop :=
  ∀ u' v' p q, c u' = some p → d v' = some q → p.nameVersion = q.nameVersion →
    List.Forall₂ (fun r r' => r.id = some u ↔ r'.id = some v) p.rules q.rules

/-- Two rules that show the same, and are named by two identifiers or by neither. -/
def SameNamed (u v : Uuid) (r r' : Rule) : Prop :=
  r.shown = r'.shown ∧ (r.id = some u ↔ r'.id = some v)

theorem SameRule.named (h : Paired m p)
    (hid : SameRule (InMemoryRulePackRepository.catalogue m) (PostgresRulePackRepository.catalogue p) u v)
    (hsame : SamePack m p ref q) :
    List.Forall₂ (SameNamed u v) (m.objects ref).rules q.rules := by
  obtain ⟨u', -, hr⟩ := h.memory.exists_id hsame.stored
  obtain ⟨v', hq⟩ := hsame.read
  have hids := hid u' v' _ q hr hq (RulePack.nameVersion_of_shown hsame.shown)
  have hrules := RulePack.rules_of_shown hsame.shown
  generalize (m.objects ref).rules = rules at hids hrules
  generalize q.rules = rules' at hids hrules
  induction hids with
  | nil => exact .nil
  | cons hhead _ ih =>
    rw [List.map_cons, List.map_cons, List.cons.injEq] at hrules
    exact .cons ⟨hrules.1, hhead⟩ (ih hrules.2)

/-- The same rule is found, in the same pack. -/
theorem Paired.foundRule (order : RowOrder) (h : Paired m p)
    (hid : SameRule (InMemoryRulePackRepository.catalogue m) (PostgresRulePackRepository.catalogue p) u v) :
    Option.Rel (fun x y => SamePack m p x.1 y.1 ∧ SameNamed u v x.2 y.2)
      (findRule inMemoryRulePackRepository u m)
      (findRule (postgresRulePackRepository order) v p) := by
  apply PyList.forall₂_findSome? (h.listAll order 10000)
  intro ref q hsame
  have hfound := PyList.forall₂_find? (p := fun rule => rule.id == some u)
    (q := fun rule => rule.id == some v) (hid.named h hsame) (fun r r' hr => by
      rw [Bool.eq_iff_iff, beq_iff_eq, beq_iff_eq]
      exact hr.2)
  show Option.Rel _
    (((m.objects ref).rules.find? fun rule => rule.id == some u).map fun rule => (ref, rule))
    ((q.rules.find? fun rule => rule.id == some v).map fun rule => (q, rule))
  rcases PyList.rel_cases hfound with ⟨hr, hr'⟩ | ⟨r, r', hr, hr', hnamed⟩
  · rw [hr, hr']
    exact .none
  · rw [hr, hr']
    exact .some ⟨hsame, hnamed⟩

/-- The same rule replaced. -/
theorem shown_replaceRule {rules rules' : List Rule} {updated updated' : Rule}
    (h : List.Forall₂ (SameNamed u v) rules rules') (hupdated : updated.shown = updated'.shown) :
    (replaceRule u updated rules).map Rule.shown = (replaceRule v updated' rules').map Rule.shown := by
  induction h with
  | nil => rfl
  | @cons r r' rules rules' hr _ ih =>
    have hhead : (if r.id == some u then updated else r).shown =
        (if r'.id == some v then updated' else r').shown := by
      by_cases hnamed : r.id = some u
      · simp only [hnamed, hr.2.mp hnamed, beq_self_eq_true, if_true, hupdated]
      · have hnamed' : r'.id ≠ some v := fun hv => hnamed (hr.2.mpr hv)
        simp only [beq_iff_eq, hnamed, hnamed', if_false, hr.1]
    exact congrArg₂ List.cons hhead ih

/-- The same rule disabled. -/
theorem shown_disableRule {rules rules' : List Rule} (h : List.Forall₂ (SameNamed u v) rules rules') :
    (disableRule u rules).map Rule.shown = (disableRule v rules').map Rule.shown := by
  unfold disableRule
  induction h with
  | nil => rfl
  | @cons r r' rules rules' hr hrest ih =>
    rw [List.replaceF_cons, List.replaceF_cons]
    by_cases hnamed : r.id = some u
    · have hdisabled : Rule.shown { r with enabled := false } = Rule.shown { r' with enabled := false } :=
        congrArg (fun rule : Rule => { rule with enabled := false }) hr.1
      have htail : rules.map Rule.shown = rules'.map Rule.shown := by
        clear ih hr
        induction hrest with
        | nil => rfl
        | cons hr _ ih => exact congrArg₂ List.cons hr.1 ih
      have hfound : (r.id == some u) = true := beq_iff_eq.mpr hnamed
      have hfound' : (r'.id == some v) = true := beq_iff_eq.mpr (hr.2.mp hnamed)
      simp only [hfound, hfound', if_true]
      exact congrArg₂ List.cons hdisabled htail
    · have hother : (r.id == some u) = false := beq_false_of_ne hnamed
      have hother' : (r'.id == some v) = false := beq_false_of_ne fun hv => hnamed (hr.2.mpr hv)
      simp only [hother, hother', Bool.false_eq_true, if_false, List.map_cons, hr.1, ih]

end PulseGuard
