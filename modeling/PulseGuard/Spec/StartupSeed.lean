import PulseGuard.Spec.ExportImport
import PulseGuard.Spec.Lineage
import PulseGuard.Spec.OneActive
import PulseGuard.Spec.PairedCalls
import PulseGuard.Spec.RollbackUndoes

/-!
# Seeding at startup

The seeding looks for an active pack without a region, activates whatever pack has the name and the
version of the fixture, and so deprecates the active packs of the name in every region. It touches
no pack exactly when it has nothing to do, or finds neither the version nor an active pack of the
name (`seeding_touches_nothing_iff`); `draft_seeded` is a Draft that it puts live.
-/

namespace PulseGuard

variable {σ ρ : Type}

/-- The rules of the fixture, each under an identifier of the store or none. -/
def FixtureRules (rules : List Rule) : Prop :=
  List.Forall₂ (fun rule r => r = { rule with id := r.id }) InMemoryRuleRepository.getActive.rules rules

/-- A seeding leaves every pack its status and content; where no pack without a region was active
    for the name, one is that has the rules of the fixture; and a second seeding changes nothing. -/
structure SeedsOnce (repo : RulePackRepository σ ρ) (V : StoreView σ) (ruleSetName : String)
    (app app' : App σ) : Prop where
  kept : ∀ u p, V.catalogue app.repository u = some p →
    ∃ q, V.catalogue app'.repository u = some q ∧ p.SameContent q
  seeded : (∀ u, ¬ActiveFor (V.catalogue app.repository) ruleSetName none u) →
    (∃ u, ActiveFor (V.catalogue app'.repository) ruleSetName none u) ∧
      ∀ u q, V.catalogue app'.repository u = some q → q.status = .active → q.name = ruleSetName →
        q.region = none → FixtureRules q.rules
  again : ((Call.seed ruleSetName).exec repo app').2 = app'

/-- No pack is stored under the name and the version of the fixture, and none is active for the
    name in any region. -/
def NothingToTouch (repo : RulePackRepository σ ρ) (V : StoreView σ) (ruleSetName : String)
    (s : σ) : Prop :=
  repo.get ruleSetName (fixturePack ruleSetName).version s = none ∧
    ∀ u p, V.catalogue s u = some p → p.name = ruleSetName → p.status ≠ .active

/-- What the seeding relies on: `get_active` finds packs of the name and the region, the fixture can
    be saved where its key is free and is then what `get` finds, and what `get` finds can be
    activated. -/
structure Lawful.Seeds {repo : RulePackRepository σ ρ} {V : StoreView σ} (L : Lawful repo V) :
    Prop where
  active : ∀ {s name region ref}, L.Inv s → repo.getActive name region s = some ref →
    ∃ u, ActiveFor (V.catalogue s) name region u
  saves : ∀ {s ruleSetName}, L.Inv s →
    repo.get ruleSetName (fixturePack ruleSetName).version s = none →
    ∃ ref t, repo.save (repo.new (fixturePack ruleSetName) s).1
      (repo.new (fixturePack ruleSetName) s).2 = .ok (ref, t)
  finds : ∀ {s p r t}, L.Inv s → p.id = none → repo.get p.name p.version s = none →
    repo.save (repo.new p s).1 (repo.new p s).2 = .ok (r, t) →
    ∃ v, Under repo t p.name p.version v ∧ V.supply s ≤ v
  activates : ∀ {s name version ref}, repo.get name version s = some ref →
    ∃ r t, repo.activate name version none s = .ok (r, t)
  fixture : ∀ {rules}, V.stored InMemoryRuleRepository.getActive.rules rules → FixtureRules rules

section

variable {repo : RulePackRepository σ ρ} {V : StoreView σ} {L : Lawful repo V} {ruleSetName : String}
  {app : App σ}

/-- A seeding that finds an active pack changes nothing. -/
theorem exec_seed_of_getActive {ref : ρ}
    (h : repo.getActive ruleSetName none app.repository = some ref) :
    ((Call.seed ruleSetName).exec repo app).2 = app := by
  simp only [Call.exec, SeedActivePolicyOnStartupUseCase.execute, h, outcome]

/-- So does one after which a pack is active for the name. -/
theorem exec_seed_of_active (hInv : L.Inv app.repository)
    (h : ∃ u, ActiveFor (V.catalogue app.repository) ruleSetName none u) :
    ((Call.seed ruleSetName).exec repo app).2 = app := by
  obtain ⟨u, p, hp, hactive⟩ := h
  cases hget : repo.getActive ruleSetName none app.repository with
  | none => exact absurd hactive (L.getActive_none hInv hget hp)
  | some ref => exact exec_seed_of_getActive hget

/-- The catalogue once the fixture was saved where its key was free: one new pack, which is what
    its name and version lead to. -/
theorem saved_fixture (S : L.Seeds) {s t : σ} {ref : ρ} (hInv : L.Inv s)
    (hget : repo.get ruleSetName (fixturePack ruleSetName).version s = none)
    (h : repo.save (repo.new (fixturePack ruleSetName) s).1
      (repo.new (fixturePack ruleSetName) s).2 = .ok (ref, t)) :
    L.Inv t ∧ ∃ u p, V.supply s ≤ u ∧ V.catalogue t = (V.catalogue s).put u p ∧
      p.name = ruleSetName ∧ p.region = none ∧ FixtureRules p.rules ∧
      Under repo t ruleSetName (fixturePack ruleSetName).version u ∧
      (repo.pack t ref).name = ruleSetName ∧
      (repo.pack t ref).version = (fixturePack ruleSetName).version := by
  obtain ⟨hInv', ⟨-, heffect⟩, hname', hversion'⟩ := L.saveNew hInv rfl (Or.inr hget) h
  obtain ⟨v, hunder, hv⟩ := S.finds hInv rfl hget h
  cases heffect with
  | @saveNew _ p u lost _ hsupply hu hname hversion hstatus hregion hrules hlost ht =>
    have hnone : lost = none := by
      cases lost with
      | none => rfl
      | some w =>
        obtain ⟨⟨r, hr, -⟩, -⟩ := hlost w rfl
        rw [show repo.get (fixturePack ruleSetName).name (fixturePack ruleSetName).version s = none
          from hget] at hr
        cases hr
    rw [hnone, Catalogue.drop_none] at ht
    -- what is found is in the catalogue, and older packs have older identifiers
    obtain ⟨r, hr, hid⟩ := id hunder
    obtain ⟨w, hreads⟩ := L.get hInv' hr
    obtain ⟨hw, hid'⟩ := L.reads hInv' hreads
    rw [hid] at hid'
    cases hid'
    have hvu : v = u := by
      rw [ht] at hw
      rcases Catalogue.put_eq_some hw with ⟨heq, -⟩ | ⟨-, hold⟩
      · exact heq
      · exact absurd (L.bound hInv hold) (not_lt_of_ge hv)
    rw [hvu] at hunder
    exact ⟨hInv', u, p, hsupply, ht, hname, hregion, S.fixture hrules, hunder, hname', hversion'⟩

/-- An activation that leaves every pack its status makes no pack active for a name. -/
theorem activeFor_of_activate {s t : σ} {requested : Option Uuid} {name : String} {version : Int}
    {lock : Option Nat} (h : Effect repo V s (.activate requested name version lock) t)
    (hkept : ∀ u p, V.catalogue s u = some p → ∃ q, V.catalogue t u = some q ∧ p.SameContent q)
    {region : Option String} {u : Uuid} (hactive : ActiveFor (V.catalogue t) ruleSetName region u) :
    ActiveFor (V.catalogue s) ruleSetName region u := by
  obtain ⟨w, q, q', hq, -, hq', ht⟩ := activated_of_effect h
  obtain ⟨p, hp, hstatus, hname, hregion⟩ := hactive
  have hp' := hp
  rw [ht] at hp'
  rcases Catalogue.activate_eq_some hp' with ⟨rfl, rfl⟩ | ⟨-, p', hold, rfl⟩
  · -- the pack that went live was live
    obtain ⟨r, hr, hsame⟩ := hkept u q hq
    rw [hp] at hr
    cases hr
    refine ⟨q, hq, ?_, ?_, ?_⟩
    · rw [hsame] at hstatus
      exact hstatus
    · rw [hsame] at hname
      exact hname
    · rw [hsame] at hregion
      exact hregion
  · obtain ⟨hsame, -⟩ := kept_of_deprecateNamed hstatus
    rw [hsame] at hstatus hname hregion
    exact ⟨p', hold, hstatus, hname, hregion⟩

/-- A seeding that saves the fixture and activates it keeps every pack exactly when none is active
    for the name. -/
theorem kept_of_saved_iff {s t t' : σ} {requested : Option Uuid} {version : Int}
    {lock : Option Nat} {u : Uuid} {p : RulePack}
    (hbound : ∀ v q, V.catalogue s v = some q → v ≠ u)
    (ht : V.catalogue t = (V.catalogue s).put u p) (hunder : Under repo t ruleSetName version u)
    (h : Effect repo V t (.activate requested ruleSetName version lock) t') :
    (∀ v q, V.catalogue s v = some q → ∃ q', V.catalogue t' v = some q' ∧ q.SameContent q') ↔
      ∀ v q, V.catalogue s v = some q → q.name = ruleSetName → q.status ≠ .active := by
  obtain ⟨w, q₀, q', hq₀, hw, hq', ht'⟩ := activated_of_effect h
  obtain rfl := hunder.unique hw
  have hother : ∀ v q, V.catalogue s v = some q →
      V.catalogue t' v = some (Catalogue.deprecateNamed ruleSetName q) := by
    intro v q hq
    rw [ht', Catalogue.activate_of_ne (hbound v q hq), ht, Catalogue.put_of_ne (hbound v q hq), hq,
      Option.map_some]
  constructor
  · intro hkept v q hq hname hactive
    obtain ⟨r, hr, hsame⟩ := hkept v q hq
    rw [hother v q hq] at hr
    cases hr
    rw [Catalogue.deprecateNamed, if_pos ⟨hname, hactive⟩] at hsame
    have hstatus : PackStatus.deprecated = q.status := congrArg RulePack.status hsame
    rw [hactive] at hstatus
    cases hstatus
  · intro hnone v q hq
    refine ⟨_, hother v q hq, ?_⟩
    rw [Catalogue.deprecateNamed, if_neg fun hnamed => hnone v q hq hnamed.1 hnamed.2]
    exact .refl q

/-- A seeding that finds no active pack, but the version of the fixture, makes no pack active
    without touching one. -/
theorem not_seedsOnce_of_get (hInv : L.Inv app.repository)
    (hnone : repo.getActive ruleSetName none app.repository = none)
    (hget : repo.get ruleSetName (fixturePack ruleSetName).version app.repository ≠ none) :
    ¬SeedsOnce repo V ruleSetName app ((Call.seed ruleSetName).exec repo app).2 := by
  intro h
  have hfree : ∀ u, ¬ActiveFor (V.catalogue app.repository) ruleSetName none u := by
    intro u hactive
    obtain ⟨p, hp, hactive⟩ := hactive
    exact L.getActive_none hInv hnone hp hactive
  obtain ⟨⟨u, hactive⟩, -⟩ := h.seeded hfree
  have hkept := h.kept
  rw [Call.exec] at hactive hkept
  cases hseed : SeedActivePolicyOnStartupUseCase.execute repo ruleSetName app with
  | error e =>
    rw [hseed] at hactive
    exact hfree u hactive
  | ok result =>
    obtain ⟨result, app'⟩ := result
    rw [hseed] at hactive hkept
    rcases L.seed_performs hseed with rfl | ⟨-, ref, t, hsave, hactivate⟩
    · exact hfree u hactive
    · obtain ⟨hInv', ⟨rfl, -⟩ | ⟨hnone', -⟩⟩ := L.seedSave_performs hInv hsave
      · exact hfree u (activeFor_of_activate (hactivate.step hInv).2.2 hkept hactive)
      · exact hget hnone'

/-- A seeding that finds neither an active pack nor the version of the fixture saves the fixture,
    activates it, and is done. -/
theorem seed_saves (S : L.Seeds) (hInv : L.Inv app.repository)
    (hnone : repo.getActive ruleSetName none app.repository = none)
    (hget : repo.get ruleSetName (fixturePack ruleSetName).version app.repository = none) :
    let app' := ((Call.seed ruleSetName).exec repo app).2
    L.Inv app'.repository ∧ ∃ t u p, (∀ v q, V.catalogue app.repository v = some q → v ≠ u) ∧
      V.catalogue t = (V.catalogue app.repository).put u p ∧ p.name = ruleSetName ∧
      p.region = none ∧ FixtureRules p.rules ∧
      Under repo t ruleSetName (fixturePack ruleSetName).version u ∧
      Effect repo V t (.activate none ruleSetName (fixturePack ruleSetName).version none)
        app'.repository := by
  intro app'
  obtain ⟨ref, t, hsave⟩ := S.saves hInv hget
  obtain ⟨hInv', u, p, hu, ht, hname, hregion, hrules, hunder, hname', hversion'⟩ :=
    saved_fixture S hInv hget hsave
  obtain ⟨found, hfound, -⟩ := id hunder
  obtain ⟨r, t', hactivate⟩ := S.activates hfound
  have hlaw : L.Inv t' ∧ WriteStep repo V t
      (.activate none ruleSetName (fixturePack ruleSetName).version none) t' :=
    L.activate hInv' hactivate
  obtain ⟨hInv'', -, heffect⟩ := hlaw
  have happ : app'.repository = t' := by
    have hseed : seedSave repo ruleSetName app.repository = .ok (ref, t) := by
      unfold seedSave
      simp only [show (fixturePack ruleSetName).name = ruleSetName from rfl, hget]
      exact hsave
    have hactivate' : repo.activate (repo.pack t ref).name (repo.pack t ref).version none t =
        .ok (r, t') := by
      rw [hname', hversion']
      exact hactivate
    simp only [app', Call.exec, SeedActivePolicyOnStartupUseCase.execute, hnone, hseed]
    show (outcome app ((repo.activate (repo.pack t ref).name (repo.pack t ref).version none t).bind
      _)).2.repository = t'
    rw [hactivate']
    rfl
  rw [happ]
  refine ⟨hInv'', t, u, p, fun v q hq => ?_, ht, hname, hregion, hrules, hunder, heffect⟩
  exact ne_of_lt (lt_of_lt_of_le (L.bound hInv hq) hu)

/-- A seeding touches nothing, and gives the name the rules of the fixture where it had no active
    pack, exactly when it has nothing to do or finds nothing to touch. -/
theorem seedsOnce_iff (S : L.Seeds) (hInv : L.Inv app.repository) :
    SeedsOnce repo V ruleSetName app ((Call.seed ruleSetName).exec repo app).2 ↔
      (∃ u, ActiveFor (V.catalogue app.repository) ruleSetName none u) ∨
        NothingToTouch repo V ruleSetName app.repository := by
  cases hactive : repo.getActive ruleSetName none app.repository with
  | some ref =>
    -- an active pack: the seed does nothing
    have hlive := S.active hInv hactive
    have hstay : ((Call.seed ruleSetName).exec repo app).2 = app := exec_seed_of_getActive hactive
    rw [hstay]
    refine ⟨fun _ => Or.inl hlive, fun _ => ⟨fun u p hp => ⟨p, hp, .refl p⟩, fun hfree => ?_, hstay⟩⟩
    obtain ⟨u, hu⟩ := hlive
    exact absurd hu (hfree u)
  | none =>
    have hfree : ¬∃ u, ActiveFor (V.catalogue app.repository) ruleSetName none u := by
      intro h
      obtain ⟨u, p, hp, hlive⟩ := h
      exact L.getActive_none hInv hactive hp hlive
    rw [or_iff_right hfree]
    -- no active pack: what counts is whether the name and version are taken
    by_cases hget : repo.get ruleSetName (fixturePack ruleSetName).version app.repository = none
    · -- the fixture is saved as a new pack and goes live
      obtain ⟨hInv', t, u, p, hbound, ht, hname, hregion, hrules, hunder, heffect⟩ :=
        seed_saves S hInv hactive hget
      have hkept := kept_of_saved_iff hbound ht hunder heffect
      obtain ⟨w, q, q', hq, hw, hq', ht'⟩ := activated_of_effect heffect
      obtain rfl := hunder.unique hw
      rw [ht, Catalogue.put_self] at hq
      cases hq
      refine ⟨fun h => ⟨hget, hkept.mp h.kept⟩, fun h => ⟨hkept.mpr h.2, fun _ => ?_, ?_⟩⟩
      · rw [ht']
        refine ⟨⟨w, q', Catalogue.activate_self, ?_⟩, fun v r hr hlive hnamed _ => ?_⟩
        · rw [hq']
          exact ⟨rfl, hname, hregion⟩
        · rcases Catalogue.activate_eq_some hr with ⟨-, rfl⟩ | ⟨-, r', -, rfl⟩
          · rw [hq']
            exact hrules
          · -- every other pack of the name was deprecated
            obtain ⟨hsame, hother⟩ := kept_of_deprecateNamed hlive
            rw [hsame] at hnamed
            exact absurd hnamed hother
      · -- a second start finds it active
        refine exec_seed_of_active hInv' ⟨w, q', ?_, ?_⟩
        · rw [ht', Catalogue.activate_self]
        · rw [hq']
          exact ⟨rfl, hname, hregion⟩
    · refine ⟨fun h => absurd h (not_seedsOnce_of_get hInv hactive hget), fun h => absurd h.1 hget⟩

end

/-! ## The repositories -/

namespace InMemoryRulePackRepository

theorem seeds : lawful.Seeds where
  active := by
    intro s name region ref hInv h
    have hfound := List.find?_some h
    simp only [Bool.and_eq_true, beq_iff_eq] at hfound
    obtain ⟨u, hu, -⟩ := hInv.identified ref (List.mem_of_find?_eq_some h)
    refine ⟨u, s.objects ref, ?_, hfound.1.2, hfound.1.1, hfound.2⟩
    exact (catalogue_eq_some_iff hInv).mpr ⟨ref, List.mem_of_find?_eq_some h, hu, rfl⟩
  saves := fun _ _ => ⟨_, _, rfl⟩
  finds := by
    intro s p r t hInv hid hfree h
    obtain ⟨hstore, hobjects⟩ := saveNew_ok hid h
    refine ⟨s.nextUuid, ⟨s.nextRef, ?_, ?_⟩, le_refl _⟩
    · change t.store.get? (p.name, p.version) = some s.nextRef
      rw [hstore, Dict.get?_set_self]
    · change (t.objects s.nextRef).id = some s.nextUuid
      rw [hobjects, Function.update_self]
  activates := by
    intro s name version ref h
    have h : get name version s = some ref := h
    change ∃ r t, activate name version none s = .ok (r, t)
    unfold activate
    rw [h]
    exact ⟨_, _, rfl⟩
  fixture := by
    intro rules h
    cases h
    exact List.forall₂_same.mpr fun rule _ => rfl

end InMemoryRulePackRepository

namespace PostgresRulePackRepository

/-- Rules without empty exceptions clauses are stored as they are, under keys. -/
theorem forall₂_of_stored {rules stored : List Rule}
    (hplain : ∀ rule ∈ rules, ruleToDomain rule = rule) (h : List.Forall₂ StoredRule rules stored) :
    List.Forall₂ (fun rule r => r = { rule with id := r.id }) rules stored := by
  induction h with
  | nil => exact .nil
  | @cons rule rule' rules stored hrule _ ih =>
    rw [StoredRule, hplain rule List.mem_cons_self] at hrule
    exact .cons hrule (ih fun r hr => hplain r (List.mem_cons_of_mem _ hr))

theorem seeds (order : RowOrder) : (lawful order).Seeds where
  active := by
    intro s name region ref hInv h
    obtain ⟨row, hrow, rfl⟩ := Option.map_eq_some_iff.mp h
    have hfound := List.find?_some hrow
    simp only [Bool.and_eq_true, beq_iff_eq] at hfound
    have hmem := mem_rows.mp (List.mem_of_find?_eq_some hrow)
    exact ⟨row.id, _, catalogue_of_mem hInv hmem, hfound.1.2, hfound.1.1, hfound.2⟩
  saves := by
    intro s ruleSetName hInv hget
    have hfree : ∀ p ∈ listVersions order ruleSetName s,
        p.version ≠ (fixturePack ruleSetName).version := by
      intro p hp hversion
      obtain ⟨row, hmem, hname, rfl⟩ := mem_listVersions.mp hp
      obtain ⟨row', hfirst⟩ := first_isSome order hmem
      have hversion : row.version = (fixturePack ruleSetName).version := hversion
      rw [hname, hversion, first_none_of_free (Or.inr hget)] at hfirst
      cases hfirst
    exact (savesNew order s (fixturePack ruleSetName) hInv storable_fixture.new rfl hfree).mpr
      storable_fixture.codes
  finds := by
    intro s p r t hInv hid hfree h
    have hfirst : first order p.name p.version s = none := first_none_of_free (Or.inr hfree)
    have hnew : saveNew order p s = .ok (r, t) := by
      have hsave : save order p s = .ok (r, t) := h
      rw [save, hfirst] at hsave
      exact hsave
    obtain ⟨row, hid, -, -, hname, hversion, -, -, -, -, -, htable, -, -⟩ :=
      saveNew_effect hInv hnew
    have hmem : row ∈ t.ruleSets := by
      rw [htable]
      exact List.mem_append_right _ List.mem_cons_self
    obtain ⟨found, hfound⟩ := first_isSome order hmem
    rw [hname, hversion] at hfound
    obtain ⟨hfound', hname', hversion'⟩ := first_mem hfound
    rw [htable, List.mem_append, List.mem_singleton] at hfound'
    rcases hfound' with hold | rfl
    · -- no row had the key before
      obtain ⟨old, hold⟩ := first_isSome order hold
      rw [hname', hversion', hfirst] at hold
      cases hold
    · refine ⟨found.id, ⟨toDomain t found, ?_, rfl⟩, le_of_eq hid.symm⟩
      exact congrArg (Option.map (toDomain t)) hfound
  activates := by
    intro s name version ref h
    obtain ⟨row, hfirst, -⟩ := get_eq_some h
    change ∃ r t, activate order name version none s = .ok (r, t)
    unfold activate
    rw [hfirst]
    exact ⟨_, _, rfl⟩
  fixture := fun h => forall₂_of_stored storable_fixture.plain h

end PostgresRulePackRepository

open InMemoryRulePackRepository in
/-- On either backend, from any state that calls lead to: the seeding changes neither the status
    nor the content of a pack, gives a name without an active pack the rules of the fixture, and
    changes nothing the second time, exactly when a pack without a region is active for the name,
    or neither the version of the fixture nor an active pack of the name is there. -/
theorem seeding_touches_nothing_iff (order : RowOrder) (calls : List Call) (ruleSetName : String) :
    (CallsEach inMemoryRulePackRepository (MetadataOnly view) calls inMemoryStart →
      let app := runCalls inMemoryRulePackRepository calls inMemoryStart
      SeedsOnce inMemoryRulePackRepository view ruleSetName app
          ((Call.seed ruleSetName).exec inMemoryRulePackRepository app).2 ↔
        (∃ u, ActiveFor (view.catalogue app.repository) ruleSetName none u) ∨
          NothingToTouch inMemoryRulePackRepository view ruleSetName app.repository) ∧
      let repo := postgresRulePackRepository order
      let app := runCalls repo calls postgresStart
      SeedsOnce repo PostgresRulePackRepository.view ruleSetName app
          ((Call.seed ruleSetName).exec repo app).2 ↔
        (∃ u, ActiveFor (PostgresRulePackRepository.view.catalogue app.repository) ruleSetName
          none u) ∨
          NothingToTouch repo PostgresRulePackRepository.view ruleSetName app.repository := by
  constructor
  · intro hcalls app
    exact seedsOnce_iff seeds (inv_runCalls hcalls)
  · intro repo app
    exact seedsOnce_iff (PostgresRulePackRepository.seeds order)
      (PostgresRulePackRepository.inv_runCalls order calls)

open InMemoryRulePackRepository in
/-- The fixture is seeded beside a Draft of another version. -/
theorem seeding_touches_nothing_draft :
    let app := runCalls inMemoryRulePackRepository [createPlain "noc-default" none] inMemoryStart
    SeedsOnce inMemoryRulePackRepository view "noc-default" app
      ((Call.seed "noc-default").exec inMemoryRulePackRepository app).2 := by
  intro app
  have hcalls : CallsEach inMemoryRulePackRepository (MetadataOnly view)
      [createPlain "noc-default" none] inMemoryStart := ⟨trivial, trivial⟩
  refine ((seeding_touches_nothing_iff writtenOrder _ "noc-default").1 hcalls).mpr
    (Or.inr ⟨rfl, fun u p hp _ => ?_⟩)
  obtain ⟨ref, hget, rfl⟩ := Option.map_eq_some_iff.mp hp
  have hrefs : refs app.repository = [0] := rfl
  have hmem : ref ∈ refs app.repository := (getById_mem hget).1
  rw [hrefs] at hmem
  cases List.mem_singleton.mp hmem
  show PackStatus.draft ≠ .active
  decide

open InMemoryRulePackRepository in
/-- A Draft that was imported as version 3 of the name goes live at the next startup. -/
theorem draft_seeded :
    ¬∀ (calls : List Call) (ruleSetName : String),
      Succeed inMemoryRulePackRepository calls inMemoryStart →
      let app := runCalls inMemoryRulePackRepository calls inMemoryStart
      SeedsOnce inMemoryRulePackRepository view ruleSetName app
        ((Call.seed ruleSetName).exec inMemoryRulePackRepository app).2 := by
  intro h
  obtain ⟨q, hq, hsame⟩ := (h [importPlain "noc-default" 3] "noc-default" ⟨rfl, trivial⟩).kept 0
    _ rfl
  cases hq
  have hstatus : PackStatus.active = .draft := congrArg RulePack.status hsame
  cases hstatus

end PulseGuard
