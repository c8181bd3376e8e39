import PulseGuard.Spec.Lifecycle

/-!
# One active pack for a name and a region

What keeps exactly one pack of a name and a region active. A write leaves the active packs of
the name and the region as they are, or makes one pack the only one (`KeepsActive.step`),
when it does not take the last key of the active pack, and when an activation by a name goes
to a pack of that name and region or asks for another name. `activation_elsewhere` is an
activation that does not: it deprecates the active packs of all regions.
-/

namespace PulseGuard

open Run

variable {σ ρ : Type}

/-- The pack under an identifier is active, under a name and a region. -/
def ActiveFor (c : Catalogue) (name : String) (region : Option String) (u : Uuid) : Prop :=
  ∃ p, c u = some p ∧ p.status = .active ∧ p.name = name ∧ p.region = region

/-- The condition on a write: a save does not take the only key of an active pack of the name
    and the region. Where one is active, an activation that goes to a pack of the name and the
    region goes to that one or asks for the name, one that goes to any other pack asks for
    another name. No active pack is promoted to shadow, and metadata is all that an update of
    metadata names. -/
def KeepsActive (repo : RulePackRepository σ ρ) (V : StoreView σ) (name : String)
    (region : Option String) (s : σ) : Write → Prop
  | .saveNew p | .saveEdited p _ => ∀ v, ActiveFor (V.catalogue s) name region v →
      ¬OnlyUnder repo s p.name p.version v
  | .activate _ requested version _ => ∀ u p, Under repo s requested version u →
      V.catalogue s u = some p → ∀ v, ActiveFor (V.catalogue s) name region v →
      if p.name = name ∧ p.region = region then v = u ∨ requested = name else requested ≠ name
  | .promoteToShadow u => V.inPlace → ¬ActiveFor (V.catalogue s) name region u
  | .updateMetadata _ _ fields => V.inPlace → fields.all PackAttr.isMetadata = true
  | .publish _ | .softDelete _ _ => True

/-- An active pack comes in only where `get_active` has found none. -/
def NoRival (repo : RulePackRepository σ ρ) (s : σ) : Write → Prop
  | .saveNew p => p.status = .active → repo.getActive p.name p.region s = none
  | _ => True

/-- The only pack that comes in active is the fixture, and the seeding looks for a rival. -/
theorem Call.each_noRival {repo : RulePackRepository σ ρ} {call : Call} {app : App σ} :
    call.Each repo (NoRival repo) app := by
  cases call with
  | createRulePack => exact fun hactive => by cases hactive
  | importRulePack => exact fun _ _ _ _ _ hactive => by cases hactive
  | createRule => exact fun _ _ _ _ _ => trivial
  | updateRule => exact fun _ _ _ _ _ _ => trivial
  | deleteRule => exact fun _ _ _ _ => trivial
  | bulkCreateRules packId rulesData actor =>
    rw [Call.Each]
    induction rulesData generalizing app with
    | nil => trivial
    | cons data rest ih => exact ⟨fun _ _ _ _ _ => trivial, fun _ _ _ => ih⟩
  | activate => exact fun _ _ _ => trivial
  | rollback => exact fun _ _ _ _ => trivial
  | seed => exact fun hnone => ⟨fun _ _ => hnone, fun _ _ _ => trivial⟩
  | _ => trivial

theorem Call.Each.noRival {repo : RulePackRepository σ ρ} {P : σ → Write → Prop} {call : Call}
    {app : App σ} (h : call.Each repo P app) :
    call.Each repo (fun s w => P s w ∧ NoRival repo s w) app :=
  h.map₂ Call.each_noRival fun _ _ hP hrival => ⟨hP, hrival⟩

section

variable {repo : RulePackRepository σ ρ} {V : StoreView σ} {c : Catalogue} {name : String}
  {region : Option String} {u v : Uuid} {p : RulePack} {lost : Option Uuid}

/-! ## The active packs of a changed catalogue -/

/-- A pack put where no active one was, and not active itself. -/
theorem activeFor_put_of_not (hold : ¬ActiveFor c name region u)
    (hnew : ¬(p.status = .active ∧ p.name = name ∧ p.region = region)) :
    ActiveFor (c.put u p) name region v ↔ ActiveFor c name region v := by
  by_cases hv : v = u
  · subst hv
    have hput : ¬ActiveFor (c.put v p) name region v := by
      intro ⟨q, hq, hactive⟩
      rw [Catalogue.put_self] at hq
      cases hq
      exact hnew hactive
    exact ⟨fun h => absurd h hput, fun h => absurd h hold⟩
  · unfold ActiveFor
    rw [Catalogue.put_of_ne hv]

/-- A pack that is not active, lost. -/
theorem activeFor_drop (hlost : ∀ w, lost = some w → ¬ActiveFor c name region w) :
    ActiveFor (c.drop lost) name region v ↔ ActiveFor c name region v := by
  by_cases hv : lost = some v
  · constructor
    · intro h
      obtain ⟨q, hq, -⟩ := h
      exact absurd hv (Catalogue.drop_eq_some hq).1
    · intro h
      exact absurd h (hlost v hv)
  · unfold ActiveFor
    rw [Catalogue.drop_of_ne hv]

/-- An active pack put where there was none. -/
theorem activeFor_put_of_none (hnone : ∀ w, ¬ActiveFor c name region w)
    (hnew : p.status = .active ∧ p.name = name ∧ p.region = region) :
    ActiveFor (c.put u p) name region v ↔ v = u := by
  constructor
  · intro h
    obtain ⟨q, hq, hactive⟩ := h
    rcases Catalogue.put_eq_some hq with ⟨hv, -⟩ | ⟨-, hq⟩
    · exact hv
    · exact absurd ⟨q, hq, hactive⟩ (hnone v)
  · rintro rfl
    exact ⟨p, Catalogue.put_self, hnew⟩

theorem not_activeFor_of_status (hp : c u = some p) (hstatus : p.status ≠ .active) :
    ¬ActiveFor c name region u := by
  intro h
  obtain ⟨q, hq, hactive, -⟩ := h
  rw [hp] at hq
  cases hq
  exact hstatus hactive

/-- An activation of a pack of the name and the region leaves it the only active one, when
    every other active one is deprecated. -/
theorem activeFor_activate_target {requested : String}
    (hnew : p.status = .active ∧ p.name = name ∧ p.region = region)
    (hothers : ∀ w, ActiveFor c name region w → w = u ∨ requested = name) :
    ActiveFor (c.activate requested u p) name region v ↔ v = u := by
  constructor
  · intro h
    obtain ⟨q, hq, hactive, hname, hregion⟩ := h
    rcases Catalogue.activate_eq_some hq with ⟨hv, -⟩ | ⟨-, q', hq', rfl⟩
    · exact hv
    · unfold Catalogue.deprecateNamed at hactive hname hregion
      split at hactive
      · cases hactive
      · rename_i hcond
        rw [if_neg hcond] at hname hregion
        -- an active pack that was left so is not of the requested name
        rcases hothers v ⟨q', hq', hactive, hname, hregion⟩ with hv | hrequested
        · exact hv
        · exact absurd ⟨hname.trans hrequested.symm, hactive⟩ hcond
  · rintro rfl
    exact ⟨p, Catalogue.activate_self, hnew⟩

/-- An activation of another pack, under another name, leaves the active ones alone. -/
theorem activeFor_activate_other {requested : String} (hold : ¬ActiveFor c name region u)
    (hnew : ¬(p.name = name ∧ p.region = region))
    (hothers : ∀ w, ActiveFor c name region w → requested ≠ name) :
    ActiveFor (c.activate requested u p) name region v ↔ ActiveFor c name region v := by
  constructor
  · intro h
    obtain ⟨q, hq, hactive, hname, hregion⟩ := h
    rcases Catalogue.activate_eq_some hq with ⟨-, rfl⟩ | ⟨-, q', hq', rfl⟩
    · exact absurd ⟨hname, hregion⟩ hnew
    · unfold Catalogue.deprecateNamed at hactive hname hregion
      split at hactive
      · cases hactive
      · rename_i hcond
        rw [if_neg hcond] at hname hregion
        exact ⟨q', hq', hactive, hname, hregion⟩
  · intro h
    have hrequested := hothers v h
    have hv : v ≠ u := by
      rintro rfl
      exact hold h
    obtain ⟨q, hq, hactive, hname, hregion⟩ := h
    refine ⟨q, ?_, hactive, hname, hregion⟩
    rw [Catalogue.activate_of_ne hv, hq, Option.map_some, Catalogue.deprecateNamed, if_neg]
    exact fun hcond => hrequested (hcond.1.symm.trans hname)

/-! ## One write -/

/-- One write leaves the active packs of the name and the region as they are, or one pack the
    only one. -/
theorem KeepsActive.step (L : Lawful repo V) {s t : σ} {w : Write} (hInv : L.Inv s)
    (h : WriteStep repo V s w t) (hkeeps : KeepsActive repo V name region s w)
    (hrival : NoRival repo s w) :
    (∀ v, ActiveFor (V.catalogue t) name region v ↔ ActiveFor (V.catalogue s) name region v) ∨
      ∃ u, ∀ v, ActiveFor (V.catalogue t) name region v ↔ v = u := by
  obtain ⟨-, heffect⟩ := h
  cases heffect with
  | @saveNew p p' u lost _ hsupply hu hname hversion hstatus hregion hrules hlost ht =>
    -- the pack that is lost is not active, the one that comes in may be
    have hkept : ∀ w, lost = some w → ¬ActiveFor (V.catalogue s) name region w :=
      fun w hw hactive => hkeeps w hactive (hlost w hw)
    have hfresh : ¬ActiveFor ((V.catalogue s).drop lost) name region u := by
      intro h
      obtain ⟨q, hq, -⟩ := h
      exact Nat.not_lt.mpr hsupply (L.bound hInv (Catalogue.drop_eq_some hq).2)
    by_cases hnew : p'.status = .active ∧ p'.name = name ∧ p'.region = region
    · -- the seeding has looked for an active pack and found none
      right
      have hnone : ∀ w, ¬ActiveFor ((V.catalogue s).drop lost) name region w := by
        intro w h
        obtain ⟨q, hq, hactive, hqname, hqregion⟩ := h
        have hget := hrival (hstatus ▸ hnew.1)
        refine L.getActive_none hInv hget (Catalogue.drop_eq_some hq).2 ⟨hactive, ?_, ?_⟩
        · rw [hqname, ← hnew.2.1, hname]
        · rw [hqregion, ← hnew.2.2, hregion]
      refine ⟨u, fun v => ?_⟩
      rw [ht]
      exact activeFor_put_of_none hnone hnew
    · left
      intro v
      rw [ht, activeFor_put_of_not hfresh hnew, activeFor_drop hkept]
  | @saveEdited p rules rules' u lost _ hp hdraft hunder hsame hlost ht =>
    left
    intro v
    -- a Draft stays one, under a free key
    have hkept : ∀ w, lost = some w → ¬ActiveFor (V.catalogue s) name region w :=
      fun w hw hactive => hkeeps w hactive (hlost w hw).2
    have hold : ¬ActiveFor ((V.catalogue s).drop lost) name region u := by
      rw [activeFor_drop hkept]
      exact not_activeFor_of_status hp (by rw [hdraft]; decide)
    rw [ht, activeFor_put_of_not hold (fun hnew => by simp [hdraft] at hnew), activeFor_drop hkept]
  | @overwrite p q q' rules u w _ hcopy hp hid hdraft hq hv hunder hstatus hname hwrite ht =>
    left
    intro v
    -- the row that is overwritten becomes a Draft, and was not active
    have hold : ¬ActiveFor (V.catalogue s) name region w := fun hactive => hkeeps w hactive hunder
    rw [ht, activeFor_put_of_not hold (fun hnew => by simp [hstatus] at hnew)]
  | updateMetadata hp hdraft hlock hstatus hrules hbump ht =>
    left
    intro v
    have hold : ¬ActiveFor (V.catalogue s) name region _ :=
      not_activeFor_of_status hp (by rw [hdraft]; decide)
    rw [ht, activeFor_put_of_not hold (fun hnew => by simp [hstatus, hdraft] at hnew)]
  | publish hp hdraft hvalid ht =>
    left
    intro v
    have hold : ¬ActiveFor (V.catalogue s) name region _ :=
      not_activeFor_of_status hp (by rw [hdraft]; decide)
    rw [ht, activeFor_put_of_not hold (fun hnew => by simp at hnew)]
  | softDelete hp hactive hlock ht =>
    left
    intro v
    have hold : ¬ActiveFor (V.catalogue s) name region _ := not_activeFor_of_status hp hactive
    rw [ht, activeFor_put_of_not hold (fun hnew => by simp at hnew)]
  | @activate p p' _ u requested version lock _ hp hunder hlock hp' hbump ht =>
    have hcond := hkeeps u p hunder hp
    have hname : p'.name = p.name := by rw [hp']
    have hregion : p'.region = p.region := by rw [hp']
    have hstatus : p'.status = .active := by rw [hp']
    -- a target of the name and the region is alone afterwards, any other has another name
    by_cases htarget : p.name = name ∧ p.region = region
    · right
      refine ⟨u, fun v => ?_⟩
      rw [ht]
      refine activeFor_activate_target ⟨hstatus, hname.trans htarget.1, hregion.trans htarget.2⟩ ?_
      intro w hw
      have hw' := hcond w hw
      rwa [if_pos htarget] at hw'
    · left
      intro v
      have hold : ¬ActiveFor (V.catalogue s) name region u := by
        intro h
        obtain ⟨q, hq, -, hqname, hqregion⟩ := h
        rw [hp] at hq
        cases hq
        exact htarget ⟨hqname, hqregion⟩
      rw [ht]
      refine activeFor_activate_other hold (by rw [hname, hregion]; exact htarget) ?_
      intro w hw
      have hw' := hcond w hw
      rwa [if_neg htarget] at hw'
  | promoteToShadow hinPlace hp hvalid ht =>
    left
    intro v
    rw [ht, activeFor_put_of_not (hkeeps hinPlace) (fun hnew => by simp at hnew)]

/-! ## Runs -/

/-- At most one pack of the name and the region is active. -/
def AtMostOneActive (c : Catalogue) (name : String) (region : Option String) : Prop :=
  ∀ u v, ActiveFor c name region u → ActiveFor c name region v → u = v

variable (L : Lawful repo V)

/-- The condition of a step of a run. -/
private abbrev KeepsOneActive (name : String) (region : Option String) (s : σ) (w : Write) : Prop :=
  L.Inv s ∧ KeepsActive repo V name region s w ∧ NoRival repo s w

private theorem atMostOne_run {s t : σ}
    (h : RunWhere (WriteStep repo V) (KeepsOneActive L name region) s t)
    (hs : AtMostOneActive (V.catalogue s) name region) :
    AtMostOneActive (V.catalogue t) name region := by
  refine RunWhere.invariant (fun s => AtMostOneActive (V.catalogue s) name region) ?_ h hs
  intro s w t hstep ⟨hInv, hkeeps, hrival⟩ hone u v hu hv
  rcases hkeeps.step L hInv hstep hrival with hsame | ⟨target, honly⟩
  · exact hone u v ((hsame u).mp hu) ((hsame v).mp hv)
  · exact ((honly u).mp hu).trans ((honly v).mp hv).symm

private theorem exists_active_run {s t : σ}
    (h : RunWhere (WriteStep repo V) (KeepsOneActive L name region) s t)
    (hs : ∃ u, ActiveFor (V.catalogue s) name region u) :
    ∃ u, ActiveFor (V.catalogue t) name region u := by
  refine RunWhere.invariant (fun s => ∃ u, ActiveFor (V.catalogue s) name region u) ?_ h hs
  intro s w t hstep ⟨hInv, hkeeps, hrival⟩ ⟨u, hu⟩
  rcases hkeeps.step L hInv hstep hrival with hsame | ⟨target, honly⟩
  · exact ⟨u, (hsame u).mpr hu⟩
  · exact ⟨target, (honly target).mpr rfl⟩

include L in
/-- Once some pack of the name and the region is active, exactly one is, after any further
    calls that keep it so. -/
theorem oneActive_runCalls {calls more : List Call} {app : App σ} (hInv : L.Inv app.repository)
    (hempty : ∀ u, V.catalogue app.repository u = none)
    (heach : CallsEach repo (KeepsActive repo V name region) (calls ++ more) app)
    (hactive : ∃ u, ActiveFor (V.catalogue (runCalls repo calls app).repository) name region u) :
    ∃! u, ActiveFor (V.catalogue (runCalls repo (calls ++ more) app).repository) name region u := by
  have hrival : CallsEach repo (fun s w => KeepsActive repo V name region s w ∧ NoRival repo s w)
      (calls ++ more) app := heach.strengthen fun _ _ h => h.noRival
  rw [CallsEach.append] at hrival
  obtain ⟨hcalls, hmore⟩ := hrival
  have hnone : AtMostOneActive (V.catalogue app.repository) name region := by
    intro u v h
    obtain ⟨p, hp, -⟩ := h
    rw [hempty u] at hp
    cases hp
  obtain ⟨hInv', hrun⟩ := L.runCalls_run (fun _ _ _ _ h => h.1) hInv hcalls
  obtain ⟨-, hrun'⟩ := L.runCalls_run (fun _ _ _ _ h => h.1) hInv' hmore
  have hone := atMostOne_run L hrun hnone
  rw [runCalls_append]
  obtain ⟨u, hu⟩ := exists_active_run L hrun' hactive
  exact ⟨u, hu, fun v hv => atMostOne_run L hrun' hone v u hv hu⟩

end

open InMemoryRulePackRepository in
/-- Exactly one active pack, on either backend: in a run of calls that keeps the active pack of
    a name and a region, from when some pack of them is active on, exactly one is. -/
theorem one_active_pack (order : RowOrder) (name : String) (region : Option String)
    (calls more : List Call) :
    (CallsEach inMemoryRulePackRepository (KeepsActive inMemoryRulePackRepository view name region)
        (calls ++ more) inMemoryStart →
      (∃ u, ActiveFor (catalogue
        (runCalls inMemoryRulePackRepository calls inMemoryStart).repository) name region u) →
      ∃! u, ActiveFor (catalogue
        (runCalls inMemoryRulePackRepository (calls ++ more) inMemoryStart).repository)
        name region u) ∧
      (CallsEach (postgresRulePackRepository order)
        (KeepsActive (postgresRulePackRepository order) PostgresRulePackRepository.view name region)
        (calls ++ more) postgresStart →
      (∃ u, ActiveFor (PostgresRulePackRepository.catalogue
        (runCalls (postgresRulePackRepository order) calls postgresStart).repository)
        name region u) →
      ∃! u, ActiveFor (PostgresRulePackRepository.catalogue
        (runCalls (postgresRulePackRepository order) (calls ++ more) postgresStart).repository)
        name region u) := by
  constructor
  · intro heach hactive
    exact oneActive_runCalls lawful inv_init (fun _ => rfl) heach hactive
  · intro heach hactive
    exact oneActive_runCalls (PostgresRulePackRepository.lawful order)
      PostgresRulePackRepository.inv_init (fun _ => rfl) heach hactive

/-- A pack of one rule, created, published and activated. -/
def goLive (name : String) (region : Option String) (u : Uuid) : List Call :=
  [createPlain name region, .publish u "admin", .activate u "admin" none none]

open InMemoryRulePackRepository in
/-- An active pack is among the objects of the dictionary. -/
private theorem exists_ref_of_activeFor {s : InMemoryStore} {name : String}
    {region : Option String} {u : Uuid} (h : ActiveFor (view.catalogue s) name region u) :
    ∃ ref ∈ refs s, (s.objects ref).status = .active ∧ (s.objects ref).region = region := by
  obtain ⟨p, hp, hstatus, -, hregion⟩ := h
  obtain ⟨ref, hget, rfl⟩ := Option.map_eq_some_iff.mp hp
  exact ⟨ref, (getById_mem hget).1, hstatus, hregion⟩

open InMemoryRulePackRepository in
/-- The pack of one region, and a Draft of another region after it. -/
theorem one_active_pack_draft :
    ∃! u, ActiveFor (catalogue (runCalls inMemoryRulePackRepository
      (goLive "noc" (some "EU") 0 ++ [createPlain "noc" (some "US")]) inMemoryStart).repository)
      "noc" (some "EU") u := by
  refine (one_active_pack writtenOrder "noc" (some "EU") (goLive "noc" (some "EU") 0)
    [createPlain "noc" (some "US")]).1 ?_ ⟨0, _, rfl, rfl, rfl, rfl⟩
  -- nothing is active before the activation, and the key of the second pack is free
  refine ⟨?_, trivial, ?_, ?_, trivial⟩
  · intro v hactive
    obtain ⟨ref, hmem, -⟩ := exists_ref_of_activeFor hactive
    cases hmem
  · intro ref hget htransition u p hunder hp v hactive
    obtain ⟨ref', hmem, hstatus, -⟩ := exists_ref_of_activeFor hactive
    obtain rfl : ref' = 0 := List.mem_singleton.mp hmem
    cases hstatus
  · rintro v - ⟨⟨ref, hget, -⟩, -⟩
    cases hget

open InMemoryRulePackRepository in
/-- A pack goes live in one region, then the next version goes live in another: the first
    region has no active pack. -/
theorem activation_elsewhere :
    ¬∀ (name : String) (region : Option String) (calls more : List Call),
      Succeed inMemoryRulePackRepository (calls ++ more) inMemoryStart →
      (∃ u, ActiveFor (catalogue
        (runCalls inMemoryRulePackRepository calls inMemoryStart).repository) name region u) →
      ∃! u, ActiveFor (catalogue
        (runCalls inMemoryRulePackRepository (calls ++ more) inMemoryStart).repository)
        name region u := by
  intro h
  have hone := h "noc" (some "EU") (goLive "noc" (some "EU") 0) (goLive "noc" (some "US") 1)
    ⟨rfl, rfl, rfl, rfl, rfl, rfl, trivial⟩ ⟨0, _, rfl, rfl, rfl, rfl⟩
  obtain ⟨u, hactive, -⟩ := hone
  obtain ⟨ref, hmem, hstatus, hregion⟩ := exists_ref_of_activeFor hactive
  have hrefs : ref = 0 ∨ ref = 1 := by simpa using (show ref ∈ [0, 1] from hmem)
  rcases hrefs with rfl | rfl
  · cases hstatus
  · revert hregion
    decide

end PulseGuard
