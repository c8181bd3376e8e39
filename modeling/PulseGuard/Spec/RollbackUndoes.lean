import PulseGuard.Spec.Lifecycle

/-!
# Rollback and the activation before it

A rollback of a version activates its parent version, which was fixed when the version was
created. It undoes the activation of that version exactly when the parent version leads to the
pack that was active before (`rollback_undoes_iff`), and whose row, with Postgres, no edit of
another Draft has overwritten. `rollback_activates_other` skips a Draft.
-/

namespace PulseGuard

open Run

variable {σ ρ : Type}

/-- The operations that author packs: creation, import, rule edits and publication. -/
def Call.Authors : Call → Prop
  | createRulePack .. | importRulePack .. | createRule .. | updateRule .. | deleteRule ..
  | bulkCreateRules .. | publish .. => True
  | _ => False

/-- The writes of the operations that author packs. -/
def Write.Authors : Write → Prop
  | saveNew _ | saveEdited _ _ | publish _ => True
  | _ => False

/-- The pack `v` is active, the published pack `w` of its name and region is activated, and
    after some authoring `w` is rolled back. -/
structure RolledBack (repo : RulePackRepository σ ρ) (V : StoreView σ) (app : App σ) (v w : Uuid)
    (p q : RulePack) (activation : Call) (between : List Call) (rollback : Call) : Prop where
  active : V.catalogue app.repository v = some p ∧ p.status = .active
  published : V.catalogue app.repository w = some q ∧ q.status = .published ∧
    q.name = p.name ∧ q.region = p.region
  activates : ∃ actor reason lock, activation = .activate w actor reason lock
  activated : (activation.exec repo app).1 = .ok ()
  authors : ∀ call ∈ between, call.Authors
  rollsBack : ∃ actor reason lock, rollback = .rollback q.name q.version actor reason lock
  rolledBack : (rollback.exec repo (runCalls repo (activation :: between) app)).1 = .ok ()

/-- After a rollback the pack `v` is again the one active version of its name, with its rules,
    and it alone went live. -/
def Undone (V : StoreView σ) (before after : σ) (v : Uuid) (p : RulePack) : Prop :=
  (∃ p', V.catalogue after v = some p' ∧ p'.status = .active ∧ p'.name = p.name ∧
    p'.region = p.region ∧ p'.rules = p.rules) ∧
  (∀ u q, V.catalogue after u = some q → q.status = .active → q.name = p.name → u = v) ∧
  ∀ u q, V.catalogue after u = some q → q.status = .active →
    u = v ∨ ∃ q', V.catalogue before u = some q' ∧ q'.status = .active

/-- The parent version of the pack under a name and version leads to the pack `v`. -/
def ParentLeadsTo (repo : RulePackRepository σ ρ) (s : σ) (name : String) (version : Int)
    (v : Uuid) : Prop :=
  ∃ ref parent, repo.get name version s = some ref ∧
    (repo.pack s ref).parentVersion = some parent ∧ Under repo s name parent v

/-- The pack `v` has its name, region and rules. -/
def KeepsContent (V : StoreView σ) (s : σ) (v : Uuid) (p : RulePack) : Prop :=
  ∃ p', V.catalogue s v = some p' ∧ p'.name = p.name ∧ p'.region = p.region ∧ p'.rules = p.rules

section

variable {repo : RulePackRepository σ ρ} {V : StoreView σ}

/-! ## Between the activation and the rollback -/

/-- What a pack that is no Draft keeps while packs are authored. -/
def Outlasts (V : StoreView σ) (p q : RulePack) : Prop :=
  q.name = p.name ∧ (V.inPlace → p.status ≠ .draft →
    q.status ≠ .draft ∧ q.region = p.region ∧ q.rules = p.rules)

theorem Outlasts.refl (p : RulePack) : Outlasts V p p := ⟨rfl, fun _ h => ⟨h, rfl, rfl⟩⟩

theorem Outlasts.trans {p q r : RulePack} (h : Outlasts V p q) (h' : Outlasts V q r) :
    Outlasts V p r := by
  refine ⟨h'.1.trans h.1, fun hinPlace hstatus => ?_⟩
  obtain ⟨hstatus₁, hregion₁, hrules₁⟩ := h.2 hinPlace hstatus
  obtain ⟨hstatus₂, hregion₂, hrules₂⟩ := h'.2 hinPlace hstatus₁
  exact ⟨hstatus₂, hregion₂.trans hregion₁, hrules₂.trans hrules₁⟩

theorem outlasts_of_change {s : σ} {w : Write} (hw : w.Authors) {v : Uuid} {p q : RulePack}
    (h : PackChange repo V s w v p q) : Outlasts V p q := by
  cases h with
  | same => exact .refl p
  | edited hdraft => exact ⟨rfl, fun _ hstatus => absurd hdraft hstatus⟩
  | overwritten hcopy hp hid hdraft hv hunder hstatus hname hwrite =>
    exact ⟨hname, fun hinPlace => absurd hinPlace hcopy⟩
  | published hdraft => exact ⟨rfl, fun _ hstatus => absurd hdraft hstatus⟩
  | _ => exact absurd hw id

/-- The calls that author packs make the writes that do. -/
theorem Call.Authors.each {call : Call} (h : call.Authors) {app : App σ} :
    call.Each repo (fun _ w => w.Authors) app := by
  have hmakes : call.Each repo (fun _ w => call.Makes w) app := Call.each_makes
  refine hmakes.map₂ hmakes fun _ w hw _ => ?_
  cases call <;> cases w <;> trivial

theorem callsEach_authors {calls : List Call} (h : ∀ call ∈ calls, call.Authors) {app : App σ} :
    CallsEach repo (fun _ w => w.Authors) calls app := by
  induction calls generalizing app with
  | nil => trivial
  | cons call rest ih =>
    exact ⟨(h call List.mem_cons_self).each, ih fun c hc => h c (List.mem_cons_of_mem _ hc)⟩

variable (L : Lawful repo V)

include L in
/-- A pack that authoring leaves is the one that was there, and outlasts it. -/
theorem outlasts_of_authors {calls : List Call} (hauthors : ∀ call ∈ calls, call.Authors)
    {app : App σ} (hInv : L.Inv app.repository) {v : Uuid} {p : RulePack}
    (hp : V.catalogue app.repository v = some p) :
    L.Inv (runCalls repo calls app).repository ∧
      ∀ q, V.catalogue (runCalls repo calls app).repository v = some q → Outlasts V p q := by
  have hmeta : ∀ (_ : σ) u lock fields, (Write.updateMetadata u lock fields).Authors →
      V.inPlace → fields.all PackAttr.isMetadata = true := fun _ _ _ _ h => h.elim
  obtain ⟨hInv', hrun⟩ := L.runCalls_run hmeta hInv (callsEach_authors hauthors)
  have htracked := RunWhere.tracked (fun s => v < V.supply s) (fun s => V.catalogue s v)
    (Outlasts V) .refl (fun _ _ _ => .trans)
    (fun _ _ _ hstep hold => lt_of_lt_of_le hold hstep.1)
    (fun s w t hstep hw hold b hb => ?_) hrun (L.bound hInv hp)
  · refine ⟨hInv', fun q hq => ?_⟩
    obtain ⟨p', hp', houtlasts⟩ := htracked.2 q hq
    rw [hp] at hp'
    cases hp'
    exact houtlasts
  · obtain ⟨a, ha, hchange⟩ := hstep.sighting_old hold hb
    exact ⟨a, ha, outlasts_of_change hw.2 hchange⟩

/-- What an activation does: the pack under the name and version goes live, every other active
    pack of the name is deprecated. -/
theorem activated_of_effect {s t : σ} {requested : Option Uuid} {name : String} {version : Int}
    {lock : Option Nat} (h : Effect repo V s (.activate requested name version lock) t) :
    ∃ u q q', V.catalogue s u = some q ∧ Under repo s name version u ∧
      q' = { q with status := .active, lockVersion := q'.lockVersion } ∧
      V.catalogue t = (V.catalogue s).activate name u q' := by
  cases h with
  | activate hq hunder hlock hq' hbump ht => exact ⟨_, _, _, hq, hunder, hq', ht⟩

/-- A pack that the deprecation of a name leaves active is untouched, and of another name. -/
theorem kept_of_deprecateNamed {name : String} {p : RulePack}
    (h : (Catalogue.deprecateNamed name p).status = .active) :
    Catalogue.deprecateNamed name p = p ∧ p.name ≠ name := by
  unfold Catalogue.deprecateNamed at h ⊢
  split at h
  · cases h
  · rename_i hnot
    rw [if_neg hnot]
    exact ⟨rfl, fun hname => hnot ⟨hname, h⟩⟩

/-- An activation leaves an active pack all but its status and its lock version. -/
theorem kept_of_activate {s t : σ} {requested : Option Uuid} {name : String} {version : Int}
    {lock : Option Nat} (h : Effect repo V s (.activate requested name version lock) t) {v : Uuid}
    {p : RulePack} (hp : V.catalogue s v = some p) (hactive : p.status = .active) :
    ∃ p', V.catalogue t v = some p' ∧ p'.status ≠ .draft ∧ p'.name = p.name ∧
      p'.region = p.region ∧ p'.rules = p.rules := by
  obtain ⟨u, q, q', hq, -, hq', ht⟩ := activated_of_effect h
  rw [ht]
  by_cases hv : v = u
  · subst hv
    rw [hp] at hq
    cases hq
    refine ⟨q', Catalogue.activate_self, ?_⟩
    rw [hq']
    exact ⟨by simp, rfl, rfl, rfl⟩
  · refine ⟨Catalogue.deprecateNamed name p, ?_, ?_⟩
    · rw [Catalogue.activate_of_ne hv, hp, Option.map_some]
    · unfold Catalogue.deprecateNamed
      split
      · exact ⟨by simp, rfl, rfl, rfl⟩
      · exact ⟨by simp [hactive], rfl, rfl, rfl⟩

/-! ## The rollback -/

variable {app : App σ} {v w : Uuid} {p q : RulePack} {activation rollback : Call}
  {between : List Call}

include L in
/-- Before the rollback `v` has its name, and in memory its region and rules. -/
theorem before_rollback (hInv : L.Inv app.repository)
    (h : RolledBack repo V app v w p q activation between rollback) :
    let s := (runCalls repo (activation :: between) app).repository
    L.Inv s ∧ ∀ p', V.catalogue s v = some p' → p'.name = p.name ∧
      (V.inPlace → p'.region = p.region ∧ p'.rules = p.rules) := by
  intro s
  obtain ⟨actor, reason, lock, rfl⟩ := h.activates
  obtain ⟨r, hactivate⟩ := execute_of_outcome_ok h.activated
  obtain ⟨ref, -, -, hperforms⟩ := L.activate_performs hactivate
  obtain ⟨hInv₁, -, heffect⟩ := hperforms.step hInv
  obtain ⟨p₁, hp₁, hstatus, hname, hregion, hrules⟩ :=
    kept_of_activate heffect h.active.1 h.active.2
  obtain ⟨hInv', houtlasts⟩ := outlasts_of_authors L h.authors hInv₁ hp₁
  refine ⟨hInv', fun p' hp' => ?_⟩
  obtain ⟨hname', hkept⟩ := houtlasts p' hp'
  refine ⟨hname'.trans hname, fun hinPlace => ?_⟩
  obtain ⟨-, hregion', hrules'⟩ := hkept hinPlace hstatus
  exact ⟨hregion'.trans hregion, hrules'.trans hrules⟩

include L in
/-- In memory a pack that some name and version lead to before the rollback has its content. -/
theorem keepsContent_of_under (hInv : L.Inv app.repository) (hinPlace : V.inPlace)
    (h : RolledBack repo V app v w p q activation between rollback) {name : String} {version : Int}
    (hunder : Under repo (runCalls repo (activation :: between) app).repository name version v) :
    KeepsContent V (runCalls repo (activation :: between) app).repository v p := by
  obtain ⟨hInv', hkept⟩ := before_rollback L hInv h
  obtain ⟨ref, hget, hid⟩ := hunder
  obtain ⟨u, hreads⟩ := L.get hInv' hget
  obtain ⟨hcatalogue, hid'⟩ := L.reads hInv' hreads
  rw [hid] at hid'
  cases hid'
  obtain ⟨hname, hcontent⟩ := hkept _ hcatalogue
  exact ⟨_, hcatalogue, hname, hcontent hinPlace⟩

include L in
/-- The rollback undoes the activation exactly when it goes to `v`, and `v` has its content. -/
theorem undone_iff (hInv : L.Inv app.repository)
    (h : RolledBack repo V app v w p q activation between rollback) :
    let s := (runCalls repo (activation :: between) app).repository
    let t := (runCalls repo (activation :: (between ++ [rollback])) app).repository
    Undone V s t v p ↔ ParentLeadsTo repo s p.name q.version v ∧ KeepsContent V s v p := by
  intro s t
  obtain ⟨hInv', hkept⟩ := before_rollback L hInv h
  have ht : t = (rollback.exec repo (runCalls repo (activation :: between) app)).2.repository := by
    simp only [t, ← List.cons_append, runCalls_append]
    rfl
  obtain ⟨actor, reason, lock, hrollback⟩ := h.rollsBack
  have hreturns := h.rolledBack
  rw [hrollback] at hreturns ht
  obtain ⟨r, hexec⟩ := execute_of_outcome_ok hreturns
  obtain ⟨ref, parent, hget, hparent, hperforms⟩ := L.rollback_performs hexec
  obtain ⟨-, -, heffect⟩ := hperforms.step hInv'
  -- the rollback activates the pack the parent version leads to, `u`
  obtain ⟨u, p₁, p', hp₁, hunder, hp', hcatalogue⟩ := activated_of_effect heffect
  have hcatalogue : V.catalogue t = (V.catalogue s).activate p.name u p' := by
    rw [ht, ← h.published.2.2.1]
    exact hcatalogue
  rw [h.published.2.2.1] at hget hunder
  constructor
  · intro h
    obtain ⟨⟨p₂, hp₂, hactive, hname, hregion, hrules⟩, -, -⟩ := h
    rw [hcatalogue] at hp₂
    rcases Catalogue.activate_eq_some hp₂ with ⟨rfl, rfl⟩ | ⟨hv, p₃, hp₃, rfl⟩
    · rw [hp'] at hname hregion hrules
      exact ⟨⟨ref, parent, hget, hparent, hunder⟩, p₁, hp₁, hname, hregion, hrules⟩
    · -- another pack went live, and `v`, of the name, is not active
      exact absurd (hkept p₃ hp₃).1 (kept_of_deprecateNamed hactive).2
  · intro h
    obtain ⟨⟨ref', parent', hget', hparent', hunder'⟩, p₂, hp₂, hname, hregion, hrules⟩ := h
    cases hget.symm.trans hget'
    cases hparent.symm.trans hparent'
    obtain rfl := hunder.unique hunder'
    cases hp₁.symm.trans hp₂
    refine ⟨⟨p', by rw [hcatalogue, Catalogue.activate_self], ?_⟩, ?_, ?_⟩
    · rw [hp']
      exact ⟨rfl, hname, hregion, hrules⟩
    · intro u' q' hq' hactive hname'
      rw [hcatalogue] at hq'
      rcases Catalogue.activate_eq_some hq' with ⟨rfl, -⟩ | ⟨-, q₁, hq₁, rfl⟩
      · rfl
      · obtain ⟨hsame, hother⟩ := kept_of_deprecateNamed hactive
        rw [hsame] at hname'
        exact absurd hname' hother
    · intro u' q' hq' hactive
      rw [hcatalogue] at hq'
      rcases Catalogue.activate_eq_some hq' with ⟨rfl, -⟩ | ⟨-, q₁, hq₁, rfl⟩
      · exact Or.inl rfl
      · rw [(kept_of_deprecateNamed hactive).1] at hactive
        exact Or.inr ⟨q₁, hq₁, hactive⟩

end

open InMemoryRulePackRepository in
/-- On either backend, from any state that calls lead to: the rollback of a published version
    makes the pack that was active before it, and only this one, active again with its rules
    exactly when the parent version of the rolled back version leads to it; with Postgres its
    row must also not have been overwritten. -/
theorem rollback_undoes_iff (order : RowOrder) (calls : List Call) (v w : Uuid) (p q : RulePack)
    (activation : Call) (between : List Call) (rollback : Call) :
    (CallsEach inMemoryRulePackRepository (MetadataOnly view) calls inMemoryStart →
      let app := runCalls inMemoryRulePackRepository calls inMemoryStart
      RolledBack inMemoryRulePackRepository view app v w p q activation between rollback →
      let s := (runCalls inMemoryRulePackRepository (activation :: between) app).repository
      let t := (runCalls inMemoryRulePackRepository (activation :: (between ++ [rollback]))
        app).repository
      Undone view s t v p ↔ ParentLeadsTo inMemoryRulePackRepository s p.name q.version v) ∧
      let repo := postgresRulePackRepository order
      let app := runCalls repo calls postgresStart
      RolledBack repo PostgresRulePackRepository.view app v w p q activation between rollback →
      let s := (runCalls repo (activation :: between) app).repository
      let t := (runCalls repo (activation :: (between ++ [rollback])) app).repository
      Undone PostgresRulePackRepository.view s t v p ↔
        ParentLeadsTo repo s p.name q.version v ∧
          KeepsContent PostgresRulePackRepository.view s v p := by
  constructor
  · intro hcalls app h s t
    have hInv : lawful.Inv app.repository := inv_runCalls hcalls
    refine (undone_iff lawful hInv h).trans (and_iff_left_of_imp ?_)
    intro h
    obtain ⟨ref, parent, hget, hparent, hunder⟩ := h
    exact keepsContent_of_under lawful hInv trivial h hunder
  · intro repo app h s t
    exact undone_iff (PostgresRulePackRepository.lawful order)
      (PostgresRulePackRepository.inv_runCalls order calls) h

/-- A version of the plain pack, after some writes. -/
def plainVersion (version : Int) (parentVersion : Option Int) (status : PackStatus) (id : Uuid)
    (lockVersion : Nat) : RulePack :=
  { newDraft "noc" version none none [plainRule "R1"] "editor" parentVersion with
    status, id := some id, lockVersion }

open InMemoryRulePackRepository in
/-- The second version goes live, a third is drafted, the second is rolled back to the first. -/
theorem rollback_undoes_second :
    let app := runCalls inMemoryRulePackRepository
      [createPlain "noc" none, .publish 0 "admin", .activate 0 "admin" none none,
        createPlain "noc" none, .publish 1 "admin"] inMemoryStart
    let activation := Call.activate 1 "admin" none none
    let between := [createPlain "noc" none]
    Undone view (runCalls inMemoryRulePackRepository (activation :: between) app).repository
      (runCalls inMemoryRulePackRepository
        (activation :: (between ++ [.rollback "noc" 2 "admin" none none])) app).repository 0
      (plainVersion 1 none .active 0 3) := by
  intro app activation between
  have hcalls : CallsEach inMemoryRulePackRepository (MetadataOnly view)
      [createPlain "noc" none, .publish 0 "admin", .activate 0 "admin" none none,
        createPlain "noc" none, .publish 1 "admin"] inMemoryStart :=
    ⟨trivial, trivial, fun _ _ _ => trivial, trivial, trivial, trivial⟩
  have hauthors : ∀ call ∈ between, call.Authors := by
    intro call hcall
    cases List.mem_singleton.mp hcall
    trivial
  have hrolledBack : RolledBack inMemoryRulePackRepository view app 0 1
      (plainVersion 1 none .active 0 3) (plainVersion 2 (some 1) .published 1 2) activation between
      (.rollback "noc" 2 "admin" none none) :=
    ⟨⟨rfl, rfl⟩, ⟨rfl, rfl, rfl, rfl⟩, ⟨_, _, _, rfl⟩, rfl, hauthors, ⟨_, _, _, rfl⟩, rfl⟩
  exact ((rollback_undoes_iff writtenOrder _ _ _ _ _ _ _ _).1 hcalls hrolledBack).mpr
    ⟨1, 1, rfl, rfl, 0, rfl, rfl⟩

/-- A version that is live, a Draft after it, and a third version that is published. -/
def draftBetween : List Call :=
  [createPlain "noc" none, .publish 0 "admin", .activate 0 "admin" none none,
    createPlain "noc" none, createPlain "noc" none, .publish 2 "admin"]

open InMemoryRulePackRepository in
/-- The third version goes live and is rolled back, to the Draft. -/
theorem rollback_activates_other :
    ¬∀ calls v w p q activation between rollback,
      Succeed inMemoryRulePackRepository calls inMemoryStart →
      let app := runCalls inMemoryRulePackRepository calls inMemoryStart
      RolledBack inMemoryRulePackRepository view app v w p q activation between rollback →
      Undone view
        (runCalls inMemoryRulePackRepository (activation :: between) app).repository
        (runCalls inMemoryRulePackRepository (activation :: (between ++ [rollback]))
          app).repository v p := by
  intro h
  have hsucceed : Succeed inMemoryRulePackRepository draftBetween inMemoryStart :=
    ⟨rfl, rfl, rfl, rfl, rfl, rfl, trivial⟩
  have hrolledBack : RolledBack inMemoryRulePackRepository view
      (runCalls inMemoryRulePackRepository draftBetween inMemoryStart) 0 2
      (plainVersion 1 none .active 0 3) (plainVersion 3 (some 2) .published 2 2)
      (.activate 2 "admin" none none) [] (.rollback "noc" 3 "admin" none none) :=
    ⟨⟨rfl, rfl⟩, ⟨rfl, rfl, rfl, rfl⟩, ⟨_, _, _, rfl⟩, rfl, by simp, ⟨_, _, _, rfl⟩, rfl⟩
  have hdeprecated : catalogue (runCalls inMemoryRulePackRepository
      [.activate 2 "admin" none none, .rollback "noc" 3 "admin" none none]
      (runCalls inMemoryRulePackRepository draftBetween inMemoryStart)).repository 0 =
      some (plainVersion 1 none .deprecated 0 4) := rfl
  obtain ⟨p', hp', hactive, -⟩ := (h _ _ _ _ _ _ _ _ hsucceed hrolledBack).1
  cases hdeprecated.symm.trans hp'
  cases hactive

end PulseGuard
