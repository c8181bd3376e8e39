import PulseGuard.Native.Requests
import PulseGuard.Spec.InMemoryCorrect
import PulseGuard.Spec.Lifecycle
import PulseGuard.Spec.PostgresCorrect

/-!
# Version allocation

Requests that create and import packs choose a version from what they read, and save under it
later. As long as every save finds its name and version still free, requests in any
interleaving get keys of their own and every pack they made stays stored (`allocate_distinct`).
Nothing makes sure of that: `allocate_collides` is two creations that both get version 1.
-/

namespace PulseGuard

open Interleaving

variable {σ ρ : Type}

/-- No pack is listed under the name and version of a Draft, or none is found there. -/
def FreeKey (repo : RulePackRepository σ ρ) (s : σ) (draft : RulePack) : Prop :=
  (∀ ref ∈ repo.listVersions draft.name s, (repo.pack s ref).version ≠ draft.version) ∨
    repo.get draft.name draft.version s = none

/-- A save finds the key of its Draft free. -/
def SavesFree {ι : Type} (repo : RulePackRepository σ ρ)
    (x : Config ι σ PyError RulePack RulePack) (i : ι) : Prop :=
  ∀ draft, x.phase i = .holds draft → FreeKey repo x.state draft

namespace NewPack

/-- The rules that a request supplies. -/
def rules : NewPack → Except PyError (List Rule)
  | create _ _ _ rules _ => .ok rules
  | importDocument document _ => (document.rules.getD []).mapM ruleFromJson

/-- A request reads a Draft with its rules, and changes nothing. -/
theorem read_ok {repo : RulePackRepository σ ρ} {request : NewPack} {s t : σ} {draft : RulePack}
    (h : request.read repo s = .ok (draft, t)) :
    t = s ∧ draft.id = none ∧ request.rules = .ok draft.rules := by
  cases request with
  | create name region tenantId rules actor =>
    cases h
    exact ⟨rfl, rfl, rfl⟩
  | importDocument document actor =>
    obtain ⟨name, -, h⟩ := Except.bind_ok_iff.mp h
    obtain ⟨rules, hrules, h⟩ := Except.bind_ok_iff.mp h
    cases htaken : versionTaken repo name document.version s with
    | some version =>
      rw [htaken] at h
      cases h
    | none =>
      rw [htaken] at h
      cases h
      exact ⟨rfl, rfl, hrules⟩

end NewPack

/-- The requests that succeed hold keys of their own, and the packs they made are stored with
    the rules that they supplied. -/
structure Allocated {ι : Type} (repo : RulePackRepository σ ρ) (V : StoreView σ)
    (requests : ι → NewPack) (x : Config ι σ PyError RulePack RulePack) : Prop where
  distinct : ∀ i j draft saved draft' saved', i ≠ j → x.phase i = .wrote draft (.ok saved) →
    x.phase j = .wrote draft' (.ok saved') →
    (saved.name, saved.version) ≠ (saved'.name, saved'.version)
  stored : ∀ i draft saved, x.phase i = .wrote draft (.ok saved) →
    ∃ ref rules, repo.get saved.name saved.version x.state = some ref ∧
      (requests i).rules = .ok rules ∧ V.stored rules (repo.pack x.state ref).rules

/-- A repository whose saves under free keys leave every pack alone that its key leads to.
    `Holds s q`: in `s`, the key of `q` leads to it. -/
structure KeyedSaves (repo : RulePackRepository σ ρ) (V : StoreView σ) (Inv : σ → Prop) where
  Holds : σ → RulePack → Prop
  get : ∀ {s q}, Holds s q → ∃ ref, repo.get q.name q.version s = some ref ∧ repo.pack s ref = q
  listed : ∀ {s q}, Holds s q →
    ∃ ref ∈ repo.listVersions q.name s, (repo.pack s ref).version = q.version
  save : ∀ {s p r t}, Inv s → p.id = none → FreeKey repo s p →
    repo.save (repo.new p s).1 (repo.new p s).2 = .ok (r, t) →
    (∃ q, Holds t q ∧ q.name = p.name ∧ q.version = p.version ∧ V.stored p.rules q.rules) ∧
      ∀ q, Holds s q → (q.name, q.version) ≠ (p.name, p.version) → Holds t q

section

variable {ι : Type} [DecidableEq ι] {repo : RulePackRepository σ ρ} {V : StoreView σ}
  (L : Lawful repo V) (K : KeyedSaves repo V L.Inv) {requests : ι → NewPack}

/-- The key of a pack that is held is not free. -/
theorem KeyedSaves.not_free {Inv : σ → Prop} (K : KeyedSaves repo V Inv) {s : σ} {p q : RulePack}
    (hq : K.Holds s q) (hfree : FreeKey repo s p) : (q.name, q.version) ≠ (p.name, p.version) := by
  intro hkey
  obtain ⟨hname, hversion⟩ := Prod.mk.inj hkey
  rcases hfree with hlisted | hget
  · obtain ⟨ref, href, heq⟩ := K.listed hq
    rw [hname] at href
    exact hlisted ref href (heq.trans hversion)
  · obtain ⟨ref, href, -⟩ := K.get hq
    rw [← hname, ← hversion, href] at hget
    cases hget

/-- The invariant of a schedule. -/
structure Allocating (requests : ι → NewPack) (x : Config ι σ PyError RulePack RulePack) : Prop where
  inv : L.Inv x.state
  holds : ∀ i draft, x.phase i = .holds draft →
    draft.id = none ∧ (requests i).rules = .ok draft.rules
  distinct : ∀ i j draft saved draft' saved', i ≠ j → x.phase i = .wrote draft (.ok saved) →
    x.phase j = .wrote draft' (.ok saved') →
    (saved.name, saved.version) ≠ (saved'.name, saved'.version)
  stored : ∀ i draft saved, x.phase i = .wrote draft (.ok saved) →
    ∃ q rules, K.Holds x.state q ∧ q.name = saved.name ∧ q.version = saved.version ∧
      (requests i).rules = .ok rules ∧ V.stored rules q.rules

variable {L K}

/-- A successful save of a Draft. -/
theorem saveDraft_ok {draft saved : RulePack} {s t : σ}
    (h : saveDraft repo draft s = .ok (saved, t)) :
    ∃ r, repo.save (repo.new draft s).1 (repo.new draft s).2 = .ok (r, t) ∧
      saved = repo.pack t r := by
  obtain ⟨⟨r, t'⟩, hsave, h⟩ := Except.bind_ok_iff.mp h
  cases h
  exact ⟨r, hsave, rfl⟩

omit [DecidableEq ι] in
/-- A section that does not save keeps the invariant. -/
theorem Allocating.of_same_writes {x y : Config ι σ PyError RulePack RulePack}
    (h : Allocating L K requests x) (hstate : y.state = x.state)
    (hholds : ∀ i draft, y.phase i = .holds draft →
      draft.id = none ∧ (requests i).rules = .ok draft.rules)
    (hwrote : ∀ i draft saved, y.phase i = .wrote draft (.ok saved) →
      x.phase i = .wrote draft (.ok saved)) : Allocating L K requests y where
  inv := hstate ▸ h.inv
  holds := hholds
  distinct i j draft saved draft' saved' hij hi hj :=
    h.distinct i j draft saved draft' saved' hij (hwrote i draft saved hi)
      (hwrote j draft' saved' hj)
  stored i draft saved hi := hstate ▸ h.stored i draft saved (hwrote i draft saved hi)

/-- Every section keeps the invariant, when a save finds its key free. -/
theorem Allocating.step {x y : Config ι σ PyError RulePack RulePack} {i : ι}
    (h : Allocating L K requests x) (hstep : (newPacks repo requests).Step x i y)
    (hfree : SavesFree repo x i) : Allocating L K requests y := by
  cases hstep with
  | @read draft s hphase hread =>
    obtain ⟨rfl, hid, hrules⟩ := NewPack.read_ok hread
    refine h.of_same_writes rfl (fun j draft' hj => ?_) fun j draft' saved hj => ?_
    · rcases phase_update hj with ⟨rfl, heq⟩ | ⟨-, hold⟩
      · cases heq
        exact ⟨hid, hrules⟩
      · exact h.holds j draft' hold
    · rcases phase_update hj with ⟨-, heq⟩ | ⟨-, hold⟩
      · cases heq
      · exact hold
  | refuse hphase hread =>
    refine h.of_same_writes rfl (fun j draft' hj => ?_) fun j draft' saved hj => ?_
    · rcases phase_update hj with ⟨-, heq⟩ | ⟨-, hold⟩
      · cases heq
      · exact h.holds j draft' hold
    · rcases phase_update hj with ⟨-, heq⟩ | ⟨-, hold⟩
      · cases heq
      · exact hold
  | fail hphase hwrite =>
    refine h.of_same_writes rfl (fun j draft' hj => ?_) fun j draft' saved hj => ?_
    · rcases phase_update hj with ⟨-, heq⟩ | ⟨-, hold⟩
      · cases heq
      · exact h.holds j draft' hold
    · rcases phase_update hj with ⟨-, heq⟩ | ⟨-, hold⟩
      · cases heq
      · exact hold
  | idle => exact h
  | @write draft saved t hphase hwrite =>
    obtain ⟨hid, hrules⟩ := h.holds i draft hphase
    obtain ⟨r, hsave, rfl⟩ := saveDraft_ok hwrite
    have hfree := hfree draft hphase
    obtain ⟨hInv, -, hname, hversion⟩ := L.saveNew h.inv hid hfree hsave
    obtain ⟨⟨q, hq, hqname, hqversion, hqrules⟩, hkeeps⟩ := K.save h.inv hid hfree hsave
    -- whatever another request has stored lies under another key than the free one
    have hother : ∀ j draft' saved', x.phase j = .wrote draft' (.ok saved') →
        (saved'.name, saved'.version) ≠ ((repo.pack t r).name, (repo.pack t r).version) := by
      intro j draft' saved' hj
      obtain ⟨q', rules, hq', hname', hversion', -⟩ := h.stored j draft' saved' hj
      rw [hname, hversion, ← hname', ← hversion']
      exact K.not_free hq' hfree
    refine ⟨hInv, ?_, ?_, ?_⟩
    · intro j draft' hj
      rcases phase_update hj with ⟨-, heq⟩ | ⟨-, hold⟩
      · cases heq
      · exact h.holds j draft' hold
    · intro j k draft₁ saved₁ draft₂ saved₂ hjk hj hk
      rcases phase_update hj with ⟨hji, heq⟩ | ⟨-, hj'⟩
      · cases heq
        rcases phase_update hk with ⟨hki, -⟩ | ⟨-, hk'⟩
        · exact absurd (hji.trans hki.symm) hjk
        · exact (hother k draft₂ saved₂ hk').symm
      · rcases phase_update hk with ⟨-, heq⟩ | ⟨-, hk'⟩
        · cases heq
          exact hother j draft₁ saved₁ hj'
        · exact h.distinct j k draft₁ saved₁ draft₂ saved₂ hjk hj' hk'
    · intro j draft' saved' hj
      rcases phase_update hj with ⟨rfl, heq⟩ | ⟨-, hj⟩
      · cases heq
        exact ⟨q, draft.rules, hq, hqname.trans hname.symm, hqversion.trans hversion.symm, hrules,
          hqrules⟩
      · obtain ⟨q', rules, hq', hstored⟩ := h.stored j draft' saved' hj
        exact ⟨q', rules, hkeeps q' hq' (K.not_free hq' hfree), hstored⟩

variable (L K)

include L K in
/-- In every schedule whose saves find their keys free, the requests that succeed have keys of
    their own, and their packs are stored. -/
theorem allocated_of_free {s : σ} (hInv : L.Inv s) {schedule : List ι}
    (hfree : (newPacks repo requests).Meets (SavesFree repo) schedule (.start s)) :
    Allocated repo V requests ((newPacks repo requests).run schedule (.start s)) := by
  have hstart : Allocating L K requests (.start s) :=
    ⟨hInv, fun _ _ h => (by cases h), fun _ _ _ _ _ _ _ h => (by cases h), fun _ _ _ h => (by cases h)⟩
  have hstep : ∀ x i y, (newPacks repo requests).Step x i y → SavesFree repo x i →
      Allocating L K requests x → Allocating L K requests y :=
    fun _ _ _ hstep hP h => h.step hstep hP
  have hend := ((newPacks repo requests).run_where hfree).invariant _ hstep hstart
  refine ⟨hend.distinct, fun i draft saved hi => ?_⟩
  obtain ⟨q, rules, hq, hname, hversion, hrules, hstored⟩ := hend.stored i draft saved hi
  obtain ⟨ref, hget, rfl⟩ := K.get hq
  rw [hname, hversion] at hget
  exact ⟨ref, rules, hget, hrules, hstored⟩

end

/-! ## The repositories -/

namespace InMemoryRulePackRepository

/-- In memory the key of a pack leads to its object. -/
def keyedSaves : KeyedSaves inMemoryRulePackRepository view Inv where
  Holds s q := ∃ ref, s.store.get? (q.name, q.version) = some ref ∧ s.objects ref = q
  get := by
    intro s q h
    obtain ⟨ref, hget, hobject⟩ := h
    exact ⟨ref, hget, hobject⟩
  listed := by
    intro s q h
    obtain ⟨ref, hget, hobject⟩ := h
    have hname : (s.objects ref).name = q.name := congrArg RulePack.name hobject
    exact ⟨ref, mem_listVersions.mpr ⟨mem_refs_of_get hget, hname⟩,
      congrArg RulePack.version hobject⟩
  save := by
    intro s p r t hs hid hfree hsave
    obtain ⟨hstore, hobjects⟩ := saveNew_ok hid hsave
    constructor
    · refine ⟨{ p with id := some s.nextUuid }, ⟨s.nextRef, ?_, ?_⟩, rfl, rfl, rfl⟩
      · rw [hstore, Dict.get?_set_self]
      · rw [hobjects, Function.update_self]
    · rintro q ⟨ref, hget, hobject⟩ hkey
      have hlt := hs.allocated ref (mem_refs_of_get hget)
      refine ⟨ref, ?_, ?_⟩
      · rw [hstore, Dict.get?_set_of_ne _ _ hkey.symm, hget]
      · rw [hobjects, Function.update_of_ne (Nat.ne_of_lt hlt), hobject]

end InMemoryRulePackRepository

namespace PostgresRulePackRepository

/-- With Postgres one row has the key of a pack. -/
def keyedSaves (order : RowOrder) :
    KeyedSaves (postgresRulePackRepository order) view (lawful order).Inv where
  Holds s q := ∃ row ∈ s.ruleSets, toDomain s row = q ∧
    ∀ r ∈ s.ruleSets, r.name = row.name → r.version = row.version → r = row
  get := by
    intro s q h
    obtain ⟨row, hmem, rfl, hunique⟩ := h
    obtain ⟨row', hfirst⟩ := first_isSome order hmem
    obtain ⟨hmem', hname, hversion⟩ := first_mem hfirst
    rw [hunique row' hmem' hname hversion] at hfirst
    exact ⟨toDomain s row, congrArg (Option.map (toDomain s)) hfirst, rfl⟩
  listed := by
    intro s q h
    obtain ⟨row, hmem, rfl, hunique⟩ := h
    exact ⟨toDomain s row, mem_listVersions.mpr ⟨row, hmem, rfl, rfl⟩, rfl⟩
  save := by
    intro s p r t hs hid hfree hsave
    have hfirst : first order p.name p.version s = none := first_none_of_free hfree
    have hsave : saveNew order p s = .ok (r, t) := by
      have hsave : save order p s = .ok (r, t) := hsave
      rw [save, hfirst] at hsave
      exact hsave
    obtain ⟨row, hrow, -, -, hname, hversion, -, -, -, hrules, -, htable, hInv, hcatalogue⟩ :=
      saveNew_effect hs hsave
    constructor
    · refine ⟨toDomain t row, ⟨row, by simp [htable], rfl, fun r' hr' hname' hversion' => ?_⟩, hname,
        hversion, hrules⟩
      rw [htable, List.mem_append, List.mem_singleton] at hr'
      rcases hr' with hold | rfl
      · -- no row had the key before
        obtain ⟨row', hfound⟩ := first_isSome order hold
        rw [hname', hversion', hname, hversion, hfirst] at hfound
        cases hfound
      · rfl
    · rintro q ⟨old, hmem, hold, hunique⟩ hkey
      have hmem' : old ∈ t.ruleSets := by
        rw [htable]
        exact List.mem_append_left _ hmem
      have hne : old.id ≠ row.id := by
        rw [hrow]
        exact Nat.ne_of_lt (hs.bound old hmem)
      have hsame : toDomain t old = toDomain s old := by
        have hread := catalogue_of_mem hInv hmem'
        rw [hcatalogue, Catalogue.put_of_ne hne, catalogue_of_mem hs hmem] at hread
        exact (Option.some.inj hread).symm
      refine ⟨old, hmem', hsame.trans hold, fun r' hr' hname' hversion' => ?_⟩
      rw [htable, List.mem_append, List.mem_singleton] at hr'
      rcases hr' with hr' | rfl
      · exact hunique r' hr' hname' hversion'
      · refine absurd (Prod.ext ?_ ?_) hkey
        · rw [← hold]
          exact hname'.symm.trans hname
        · rw [← hold]
          exact hversion'.symm.trans hversion

end PostgresRulePackRepository

open InMemoryRulePackRepository in
/-- On either backend, from any state that calls lead to: in every interleaving of creations and
    imports in which every save finds its name and version free, the requests that succeed have
    keys of their own, and their packs are stored with the rules they supplied. -/
theorem allocate_distinct {ι : Type} [DecidableEq ι] (requests : ι → NewPack) (order : RowOrder)
    (calls : List Call) (schedule : List ι) :
    (CallsEach inMemoryRulePackRepository (MetadataOnly view) calls inMemoryStart →
      let start := Config.start (runCalls inMemoryRulePackRepository calls inMemoryStart).repository
      let sys := newPacks inMemoryRulePackRepository requests
      sys.Meets (SavesFree inMemoryRulePackRepository) schedule start →
      Allocated inMemoryRulePackRepository view requests (sys.run schedule start)) ∧
      let repo := postgresRulePackRepository order
      let start := Config.start (runCalls repo calls postgresStart).repository
      let sys := newPacks repo requests
      sys.Meets (SavesFree repo) schedule start →
      Allocated repo PostgresRulePackRepository.view requests (sys.run schedule start) := by
  constructor
  · intro hcalls start sys hfree
    exact allocated_of_free lawful keyedSaves (inv_runCalls hcalls) hfree
  · intro repo start sys hfree
    exact allocated_of_free (PostgresRulePackRepository.lawful order)
      (PostgresRulePackRepository.keyedSaves order)
      (PostgresRulePackRepository.inv_runCalls order calls) hfree

/-- Any number of creations of the plain pack. -/
def createEach : Nat → NewPack := fun _ => .create "noc" none none [plainRule "R1"] "editor"

open InMemoryRulePackRepository in
/-- Two creations one after the other get two versions. -/
theorem allocate_distinct_sequential :
    Allocated inMemoryRulePackRepository view createEach
      ((newPacks inMemoryRulePackRepository createEach).run [0, 0, 1, 1] (.start init)) := by
  have hfree : (newPacks inMemoryRulePackRepository createEach).Meets
      (SavesFree inMemoryRulePackRepository) [0, 0, 1, 1] (.start init) :=
    ⟨fun _ h => (by cases h), fun _ h => (by cases h; exact Or.inr rfl), fun _ h => (by cases h),
      fun _ h => (by cases h; exact Or.inr rfl), trivial⟩
  exact (allocate_distinct createEach writtenOrder [] [0, 0, 1, 1]).1 trivial hfree

open InMemoryRulePackRepository in
/-- Two creations that both read before either saves get the same version. -/
theorem allocate_collides :
    ¬∀ (requests : Nat → NewPack) schedule,
      Allocated inMemoryRulePackRepository view requests
        ((newPacks inMemoryRulePackRepository requests).run schedule (.start init)) := by
  intro h
  have hcollide := h createEach [0, 1, 0, 1]
  exact hcollide.distinct 0 1 _ _ _ _ (by decide) rfl rfl rfl

end PulseGuard
