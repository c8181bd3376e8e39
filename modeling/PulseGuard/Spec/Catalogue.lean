import Mathlib.Logic.Function.Basic
import PulseGuard.ForStd.Run
import PulseGuard.Native.Calls

/-!
# The catalogue of packs

The abstract model of a rule pack store: the packs by identifier, and what each write of
the repository does to them. Both repositories refine it.
-/

namespace PulseGuard

/-- The packs of a store, by identifier. -/
abbrev Catalogue := Uuid → Option RulePack

namespace Catalogue

/-- A pack put under an identifier. -/
def put (c : Catalogue) (u : Uuid) (p : RulePack) : Catalogue := Function.update c u (some p)

/-- A pack lost, if there is one to lose. -/
def drop (c : Catalogue) (lost : Option Uuid) : Catalogue :=
  fun v => if lost = some v then none else c v

/-- What the activation of `u` under a name does to another pack. -/
def deprecateNamed (name : String) (p : RulePack) : RulePack :=
  if p.name = name ∧ p.status = .active then
    { p with status := .deprecated, lockVersion := p.lockVersion + 1 }
  else p

/-- The activation of `u`, which becomes `p`, under a name. -/
def activate (c : Catalogue) (name : String) (u : Uuid) (p : RulePack) : Catalogue :=
  Function.update (fun v => (c v).map (deprecateNamed name)) u (some p)

variable {c : Catalogue} {u v : Uuid} {p q : RulePack} {lost : Option Uuid} {name : String}

@[simp] theorem put_self : c.put u p u = some p := Function.update_self ..

theorem put_of_ne (h : v ≠ u) : c.put u p v = c v := Function.update_of_ne h ..

theorem put_eq_some (h : c.put u p v = some q) : v = u ∧ q = p ∨ v ≠ u ∧ c v = some q := by
  by_cases hv : v = u
  · subst hv
    rw [put_self] at h
    exact Or.inl ⟨rfl, (Option.some.inj h).symm⟩
  · rw [put_of_ne hv] at h
    exact Or.inr ⟨hv, h⟩

theorem drop_eq_some (h : c.drop lost v = some q) : lost ≠ some v ∧ c v = some q := by
  unfold drop at h
  split at h
  · cases h
  · rename_i hne
    exact ⟨hne, h⟩

theorem drop_of_ne (h : lost ≠ some v) : c.drop lost v = c v := if_neg h

@[simp] theorem drop_none : c.drop none = c := by
  funext v
  exact drop_of_ne (by simp)

@[simp] theorem activate_self : c.activate name u p u = some p := Function.update_self ..

theorem activate_of_ne (h : v ≠ u) : c.activate name u p v = (c v).map (deprecateNamed name) :=
  Function.update_of_ne h ..

theorem activate_eq_some (h : c.activate name u p v = some q) :
    v = u ∧ q = p ∨ v ≠ u ∧ ∃ p', c v = some p' ∧ q = deprecateNamed name p' := by
  by_cases hv : v = u
  · subst hv
    rw [activate_self] at h
    exact Or.inl ⟨rfl, (Option.some.inj h).symm⟩
  · rw [activate_of_ne hv, Option.map_eq_some_iff] at h
    obtain ⟨p', hp', rfl⟩ := h
    exact Or.inr ⟨hv, p', hp', rfl⟩

end Catalogue

/-- A pack with everything but its lock version as it was. -/
def RulePack.SameContent (p q : RulePack) : Prop := q = { p with lockVersion := q.lockVersion }

theorem RulePack.SameContent.refl (p : RulePack) : p.SameContent p := rfl

theorem RulePack.SameContent.trans {p q r : RulePack} (h : p.SameContent q)
    (h' : q.SameContent r) : p.SameContent r := by
  rw [RulePack.SameContent] at h h' ⊢
  rw [h', h]

/-- A write of the repository, with what it was asked to do: `saveNew` of a new pack or the
    fixture, `saveEdited` of the pack a rule edit read, with its new rules. -/
inductive Write where
  | saveNew (pack : RulePack)
  | saveEdited (pack : RulePack) (rules : List Rule)
  | updateMetadata (packId : Uuid) (expectedLockVersion : Option Nat) (fields : List PackAttr)
  | publish (packId : Uuid)
  | softDelete (packId : Uuid) (expectedLockVersion : Option Nat)
  | activate (packId : Option Uuid) (name : String) (version : Int)
      (expectedLockVersion : Option Nat)
  | promoteToShadow (packId : Uuid)

namespace Write

/-- The writes of `save`. -/
def IsSave : Write → Prop
  | saveNew _ | saveEdited _ _ => True
  | _ => False

end Write

/-- What the abstract model sees of a store: its catalogue, the identifiers drawn, whether a
    pack handed out is the stored object itself, and how a rule list reads once stored. -/
structure StoreView (σ : Type) where
  catalogue : σ → Catalogue
  supply : σ → Uuid
  inPlace : Prop
  stored : List Rule → List Rule → Prop

/-- The pack that `get` finds under a name and a version. -/
def Under {σ ρ : Type} (repo : RulePackRepository σ ρ) (s : σ) (name : String) (version : Int)
    (v : Uuid) : Prop :=
  ∃ ref, repo.get name version s = some ref ∧ (repo.pack s ref).id = some v

theorem Under.unique {σ ρ : Type} {repo : RulePackRepository σ ρ} {s : σ} {name : String}
    {version : Int} {u v : Uuid} (hu : Under repo s name version u)
    (hv : Under repo s name version v) : v = u := by
  obtain ⟨ref, hget, hid⟩ := hu
  obtain ⟨ref', hget', hid'⟩ := hv
  rw [hget] at hget'
  cases hget'
  exact Option.some.inj (hid'.symm.trans hid)

/-- A pack that only one name and version lead to. -/
def OnlyUnder {σ ρ : Type} (repo : RulePackRepository σ ρ) (s : σ) (name : String)
    (version : Int) (v : Uuid) : Prop :=
  Under repo s name version v ∧ ∀ name' version', Under repo s name' version' v →
    name' = name ∧ version' = version

/-- The lock check of a guarded write. -/
def LockMatches (expectedLockVersion : Option Nat) (p : RulePack) : Prop :=
  ∀ n, expectedLockVersion = some n → p.lockVersion = n

/-- What the save of an edited pack does to the pack `q` whose row it takes: the lock version
    rises, unless status, region and author stay, and then only the rules change. -/
def Overwrites (p : RulePack) (rules : List Rule) (q q' : RulePack) : Prop :=
  (q.lockVersion < q'.lockVersion ∨ q.status = p.status ∧ q.region = p.region ∧
    q.createdBy = p.createdBy ∧ q' = { q with rules := q'.rules }) ∧
  (rules = q.rules → q'.rules = q.rules)

/-- What a write does to the catalogue, and what held when it was made. -/
inductive Effect {σ ρ : Type} (repo : RulePackRepository σ ρ) (V : StoreView σ) (s : σ) :
    Write → σ → Prop where
  /-- A new pack comes in; in memory a pack that only its key leads to is lost. -/
  | saveNew {p p' : RulePack} {u : Uuid} {lost : Option Uuid} {t : σ}
      (hsupply : V.supply s ≤ u) (hu : u < V.supply t)
      (hname : p'.name = p.name) (hversion : p'.version = p.version)
      (hstatus : p'.status = p.status) (hregion : p'.region = p.region)
      (hrules : V.stored p.rules p'.rules)
      (hlost : ∀ v, lost = some v → OnlyUnder repo s p.name p.version v)
      (ht : V.catalogue t = ((V.catalogue s).drop lost).put u p') : Effect repo V s (.saveNew p) t
  /-- A Draft gets new rules; in memory another pack that only its key leads to is lost. -/
  | saveEdited {p : RulePack} {rules rules' : List Rule} {u : Uuid} {lost : Option Uuid} {t : σ}
      (hp : V.catalogue s u = some p) (hdraft : p.status = .draft)
      (hunder : ¬ V.inPlace → Under repo s p.name p.version u)
      (hsame : rules = p.rules → rules' = p.rules)
      (hlost : ∀ v, lost = some v → v ≠ u ∧ OnlyUnder repo s p.name p.version v)
      (ht : V.catalogue t = ((V.catalogue s).drop lost).put u { p with rules := rules' }) :
      Effect repo V s (.saveEdited p rules) t
  /-- The row under the key of a Draft is another pack's, and takes its status and rules. -/
  | overwrite {p q q' : RulePack} {rules : List Rule} {u v : Uuid} {t : σ}
      (hcopy : ¬ V.inPlace) (hp : V.catalogue s u = some p) (hid : p.id = some u)
      (hdraft : p.status = .draft) (hq : V.catalogue s v = some q) (hv : v ≠ u)
      (hunder : OnlyUnder repo s p.name p.version v)
      (hstatus : q'.status = .draft) (hname : q'.name = q.name) (hwrite : Overwrites p rules q q')
      (ht : V.catalogue t = (V.catalogue s).put v q') : Effect repo V s (.saveEdited p rules) t
  /-- A Draft gets new metadata. -/
  | updateMetadata {p p' : RulePack} {u : Uuid} {lock : Option Nat} {fields : List PackAttr}
      {t : σ} (hp : V.catalogue s u = some p) (hdraft : p.status = .draft)
      (hlock : LockMatches lock p) (hstatus : p'.status = p.status) (hrules : p'.rules = p.rules)
      (hbump : p.lockVersion < p'.lockVersion ∨ p' = p)
      (ht : V.catalogue t = (V.catalogue s).put u p') :
      Effect repo V s (.updateMetadata u lock fields) t
  /-- A Draft that the validator accepts is published. -/
  | publish {p : RulePack} {u : Uuid} {t : σ} (hp : V.catalogue s u = some p)
      (hdraft : p.status = .draft) (hvalid : (ValidateRulePackUseCase.execute p).isValid = true)
      (ht : V.catalogue t = (V.catalogue s).put u
        { p with status := .published, lockVersion := p.lockVersion + 1 }) :
      Effect repo V s (.publish u) t
  /-- A pack that is not active is archived. -/
  | softDelete {p : RulePack} {u : Uuid} {lock : Option Nat} {t : σ}
      (hp : V.catalogue s u = some p) (hactive : p.status ≠ .active) (hlock : LockMatches lock p)
      (ht : V.catalogue t = (V.catalogue s).put u
        { p with status := .archived, lockVersion := p.lockVersion + 1 }) :
      Effect repo V s (.softDelete u lock) t
  /-- The pack under a key goes live, every other active pack of the name is deprecated. -/
  | activate {p p' : RulePack} {requested : Option Uuid} {u : Uuid} {name : String}
      {version : Int} {lock : Option Nat} {t : σ} (hp : V.catalogue s u = some p)
      (hunder : Under repo s name version u) (hlock : LockMatches lock p)
      (hp' : p' = { p with status := .active, lockVersion := p'.lockVersion })
      (hbump : p.lockVersion < p'.lockVersion)
      (ht : V.catalogue t = (V.catalogue s).activate name u p') :
      Effect repo V s (.activate requested name version lock) t
  /-- A candidate that the validator accepts is marked, in place. -/
  | promoteToShadow {p : RulePack} {u : Uuid} {t : σ} (hinPlace : V.inPlace)
      (hp : V.catalogue s u = some p)
      (hvalid : (ValidateRulePackUseCase.execute p).isValid = true)
      (ht : V.catalogue t = (V.catalogue s).put u { p with status := .shadow }) :
      Effect repo V s (.promoteToShadow u) t

/-- A write, which draws identifiers and puts none back. -/
def WriteStep {σ ρ : Type} (repo : RulePackRepository σ ρ) (V : StoreView σ) (s : σ) (w : Write)
    (t : σ) : Prop :=
  V.supply s ≤ V.supply t ∧ Effect repo V s w t

/-! ## What a write does to one pack -/

/-- A pack that a write brought in. -/
def Born {σ : Type} (V : StoreView σ) (s : σ) (w : Write) (v : Uuid) (q : RulePack) : Prop :=
  ∃ p, w = .saveNew p ∧ V.supply s ≤ v ∧ q.name = p.name ∧ q.status = p.status ∧
    q.region = p.region ∧ V.stored p.rules q.rules

/-- What a write may have done to a pack that is there before and after it. -/
inductive PackChange {σ ρ : Type} (repo : RulePackRepository σ ρ) (V : StoreView σ) (s : σ) :
    Write → Uuid → RulePack → RulePack → Prop where
  | same {w : Write} {v : Uuid} {p : RulePack} : PackChange repo V s w v p p
  | edited {p : RulePack} {rules rules' : List Rule} {v : Uuid} (hdraft : p.status = .draft)
      (hunder : ¬ V.inPlace → Under repo s p.name p.version v) (hsame : rules = p.rules → rules' = p.rules) :
      PackChange repo V s (.saveEdited p rules) v p { p with rules := rules' }
  | overwritten {p q q' : RulePack} {rules : List Rule} {u v : Uuid} (hcopy : ¬ V.inPlace)
      (hp : V.catalogue s u = some p) (hid : p.id = some u) (hdraft : p.status = .draft)
      (hv : v ≠ u) (hunder : OnlyUnder repo s p.name p.version v) (hstatus : q'.status = .draft)
      (hname : q'.name = q.name) (hwrite : Overwrites p rules q q') :
      PackChange repo V s (.saveEdited p rules) v q q'
  | metadata {p p' : RulePack} {v : Uuid} {lock : Option Nat} {fields : List PackAttr}
      (hdraft : p.status = .draft) (hlock : LockMatches lock p) (hstatus : p'.status = p.status)
      (hrules : p'.rules = p.rules) (hbump : p.lockVersion < p'.lockVersion ∨ p' = p) :
      PackChange repo V s (.updateMetadata v lock fields) v p p'
  | published {p : RulePack} {v : Uuid} (hdraft : p.status = .draft)
      (hvalid : (ValidateRulePackUseCase.execute p).isValid = true) :
      PackChange repo V s (.publish v) v p
        { p with status := .published, lockVersion := p.lockVersion + 1 }
  | archived {p : RulePack} {v : Uuid} {lock : Option Nat} (hactive : p.status ≠ .active)
      (hlock : LockMatches lock p) : PackChange repo V s (.softDelete v lock) v p
        { p with status := .archived, lockVersion := p.lockVersion + 1 }
  | activated {p p' : RulePack} {v : Uuid} {requested : Option Uuid} {name : String}
      {version : Int} {lock : Option Nat} (hunder : Under repo s name version v)
      (hlock : LockMatches lock p)
      (hp' : p' = { p with status := .active, lockVersion := p'.lockVersion })
      (hbump : p.lockVersion < p'.lockVersion) :
      PackChange repo V s (.activate requested name version lock) v p p'
  | deprecated {p : RulePack} {v : Uuid} {requested : Option Uuid} {name : String}
      {version : Int} {lock : Option Nat} (hname : p.name = name) (hactive : p.status = .active) :
      PackChange repo V s (.activate requested name version lock) v p
        { p with status := .deprecated, lockVersion := p.lockVersion + 1 }
  | shadowed {p : RulePack} {v : Uuid} (hinPlace : V.inPlace)
      (hvalid : (ValidateRulePackUseCase.execute p).isValid = true) :
      PackChange repo V s (.promoteToShadow v) v p { p with status := .shadow }

/-- A pack seen after a write came in with it, or was there and is changed at most as
    `PackChange` says. -/
theorem WriteStep.sighting {σ ρ : Type} {repo : RulePackRepository σ ρ} {V : StoreView σ}
    {s t : σ} {w : Write} (h : WriteStep repo V s w t) {v : Uuid} {q : RulePack}
    (hq : V.catalogue t v = some q) :
    Born V s w v q ∨ ∃ p, V.catalogue s v = some p ∧ PackChange repo V s w v p q := by
  obtain ⟨-, heffect⟩ := h
  cases heffect with
  | saveNew hsupply hu hname hversion hstatus hregion hrules hlost ht =>
    rw [ht] at hq
    rcases Catalogue.put_eq_some hq with ⟨rfl, rfl⟩ | ⟨-, hq⟩
    · -- the new pack is born here, the others stay
      exact Or.inl ⟨_, rfl, hsupply, hname, hstatus, hregion, hrules⟩
    · exact Or.inr ⟨q, (Catalogue.drop_eq_some hq).2, .same⟩
  | saveEdited hp hdraft hunder hsame hlost ht =>
    rw [ht] at hq
    rcases Catalogue.put_eq_some hq with ⟨rfl, rfl⟩ | ⟨-, hq⟩
    · exact Or.inr ⟨_, hp, .edited hdraft hunder hsame⟩
    · exact Or.inr ⟨q, (Catalogue.drop_eq_some hq).2, .same⟩
  | overwrite hcopy hp hid hdraft hq' hv hunder hstatus hname hwrite ht =>
    rw [ht] at hq
    rcases Catalogue.put_eq_some hq with ⟨rfl, rfl⟩ | ⟨-, hq⟩
    · exact Or.inr ⟨_, hq', .overwritten hcopy hp hid hdraft hv hunder hstatus hname hwrite⟩
    · exact Or.inr ⟨q, hq, .same⟩
  | updateMetadata hp hdraft hlock hstatus hrules hbump ht =>
    rw [ht] at hq
    rcases Catalogue.put_eq_some hq with ⟨rfl, rfl⟩ | ⟨-, hq⟩
    · exact Or.inr ⟨_, hp, .metadata hdraft hlock hstatus hrules hbump⟩
    · exact Or.inr ⟨q, hq, .same⟩
  | publish hp hdraft hvalid ht =>
    rw [ht] at hq
    rcases Catalogue.put_eq_some hq with ⟨rfl, rfl⟩ | ⟨-, hq⟩
    · exact Or.inr ⟨_, hp, .published hdraft hvalid⟩
    · exact Or.inr ⟨q, hq, .same⟩
  | softDelete hp hactive hlock ht =>
    rw [ht] at hq
    rcases Catalogue.put_eq_some hq with ⟨rfl, rfl⟩ | ⟨-, hq⟩
    · exact Or.inr ⟨_, hp, .archived hactive hlock⟩
    · exact Or.inr ⟨q, hq, .same⟩
  | activate hp hunder hlock hp' hbump ht =>
    rw [ht] at hq
    rcases Catalogue.activate_eq_some hq with ⟨rfl, rfl⟩ | ⟨-, p, hp, rfl⟩
    · exact Or.inr ⟨_, hp, .activated hunder hlock hp' hbump⟩
    · -- the others are deprecated if they were active under the name, whatever their region
      refine Or.inr ⟨p, hp, ?_⟩
      unfold Catalogue.deprecateNamed
      split
      · rename_i hcond
        exact .deprecated hcond.1 hcond.2
      · exact .same
  | promoteToShadow hinPlace hp hvalid ht =>
    rw [ht] at hq
    rcases Catalogue.put_eq_some hq with ⟨rfl, rfl⟩ | ⟨-, hq⟩
    · exact Or.inr ⟨_, hp, .shadowed hinPlace hvalid⟩
    · exact Or.inr ⟨q, hq, .same⟩

/-- A pack older than the write did not come in with it. -/
theorem WriteStep.sighting_old {σ ρ : Type} {repo : RulePackRepository σ ρ} {V : StoreView σ}
    {s t : σ} {w : Write} (h : WriteStep repo V s w t) {v : Uuid} (hv : v < V.supply s)
    {q : RulePack} (hq : V.catalogue t v = some q) :
    ∃ p, V.catalogue s v = some p ∧ PackChange repo V s w v p q := by
  rcases h.sighting hq with ⟨p, -, hsupply, -⟩ | hold
  · exact absurd hv (Nat.not_lt.mpr hsupply)
  · exact hold

end PulseGuard
