import PulseGuard.Spec.Catalogue

/-!
# Catalogues that show the same packs

Two stores draw their identifiers independently, so what can be compared is what they show of
their packs under every name and version. `Level` is that comparison of two catalogues; a write
that does the same to the packs of one name and version on both sides keeps them level.
-/

namespace PulseGuard

/-- A rule without its identifier. -/
def Rule.shown (rule : Rule) : Rule := { rule with id := none }

/-- A pack as a backend shows it, but for identifiers, author and lock version. -/
structure ShownPack where
  name : String
  version : Int
  status : PackStatus
  region : Option String
  tenantId : Option String
  parentVersion : Option Int
  rules : List Rule

/-- What is shown of a pack. -/
def RulePack.shown (pack : RulePack) : ShownPack where
  name := pack.name
  version := pack.version
  status := pack.status
  region := pack.region
  tenantId := pack.tenantId
  parentVersion := pack.parentVersion
  rules := pack.rules.map Rule.shown

/-- A pack that is active under a name, for a region. -/
def RulePack.ActiveIn (name : String) (region : Option String) (pack : RulePack) : Prop :=
  pack.status = .active ∧ pack.name = name ∧ pack.region = region

section

variable {p q : RulePack}

theorem RulePack.status_of_shown (h : p.shown = q.shown) : p.status = q.status :=
  congrArg ShownPack.status h

theorem RulePack.parentVersion_of_shown (h : p.shown = q.shown) :
    p.parentVersion = q.parentVersion :=
  congrArg ShownPack.parentVersion h

theorem RulePack.rules_of_shown (h : p.shown = q.shown) :
    p.rules.map Rule.shown = q.rules.map Rule.shown :=
  congrArg ShownPack.rules h

theorem RulePack.name_of_shown (h : p.shown = q.shown) : p.name = q.name :=
  congrArg ShownPack.name h

theorem RulePack.version_of_shown (h : p.shown = q.shown) : p.version = q.version :=
  congrArg ShownPack.version h

theorem RulePack.nameVersion_of_shown (h : p.shown = q.shown) : p.nameVersion = q.nameVersion := by
  unfold RulePack.nameVersion
  rw [name_of_shown h, version_of_shown h]

theorem RulePack.activeIn_of_shown (h : p.shown = q.shown) {name : String} {region : Option String} :
    p.ActiveIn name region ↔ q.ActiveIn name region := by
  unfold RulePack.ActiveIn
  rw [status_of_shown h, name_of_shown h, show p.region = q.region from congrArg ShownPack.region h]

/-- Packs that differ in statuses, rules, identifiers, author and lock version. -/
theorem RulePack.shown_congr {status : PackStatus} {rules rules' : List Rule}
    {author author' : String} {n n' : Nat} {id id' : Option Uuid} (h : p.shown = q.shown)
    (hrules : rules.map Rule.shown = rules'.map Rule.shown) :
    RulePack.shown { p with status, rules, createdBy := author, lockVersion := n, id } =
      RulePack.shown { q with status, rules := rules', createdBy := author', lockVersion := n', id := id' } := by
  unfold RulePack.shown at h ⊢
  simp only [ShownPack.mk.injEq] at h ⊢
  exact ⟨h.1, h.2.1, trivial, h.2.2.2.1, h.2.2.2.2.1, h.2.2.2.2.2.1, hrules⟩

end

namespace Catalogue

/-- No two packs have one name and version. -/
def Distinct (c : Catalogue) : Prop :=
  ∀ u v p q, c u = some p → c v = some q → p.nameVersion = q.nameVersion → u = v

/-- A write that puts a pack under its name and version, and leaves those under others. -/
structure Puts (c : Catalogue) (p : RulePack) (c' : Catalogue) : Prop where
  distinct : c'.Distinct
  there : ∃ u, c' u = some p
  others : ∀ v q, q.nameVersion ≠ p.nameVersion → (c' v = some q ↔ c v = some q)

variable {c : Catalogue} {u : Uuid} {p : RulePack}

/-- A pack put where there was none, or one of its name and version. -/
theorem Puts.of_put (hc : c.Distinct) (hold : ∀ q, c u = some q → q.nameVersion = p.nameVersion)
    (hfree : ∀ v q, c v = some q → q.nameVersion = p.nameVersion → v = u) :
    c.Puts p (c.put u p) := by
  refine ⟨fun v w q r hq hr hkey => ?_, ⟨u, put_self⟩, fun v q hkey => ?_⟩
  · rcases put_eq_some hq with ⟨rfl, rfl⟩ | ⟨hv, hqold⟩
    · rcases put_eq_some hr with ⟨rfl, -⟩ | ⟨hw, hrold⟩
      · rfl
      · exact absurd (hfree w r hrold hkey.symm) hw
    · rcases put_eq_some hr with ⟨rfl, rfl⟩ | ⟨-, hrold⟩
      · exact absurd (hfree v q hqold hkey) hv
      · exact hc v w q r hqold hrold hkey
  · by_cases hv : v = u
    · subst hv
      rw [put_self]
      constructor
      · intro hq
        exact absurd (congrArg RulePack.nameVersion (Option.some.inj hq)).symm hkey
      · intro hq
        exact absurd (hold q hq) hkey
    · rw [put_of_ne hv]

/-- A pack changed in place, under its name and version. -/
theorem Puts.of_change (hc : c.Distinct) {old : RulePack} (hold : c u = some old)
    (hkey : p.nameVersion = old.nameVersion) : c.Puts p (c.put u p) := by
  apply Puts.of_put hc
  · intro q hq
    rw [hold] at hq
    cases hq
    exact hkey.symm
  · intro v q hq hsame
    exact hc v u q old hq hold (hsame.trans hkey)

/-- Every identifier names a pack of the name and version it named before, or none as before. -/
def SameKeys (c c' : Catalogue) : Prop :=
  ∀ u, (c' u).map RulePack.nameVersion = (c u).map RulePack.nameVersion

/-- A pack changed under its identifier, name and version. -/
theorem Puts.sameKeys {c' : Catalogue} {old : RulePack} (hc : c.Distinct) (h : c.Puts p c')
    (hold : c u = some old) (hkey : p.nameVersion = old.nameVersion) (hnew : c' u = some p) :
    c.SameKeys c' := by
  intro v
  by_cases hv : v = u
  · rw [hv, hold, hnew, Option.map_some, Option.map_some, hkey]
  · cases hq : c v with
    | some q =>
      have hne : q.nameVersion ≠ p.nameVersion := fun hsame => hv (hc v u q old hq hold (hsame.trans hkey))
      rw [(h.others v q hne).mpr hq]
    | none =>
      cases hq' : c' v with
      | none => rfl
      | some q =>
        have hne : q.nameVersion ≠ p.nameVersion := fun hsame => hv (h.distinct v u q p hq' hnew hsame)
        rw [(h.others v q hne).mp hq'] at hq
        cases hq

end Catalogue

/-! ## Level catalogues -/

/-- Two catalogues that show the same packs, each under identifiers of its own. -/
structure Level (c d : Catalogue) : Prop where
  left : c.Distinct
  right : d.Distinct
  forth : ∀ u p, c u = some p → ∃ v q, d v = some q ∧ p.shown = q.shown
  back : ∀ v q, d v = some q → ∃ u p, c u = some p ∧ p.shown = q.shown

/-- Two identifiers that name packs of one name and version, or none. -/
def SameId (c d : Catalogue) (u v : Uuid) : Prop :=
  ∀ u' v' p q, c u' = some p → d v' = some q → p.nameVersion = q.nameVersion → (u' = u ↔ v' = v)

variable {c c' d d' : Catalogue} {u v : Uuid} {p q : RulePack}

/-- What two such identifiers find. -/
theorem SameId.cases (hid : SameId c d u v) (h : Level c d) :
    c u = none ∧ d v = none ∨ ∃ p q, c u = some p ∧ d v = some q ∧ p.shown = q.shown := by
  cases hp : c u with
  | none =>
    left
    refine ⟨rfl, ?_⟩
    cases hq : d v with
    | none => rfl
    | some q =>
      obtain ⟨u', p, hp', hshown⟩ := h.back v q hq
      have hu := (hid u' v p q hp' hq (RulePack.nameVersion_of_shown hshown)).mpr rfl
      rw [hu, hp] at hp'
      cases hp'
  | some p =>
    right
    obtain ⟨v', q, hq, hshown⟩ := h.forth u p hp
    have hv := (hid u v' p q hp hq (RulePack.nameVersion_of_shown hshown)).mp rfl
    rw [hv] at hq
    exact ⟨p, q, rfl, hq, hshown⟩

/-- Identifiers that name the same packs still do when no pack changes its name and version. -/
theorem SameId.of_sameKeys (hid : SameId c d u v) (hc : c.SameKeys c') (hd : d.SameKeys d') :
    SameId c' d' u v := by
  intro u' v' p q hp hq hkey
  have hkeys := hc u'
  have hkeys' := hd v'
  rw [hp, Option.map_some] at hkeys
  rw [hq, Option.map_some] at hkeys'
  obtain ⟨p₀, hp₀, hkey₀⟩ := Option.map_eq_some_iff.mp hkeys.symm
  obtain ⟨q₀, hq₀, hkey₀'⟩ := Option.map_eq_some_iff.mp hkeys'.symm
  exact hid u' v' p₀ q₀ hp₀ hq₀ (hkey₀.trans (hkey.trans hkey₀'.symm))

/-- Writes that put packs which show the same. -/
theorem Level.puts (h : Level c d) (hc : c.Puts p c') (hd : d.Puts q d') (hshown : p.shown = q.shown) :
    Level c' d' := by
  have hkey := RulePack.nameVersion_of_shown hshown
  obtain ⟨u, hu⟩ := hc.there
  obtain ⟨v, hv⟩ := hd.there
  refine ⟨hc.distinct, hd.distinct, fun u' p' hp' => ?_, fun v' q' hq' => ?_⟩
  · by_cases hsame : p'.nameVersion = p.nameVersion
    · have huu := hc.distinct u' u p' p hp' hu hsame
      rw [huu, hu] at hp'
      cases hp'
      exact ⟨v, q, hv, hshown⟩
    · obtain ⟨v', q', hq', hshown'⟩ := h.forth u' p' ((hc.others u' p' hsame).mp hp')
      have hother : q'.nameVersion ≠ q.nameVersion := by
        rw [← RulePack.nameVersion_of_shown hshown', ← hkey]
        exact hsame
      exact ⟨v', q', (hd.others v' q' hother).mpr hq', hshown'⟩
  · by_cases hsame : q'.nameVersion = q.nameVersion
    · have hvv := hd.distinct v' v q' q hq' hv hsame
      rw [hvv, hv] at hq'
      cases hq'
      exact ⟨u, p, hu, hshown⟩
    · obtain ⟨u', p', hp', hshown'⟩ := h.back v' q' ((hd.others v' q' hsame).mp hq')
      have hother : p'.nameVersion ≠ p.nameVersion := by
        rw [RulePack.nameVersion_of_shown hshown', hkey]
        exact hsame
      exact ⟨u', p', (hc.others u' p' hother).mpr hp', hshown'⟩

/-! ## Activation -/

private theorem nameVersion_deprecateNamed (name : String) (p : RulePack) :
    (Catalogue.deprecateNamed name p).nameVersion = p.nameVersion := by
  unfold Catalogue.deprecateNamed
  split <;> rfl

private theorem shown_deprecateNamed (name : String) (h : p.shown = q.shown) :
    (Catalogue.deprecateNamed name p).shown = (Catalogue.deprecateNamed name q).shown := by
  have hname := RulePack.name_of_shown h
  have hstatus := RulePack.status_of_shown h
  unfold Catalogue.deprecateNamed
  by_cases hcond : p.name = name ∧ p.status = .active
  · rw [if_pos hcond, if_pos (by rw [← hname, ← hstatus]; exact hcond)]
    exact RulePack.shown_congr h (RulePack.rules_of_shown h)
  · rw [if_neg hcond, if_neg (by rw [← hname, ← hstatus]; exact hcond)]
    exact h

theorem Catalogue.Distinct.activate {name : String} {p' : RulePack} (hc : c.Distinct)
    (hp : c u = some p) (hkey : p'.nameVersion = p.nameVersion) : (c.activate name u p').Distinct := by
  have hback : ∀ v q, c.activate name u p' v = some q →
      ∃ q₀, c v = some q₀ ∧ q.nameVersion = q₀.nameVersion := by
    intro v q hq
    rcases Catalogue.activate_eq_some hq with ⟨rfl, rfl⟩ | ⟨-, q₀, hq₀, rfl⟩
    · exact ⟨p, hp, hkey⟩
    · exact ⟨q₀, hq₀, nameVersion_deprecateNamed name q₀⟩
  intro v w q r hq hr hsame
  obtain ⟨q₀, hq₀, hqkey⟩ := hback v q hq
  obtain ⟨r₀, hr₀, hrkey⟩ := hback w r hr
  exact hc v w q₀ r₀ hq₀ hr₀ (hqkey.symm.trans (hsame.trans hrkey))

/-- Activations of packs that show the same, under one name. -/
theorem Level.activate (h : Level c d) {name : String} {p' q' : RulePack} (hp : c u = some p)
    (hq : d v = some q) (hshown : p.shown = q.shown) (hpkey : p'.nameVersion = p.nameVersion)
    (hqkey : q'.nameVersion = q.nameVersion) (hshown' : p'.shown = q'.shown) :
    Level (c.activate name u p') (d.activate name v q') := by
  refine ⟨h.left.activate hp hpkey, h.right.activate hq hqkey,
    fun u' r hr => ?_, fun v' r hr => ?_⟩
  · rcases Catalogue.activate_eq_some hr with ⟨rfl, rfl⟩ | ⟨hne, r₀, hr₀, rfl⟩
    · exact ⟨v, q', Catalogue.activate_self, hshown'⟩
    · obtain ⟨v', s, hs, hshow⟩ := h.forth u' r₀ hr₀
      have hvne : v' ≠ v := by
        rintro rfl
        rw [hq] at hs
        cases hs
        exact hne (h.left u' u r₀ p hr₀ hp (RulePack.nameVersion_of_shown (hshow.trans hshown.symm)))
      refine ⟨v', _, ?_, shown_deprecateNamed name hshow⟩
      rw [Catalogue.activate_of_ne hvne, hs, Option.map_some]
  · rcases Catalogue.activate_eq_some hr with ⟨rfl, rfl⟩ | ⟨hne, r₀, hr₀, rfl⟩
    · exact ⟨u, p', Catalogue.activate_self, hshown'⟩
    · obtain ⟨u', s, hs, hshow⟩ := h.back v' r₀ hr₀
      have hune : u' ≠ u := by
        rintro rfl
        rw [hp] at hs
        cases hs
        exact hne (h.right v' v r₀ q hr₀ hq (RulePack.nameVersion_of_shown (hshow.symm.trans hshown)))
      refine ⟨u', _, ?_, shown_deprecateNamed name hshow⟩
      rw [Catalogue.activate_of_ne hune, hs, Option.map_some]

end PulseGuard
