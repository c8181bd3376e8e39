import PulseGuard.Spec.BackendOperations
import PulseGuard.Spec.DecisiveRules

/-!
# The two backends side by side

Two stores are paired when they show the same packs and every name and version lead to one pack
in each. Paired stores answer every query alike, and a write keeps them paired: for each
operation of the interface the condition is stated under which the two of them raise together
or return packs that show the same.
-/

namespace PulseGuard

open InMemoryRulePackRepository (refs)

/-- Two stores that show the same packs. -/
structure Paired (m : InMemoryStore) (p : PostgresStore) : Prop where
  memory : InMemoryRulePackRepository.Shelved m
  postgres : PostgresRulePackRepository.Shelved p
  level : Level (InMemoryRulePackRepository.catalogue m) (PostgresRulePackRepository.catalogue p)

/-- The object of a pack and what is read of its row. -/
structure SamePack (m : InMemoryStore) (p : PostgresStore) (ref : PackRef) (q : RulePack) : Prop where
  stored : ref ∈ refs m
  read : ∃ v, PostgresRulePackRepository.catalogue p v = some q
  shown : (m.objects ref).shown = q.shown

/-- What two writes return, and the stores they leave. -/
structure SameResult (x : PackRef × InMemoryStore) (y : RulePack × PostgresStore) : Prop where
  paired : Paired x.2 y.2
  shown : (x.2.objects x.1).shown = y.1.shown

variable {order : RowOrder} {m m' : InMemoryStore} {p p' : PostgresStore} {u v : Uuid}
  {ref : PackRef} {q : RulePack}

/-- Every stored object has its row. -/
theorem Paired.forth (h : Paired m p) (hmem : ref ∈ refs m) : ∃ q, SamePack m p ref q := by
  obtain ⟨u, -, hp⟩ := h.memory.exists_id hmem
  obtain ⟨v, q, hq, hshown⟩ := h.level.forth u _ hp
  exact ⟨q, hmem, ⟨v, hq⟩, hshown⟩

/-- And every row its object. -/
theorem Paired.back (h : Paired m p) (hq : PostgresRulePackRepository.catalogue p v = some q) :
    ∃ ref, SamePack m p ref q := by
  obtain ⟨u, r, hr, hshown⟩ := h.level.back v q hq
  obtain ⟨ref, hmem, -, rfl, -⟩ := h.memory.exists_ref hr
  exact ⟨ref, hmem, ⟨v, hq⟩, hshown⟩

/-! ## Queries -/

/-- The same name and version find the same pack. -/
theorem Paired.get (order : RowOrder) (h : Paired m p) (name : String) (version : Int) :
    Option.Rel (SamePack m p) (InMemoryRulePackRepository.get name version m)
      (PostgresRulePackRepository.get order name version p) := by
  cases hm : InMemoryRulePackRepository.get name version m with
  | none =>
    cases hp : PostgresRulePackRepository.get order name version p with
    | none => exact .none
    | some q =>
      obtain ⟨⟨v, hq⟩, hname, hversion⟩ := (PostgresRulePackRepository.get_eq_some_iff h.postgres).mp hp
      obtain ⟨ref, hsame⟩ := h.back hq
      have hfound := (InMemoryRulePackRepository.get_eq_some_iff h.memory).mpr
        ⟨hsame.stored, (RulePack.name_of_shown hsame.shown).trans hname,
          (RulePack.version_of_shown hsame.shown).trans hversion⟩
      rw [hm] at hfound
      cases hfound
  | some ref =>
    obtain ⟨hmem, hname, hversion⟩ := (InMemoryRulePackRepository.get_eq_some_iff h.memory).mp hm
    obtain ⟨q, hsame⟩ := h.forth hmem
    have hp : PostgresRulePackRepository.get order name version p = some q :=
      (PostgresRulePackRepository.get_eq_some_iff h.postgres).mpr ⟨hsame.read,
        (RulePack.name_of_shown hsame.shown).symm.trans hname,
        (RulePack.version_of_shown hsame.shown).symm.trans hversion⟩
    rw [hp]
    exact .some hsame

/-- The versions of a name are the same, in the same order. -/
theorem Paired.listVersions (order : RowOrder) (h : Paired m p) (name : String) :
    List.Forall₂ (SamePack m p) (InMemoryRulePackRepository.listVersions name m)
      (PostgresRulePackRepository.listVersions order name p) := by
  apply PyList.forall₂_of_sorted (fun a b hab => RulePack.version_of_shown hab.shown)
    (InMemoryRulePackRepository.listVersions_pairwise h.memory name)
    (PostgresRulePackRepository.listVersions_pairwise h.postgres name)
  · intro ref href
    obtain ⟨hmem, hname⟩ := InMemoryRulePackRepository.mem_listVersions.mp href
    obtain ⟨q, hsame⟩ := h.forth hmem
    obtain ⟨v, hq⟩ := hsame.read
    obtain ⟨row, hrow, rfl⟩ := PostgresRulePackRepository.exists_row hq
    refine ⟨_, PostgresRulePackRepository.mem_listVersions.mpr
      ⟨row, (PostgresRulePackRepository.row?_mem hrow).1, ?_, rfl⟩, hsame⟩
    exact (RulePack.name_of_shown hsame.shown).symm.trans hname
  · intro q hq
    obtain ⟨row, hmem, hname, rfl⟩ := PostgresRulePackRepository.mem_listVersions.mp hq
    obtain ⟨ref, hsame⟩ := h.back (PostgresRulePackRepository.catalogue_of_mem h.postgres.inv hmem)
    exact ⟨ref, InMemoryRulePackRepository.mem_listVersions.mpr
      ⟨hsame.stored, (RulePack.name_of_shown hsame.shown).trans hname⟩, hsame⟩

/-- So are the packs that a search goes through. -/
theorem Paired.listAll (order : RowOrder) (h : Paired m p) (limit : Nat) :
    List.Forall₂ (SamePack m p) (InMemoryRulePackRepository.listAll none none true limit 0 m)
      (PostgresRulePackRepository.listAll order none none true limit 0 p) := by
  obtain ⟨all, hall, hmem, hsorted⟩ := InMemoryRulePackRepository.listAll_pairwise h.memory limit
  obtain ⟨all', hall', hmem', hsorted'⟩ :=
    PostgresRulePackRepository.listAll_pairwise order h.postgres limit
  rw [hall, hall']
  apply List.forall₂_take
  apply PyList.forall₂_of_sorted (fun a b hab => RulePack.nameVersion_of_shown hab.shown) hsorted hsorted'
  · intro ref href
    obtain ⟨q, hsame⟩ := h.forth ((hmem ref).mp href)
    exact ⟨q, (hmem' q).mpr hsame.read, hsame⟩
  · intro q hq
    obtain ⟨v, hq⟩ := (hmem' q).mp hq
    obtain ⟨ref, hsame⟩ := h.back hq
    exact ⟨ref, (hmem ref).mpr hsame.stored, hsame⟩

/-- What is found by identifiers that name one pack. -/
inductive FoundById (m : InMemoryStore) (p : PostgresStore) (u v : Uuid) :
    Option PackRef → Option RulePack → Prop where
  | none (hp : InMemoryRulePackRepository.catalogue m u = none)
      (hq : PostgresRulePackRepository.catalogue p v = none) : FoundById m p u v none none
  | some {ref : PackRef} {q : RulePack} (hsame : SamePack m p ref q)
      (hp : InMemoryRulePackRepository.catalogue m u = some (m.objects ref))
      (hq : PostgresRulePackRepository.catalogue p v = some q) (hstatus : q.status ≠ .archived) :
      FoundById m p u v (some ref) (some q)
  /-- An archived pack, which Postgres hides. -/
  | hidden {ref : PackRef} (hp : InMemoryRulePackRepository.catalogue m u = some (m.objects ref))
      (hstatus : (m.objects ref).status = .archived) : FoundById m p u v (some ref) none

theorem Paired.getById (order : RowOrder) (h : Paired m p)
    (hid : SameId (InMemoryRulePackRepository.catalogue m) (PostgresRulePackRepository.catalogue p) u v) :
    FoundById m p u v (InMemoryRulePackRepository.getById u m)
      (PostgresRulePackRepository.getById order v p) := by
  rcases hid.cases h.level with ⟨hp, hq⟩ | ⟨r, q, hp, hq, hshown⟩
  · have hm : InMemoryRulePackRepository.getById u m = none := Option.map_eq_none_iff.mp hp
    have hnone : PostgresRulePackRepository.getById order v p = none := by
      cases hget : PostgresRulePackRepository.getById order v p with
      | none => rfl
      | some q =>
        have hq' := ((PostgresRulePackRepository.getById_eq_some_iff h.postgres).mp hget).1
        rw [hq] at hq'
        cases hq'
    rw [hm, hnone]
    exact .none hp hq
  · obtain ⟨ref, hmem, hget, rfl, -⟩ := h.memory.exists_ref hp
    rw [hget]
    have hstatus := RulePack.status_of_shown hshown
    by_cases harchived : q.status = .archived
    · have hnone : PostgresRulePackRepository.getById order v p = none := by
        cases hget' : PostgresRulePackRepository.getById order v p with
        | none => rfl
        | some q' =>
          obtain ⟨hq', hlive⟩ := (PostgresRulePackRepository.getById_eq_some_iff h.postgres).mp hget'
          rw [hq] at hq'
          cases hq'
          exact absurd harchived hlive
      rw [hnone]
      exact .hidden hp (hstatus.trans harchived)
    · rw [(PostgresRulePackRepository.getById_eq_some_iff h.postgres).mpr ⟨hq, harchived⟩]
      exact .some ⟨hmem, ⟨v, hq⟩, hshown⟩ hp hq harchived

/-- An active pack is found in both stores or in neither, and the same one where there is only
    one. -/
theorem Paired.getActive (order : RowOrder) (h : Paired m p) (name : String) (region : Option String) :
    (InMemoryRulePackRepository.getActive name region m).isSome =
        (PostgresRulePackRepository.getActive order name region p).isSome ∧
      ((∀ u v r q, InMemoryRulePackRepository.catalogue m u = some r →
          InMemoryRulePackRepository.catalogue m v = some q →
          r.ActiveIn name region → q.ActiveIn name region → u = v) →
        Option.Rel (SamePack m p) (InMemoryRulePackRepository.getActive name region m)
          (PostgresRulePackRepository.getActive order name region p)) := by
  rcases InMemoryRulePackRepository.getActive_cases h.memory name region with
    ⟨hm, hnone⟩ | ⟨ref, hmem, hm, hactive⟩
  · rcases PostgresRulePackRepository.getActive_cases order h.postgres name region with
      ⟨hp, -⟩ | ⟨v, q, hq, hp, hactive⟩
    · rw [hm, hp]
      exact ⟨rfl, fun _ => .none⟩
    · obtain ⟨ref, hsame⟩ := h.back hq
      obtain ⟨u, -, hr⟩ := h.memory.exists_id hsame.stored
      exact absurd ((RulePack.activeIn_of_shown hsame.shown).mpr hactive) (hnone u _ hr)
  · obtain ⟨u, -, hr⟩ := h.memory.exists_id hmem
    obtain ⟨q, hsame⟩ := h.forth hmem
    rcases PostgresRulePackRepository.getActive_cases order h.postgres name region with
      ⟨-, hnone⟩ | ⟨v, q', hq', hp, hactive'⟩
    · obtain ⟨v, hq⟩ := hsame.read
      exact absurd ((RulePack.activeIn_of_shown hsame.shown).mp hactive) (hnone v q hq)
    · rw [hm, hp]
      refine ⟨rfl, fun hone => .some ?_⟩
      -- the object of the row found is the object found
      obtain ⟨u', r', hr', hshown⟩ := h.level.back v q' hq'
      obtain rfl := hone u u' _ r' hr hr' hactive ((RulePack.activeIn_of_shown hshown).mpr hactive')
      rw [hr] at hr'
      cases hr'
      exact ⟨hmem, ⟨v, hq'⟩, hshown⟩

end PulseGuard
