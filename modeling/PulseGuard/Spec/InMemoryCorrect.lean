import Mathlib.Data.List.Find
import PulseGuard.Native.InMemoryRulePackRepository
import PulseGuard.Spec.RepositoryLaws

/-!
# The in-memory repository is lawful

The catalogue of an `InMemoryStore` shows the objects its dictionary leads to, by their
identifiers. Every operation of `InMemoryRulePackRepository` does to it what `Lawful` says;
a save may lose the pack whose key it takes.
-/

namespace PulseGuard.InMemoryRulePackRepository

/-- The objects with a property have been allocated, and each has its own identifier. -/
structure WellKept (s : InMemoryStore) (R : PackRef → Prop) : Prop where
  allocated : ∀ ref, R ref → ref < s.nextRef
  identified : ∀ ref, R ref → ∃ u, (s.objects ref).id = some u ∧ u < s.nextUuid
  distinct : ∀ ref ref', R ref → R ref' → (s.objects ref).id = (s.objects ref').id → ref = ref'

theorem WellKept.mono {s : InMemoryStore} {R R' : PackRef → Prop} (h : WellKept s R)
    (hR : ∀ ref, R' ref → R ref) : WellKept s R' where
  allocated ref href := h.allocated ref (hR ref href)
  identified ref href := h.identified ref (hR ref href)
  distinct ref ref' href href' := h.distinct ref ref' (hR ref href) (hR ref' href')

/-- The invariant: it holds of the stored objects. -/
abbrev Inv (s : InMemoryStore) : Prop := WellKept s (· ∈ refs s)

/-- The stored packs by identifier. -/
def catalogue (s : InMemoryStore) : Catalogue := fun u => (getById u s).map s.objects

/-- The view of the abstract model: packs are handed out in place and stored as they are. -/
def view : StoreView InMemoryStore where
  catalogue := catalogue
  supply := InMemoryStore.nextUuid
  inPlace := True
  stored := Eq

theorem getById_mem {s : InMemoryStore} {u : Uuid} {ref : PackRef} (h : getById u s = some ref) :
    ref ∈ refs s ∧ (s.objects ref).id = some u := by
  have hid := List.find?_some h
  simp only [beq_iff_eq] at hid
  exact ⟨List.mem_of_find?_eq_some h, hid⟩

theorem getById_eq_some_iff {s : InMemoryStore} (hs : Inv s) {u : Uuid} {ref : PackRef} :
    getById u s = some ref ↔ ref ∈ refs s ∧ (s.objects ref).id = some u := by
  constructor
  · exact getById_mem
  · intro ⟨hmem, hid⟩
    refine PyList.find?_eq_some_of_unique hmem (beq_iff_eq.mpr hid) ?_
    intro ref' hmem' hid'
    exact hs.distinct ref' ref hmem' hmem ((eq_of_beq hid').trans hid.symm)

theorem catalogue_eq_some_iff {s : InMemoryStore} (hs : Inv s) {u : Uuid} {p : RulePack} :
    catalogue s u = some p ↔ ∃ ref ∈ refs s, (s.objects ref).id = some u ∧ s.objects ref = p := by
  rw [catalogue, Option.map_eq_some_iff]
  simp only [getById_eq_some_iff hs, and_assoc]

theorem mem_refs_of_get {s : InMemoryStore} {name : String} {version : Int} {ref : PackRef}
    (h : get name version s = some ref) : ref ∈ refs s :=
  (Dict.mem_values_iff s.store).mpr ⟨(name, version), h⟩

/-! ## A change of the objects that keeps the identifiers -/

/-- The lookup by identifier sees only the dictionary and the identifiers. -/
private theorem getById_congr (s t : InMemoryStore) (hstore : t.store = s.store)
    (hid : ∀ ref ∈ refs s, (t.objects ref).id = (s.objects ref).id) (u : Uuid) :
    getById u t = getById u s := by
  unfold getById
  rw [show refs t = refs s by unfold refs; rw [hstore]]
  refine List.find?_congr fun ref href => ?_
  rw [hid ref href]

private theorem inv_congr {s t : InMemoryStore} (hs : Inv s) (hstore : t.store = s.store)
    (hid : ∀ ref ∈ refs s, (t.objects ref).id = (s.objects ref).id)
    (href : s.nextRef ≤ t.nextRef) (huuid : s.nextUuid ≤ t.nextUuid) : Inv t := by
  have hrefs : refs t = refs s := by unfold refs; rw [hstore]
  unfold Inv
  rw [hrefs]
  refine ⟨?_, ?_, ?_⟩
  · intro ref hmem
    exact lt_of_lt_of_le (hs.allocated ref hmem) href
  · intro ref hmem
    obtain ⟨u, hu, hlt⟩ := hs.identified ref hmem
    exact ⟨u, (hid ref hmem).trans hu, lt_of_lt_of_le hlt huuid⟩
  · intro ref ref' hmem hmem' heq
    rw [hid ref hmem, hid ref' hmem'] at heq
    exact hs.distinct ref ref' hmem hmem' heq

/-- A stored object, changed in place. -/
theorem catalogue_assign {s : InMemoryStore} (hs : Inv s) {ref : PackRef} {u : Uuid} {p : RulePack}
    (hmem : ref ∈ refs s) (hu : (s.objects ref).id = some u) (hp : p.id = some u) :
    Inv (assign ref p s).2 ∧ catalogue (assign ref p s).2 = (catalogue s).put u p := by
  have hid : ∀ r ∈ refs s, ((assign ref p s).2.objects r).id = (s.objects r).id := by
    intro r _
    by_cases hr : r = ref
    · subst hr
      simp [assign, hp, hu]
    · simp [assign, Function.update_of_ne hr]
  refine ⟨inv_congr hs rfl hid (le_refl _) (le_refl _), ?_⟩
  have hsame (v : Uuid) := getById_congr s (assign ref p s).2 rfl hid v
  funext v
  rw [catalogue, hsame]
  by_cases hv : v = u
  · subst hv
    rw [(getById_eq_some_iff hs).mpr ⟨hmem, hu⟩, Catalogue.put_self, Option.map_some]
    simp [assign]
  · rw [Catalogue.put_of_ne hv, catalogue]
    cases hget : getById v s with
    | none => rfl
    | some r =>
      have hr : r ≠ ref := by
        rintro rfl
        rw [(getById_mem hget).2] at hu
        exact hv (Option.some.inj hu)
      simp [assign, Function.update_of_ne hr]

/-! ## A save, which takes a key -/

/-- The dictionary after a save. -/
private abbrev setKey (s : InMemoryStore) (key : String × Int) (ref : PackRef) : InMemoryStore :=
  { s with store := s.store.set key ref }

private theorem mem_refs_setKey {s : InMemoryStore} {key : String × Int} {ref r : PackRef} :
    r ∈ refs (setKey s key ref) ↔ r = ref ∨ ∃ k, k ≠ key ∧ s.store.get? k = some r :=
  Dict.mem_values_set s.store key ref r

/-- The pack that the taking of a key by `ref` loses: that of another object with no other
    key. -/
private def Lost (s : InMemoryStore) (key : String × Int) (ref : PackRef) (v : Uuid) : Prop :=
  ∃ r, s.store.get? key = some r ∧ r ≠ ref ∧ (∀ k, k ≠ key → s.store.get? k ≠ some r) ∧
    (s.objects r).id = some v

private theorem onlyUnder_of_lost {s : InMemoryStore} (hs : Inv s) {name : String} {version : Int}
    {ref : PackRef} {v : Uuid} (h : Lost s (name, version) ref v) :
    OnlyUnder inMemoryRulePackRepository s name version v := by
  obtain ⟨r, hr, -, honly, hid⟩ := h
  refine ⟨⟨r, hr, hid⟩, ?_⟩
  intro name' version' ⟨r', hr', hid'⟩
  change (s.objects r').id = some v at hid'
  -- one identifier, one object
  rw [hs.distinct r' r (mem_refs_of_get hr') (mem_refs_of_get hr) (hid'.trans hid.symm)] at hr'
  by_contra hkey
  have hne : (name', version') ≠ (name, version) := by
    intro heq
    exact hkey (Prod.mk.inj heq)
  exact honly _ hne hr'

/-- A save loses at most one pack. -/
private theorem exists_lost (s : InMemoryStore) (key : String × Int) (ref : PackRef) :
    ∃ lost : Option Uuid, ∀ v, lost = some v ↔ Lost s key ref v := by
  by_cases h : ∃ v, Lost s key ref v
  · obtain ⟨v, hv⟩ := h
    refine ⟨some v, fun w => ⟨fun hw => Option.some.inj hw ▸ hv, fun hw => ?_⟩⟩
    obtain ⟨r, hr, -, -, hid⟩ := hv
    obtain ⟨r', hr', -, -, hid'⟩ := hw
    rw [hr] at hr'
    cases hr'
    exact hid.symm.trans hid'
  · refine ⟨none, fun w => ⟨fun hw => ?_, fun hw => ?_⟩⟩
    · cases hw
    · exact absurd ⟨w, hw⟩ h

/-- The object a save puts under a key is stored; the one it found there is lost unless it
    is the same or stored under another key too. -/
theorem catalogue_setKey {s : InMemoryStore} (key : String × Int) {ref : PackRef} {u : Uuid}
    (hs : WellKept s (fun r => r ∈ refs s ∨ r = ref)) (hu : (s.objects ref).id = some u) :
    Inv (setKey s key ref) ∧ ∃ lost : Option Uuid,
      (∀ v, lost = some v → v ≠ u ∧ Lost s key ref v) ∧
      catalogue (setKey s key ref) = ((catalogue s).drop lost).put u (s.objects ref) := by
  have hold : Inv s := hs.mono fun r hr => Or.inl hr
  have hstored : ∀ {k r}, s.store.get? k = some r → r ∈ refs s :=
    fun hk => (Dict.mem_values_iff _).mpr ⟨_, hk⟩
  have hnew : Inv (setKey s key ref) := by
    have hsub : ∀ r, r ∈ refs (setKey s key ref) → r ∈ refs s ∨ r = ref := by
      intro r hr
      rcases mem_refs_setKey.mp hr with rfl | ⟨k, -, hk⟩
      · exact Or.inr rfl
      · exact Or.inl (hstored hk)
    have hmono := hs.mono hsub
    exact ⟨hmono.allocated, hmono.identified, hmono.distinct⟩
  -- among the objects at hand, `ref` is the one with its identifier
  have hself : ∀ {r}, r ∈ refs s → (s.objects r).id = some u → r = ref :=
    fun hr hid => hs.distinct _ ref (Or.inl hr) (Or.inr rfl) (hid.trans hu.symm)
  obtain ⟨lost, hlost⟩ := exists_lost s key ref
  refine ⟨hnew, lost, ?_, ?_⟩
  · intro v hv
    have hgone := (hlost v).mp hv
    refine ⟨?_, hgone⟩
    obtain ⟨r, hr, hne, -, hid⟩ := hgone
    rintro rfl
    exact hne (hself (hstored hr) hid)
  · funext w
    refine Option.ext fun q => ?_
    rw [catalogue_eq_some_iff hnew]
    constructor
    · intro h
      obtain ⟨r, hmem, hid, rfl⟩ := h
      change (s.objects r).id = some w at hid
      rcases mem_refs_setKey.mp hmem with rfl | ⟨k, hk, hget⟩
      · rw [Option.some.inj (hid.symm.trans hu), Catalogue.put_self]
      · by_cases hw : w = u
        · subst hw
          rw [hself (hstored hget) hid, Catalogue.put_self]
        · have hkept : lost ≠ some w := by
            intro hw'
            obtain ⟨r', hr', -, honly, hid'⟩ := (hlost w).mp hw'
            rw [← hold.distinct r r' (hstored hget) (hstored hr') (hid.trans hid'.symm)] at honly
            exact honly k hk hget
          rw [Catalogue.put_of_ne hw, Catalogue.drop_of_ne hkept, catalogue_eq_some_iff hold]
          exact ⟨r, hstored hget, hid, rfl⟩
    · intro hq
      rcases Catalogue.put_eq_some hq with ⟨rfl, rfl⟩ | ⟨hw, hq⟩
      · exact ⟨ref, mem_refs_setKey.mpr (Or.inl rfl), hu, rfl⟩
      · obtain ⟨hkept, hq⟩ := Catalogue.drop_eq_some hq
        obtain ⟨r, hmem, hid, rfl⟩ := (catalogue_eq_some_iff hold).mp hq
        refine ⟨r, mem_refs_setKey.mpr ?_, hid, rfl⟩
        by_contra hgone
        rw [not_or] at hgone
        obtain ⟨hne, hnokey⟩ := hgone
        have honly : ∀ k, k ≠ key → s.store.get? k ≠ some r :=
          fun k hk hget => hnokey ⟨k, hk, hget⟩
        obtain ⟨k, hk⟩ := (Dict.mem_values_iff _).mp hmem
        have hkey : k = key := by
          by_contra hne'
          exact honly k hne' hk
        rw [hkey] at hk
        exact hkept ((hlost w).mpr ⟨r, hk, hne, honly, hid⟩)

theorem assignId_of_some {ref : PackRef} {s : InMemoryStore} {u : Uuid}
    (h : (s.objects ref).id = some u) : assignId ref s = s := by
  unfold assignId
  rw [h]

/-- What the save of a new pack does to the store. -/
theorem saveNew_ok {s t : InMemoryStore} {p : RulePack} {r : PackRef} (hid : p.id = none)
    (h : save (new p s).1 (new p s).2 = .ok (r, t)) :
    t.store = s.store.set (p.name, p.version) s.nextRef ∧
      t.objects = Function.update s.objects s.nextRef { p with id := some s.nextUuid } := by
  have hnone : ((new p s).2.objects (new p s).1).id = none := by simp [new, hid]
  have hassign : assignId (new p s).1 (new p s).2 = {
      objects := Function.update s.objects s.nextRef { p with id := some s.nextUuid }
      nextRef := s.nextRef + 1, store := s.store, nextUuid := s.nextUuid + 1 } := by
    unfold assignId
    rw [hnone]
    simp [new, uuid4, assign]
  unfold save at h
  rw [hassign] at h
  cases h
  exact ⟨by simp [new], rfl⟩

/-- What the save of an edited pack does to the store. -/
theorem saveEdited_ok {s t : InMemoryStore} {ref r : PackRef} {u : Uuid} {q : RulePack}
    (hu : q.id = some u) (h : save ref (assign ref q s).2 = .ok (r, t)) :
    t.store = s.store.set (q.name, q.version) ref ∧
      t.objects = Function.update s.objects ref q := by
  have hid : ((assign ref q s).2.objects ref).id = some u := by simp [assign, hu]
  unfold save at h
  rw [assignId_of_some hid] at h
  cases h
  exact ⟨by simp [assign], rfl⟩

/-- A new pack is stored under the next identifier. -/
theorem saveNew_effect {s t : InMemoryStore} {p : RulePack} {r : PackRef} (hs : Inv s)
    (hid : p.id = none) (h : save (new p s).1 (new p s).2 = .ok (r, t)) :
    Inv t ∧ WriteStep inMemoryRulePackRepository view s (.saveNew p) t ∧
      (t.objects r).name = p.name ∧ (t.objects r).version = p.version := by
  -- the new object is at the next address, and no stored object is
  have hnew : ∀ ref ∈ refs s, ref ≠ s.nextRef := by
    intro ref hmem
    exact Nat.ne_of_lt (hs.allocated ref hmem)
  let q : RulePack := { p with id := some s.nextUuid }
  let s₁ : InMemoryStore := {
    objects := Function.update s.objects s.nextRef q, nextRef := s.nextRef + 1
    store := s.store, nextUuid := s.nextUuid + 1 }
  have hobj : s₁.objects s.nextRef = q := Function.update_self ..
  have hothers : ∀ ref ∈ refs s, s₁.objects ref = s.objects ref := fun ref hmem =>
    Function.update_of_ne (hnew ref hmem) ..
  have hassign : assignId (new p s).1 (new p s).2 = s₁ := by
    have hnone : ((new p s).2.objects (new p s).1).id = none := by simp [new, hid]
    unfold assignId
    rw [hnone]
    simp [new, uuid4, assign, s₁, q]
  have hkept : WellKept s₁ (fun ref => ref ∈ refs s₁ ∨ ref = s.nextRef) := by
    refine ⟨?_, ?_, ?_⟩
    · rintro ref (hmem | rfl)
      · exact Nat.lt_succ_of_lt (hs.allocated ref hmem)
      · exact Nat.lt_succ_self _
    · rintro ref (hmem | rfl)
      · obtain ⟨u, hu, hlt⟩ := hs.identified ref hmem
        exact ⟨u, by rw [hothers ref hmem, hu], Nat.lt_succ_of_lt hlt⟩
      · exact ⟨s.nextUuid, by rw [hobj], Nat.lt_succ_self _⟩
    · rintro ref ref' (hmem | rfl) (hmem' | rfl) heq
      · rw [hothers ref hmem, hothers ref' hmem'] at heq
        exact hs.distinct ref ref' hmem hmem' heq
      · obtain ⟨u, hu, hlt⟩ := hs.identified ref hmem
        rw [hothers ref hmem, hobj, hu] at heq
        exact absurd (Option.some.inj heq) (Nat.ne_of_lt hlt)
      · obtain ⟨u, hu, hlt⟩ := hs.identified ref' hmem'
        rw [hothers ref' hmem', hobj, hu] at heq
        exact absurd (Option.some.inj heq).symm (Nat.ne_of_lt hlt)
      · rfl
  have hcat : catalogue s₁ = catalogue s := by
    funext v
    have hids : ∀ ref ∈ refs s, (s₁.objects ref).id = (s.objects ref).id := fun ref hmem => by
      rw [hothers ref hmem]
    rw [catalogue, catalogue, getById_congr s s₁ rfl hids v]
    cases hget : getById v s with
    | none => rfl
    | some ref => rw [Option.map_some, Option.map_some, hothers ref (getById_mem hget).1]
  obtain ⟨hInv, lost, hlost, ht⟩ := catalogue_setKey (p.name, p.version) hkept
    (show (s₁.objects s.nextRef).id = some s.nextUuid by rw [hobj])
  have hrt : (s.nextRef, setKey s₁ (p.name, p.version) s.nextRef) = (r, t) := by
    unfold save at h
    rw [hassign] at h
    have hpair := Except.ok.inj h
    rw [← hpair]
    simp [new, hobj, q]
  cases hrt
  refine ⟨hInv, ⟨Nat.le_succ _, ?_⟩, by simp [hobj, q], by simp [hobj, q]⟩
  rw [hobj, hcat] at ht
  refine .saveNew (le_refl _) (Nat.lt_succ_self _) (show q.name = p.name from rfl) rfl rfl rfl rfl
    ?_ ht
  intro v hv
  obtain ⟨-, ref, hget, hne, honly, hidv⟩ := hlost v hv
  rw [hothers ref (mem_refs_of_get hget)] at hidv
  exact onlyUnder_of_lost hs ⟨ref, hget, hne, honly, hidv⟩

/-- An edited Draft is changed in place and stored under its key. -/
theorem saveEdited_effect {s t : InMemoryStore} {ref r : PackRef} {u : Uuid} {rules : List Rule}
    (hs : Inv s) (hmem : ref ∈ refs s) (hu : (s.objects ref).id = some u)
    (hdraft : (s.objects ref).status = .draft)
    (h : save ref (assign ref { s.objects ref with rules } s).2 = .ok (r, t)) :
    Inv t ∧ WriteStep inMemoryRulePackRepository view s
      (.saveEdited (s.objects ref) rules) t := by
  let q : RulePack := { s.objects ref with rules }
  obtain ⟨hInv₁, hcat₁⟩ := catalogue_assign (p := q) hs hmem hu hu
  have hobj : (assign ref q s).2.objects ref = q := Function.update_self ..
  have hkept : WellKept (assign ref q s).2 (fun r => r ∈ refs (assign ref q s).2 ∨ r = ref) := by
    refine hInv₁.mono ?_
    rintro r (hr | rfl)
    · exact hr
    · exact hmem
  obtain ⟨hInv, lost, hlost, ht⟩ :=
    catalogue_setKey ((s.objects ref).name, (s.objects ref).version) hkept
      (show ((assign ref q s).2.objects ref).id = some u by rw [hobj]; exact hu)
  have hrt : (ref, setKey (assign ref q s).2
      ((s.objects ref).name, (s.objects ref).version) ref) = (r, t) := by
    have hid : ((assign ref q s).2.objects ref).id = some u := by rw [hobj]; exact hu
    unfold save at h
    rw [assignId_of_some hid] at h
    have hpair := Except.ok.inj h
    rw [← hpair]
    simp [hobj, q]
  cases hrt
  rw [hobj, hcat₁] at ht
  have hp : catalogue s u = some (s.objects ref) :=
    (catalogue_eq_some_iff hs).mpr ⟨ref, hmem, hu, rfl⟩
  have hidr : ∀ r, ((assign ref q s).2.objects r).id = (s.objects r).id := by
    intro r
    by_cases hr : r = ref
    · subst hr
      rw [hobj]
    · simp [assign, Function.update_of_ne hr]
  have hunder : ∀ v, lost = some v → v ≠ u ∧
      OnlyUnder inMemoryRulePackRepository s (s.objects ref).name (s.objects ref).version v := by
    intro v hv
    obtain ⟨hne, r, hget, hnot, honly, hidv⟩ := hlost v hv
    exact ⟨hne, onlyUnder_of_lost hs ⟨r, hget, hnot, honly, (hidr r).symm.trans hidv⟩⟩
  -- the second write of `u` hides the first
  have hput : (((catalogue s).put u q).drop lost).put u q = ((catalogue s).drop lost).put u q := by
    funext w
    by_cases hw : w = u
    · subst hw
      rw [Catalogue.put_self, Catalogue.put_self]
    · rw [Catalogue.put_of_ne hw, Catalogue.put_of_ne hw, Catalogue.drop, Catalogue.put_of_ne hw]
      rfl
  exact ⟨hInv, le_refl _, .saveEdited hp hdraft (fun hcopy => absurd trivial hcopy)
    (fun hsame => hsame) hunder (ht.trans hput)⟩

/-! ## Writes of one object, and activation -/

/-- What `updateById` does when it returns. -/
theorem updateById_ok {s t : InMemoryStore} {u : Uuid} {lock : Option Nat}
    {f : RulePack → RulePack} {r : PackRef} (h : updateById u lock f s = .ok (r, t)) :
    ∃ ref, getById u s = some ref ∧ LockMatches lock (s.objects ref) ∧
      t = (assign ref
        { f (s.objects ref) with lockVersion := (f (s.objects ref)).lockVersion + 1 } s).2 := by
  unfold updateById at h
  split at h
  · cases h
  · rename_i ref hget
    obtain ⟨_, hlock, h⟩ := Except.bind_ok_iff.mp h
    have ht := Except.ok.inj h
    refine ⟨ref, hget, checkLock_ok_iff.mp hlock, ?_⟩
    rw [show t = (r, t).2 from rfl, ← ht]

/-- An object changed by its identifier, which the change keeps. -/
theorem updateById_effect {s t : InMemoryStore} {u : Uuid} {lock : Option Nat}
    {f : RulePack → RulePack} {r : PackRef} {p : RulePack} (hs : Inv s)
    (hp : catalogue s u = some p) (hid : (f p).id = p.id)
    (h : updateById u lock f s = .ok (r, t)) :
    Inv t ∧ LockMatches lock p ∧ t.nextUuid = s.nextUuid ∧
      catalogue t = (catalogue s).put u { f p with lockVersion := (f p).lockVersion + 1 } := by
  obtain ⟨ref, hget, hlock, rfl⟩ := updateById_ok h
  obtain ⟨hmem, hu⟩ := getById_mem hget
  have hpr : s.objects ref = p := by
    rw [catalogue, hget] at hp
    exact Option.some.inj hp
  rw [hpr] at hlock hu ⊢
  obtain ⟨hInv, ht⟩ := catalogue_assign
    (p := { f p with lockVersion := (f p).lockVersion + 1 }) hs hmem (by rw [hpr, hu])
    (hid.trans hu)
  exact ⟨hInv, hlock, rfl, ht⟩

/-- Metadata leave status, rules, version, parent version, identifier and lock version
    alone. -/
theorem foldl_set_metadata (fields : List PackAttr)
    (h : fields.all PackAttr.isMetadata = true) (p : RulePack) :
    let q := fields.foldl PackAttr.set p
    q.status = p.status ∧ q.rules = p.rules ∧ q.id = p.id ∧ q.lockVersion = p.lockVersion ∧
      q.version = p.version ∧ q.parentVersion = p.parentVersion := by
  induction fields generalizing p with
  | nil => exact ⟨rfl, rfl, rfl, rfl, rfl, rfl⟩
  | cons attr rest ih =>
    rw [List.all_cons, Bool.and_eq_true] at h
    obtain ⟨hstatus, hrules, hid, hlock, hversion, hparent⟩ := ih h.2 (PackAttr.set p attr)
    have hattr := h.1
    cases attr <;> first | exact ⟨hstatus, hrules, hid, hlock, hversion, hparent⟩ | cases hattr

/-- An update of metadata leaves the status and the rules of its Draft. -/
theorem updateMetadata_effect {s t : InMemoryStore} {u : Uuid} {p : RulePack} {lock : Option Nat}
    {fields : List PackAttr} {r : PackRef} (hs : Inv s) (hp : catalogue s u = some p)
    (hdraft : p.status = .draft) (hmeta : fields.all PackAttr.isMetadata = true)
    (h : updateMetadata u lock fields s = .ok (r, t)) :
    Inv t ∧ WriteStep inMemoryRulePackRepository view s (.updateMetadata u lock fields) t := by
  obtain ⟨hstatus, hrules, hid, hlock, -⟩ := foldl_set_metadata fields hmeta p
  unfold updateMetadata at h
  obtain ⟨hInv, hmatch, hsupply, ht⟩ := updateById_effect hs hp hid h
  refine ⟨hInv, le_of_eq hsupply.symm, .updateMetadata hp hdraft hmatch ?_ ?_ ?_ ht⟩
  · exact hstatus
  · exact hrules
  · left
    simp only [hlock]
    omega

/-- After the deprecations each listed object is deprecated once, however often it is listed. -/
private theorem foldl_deprecateActive (rs : List PackRef) (s : InMemoryStore) :
    let t := rs.foldl deprecateActive s
    t.store = s.store ∧ t.nextRef = s.nextRef ∧ t.nextUuid = s.nextUuid ∧
      ∀ ref, t.objects ref =
        if ref ∈ rs ∧ (s.objects ref).status = .active then
          { s.objects ref with
            status := .deprecated, lockVersion := (s.objects ref).lockVersion + 1 }
        else s.objects ref := by
  induction rs generalizing s with
  | nil => simp
  | cons r rs ih =>
    obtain ⟨hstore, hnext, huuid, hobjects⟩ := ih (deprecateActive s r)
    have hfields : (deprecateActive s r).store = s.store ∧
        (deprecateActive s r).nextRef = s.nextRef ∧
        (deprecateActive s r).nextUuid = s.nextUuid := by
      simp only [deprecateActive]
      split <;> exact ⟨rfl, rfl, rfl⟩
    refine ⟨hstore.trans hfields.1, hnext.trans hfields.2.1, huuid.trans hfields.2.2, ?_⟩
    intro ref
    rw [List.foldl_cons, hobjects ref]
    by_cases hr : ref = r
    · subst hr
      by_cases hactive : (s.objects ref).status = .active
      · simp [deprecateActive, assign, hactive]
      · simp [deprecateActive, hactive]
    · have hother : (deprecateActive s r).objects ref = s.objects ref := by
        simp only [deprecateActive]
        split
        · exact Function.update_of_ne hr ..
        · rfl
      rw [hother]
      simp [hr]

/-- An activation changes statuses and lock versions. -/
theorem activate_objects {s t : InMemoryStore} {name : String} {version : Int} {lock : Option Nat}
    {r : PackRef} (h : activate name version lock s = .ok (r, t)) :
    t.store = s.store ∧ ∀ ref, t.objects ref = { s.objects ref with
      status := (t.objects ref).status, lockVersion := (t.objects ref).lockVersion } := by
  unfold activate at h
  split at h
  · cases h
  · rename_i target _
    obtain ⟨_, -, h⟩ := Except.bind_ok_iff.mp h
    have ht := congrArg Prod.snd (Except.ok.inj h)
    simp only at ht
    obtain ⟨hstore, -, -, hobjects⟩ := foldl_deprecateActive (listVersions name s) s
    subst ht
    refine ⟨hstore, fun ref => ?_⟩
    by_cases hr : ref = target
    · subst hr
      simp only [assign, Function.update_self, hobjects ref]
      split <;> rfl
    · simp only [assign, Function.update_of_ne hr, hobjects ref]
      split <;> rfl

theorem mem_listVersions {s : InMemoryStore} {name : String} {ref : PackRef} :
    ref ∈ listVersions name s ↔ ref ∈ refs s ∧ (s.objects ref).name = name := by
  unfold listVersions
  rw [List.mem_insertionSort, List.mem_filter, beq_iff_eq]

theorem activate_effect {s t : InMemoryStore} {name : String} {version : Int}
    {lock : Option Nat} {r : PackRef} (requested : Option Uuid) (hs : Inv s)
    (h : activate name version lock s = .ok (r, t)) :
    Inv t ∧ WriteStep inMemoryRulePackRepository view s
      (.activate requested name version lock) t := by
  unfold activate at h
  split at h
  · cases h
  · rename_i target hget
    obtain ⟨_, hlock, h⟩ := Except.bind_ok_iff.mp h
    have ht := congrArg Prod.snd (Except.ok.inj h)
    simp only at ht
    -- first the loop that deprecates the other versions, which keeps keys and identifiers
    obtain ⟨hstore, hnext, huuid, hobjects⟩ := foldl_deprecateActive (listVersions name s) s
    generalize (listVersions name s).foldl deprecateActive s = s₁ at ht hstore hnext huuid hobjects
    have hmem := mem_refs_of_get hget
    obtain ⟨u, hu, -⟩ := hs.identified target hmem
    have hids : ∀ ref ∈ refs s, (s₁.objects ref).id = (s.objects ref).id := by
      intro ref _
      rw [hobjects ref]
      split <;> rfl
    have hInv₁ : Inv s₁ := inv_congr hs hstore hids (le_of_eq hnext.symm) (le_of_eq huuid.symm)
    have hrefs : refs s₁ = refs s := by unfold refs; rw [hstore]
    -- then the target, which the loop may itself have deprecated
    let q : RulePack := { s₁.objects target with
      status := .active, lockVersion := (s₁.objects target).lockVersion + 1 }
    obtain ⟨hInv, hcat⟩ := catalogue_assign (p := q)
      hInv₁ (hrefs ▸ hmem) ((hids target hmem).trans hu) ((hids target hmem).trans hu)
    rw [ht] at hInv hcat
    have hp : catalogue s u = some (s.objects target) :=
      (catalogue_eq_some_iff hs).mpr ⟨target, hmem, hu, rfl⟩
    have hq : q = { s.objects target with status := .active, lockVersion := q.lockVersion } := by
      simp only [q, hobjects target]
      split <;> rfl
    have hbump : (s.objects target).lockVersion < q.lockVersion := by
      simp only [q, hobjects target]
      split
      · exact Nat.lt_succ_of_lt (Nat.lt_succ_self _)
      · exact Nat.lt_succ_self _
    have hunder : Under inMemoryRulePackRepository s name version u := ⟨target, hget, hu⟩
    refine ⟨hInv, ?_, .activate hp hunder (checkLock_ok_iff.mp hlock) hq hbump ?_⟩
    · have hsupply : t.nextUuid = s₁.nextUuid := by rw [← ht]; rfl
      exact le_of_eq (huuid.symm.trans hsupply.symm)
    · change catalogue t = _
      rw [hcat]
      -- the two catalogues agree at the target and at every other identifier
      funext v
      by_cases hv : v = u
      · subst hv
        rw [Catalogue.put_self, Catalogue.activate_self]
      · rw [Catalogue.put_of_ne hv, Catalogue.activate_of_ne hv, catalogue,
          getById_congr s s₁ hstore hids v]
        change _ = (catalogue s v).map _
        rw [catalogue]
        cases hgetv : getById v s with
        | none => rfl
        | some ref =>
          rw [Option.map_some, Option.map_some, Option.map_some, hobjects ref,
            Catalogue.deprecateNamed]
          simp only [mem_listVersions, (getById_mem hgetv).1, true_and]

theorem listAll_subset {s : InMemoryStore} {status : Option PackStatus} {region : Option String}
    {archived : Bool} {limit offset : Nat} {ref : PackRef}
    (h : ref ∈ listAll status region archived limit offset s) : ref ∈ refs s := by
  unfold listAll at h
  simp only at h
  have h := List.mem_of_mem_drop (List.mem_of_mem_take h)
  rw [List.mem_insertionSort] at h
  have hfilter : ∀ {l : List PackRef} {q : PackRef → Bool}, ref ∈ l.filter q → ref ∈ l :=
    fun hq => (List.mem_filter.mp hq).1
  cases archived <;> cases status <;> cases region <;>
    simp only [Bool.false_eq_true, if_true, if_false] at h <;>
    first
      | exact h
      | exact hfilter h
      | exact hfilter (hfilter h)
      | exact hfilter (hfilter (hfilter h))

/-- `InMemoryRulePackRepository` is lawful. -/
def lawful : Lawful inMemoryRulePackRepository view where
  Inv := Inv
  Reads s ref u := ref ∈ refs s ∧ (s.objects ref).id = some u
  bound := by
    intro s u p hs hp
    obtain ⟨ref, hmem, hid, rfl⟩ := (catalogue_eq_some_iff hs).mp hp
    obtain ⟨v, hv, hlt⟩ := hs.identified ref hmem
    rw [Option.some.inj (hid.symm.trans hv)]
    exact hlt
  reads := by
    intro s ref u hs ⟨hmem, hid⟩
    exact ⟨(catalogue_eq_some_iff hs).mpr ⟨ref, hmem, hid, rfl⟩, hid⟩
  getById := fun _ h => getById_mem h
  get := by
    intro s name version ref hs h
    have hmem := mem_refs_of_get h
    obtain ⟨u, hu, -⟩ := hs.identified ref hmem
    exact ⟨u, hmem, hu⟩
  getActive_none := by
    intro s name region u p hs h hp hactive
    obtain ⟨ref, hmem, -, rfl⟩ := (catalogue_eq_some_iff hs).mp hp
    have hnone := List.find?_eq_none.mp h ref hmem
    simp [hactive] at hnone
  getActive := by
    intro s name region ref hs h
    have hmem := List.mem_of_find?_eq_some h
    have hcond := List.find?_some h
    simp only [Bool.and_eq_true, beq_iff_eq] at hcond
    obtain ⟨u, hu, -⟩ := hs.identified ref hmem
    exact ⟨⟨u, hmem, hu⟩, hcond.1.2⟩
  listAll := by
    intro s status region archived limit offset ref hs h
    have hmem := listAll_subset h
    obtain ⟨u, hu, -⟩ := hs.identified ref hmem
    exact ⟨u, hmem, hu⟩
  inv_uuid4 := fun hs => inv_congr hs rfl (fun _ _ => rfl) (le_refl _) (Nat.le_succ _)
  catalogue_uuid4 := fun _ => rfl
  supply_uuid4 := fun _ => Nat.le_succ _
  get_uuid4 := fun _ _ _ => rfl
  pack_uuid4 := fun _ _ => rfl
  reads_uuid4 := fun h => h
  saveNew := fun hs hid _ h => saveNew_effect hs hid h
  saveEdited := fun hs hreads hdraft h => saveEdited_effect hs hreads.1 hreads.2 hdraft h
  updateMetadata := fun hs hp hdraft hmeta h => updateMetadata_effect hs hp hdraft (hmeta trivial) h
  publish := by
    intro s u p r t hs hp hdraft hvalid h
    obtain ⟨hInv, -, hsupply, ht⟩ := updateById_effect (f := fun p => { p with status := .published })
      hs hp rfl h
    exact ⟨hInv, le_of_eq hsupply.symm, .publish hp hdraft hvalid ht⟩
  softDelete := by
    intro s u p lock r t hs hp hactive h
    obtain ⟨hInv, hmatch, hsupply, ht⟩ := updateById_effect (f := fun p => { p with status := .archived })
      hs hp rfl h
    exact ⟨hInv, le_of_eq hsupply.symm, .softDelete hp hactive hmatch ht⟩
  activate := fun hs h => activate_effect _ hs h
  promoteToShadow := by
    intro s ref u hs ⟨hmem, hid⟩ hvalid
    right
    obtain ⟨hInv, ht⟩ :=
      catalogue_assign (p := { s.objects ref with status := .shadow }) hs hmem hid hid
    have hp : catalogue s u = some (s.objects ref) :=
      (catalogue_eq_some_iff hs).mpr ⟨ref, hmem, hid, rfl⟩
    exact ⟨hInv, le_refl _, .promoteToShadow trivial hp hvalid ht⟩

/-- The empty store satisfies the invariant. -/
theorem inv_init : Inv init := by
  have hnone : ∀ ref, ref ∉ refs init := by
    intro ref hmem
    cases hmem
  exact ⟨fun ref h => absurd h (hnone ref), fun ref h => absurd h (hnone ref),
    fun ref _ h => absurd h (hnone ref)⟩

end PulseGuard.InMemoryRulePackRepository
