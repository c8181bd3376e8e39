import PulseGuard.Spec.CallSteps
import PulseGuard.Spec.InMemoryCorrect
import PulseGuard.Spec.Lifecycle

/-!
# The dictionary and its packs

The in-memory repository keeps its packs under the name and version they had when they were
saved. As long as no metadata update changes a name, every pack stays under its own name and
version, and so is found by either lookup and never lost (`saved_packs_kept`).
`renamed_pack_not_found` renames a Draft.
-/

namespace PulseGuard

open Run

namespace InMemoryRulePackRepository

variable {s t : InMemoryStore} {name : String} {version : Int}

/-- The key under which `save` puts a pack. -/
def keyOf (p : RulePack) : String × Int := (p.name, p.version)

/-- Every key is the name and version of the pack it leads to. -/
def Keyed (s : InMemoryStore) : Prop :=
  ∀ key ref, s.store.get? key = some ref → keyOf (s.objects ref) = key

/-! ## What the writes do to the store -/

/-- What a write does to the dictionary and the objects: a save takes the key of its pack, an
    update of metadata changes one object, every other write only statuses and lock
    versions. -/
inductive Wrote (s t : InMemoryStore) : Write → Prop where
  | saveNew {p : RulePack} (hfree : (∀ ref ∈ listVersions p.name s,
        (s.objects ref).version ≠ p.version) ∨ get p.name p.version s = none)
      (hstore : t.store = s.store.set (keyOf p) s.nextRef)
      (hobjects : t.objects =
        Function.update s.objects s.nextRef { p with id := some s.nextUuid }) :
      Wrote s t (.saveNew p)
  | saveEdited {ref : PackRef} {rules : List Rule} (hmem : ref ∈ refs s)
      (hstore : t.store = s.store.set (keyOf (s.objects ref)) ref)
      (hobjects : t.objects = Function.update s.objects ref { s.objects ref with rules }) :
      Wrote s t (.saveEdited (s.objects ref) rules)
  | updateMetadata {u : Uuid} {lock : Option Nat} {fields : List PackAttr} {ref : PackRef}
      (hget : getById u s = some ref) (hmeta : fields.all PackAttr.isMetadata = true)
      (hstore : t.store = s.store)
      (hobjects : t.objects = Function.update s.objects ref
        { fields.foldl PackAttr.set (s.objects ref) with
          lockVersion := (fields.foldl PackAttr.set (s.objects ref)).lockVersion + 1 }) :
      Wrote s t (.updateMetadata u lock fields)
  | status {w : Write} (hsave : ¬w.IsSave) (hstore : t.store = s.store)
      (hobjects : ∀ ref, t.objects ref = { s.objects ref with
        status := (t.objects ref).status, lockVersion := (t.objects ref).lockVersion }) :
      Wrote s t w

theorem status_of_assign {ref : PackRef} {w : Write} {status : PackStatus} {lockVersion : Nat}
    (hsave : ¬w.IsSave) : Wrote s (assign ref { s.objects ref with status, lockVersion } s).2 w := by
  refine .status hsave rfl fun r => ?_
  by_cases hr : r = ref
  · subst hr
    simp [assign]
  · simp [assign, Function.update_of_ne hr]

theorem wrote_of_performs {w : Write} (h : lawful.Performs s w t) : Wrote s t w := by
  cases h with
  | saveNew hid hfree hsave =>
    obtain ⟨hstore, hobjects⟩ := saveNew_ok hid hsave
    exact .saveNew hfree hstore hobjects
  | @saveEdited s' _ ref r u rules hs' hreads hdraft hsave =>
    have hid : (s.objects ref).id = some u := hreads.2
    have hsave : save ref (assign ref { s.objects ref with rules } s').2 = .ok (r, t) := hsave
    obtain ⟨hstore, hobjects⟩ := saveEdited_ok (q := { s.objects ref with rules }) hid hsave
    have hsame : s'.store = s.store ∧ s'.objects = s.objects := by
      rcases hs' with rfl | rfl <;> exact ⟨rfl, rfl⟩
    rw [hsame.1] at hstore
    rw [hsame.2] at hobjects
    exact .saveEdited hreads.1 hstore hobjects
  | @updateMetadata p u lock fields r _ hp hdraft hmeta hupdate =>
    have hupdate : updateById u lock (fun p => fields.foldl PackAttr.set p) s = .ok (r, t) := hupdate
    obtain ⟨ref, hget, -, rfl⟩ := updateById_ok hupdate
    exact .updateMetadata hget (hmeta trivial) rfl rfl
  | @publish p u r _ hp hdraft hvalid hupdate =>
    have hupdate : updateById u none (fun p => { p with status := .published }) s = .ok (r, t) :=
      hupdate
    obtain ⟨ref, hget, -, rfl⟩ := updateById_ok hupdate
    exact status_of_assign id
  | @softDelete p u lock r _ hp hactive hdelete =>
    have hdelete : updateById u lock (fun p => { p with status := .archived }) s = .ok (r, t) :=
      hdelete
    obtain ⟨ref, hget, -, rfl⟩ := updateById_ok hdelete
    exact status_of_assign id
  | activate hactivate =>
    obtain ⟨hstore, hobjects⟩ := activate_objects hactivate
    exact .status id hstore hobjects
  | promoteToShadow hreads hvalid ht hne =>
    rw [ht]
    exact status_of_assign id

/-! ## Keys -/

/-- The condition on a write: an update of metadata leaves the name of its pack. -/
def KeepsNames (s : InMemoryStore) : Write → Prop
  | .updateMetadata u _ fields => fields.all PackAttr.isMetadata = true ∧
    ∀ p, catalogue s u = some p → (fields.foldl PackAttr.set p).name = p.name
  | _ => True

/-- The dictionary after a save, when the packs kept their names and versions. -/
theorem Keyed.set (h : Keyed s) {ref : PackRef} {key : String × Int}
    (hstore : t.store = s.store.set key ref) (hkey : keyOf (t.objects ref) = key)
    (hother : ∀ r ∈ refs s, keyOf (t.objects r) = keyOf (s.objects r)) : Keyed t := by
  intro key' r hget
  rw [hstore, Dict.get?_set] at hget
  split at hget
  · rename_i heq
    cases hget
    rw [hkey, heq]
  · rw [hother r ((Dict.mem_values_iff s.store).mpr ⟨key', hget⟩)]
    exact h key' r hget

/-- The same dictionary, when the packs kept their names and versions. -/
theorem Keyed.of_store (h : Keyed s) (hstore : t.store = s.store)
    (hkeys : ∀ r, keyOf (t.objects r) = keyOf (s.objects r)) : Keyed t := by
  intro key r hget
  rw [hstore] at hget
  rw [hkeys r]
  exact h key r hget

theorem keyed_of_wrote {w : Write} (hInv : Inv s) (hkeyed : Keyed s) (h : Wrote s t w)
    (hkeeps : KeepsNames s w) : Keyed t := by
  cases h with
  | saveNew hfree hstore hobjects =>
    refine hkeyed.set hstore ?_ ?_
    · rw [hobjects, Function.update_self]
      rfl
    · intro r hmem
      rw [hobjects, Function.update_of_ne (Nat.ne_of_lt (hInv.allocated r hmem))]
  | @saveEdited ref rules hmem hstore hobjects =>
    have hkeys : ∀ r, keyOf (t.objects r) = keyOf (s.objects r) := by
      intro r
      by_cases hr : r = ref
      · subst hr
        rw [hobjects, Function.update_self]
        rfl
      · rw [hobjects, Function.update_of_ne hr]
    exact hkeyed.set hstore (hkeys ref) fun r _ => hkeys r
  | @updateMetadata u lock fields ref hget hmeta hstore hobjects =>
    refine hkeyed.of_store hstore fun r => ?_
    by_cases hr : r = ref
    · subst hr
      have hcatalogue : catalogue s u = some (s.objects r) := by rw [catalogue, hget]; rfl
      have hname := hkeeps.2 _ hcatalogue
      obtain ⟨-, -, -, -, hversion, -⟩ := foldl_set_metadata fields hmeta (s.objects r)
      rw [hobjects, Function.update_self]
      simp only [keyOf, hname, hversion]
    · rw [hobjects, Function.update_of_ne hr]
  | status hsave hstore hobjects =>
    refine hkeyed.of_store hstore fun r => ?_
    rw [hobjects r]
    rfl

/-- The key of a new pack is free. -/
theorem get_none_of_free (hkeyed : Keyed s)
    (hfree : (∀ ref ∈ listVersions name s, (s.objects ref).version ≠ version) ∨
      get name version s = none) : get name version s = none := by
  rcases hfree with hfree | hnone
  · cases hget : get name version s with
    | none => rfl
    | some ref =>
      have hkey : keyOf (s.objects ref) = (name, version) := hkeyed _ ref hget
      simp only [keyOf, Prod.mk.injEq] at hkey
      have hmem : ref ∈ listVersions name s := mem_listVersions.mpr ⟨mem_refs_of_get hget, hkey.1⟩
      exact absurd hkey.2 (hfree ref hmem)
  · exact hnone

/-- No key is taken from another pack, so every stored pack stays stored. -/
theorem refs_of_wrote {w : Write} (hkeyed : Keyed s) (h : Wrote s t w) {ref : PackRef}
    (hmem : ref ∈ refs s) : ref ∈ refs t := by
  obtain ⟨key, hkey⟩ := (Dict.mem_values_iff s.store).mp hmem
  have hset : ∀ {key' r}, t.store = s.store.set key' r → (key' = key → r = ref) →
      ref ∈ refs t := by
    intro key' r hstore hsame
    refine (Dict.mem_values_iff t.store).mpr ⟨key, ?_⟩
    rw [hstore, Dict.get?_set]
    split
    · rename_i heq
      rw [hsame heq]
    · exact hkey
  have hstay : t.store = s.store → ref ∈ refs t := by
    intro hstore
    unfold refs
    rw [hstore]
    exact hmem
  cases h with
  | @saveNew p hfree hstore hobjects =>
    refine hset hstore fun heq => ?_
    have hnone : get p.name p.version s = none := get_none_of_free hkeyed hfree
    rw [← heq] at hkey
    rw [show s.store.get? (keyOf p) = none from hnone] at hkey
    cases hkey
  | @saveEdited ref' rules hmem' hstore hobjects =>
    refine hset hstore fun heq => ?_
    -- the edited pack is stored under its key already
    obtain ⟨key', hkey'⟩ := (Dict.mem_values_iff s.store).mp hmem'
    have hsame := hkeyed key' ref' hkey'
    rw [← hsame, heq, hkey] at hkey'
    exact (Option.some.inj hkey').symm
  | updateMetadata hget hmeta hstore hobjects => exact hstay hstore
  | status hsave hstore hobjects => exact hstay hstore

/-- A write leaves the identifiers of the stored packs. -/
theorem id_of_wrote {w : Write} (hInv : Inv s) (h : Wrote s t w) {ref : PackRef}
    (hmem : ref ∈ refs s) : (t.objects ref).id = (s.objects ref).id := by
  cases h with
  | saveNew hfree hstore hobjects =>
    rw [hobjects, Function.update_of_ne (Nat.ne_of_lt (hInv.allocated ref hmem))]
  | @saveEdited ref' rules hmem' hstore hobjects =>
    by_cases hr : ref = ref'
    · subst hr
      rw [hobjects, Function.update_self]
    · rw [hobjects, Function.update_of_ne hr]
  | @updateMetadata u lock fields ref' hget hmeta hstore hobjects =>
    by_cases hr : ref = ref'
    · subst hr
      rw [hobjects, Function.update_self]
      exact (foldl_set_metadata fields hmeta (s.objects ref)).2.2.1
    · rw [hobjects, Function.update_of_ne hr]
  | status hsave hstore hobjects =>
    rw [hobjects ref]

/-! ## Runs of calls -/

/-- A pack that is stored stays stored, and every key stays the name and version of its
    pack. -/
theorem kept_of_run (hrun : RunWhere lawful.Performs (fun s w => Inv s ∧ KeepsNames s w) s t)
    (hInv : Inv s) (hkeyed : Keyed s) :
    Inv t ∧ Keyed t ∧ ∀ u p, catalogue s u = some p → ∃ q, catalogue t u = some q := by
  induction hrun with
  | refl => exact ⟨hInv, hkeyed, fun u p hp => ⟨p, hp⟩⟩
  | tail _ hlast ih =>
    obtain ⟨hInv₁, hkeyed₁, hkept₁⟩ := ih
    obtain ⟨w, ⟨-, hkeeps⟩, hperforms⟩ := hlast
    have hwrote := wrote_of_performs hperforms
    have hInv₂ := (hperforms.step hInv₁).1
    refine ⟨hInv₂, keyed_of_wrote hInv₁ hkeyed₁ hwrote hkeeps, fun u p hp => ?_⟩
    obtain ⟨q, hq⟩ := hkept₁ u p hp
    obtain ⟨ref, hmem, hid, -⟩ := (catalogue_eq_some_iff hInv₁).mp hq
    have hmem₂ := refs_of_wrote hkeyed₁ hwrote hmem
    have hid₂ := id_of_wrote hInv₁ hwrote hmem
    exact ⟨_, (catalogue_eq_some_iff hInv₂).mpr ⟨ref, hmem₂, hid₂.trans hid, rfl⟩⟩

/-- Two keys lead to two packs, and a pack of some name and version is under that key. -/
theorem Keyed.get_of_mem (h : Keyed s) {ref : PackRef} (hmem : ref ∈ refs s) :
    get (s.objects ref).name (s.objects ref).version s = some ref := by
  obtain ⟨key, hkey⟩ := (Dict.mem_values_iff s.store).mp hmem
  rw [← h key ref hkey] at hkey
  exact hkey

theorem keyed_init : Keyed init := fun key ref hget => by cases hget

end InMemoryRulePackRepository

open InMemoryRulePackRepository in
/-- In a run of calls that changes no names: a pack that was ever saved is still stored, under
    one key, and is found by its identifier and by its name and version; and no two stored
    packs share a name and a version. -/
theorem saved_packs_kept {calls more : List Call}
    (hkeeps : CallsEach inMemoryRulePackRepository KeepsNames (calls ++ more) inMemoryStart) :
    let s := (runCalls inMemoryRulePackRepository calls inMemoryStart).repository
    let t := (runCalls inMemoryRulePackRepository (calls ++ more) inMemoryStart).repository
    (∀ u p, catalogue s u = some p →
      (∃! key, ∃ ref, t.store.get? key = some ref ∧ (t.objects ref).id = some u) ∧
      ∃ ref, getById u t = some ref ∧
        get (t.objects ref).name (t.objects ref).version t = some ref) ∧
    ∀ ref ∈ refs t, ∀ ref' ∈ refs t, keyOf (t.objects ref) = keyOf (t.objects ref') →
      ref = ref' := by
  intro s t
  have hmeta : ∀ (s : InMemoryStore) u lock fields,
      KeepsNames s (.updateMetadata u lock fields) → view.inPlace →
      fields.all PackAttr.isMetadata = true := fun _ _ _ _ h _ => h.1
  obtain ⟨hcalls, hmore⟩ := CallsEach.append.mp hkeeps
  have hstart : lawful.Inv inMemoryStart.repository := inv_init
  obtain ⟨hInv, hrun⟩ := lawful.runCalls_performs hmeta hstart hcalls
  obtain ⟨-, hkeyed, -⟩ := kept_of_run hrun hstart keyed_init
  obtain ⟨-, hrun'⟩ := lawful.runCalls_performs hmeta hInv hmore
  rw [← runCalls_append] at hrun'
  obtain ⟨hInv', hkeyed', hkept⟩ := kept_of_run hrun' hInv hkeyed
  constructor
  · intro u p hp
    obtain ⟨q, hq⟩ := hkept u p hp
    obtain ⟨ref, hmem, hid, -⟩ := (catalogue_eq_some_iff hInv').mp hq
    have hget := hkeyed'.get_of_mem hmem
    refine ⟨⟨keyOf (t.objects ref), ⟨ref, hget, hid⟩, ?_⟩,
      ref, (getById_eq_some_iff hInv').mpr ⟨hmem, hid⟩, hget⟩
    intro key h
    obtain ⟨ref', hget', hid'⟩ := h
    -- one identifier, one object, and its key is its name and version
    have hmem' : ref' ∈ refs t := (Dict.mem_values_iff t.store).mpr ⟨key, hget'⟩
    rw [hInv'.distinct ref' ref hmem' hmem (hid'.trans hid.symm)] at hget'
    exact (hkeyed' key ref hget').symm
  · intro ref hmem ref' hmem' hkey
    have hget := hkeyed'.get_of_mem hmem
    have hget' := hkeyed'.get_of_mem hmem'
    simp only [keyOf, Prod.mk.injEq] at hkey
    rw [hkey.1, hkey.2, hget'] at hget
    exact (Option.some.inj hget).symm

open InMemoryRulePackRepository in
/-- A Draft, and a second version that is created after it gets a region. -/
theorem saved_packs_kept_region :
    let t := (runCalls inMemoryRulePackRepository ([createPlain "noc" none] ++
      [.updateMetadata 0 "editor" none [.region (some "EU")], createPlain "noc" none])
      inMemoryStart).repository
    ∃ ref, getById 0 t = some ref ∧
      get (t.objects ref).name (t.objects ref).version t = some ref := by
  have hkeeps : CallsEach inMemoryRulePackRepository KeepsNames ([createPlain "noc" none] ++
      [.updateMetadata 0 "editor" none [.region (some "EU")], createPlain "noc" none])
      inMemoryStart :=
    ⟨trivial, ⟨rfl, fun p hp => rfl⟩, trivial, trivial⟩
  exact ((saved_packs_kept hkeeps).1 0 _ rfl).2

open InMemoryRulePackRepository in
/-- A Draft that is renamed is found under its old name only. -/
theorem renamed_pack_not_found :
    ¬∀ (calls more : List Call) (u : Uuid) (p : RulePack),
      Succeed inMemoryRulePackRepository (calls ++ more) inMemoryStart →
      catalogue (runCalls inMemoryRulePackRepository calls inMemoryStart).repository u = some p →
      let t := (runCalls inMemoryRulePackRepository (calls ++ more) inMemoryStart).repository
      ∃ ref, getById u t = some ref ∧
        get (t.objects ref).name (t.objects ref).version t = some ref := by
  intro h
  obtain ⟨ref, hid, hget⟩ := h [createPlain "noc" none]
    [.updateMetadata 0 "editor" none [.name "edge"]] 0 _ ⟨rfl, rfl, trivial⟩ rfl
  cases hid
  cases hget

end PulseGuard
