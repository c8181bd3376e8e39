import PulseGuard.ForStd.PyList
import PulseGuard.Spec.ExportImport
import PulseGuard.Spec.LevelCatalogues
import PulseGuard.Spec.RuleEdits
import PulseGuard.Spec.StoreCoherent

/-!
# The operations of the two backends, by name and version

As long as every name and version lead to one pack, the queries of a backend are determined by
what its catalogue shows, and each of its writes either raises or puts one pack in its place.
Both are stated here for one backend at a time, with what makes a write raise.
-/

namespace PulseGuard

/-! ## The in-memory backend -/

namespace InMemoryRulePackRepository

/-- Every key is the name and version of its pack. -/
structure Shelved (s : InMemoryStore) : Prop where
  inv : Inv s
  keyed : Keyed s

variable {s t : InMemoryStore} {ref : PackRef} {u : Uuid} {p : RulePack}

theorem Shelved.exists_id (hs : Shelved s) (hmem : ref ∈ refs s) :
    ∃ u, (s.objects ref).id = some u ∧ catalogue s u = some (s.objects ref) := by
  obtain ⟨u, hu, -⟩ := hs.inv.identified ref hmem
  exact ⟨u, hu, (catalogue_eq_some_iff hs.inv).mpr ⟨ref, hmem, hu, rfl⟩⟩

/-- The object of a pack of the catalogue. -/
theorem Shelved.exists_ref (hs : Shelved s) (hp : catalogue s u = some p) :
    ∃ ref ∈ refs s, getById u s = some ref ∧ s.objects ref = p ∧ p.id = some u := by
  obtain ⟨ref, hmem, hid, rfl⟩ := (catalogue_eq_some_iff hs.inv).mp hp
  exact ⟨ref, hmem, (getById_eq_some_iff hs.inv).mpr ⟨hmem, hid⟩, rfl, hid⟩

theorem get_eq_some_iff (hs : Shelved s) {name : String} {version : Int} :
    get name version s = some ref ↔
      ref ∈ refs s ∧ (s.objects ref).name = name ∧ (s.objects ref).version = version := by
  constructor
  · intro hget
    have hkey : keyOf (s.objects ref) = (name, version) := hs.keyed _ ref hget
    simp only [keyOf, Prod.mk.injEq] at hkey
    exact ⟨mem_refs_of_get hget, hkey⟩
  · intro h
    obtain ⟨hmem, rfl, rfl⟩ := h
    exact hs.keyed.get_of_mem hmem

theorem Shelved.distinct (hs : Shelved s) : (catalogue s).Distinct := by
  intro u v p q hp hq hkey
  obtain ⟨ref, hmem, -, rfl, hu⟩ := hs.exists_ref hp
  obtain ⟨ref', hmem', -, rfl, hv⟩ := hs.exists_ref hq
  have hget := hs.keyed.get_of_mem hmem
  have hget' := hs.keyed.get_of_mem hmem'
  have hkey : keyOf (s.objects ref) = keyOf (s.objects ref') := hkey
  simp only [keyOf, Prod.mk.injEq] at hkey
  rw [hkey.1, hkey.2, hget'] at hget
  cases hget
  exact Option.some.inj (hu.symm.trans hv)

/-- The stored objects have names and versions of their own. -/
theorem Shelved.refs_pairwise (hs : Shelved s) :
    (refs s).Pairwise fun a b => (s.objects a).nameVersion ≠ (s.objects b).nameVersion := by
  have hkeys : (refs s).map (fun ref => keyOf (s.objects ref)) = s.store.keys := by
    show (s.store.entries.map Prod.snd).map _ = s.store.entries.map Prod.fst
    rw [List.map_map]
    apply List.map_congr_left
    intro entry hentry
    exact hs.keyed entry.1 entry.2 ((Dict.get?_eq_some_iff s.store).mpr hentry)
  have hnodup : ((refs s).map fun ref => keyOf (s.objects ref)).Nodup := hkeys ▸ s.store.nodup
  exact List.pairwise_map.mp hnodup

theorem listVersions_pairwise (hs : Shelved s) (name : String) :
    (listVersions name s).Pairwise fun a b => (s.objects a).version < (s.objects b).version := by
  apply PyList.pairwise_lt_insertionSort (fun ref => (s.objects ref).version)
  rw [List.pairwise_filter]
  refine hs.refs_pairwise.imp ?_
  intro a b hne ha hb hversion
  rw [beq_iff_eq] at ha hb
  apply hne
  unfold RulePack.nameVersion
  rw [ha, hb, hversion]

/-- The list of all packs is that of the stored objects, sorted strictly. -/
theorem listAll_pairwise (hs : Shelved s) (limit : Nat) :
    ∃ all : List PackRef, listAll none none true limit 0 s = all.take limit ∧ (∀ ref, ref ∈ all ↔ ref ∈ refs s) ∧
      all.Pairwise fun a b => (s.objects a).nameVersion < (s.objects b).nameVersion :=
  ⟨_, rfl, fun _ => List.mem_insertionSort _,
    PyList.pairwise_lt_insertionSort (fun ref => (s.objects ref).nameVersion) hs.refs_pairwise⟩

/-- The active pack that is found, if there is one. -/
theorem getActive_cases (hs : Shelved s) (name : String) (region : Option String) :
    getActive name region s = none ∧ (∀ u p, catalogue s u = some p → ¬p.ActiveIn name region) ∨
      ∃ ref ∈ refs s, getActive name region s = some ref ∧ (s.objects ref).ActiveIn name region := by
  cases hget : getActive name region s with
  | none => exact .inl ⟨rfl, fun u p hp => lawful.getActive_none hs.inv hget hp⟩
  | some ref =>
    right
    have hfound := List.find?_some hget
    simp only [Bool.and_eq_true, beq_iff_eq] at hfound
    exact ⟨ref, List.mem_of_find?_eq_some hget, rfl, hfound.1.2, hfound.1.1, hfound.2⟩

/-- A pack of the catalogue is under its key. -/
theorem catalogue_eq_some_iff_key (hs : Shelved s) :
    catalogue s u = some p ↔
      ∃ ref, s.store.get? (keyOf p) = some ref ∧ s.objects ref = p ∧ p.id = some u := by
  constructor
  · intro hp
    obtain ⟨ref, hmem, -, rfl, hid⟩ := hs.exists_ref hp
    exact ⟨ref, hs.keyed.get_of_mem hmem, rfl, hid⟩
  · intro h
    obtain ⟨ref, hget, rfl, hid⟩ := h
    exact (catalogue_eq_some_iff hs.inv).mpr ⟨ref, (Dict.mem_values_iff s.store).mpr ⟨_, hget⟩, hid, rfl⟩

/-! ### Writes -/

/-- A save that takes the key of its pack puts the pack. -/
private theorem Shelved.save (hs : Shelved s) (hInv : Inv t)
    (hstore : t.store = s.store.set (keyOf p) ref)
    (hobjects : t.objects = Function.update s.objects ref p)
    (hold : ref ∈ refs s → keyOf (s.objects ref) = keyOf p) (hid : p.id = some u) :
    Shelved t ∧ (catalogue s).Puts p (catalogue t) := by
  have hkeyed : Keyed t := by
    apply hs.keyed.set hstore (by rw [hobjects, Function.update_self])
    intro r hr
    by_cases hrr : r = ref
    · subst hrr
      rw [hobjects, Function.update_self]
      exact (hold hr).symm
    · rw [hobjects, Function.update_of_ne hrr]
  have ht : Shelved t := ⟨hInv, hkeyed⟩
  refine ⟨ht, ht.distinct, ⟨u, ?_⟩, fun v q hkey => ?_⟩
  · rw [catalogue_eq_some_iff_key ht]
    refine ⟨ref, ?_, ?_, hid⟩
    · rw [hstore, Dict.get?_set_self]
    · rw [hobjects, Function.update_self]
  · -- under another key there is the same object as before
    have hne : keyOf p ≠ keyOf q := fun h => hkey h.symm
    rw [catalogue_eq_some_iff_key ht, catalogue_eq_some_iff_key hs, hstore,
      Dict.get?_set_of_ne _ _ hne]
    constructor
    · intro h
      obtain ⟨r, hget, hobject, hv⟩ := h
      have hr : r ≠ ref := by
        rintro rfl
        rw [hobjects, Function.update_self] at hobject
        exact hne (congrArg keyOf hobject)
      rw [hobjects, Function.update_of_ne hr] at hobject
      exact ⟨r, hget, hobject, hv⟩
    · intro h
      obtain ⟨r, hget, hobject, hv⟩ := h
      have hr : r ≠ ref := by
        rintro rfl
        have hmem : r ∈ refs s := (Dict.mem_values_iff s.store).mpr ⟨_, hget⟩
        rw [← hobject] at hne
        exact hne (hold hmem).symm
      exact ⟨r, hget, by rw [hobjects, Function.update_of_ne hr, hobject], hv⟩

/-- A new pack is always saved. -/
theorem saveNew_puts (hs : Shelved s) (hid : p.id = none) :
    ∃ r t, save (new p s).1 (new p s).2 = .ok (r, t) ∧ Shelved t ∧
      t.objects r = { p with id := some s.nextUuid } ∧
      (catalogue s).Puts { p with id := some s.nextUuid } (catalogue t) := by
  obtain ⟨r, t, hsave⟩ : ∃ r t, save (new p s).1 (new p s).2 = .ok (r, t) := ⟨_, _, rfl⟩
  obtain ⟨hstore, hobjects⟩ := saveNew_ok hid hsave
  obtain ⟨hInv, -⟩ := saveNew_effect hs.inv hid hsave
  have hr : r = s.nextRef := by
    cases hsave
    rfl
  obtain ⟨ht, hputs⟩ := hs.save (p := { p with id := some s.nextUuid }) hInv hstore hobjects
    (fun hmem => absurd (hs.inv.allocated _ hmem) (lt_irrefl _)) rfl
  refine ⟨r, t, hsave, ht, ?_, hputs⟩
  rw [hr, hobjects, Function.update_self]

/-- A stored object, changed in place under its name, version and identifier. -/
theorem Shelved.assign (hs : Shelved s) (hmem : ref ∈ refs s)
    (hkey : keyOf p = keyOf (s.objects ref)) (hid : p.id = (s.objects ref).id) :
    Shelved (assign ref p s).2 ∧ (catalogue s).Puts p (catalogue (assign ref p s).2) := by
  obtain ⟨u, hu, hold⟩ := hs.exists_id hmem
  obtain ⟨hInv, ht⟩ := catalogue_assign hs.inv hmem hu (hid.trans hu)
  have hkeyed : Keyed (InMemoryRulePackRepository.assign ref p s).2 := by
    apply Keyed.of_store (t := (InMemoryRulePackRepository.assign ref p s).2) hs.keyed rfl
    intro r
    by_cases hr : r = ref
    · subst hr
      simp only [InMemoryRulePackRepository.assign, Function.update_self]
      exact hkey
    · simp only [InMemoryRulePackRepository.assign, Function.update_of_ne hr]
  refine ⟨⟨hInv, hkeyed⟩, ?_⟩
  rw [ht]
  exact .of_change hs.distinct hold hkey

/-- Its save changes nothing more. -/
theorem save_assign (hs : Shelved s) (hmem : ref ∈ refs s)
    (hkey : keyOf p = keyOf (s.objects ref)) (hid : p.id = (s.objects ref).id) :
    save ref (assign ref p s).2 = .ok (ref, (assign ref p s).2) := by
  obtain ⟨u, hu, -⟩ := hs.exists_id hmem
  have hobject : (assign ref p s).2.objects ref = p := Function.update_self ..
  have hget : s.store.get? (keyOf p) = some ref := by
    rw [hkey]
    exact hs.keyed.get_of_mem hmem
  have hstore : (assign ref p s).2.store.set (keyOf p) ref = (assign ref p s).2.store :=
    Dict.set_of_get? _ hget
  unfold save
  rw [assignId_of_some (u := u) (by rw [hobject, hid, hu])]
  simp only [hobject]
  rw [show (p.name, p.version) = keyOf p from rfl, hstore]

/-- An update by identifier raises without its pack or with a stale lock version, and changes
    the pack otherwise. -/
theorem updateById_cases (hs : Shelved s) (lock : Option Nat) (f : RulePack → RulePack) :
    (catalogue s u = none → ∃ e, updateById u lock f s = .error e) ∧
    ∀ p, catalogue s u = some p → (¬LockMatches lock p → ∃ e, updateById u lock f s = .error e) ∧
      ((f p).nameVersion = p.nameVersion → (f p).id = p.id → LockMatches lock p →
        let q := { f p with lockVersion := (f p).lockVersion + 1 }
        ∃ r t, updateById u lock f s = .ok (r, t) ∧ Shelved t ∧ t.objects r = q ∧
          (catalogue s).Puts q (catalogue t)) := by
  constructor
  · intro hnone
    have hget : getById u s = none := Option.map_eq_none_iff.mp hnone
    unfold updateById
    rw [hget]
    exact ⟨_, rfl⟩
  · intro p hp
    obtain ⟨ref, hmem, hget, rfl, hid⟩ := hs.exists_ref hp
    constructor
    · intro hstale
      unfold updateById
      rw [hget]
      cases hcheck : checkLock (s.objects ref).id (s.objects ref).lockVersion lock with
      | ok => exact absurd (checkLock_ok_iff.mp hcheck) hstale
      | error e =>
        simp only [hcheck]
        exact ⟨e, rfl⟩
    · intro hkey hfid hlock q
      have hupdate : updateById u lock f s = .ok (ref, (assign ref q s).2) := by
        unfold updateById
        rw [hget]
        simp only [checkLock_ok_iff.mpr hlock]
        rfl
      obtain ⟨ht, hputs⟩ := hs.assign (p := q) hmem hkey hfid
      exact ⟨ref, _, hupdate, ht, Function.update_self .., hputs⟩

/-- An activation raises without its pack or with a stale lock version. -/
theorem activate_cases (hs : Shelved s) (name : String) (version : Int) (lock : Option Nat) :
    (get name version s = none → ∃ e, activate name version lock s = .error e) ∧
    ∀ ref, get name version s = some ref →
      (¬LockMatches lock (s.objects ref) → ∃ e, activate name version lock s = .error e) ∧
      (LockMatches lock (s.objects ref) → ∃ t u q, activate name version lock s = .ok (ref, t) ∧
        Shelved t ∧ t.objects ref = q ∧ catalogue s u = some (s.objects ref) ∧
        q = { s.objects ref with status := .active, lockVersion := q.lockVersion } ∧
        catalogue t = (catalogue s).activate name u q) := by
  constructor
  · intro hnone
    unfold activate
    rw [hnone]
    exact ⟨_, rfl⟩
  · intro ref hget
    constructor
    · intro hstale
      unfold activate
      rw [hget]
      cases hcheck : checkLock (s.objects ref).id (s.objects ref).lockVersion lock with
      | ok => exact absurd (checkLock_ok_iff.mp hcheck) hstale
      | error e =>
        simp only [hcheck]
        exact ⟨e, rfl⟩
    · intro hlock
      -- the check passes, so the activation returns its target
      obtain ⟨t, hactivate⟩ : ∃ t, activate name version lock s = .ok (ref, t) := by
        unfold activate
        rw [hget]
        simp only [checkLock_ok_iff.mpr hlock]
        exact ⟨_, rfl⟩
      obtain ⟨hInv, -, heffect⟩ := activate_effect none hs.inv hactivate
      obtain ⟨hstore, hobjects⟩ := activate_objects hactivate
      have hkeyed : Keyed t := by
        apply hs.keyed.of_store hstore
        intro r
        rw [hobjects r]
        rfl
      cases heffect with
      | @activate p q _ u _ _ _ _ hp hunder _ hq _ ht =>
        obtain ⟨ref', hget', hid⟩ := hunder
        have hget' : get name version s = some ref' := hget'
        rw [hget] at hget'
        cases hget'
        obtain ⟨hmem, -⟩ := (get_eq_some_iff hs).mp hget
        -- the target is the object under the key, and still is
        have hhere : catalogue s u = some (s.objects ref) :=
          (catalogue_eq_some_iff hs.inv).mpr ⟨ref, hmem, hid, rfl⟩
        obtain rfl : s.objects ref = p := Option.some.inj (hhere.symm.trans hp)
        have hnow : catalogue t u = some q := by
          have ht : catalogue t = (catalogue s).activate name u q := ht
          rw [ht, Catalogue.activate_self]
        obtain ⟨ref'', hmem'', hid'', hobject⟩ := (catalogue_eq_some_iff hInv).mp hnow
        -- no other object has its identifier
        have hsame : ref'' = ref := by
          apply hInv.distinct ref'' ref hmem''
          · unfold refs
            rw [hstore]
            exact hmem
          · rw [hid'', hobjects ref]
            exact hid.symm
        rw [hsame] at hobject
        exact ⟨t, u, q, hactivate, ⟨hInv, hkeyed⟩, hobject, hp, hq, ht⟩

end InMemoryRulePackRepository

/-! ## The Postgres backend -/

namespace PostgresRulePackRepository

/-- Every name and version have one row, and every code of a set one rule. -/
structure Shelved (s : PostgresStore) : Prop where
  inv : Inv s
  distinct : (catalogue s).Distinct
  codes : ∀ u q, catalogue s u = some q → OwnCodes q.rules

variable {order : RowOrder} {s t : PostgresStore} {u : Uuid} {p q : RulePack}

/-- The row of a pack of the catalogue is the one found by its name and version. -/
theorem Shelved.first (order : RowOrder) (hs : Shelved s) (hq : catalogue s u = some q) :
    ∃ row, PostgresRulePackRepository.first order q.name q.version s = some row ∧
      row ∈ s.ruleSets ∧ row.id = u ∧ toDomain s row = q := by
  obtain ⟨row, hrow, rfl⟩ := exists_row hq
  obtain ⟨hmem, hid⟩ := row?_mem hrow
  obtain ⟨row', hfirst⟩ := first_isSome order hmem
  obtain ⟨hmem', hname, hversion⟩ := first_mem hfirst
  have hkey : (toDomain s row').nameVersion = (toDomain s row).nameVersion := by
    unfold RulePack.nameVersion
    show toLex (row'.name, row'.version) = toLex (row.name, row.version)
    rw [hname, hversion]
  have hsame := hs.distinct _ _ _ _ (catalogue_of_mem hs.inv hmem') hq hkey
  have hrow' : row' = row := by
    have hfound := (row?_eq_some_iff hs.inv).mpr ⟨hmem', hsame⟩
    rw [hrow] at hfound
    exact (Option.some.inj hfound).symm
  exact ⟨row, hrow' ▸ hfirst, hmem, hid, rfl⟩

theorem get_eq_some_iff (hs : Shelved s) {name : String} {version : Int} :
    get order name version s = some q ↔
      (∃ u, catalogue s u = some q) ∧ q.name = name ∧ q.version = version := by
  constructor
  · intro hget
    obtain ⟨row, hfirst, rfl⟩ := get_eq_some hget
    obtain ⟨hmem, hname, hversion⟩ := first_mem hfirst
    exact ⟨⟨row.id, catalogue_of_mem hs.inv hmem⟩, hname, hversion⟩
  · intro h
    obtain ⟨⟨u, hq⟩, rfl, rfl⟩ := h
    obtain ⟨row, hfirst, -, -, hread⟩ := hs.first order hq
    unfold get
    rw [hfirst, Option.map_some, hread]

theorem getById_eq_some_iff (hs : Shelved s) :
    getById order u s = some q ↔ catalogue s u = some q ∧ q.status ≠ .archived := by
  constructor
  · intro hget
    obtain ⟨row, hmem, rfl, hstatus, rfl⟩ := getById_eq_some hget
    exact ⟨catalogue_of_mem hs.inv hmem, hstatus⟩
  · intro ⟨hq, hstatus⟩
    cases hget : getById order u s with
    | none =>
      obtain ⟨row, hrow, rfl⟩ := exists_row hq
      obtain ⟨hmem, hid⟩ := row?_mem hrow
      have hnone := List.find?_eq_none.mp (Option.map_eq_none_iff.mp hget) row (mem_rows.mpr hmem)
      have hstatus : row.status ≠ .archived := hstatus
      simp [hid, hstatus] at hnone
    | some q' =>
      obtain ⟨row, hmem, rfl, -, rfl⟩ := getById_eq_some hget
      rw [← hq, catalogue_of_mem hs.inv hmem]

/-- The active pack that is found, if there is one. -/
theorem getActive_cases (order : RowOrder) (hs : Shelved s) (name : String) (region : Option String) :
    getActive order name region s = none ∧
        (∀ u q, catalogue s u = some q → ¬q.ActiveIn name region) ∨
      ∃ u q, catalogue s u = some q ∧ getActive order name region s = some q ∧
        q.ActiveIn name region := by
  cases hget : getActive order name region s with
  | none => exact .inl ⟨rfl, fun u q hq => (lawful order).getActive_none hs.inv hget hq⟩
  | some q =>
    right
    obtain ⟨row, hrow, rfl⟩ := Option.map_eq_some_iff.mp hget
    have hfound := List.find?_some hrow
    simp only [Bool.and_eq_true, beq_iff_eq] at hfound
    have hmem := mem_rows.mp (List.mem_of_find?_eq_some hrow)
    exact ⟨row.id, _, catalogue_of_mem hs.inv hmem, rfl, hfound.1.2, hfound.1.1, hfound.2⟩

/-- The rows have names and versions of their own. -/
theorem Shelved.rows_pairwise (hs : Shelved s) :
    (order.rows s.ruleSets).Pairwise fun a b =>
      (toDomain s a).nameVersion ≠ (toDomain s b).nameVersion := by
  have hids : s.ruleSets.Pairwise fun a b => a.id ≠ b.id := List.pairwise_map.mp hs.inv.nodup
  have hkeys : s.ruleSets.Pairwise fun a b =>
      (toDomain s a).nameVersion ≠ (toDomain s b).nameVersion := by
    apply hids.imp_of_mem
    intro a b ha hb hne hkey
    exact hne (hs.distinct _ _ _ _ (catalogue_of_mem hs.inv ha) (catalogue_of_mem hs.inv hb) hkey)
  exact ((order.perm s.ruleSets).pairwise_iff fun hab => hab.symm).mpr hkeys

theorem listVersions_pairwise (hs : Shelved s) (name : String) :
    (listVersions order name s).Pairwise fun a b => a.version < b.version := by
  apply PyList.pairwise_lt_insertionSort RulePack.version
  rw [List.pairwise_map, List.pairwise_filter]
  refine hs.rows_pairwise.imp ?_
  intro a b hne ha hb hversion
  rw [beq_iff_eq] at ha hb
  apply hne
  show toLex (a.name, a.version) = toLex (b.name, b.version)
  have hversion : a.version = b.version := hversion
  rw [ha, hb, hversion]

/-- The list of all packs is that of the catalogue, sorted strictly. -/
theorem listAll_pairwise (order : RowOrder) (hs : Shelved s) (limit : Nat) :
    ∃ all : List RulePack, listAll order none none true limit 0 s = all.take limit ∧
      (∀ q, q ∈ all ↔ ∃ u, catalogue s u = some q) ∧
      all.Pairwise fun a b => a.nameVersion < b.nameVersion := by
  refine ⟨_, rfl, fun q => ?_, PyList.pairwise_lt_insertionSort RulePack.nameVersion ?_⟩
  · simp only [List.drop_zero, List.mem_insertionSort, if_true, List.mem_map, mem_rows]
    constructor
    · intro h
      obtain ⟨row, hmem, rfl⟩ := h
      exact ⟨row.id, catalogue_of_mem hs.inv hmem⟩
    · intro h
      obtain ⟨u, hq⟩ := h
      obtain ⟨row, hrow, rfl⟩ := exists_row hq
      exact ⟨row, (row?_mem hrow).1, rfl⟩
  · rw [List.pairwise_map]
    exact hs.rows_pairwise

/-! ### Writes -/

/-- Rules as a save stores them without a change: new, with codes of their own, and without
    empty exceptions clauses. -/
structure Storable (rules : List Rule) : Prop where
  new : ∀ rule ∈ rules, rule.id = none
  plain : ∀ rule ∈ rules, ruleToDomain rule = rule
  codes : (rules.map Rule.ruleCode).Nodup

/-- Rules with codes of their own, as they are stored, show the same. -/
theorem shown_of_stored {rules stored : List Rule} (hplain : ∀ rule ∈ rules, ruleToDomain rule = rule)
    (h : List.Forall₂ StoredRule rules stored) : stored.map Rule.shown = rules.map Rule.shown := by
  induction h with
  | nil => rfl
  | @cons rule rule' rules stored hrule _ ih =>
    rw [List.map_cons, List.map_cons, ih fun r hr => hplain r (List.mem_cons_of_mem _ hr), hrule,
      hplain rule List.mem_cons_self]
    rfl

theorem codes_of_stored {rules stored : List Rule} (h : List.Forall₂ StoredRule rules stored) :
    stored.map Rule.ruleCode = rules.map Rule.ruleCode := by
  induction h with
  | nil => rfl
  | cons hrule _ ih =>
    rw [List.map_cons, List.map_cons, ih, hrule]
    rfl

theorem ownCodes_of_nodup {rules : List Rule} (h : (rules.map Rule.ruleCode).Nodup) :
    OwnCodes rules := by
  intro r hr r' hr' heq
  rw [List.inj_on_of_nodup_map h hr hr' heq]

/-- A save returns the pack it was given, under the identifier of the row. -/
theorem shown_of_save {r : RulePack} (h : save order p s = .ok (r, t)) : r.shown = p.shown := by
  unfold save at h
  split at h
  · obtain ⟨_, -, h⟩ := Except.bind_ok_iff.mp h
    obtain ⟨_, -, h⟩ := Except.bind_ok_iff.mp h
    rw [Except.pure_ok_iff] at h
    cases h
    rfl
  · obtain ⟨_, -, h⟩ := Except.bind_ok_iff.mp h
    rw [Except.pure_ok_iff] at h
    cases h
    rfl

/-- The row of a new pack has no tenant, and as its parent the row found by the name and the
    parent version. -/
private theorem saveNew_table {r : RulePack} (h : saveNew order p s = .ok (r, t)) :
    ∃ row, t.ruleSets = s.ruleSets ++ [row] ∧ row.tenantId = none ∧
      row.parentVersionId = (do
        let parent ← PostgresRulePackRepository.first order p.name (← p.parentVersion) s
        return parent.id) := by
  obtain ⟨htable, -⟩ := rulesToOrm_spec p.rules (uuid4 s).2
  obtain ⟨rules, hflush, h⟩ := Except.bind_ok_iff.mp h
  have hsets : (rulesToOrm p.rules (uuid4 s).2).2.ruleSets = s.ruleSets := by
    rw [htable]
    rfl
  have ht := congrArg Prod.snd (Except.ok.inj h)
  simp only at ht
  rw [← ht]
  refine ⟨_, congrArg (fun table => table ++ [_]) hsets, ?_, ?_⟩
  · rfl
  · rfl

/-- A new pack without a tenant is saved, when its rules are storable and its parent exists. -/
theorem saveNew_puts (order : RowOrder) (hs : Shelved s) (hid : p.id = none)
    (hfree : ∀ u q, catalogue s u = some q → q.nameVersion ≠ p.nameVersion)
    (hrules : Storable p.rules) (htenant : p.tenantId = none)
    (hparent : ∀ version, p.parentVersion = some version →
      ∃ u q, catalogue s u = some q ∧ q.name = p.name ∧ q.version = version) :
    ∃ r t q, save order p s = .ok (r, t) ∧ Shelved t ∧ r.shown = p.shown ∧ q.shown = p.shown ∧
      (catalogue s).Puts q (catalogue t) := by
  have hnone : PostgresRulePackRepository.first order p.name p.version s = none := by
    cases hfirst : PostgresRulePackRepository.first order p.name p.version s with
    | none => rfl
    | some row =>
      obtain ⟨hmem, hname, hversion⟩ := first_mem hfirst
      apply absurd _ (hfree _ _ (catalogue_of_mem hs.inv hmem))
      show toLex (row.name, row.version) = toLex (p.name, p.version)
      rw [hname, hversion]
  have hlisted : ∀ q ∈ listVersions order p.name s, q.version ≠ p.version := by
    intro q hq hversion
    obtain ⟨row, hmem, hname, rfl⟩ := mem_listVersions.mp hq
    apply hfree _ _ (catalogue_of_mem hs.inv hmem)
    show toLex (row.name, row.version) = toLex (p.name, p.version)
    have hversion : row.version = p.version := hversion
    rw [hname, hversion]
  obtain ⟨r, t, hsave⟩ := (savesNew order s p hs.inv hrules.new hid hlisted).mpr hrules.codes
  have hsave : save order p s = .ok (r, t) := hsave
  have hnew : saveNew order p s = .ok (r, t) := by
    rw [save, hnone] at hsave
    exact hsave
  obtain ⟨row, hrowid, -, hr, hname, hversion, hstatus, hregion, -, hstored, hversions, htable, hInv,
    hcatalogue⟩ := saveNew_effect hs.inv hnew
  obtain ⟨row', htable', htenant', hparentId⟩ := saveNew_table hnew
  obtain rfl : row' = row := by
    rw [htable] at htable'
    exact (List.singleton_inj.mp (List.append_cancel_left htable')).symm
  have hkey : (toDomain t row').nameVersion = p.nameVersion := by
    show toLex (row'.name, row'.version) = toLex (p.name, p.version)
    rw [hname, hversion]
  -- the parent version is read off the parent's row
  have hparentVersion : (toDomain t row').parentVersion = p.parentVersion := by
    cases hversion' : p.parentVersion with
    | none =>
      cases hread : (toDomain t row').parentVersion with
      | none => rfl
      | some version =>
        rw [hversions version hread] at hversion'
        cases hversion'
    | some version =>
      obtain ⟨u, q, hq, hqname, hqversion⟩ := hparent version hversion'
      obtain ⟨parent, hfirst, hmem, -, -⟩ := hs.first order hq
      rw [hqname, hqversion] at hfirst
      have hpid : row'.parentVersionId = some parent.id := by
        rw [hparentId, hversion']
        simp [hfirst]
      have hrow : row? parent.id t = some parent := by
        rw [row?_eq_some_iff hInv, htable]
        exact ⟨List.mem_append_left _ hmem, rfl⟩
      show resolveParentVersion row'.parentVersionId t = some version
      unfold resolveParentVersion
      rw [hpid]
      simp [hrow, (first_mem hfirst).2.2]
  have hshown : (toDomain t row').shown = p.shown := by
    unfold RulePack.shown
    rw [ShownPack.mk.injEq]
    refine ⟨hname, hversion, hstatus, hregion, ?_, hparentVersion, ?_⟩
    · rw [htenant]
      exact htenant'
    · exact shown_of_stored hrules.plain hstored
  have hput : (catalogue s).Puts (toDomain t row') (catalogue t) := by
    rw [hcatalogue]
    apply Catalogue.Puts.of_put hs.distinct
    · intro q hq
      obtain ⟨old, hold, -⟩ := exists_row hq
      have hlt := hs.inv.bound old (row?_mem hold).1
      rw [(row?_mem hold).2, hrowid] at hlt
      exact absurd hlt (lt_irrefl _)
    · intro v q hq hsame
      exact absurd (hsame.trans hkey) (hfree v q hq)
  refine ⟨r, t, _, hsave, ⟨hInv, hput.distinct, fun v q hq => ?_⟩, ?_, hshown, hput⟩
  · rw [hcatalogue] at hq
    rcases Catalogue.put_eq_some hq with ⟨-, rfl⟩ | ⟨-, hq⟩
    · apply ownCodes_of_nodup
      have hcodes : (toDomain t row').rules.map Rule.ruleCode = p.rules.map Rule.ruleCode :=
        codes_of_stored hstored
      rw [hcodes]
      exact hrules.codes
    · exact hs.codes v q hq
  · rw [hr]
    rfl

/-- Saving over a pack keeps the store as it should be. -/
private theorem Shelved.put (hs : Shelved s) (hInv : Inv t) {old : RulePack}
    (hold : catalogue s u = some old) (hkey : q.nameVersion = old.nameVersion)
    (ht : catalogue t = (catalogue s).put u q) (hcodes : OwnCodes q.rules) :
    Shelved t ∧ (catalogue s).Puts q (catalogue t) := by
  have hputs : (catalogue s).Puts q (catalogue t) := by
    rw [ht]
    exact .of_change hs.distinct hold hkey
  refine ⟨⟨hInv, hputs.distinct, fun v r hr => ?_⟩, hputs⟩
  rw [ht] at hr
  rcases Catalogue.put_eq_some hr with ⟨-, rfl⟩ | ⟨-, hr⟩
  · exact hcodes
  · exact hs.codes v r hr

/-- No other row has the name and version of a pack. -/
private theorem Shelved.own_key (hs : Shelved s) {row : RuleSetRow} (hmem : row ∈ s.ruleSets) :
    ∀ r ∈ s.ruleSets, r.name = row.name → r.version = row.version → r.id = row.id := by
  intro r hr hname hversion
  apply hs.distinct _ _ _ _ (catalogue_of_mem hs.inv hr) (catalogue_of_mem hs.inv hmem)
  show toLex (r.name, r.version) = toLex (row.name, row.version)
  rw [hname, hversion]

/-- A pack is saved over one of its name and version, when it has its tenant and parent, and
    its storable rules have none of its codes. -/
theorem overwrite_puts (order : RowOrder) (hs : Shelved s) {old : RulePack}
    (hold : catalogue s u = some old) (hname : old.name = p.name) (hversion : old.version = p.version)
    (hrules : Storable p.rules) (hcodes : ∀ rule ∈ p.rules, ∀ r ∈ old.rules, r.ruleCode ≠ rule.ruleCode)
    (htenant : p.tenantId = old.tenantId) (hparent : p.parentVersion = old.parentVersion) :
    ∃ r t q, save order p s = .ok (r, t) ∧ Shelved t ∧ r.shown = p.shown ∧ q.shown = p.shown ∧
      (catalogue s).Puts q (catalogue t) := by
  obtain ⟨row, hfirst, hmem, rfl, rfl⟩ := hs.first order hold
  have hname : row.name = p.name := hname
  have hversion : row.version = p.version := hversion
  obtain ⟨hnewcodes, hnewids, -⟩ := rulesToOrm_new hrules.new s
  -- the new rows clash neither with the old ones nor among themselves
  have hfree : FreeCodes row.rules (rulesToOrm p.rules s).1 := by
    have hown : OwnCodes (rulesToOrm p.rules s).1 := ownCodes_of_nodup (hnewcodes ▸ hrules.codes)
    intro r hr rule hrule heq
    rcases List.mem_append.mp hr with hr | hr
    · -- an old rule has no new code
      have hcode : rule.ruleCode ∈ p.rules.map Rule.ruleCode := hnewcodes ▸ List.mem_map_of_mem hrule
      obtain ⟨rule', hrule', hsame⟩ := List.mem_map.mp hcode
      have hread : ruleToDomain r ∈ (toDomain s row).rules := List.mem_map_of_mem hr
      exact absurd (heq.trans hsame.symm) (hcodes rule' hrule' (ruleToDomain r) hread)
    · exact hown r hr rule hrule heq
  obtain ⟨⟨r, t⟩, hexisting⟩ := saveExisting_succeeds hfree (hs.own_key hmem)
  have hsave : save order p s = .ok (r, t) := by
    have hfirst : PostgresRulePackRepository.first order row.name row.version s = some row := hfirst
    rw [hname, hversion] at hfirst
    unfold save
    simp only [hfirst, hexisting]
  obtain ⟨row', hid, hname', hversion', htenant', hparent', hstatus, hregion, -, -, hstored, -, -, -,
    hInv, ht⟩ := saveExisting_effect hs.inv hmem hexisting
  -- the row keeps its key, so it replaces what was under it
  have hkey : (toDomain s row').nameVersion = (toDomain s row).nameVersion := by
    show toLex (row'.name, row'.version) = toLex (row.name, row.version)
    rw [hname', hversion']
  have hown : OwnCodes (toDomain s row').rules := by
    apply ownCodes_of_nodup
    have hsame : (toDomain s row').rules.map Rule.ruleCode = p.rules.map Rule.ruleCode :=
      codes_of_stored hstored
    rw [hsame]
    exact hrules.codes
  obtain ⟨ht', hputs⟩ := hs.put hInv hold hkey ht hown
  refine ⟨r, t, _, hsave, ht', shown_of_save hsave, ?_, hputs⟩
  · unfold RulePack.shown
    rw [ShownPack.mk.injEq]
    refine ⟨hname'.trans hname, hversion'.trans hversion, hstatus, hregion, ?_, ?_, ?_⟩
    · rw [htenant]
      exact htenant'
    · rw [hparent]
      show resolveParentVersion row'.parentVersionId s = resolveParentVersion row.parentVersionId s
      rw [hparent']
    · exact shown_of_stored hrules.plain hstored

/-- A pack that was read is saved under its name and version, when its rules have codes of their
    own; tenant and parent stay those of the row. -/
theorem saveEdited_puts (order : RowOrder) (hs : Shelved s) (hq : catalogue s u = some q)
    (hname : q.name = p.name) (hversion : q.version = p.version)
    (hids : ∀ rule ∈ p.rules, rule.id.isSome = true) (hcodes : FreeCodes q.rules p.rules) :
    ∃ r t q', save order p s = .ok (r, t) ∧ Shelved t ∧ r.shown = p.shown ∧
      q' = { q with
        status := p.status, region := p.region, createdBy := p.createdBy
        rules := p.rules.map ruleToDomain, lockVersion := q'.lockVersion } ∧
      (catalogue s).Puts q' (catalogue t) := by
  have halone : ∀ v q', catalogue s v = some q' → q'.name = p.name → q'.version = p.version →
      v = u ∧ q'.rules = q.rules := by
    intro v q' hq' hname' hversion'
    have hvu : v = u := by
      apply hs.distinct v u q' q hq' hq
      unfold RulePack.nameVersion
      rw [hname', hversion', hname, hversion]
    rw [hvu, hq] at hq'
    cases hq'
    exact ⟨hvu, rfl⟩
  have hread : q.name = RulePack.name { p with rules := q.rules } := hname
  obtain ⟨t, q', hwrite, hInv, ht, hq'⟩ :=
    save_undisturbed order hs.inv hq hread hversion halone hids hcodes
  obtain ⟨⟨r, t'⟩, hsave, hpair⟩ := Except.bind_ok_iff.mp hwrite
  rw [Except.pure_ok_iff] at hpair
  cases hpair
  have hkey : q'.nameVersion = q.nameVersion := by
    rw [hq']
    rfl
  have hown : OwnCodes q'.rules := by
    rw [hq']
    intro a ha b hb heq
    obtain ⟨a', ha', rfl⟩ := List.mem_map.mp ha
    obtain ⟨b', hb', rfl⟩ := List.mem_map.mp hb
    exact hcodes a' (List.mem_append_right _ ha') b' hb' heq
  obtain ⟨ht', hputs⟩ := hs.put hInv hq hkey ht hown
  exact ⟨r, t, q', hsave, ht', shown_of_save hsave, hq', hputs⟩

/-- An update by identifier raises without its pack or with a stale lock version, and changes
    the row of the pack otherwise. -/
theorem updateById_cases (hs : Shelved s) (lock : Option Nat) (f : RuleSetRow → Bool × RuleSetRow)
    (hf : ∀ row, (f row).2.id = row.id ∧ (f row).2.version = row.version ∧
      (f row).2.parentVersionId = row.parentVersionId ∧ (f row).2.rules = row.rules) :
    (catalogue s u = none → ∃ e, updateById u lock f s = .error e) ∧
    ∀ q, catalogue s u = some q → (¬LockMatches lock q → ∃ e, updateById u lock f s = .error e) ∧
      (LockMatches lock q → ∃ row, toDomain s row = q ∧ ((f row).2.name = row.name →
        ∃ r t, updateById u lock f s = .ok (r, t) ∧ Shelved t ∧
          r = { toDomain s (f row).2 with lockVersion := r.lockVersion } ∧
          (catalogue s).Puts r (catalogue t))) := by
  constructor
  · intro hnone
    have hrow : row? u s = none := Option.map_eq_none_iff.mp hnone
    unfold updateById
    rw [hrow]
    exact ⟨_, rfl⟩
  · intro q hq
    obtain ⟨row, hrow, rfl⟩ := exists_row hq
    obtain ⟨hmem, rfl⟩ := row?_mem hrow
    constructor
    · intro hstale
      unfold updateById
      rw [hrow]
      cases hcheck : checkLock (some row.id) row.lockVersion lock with
      | ok => exact absurd (checkLock_ok_iff.mp hcheck) hstale
      | error e =>
        simp only [hcheck]
        exact ⟨e, rfl⟩
    · intro hlock
      refine ⟨row, rfl, fun hname => ?_⟩
      obtain ⟨hid, hversion, hparent, hrules⟩ := hf row
      -- the name and version are still the pack's own
      have hcommit : ∃ result, commitRow (f row).1 (f row).2 s = .ok result := by
        apply commitRow_succeeds
        intro r hr hrname hrversion
        rw [hid]
        exact hs.own_key hmem r hr (hrname.trans hname) (hrversion.trans hversion)
      obtain ⟨⟨r, t⟩, hupdate⟩ : ∃ result, updateById row.id lock f s = .ok result := by
        obtain ⟨result, hcommit⟩ := hcommit
        unfold updateById
        rw [hrow]
        simp only [show checkLock (some row.id) row.lockVersion lock = .ok () from
          checkLock_ok_iff.mpr hlock]
        apply Except.exists_bind_ok rfl
        apply Except.exists_bind_ok hcommit
        exact ⟨_, rfl⟩
      obtain ⟨row₀, row', hread, hmem₀, hid₀, -, hrow', -, hInv, ht⟩ :=
        updateById_effect hs.inv hq hf hupdate
      obtain rfl : row₀ = row := by
        have hfound := (row?_eq_some_iff hs.inv).mpr ⟨hmem₀, hid₀⟩
        rw [hrow] at hfound
        exact (Option.some.inj hfound).symm
      have hr : r = toDomain s row' := by
        have hnow := updateById_returns (fun row => (hf row).1) hInv hupdate
        rw [ht, Catalogue.put_self] at hnow
        exact (Option.some.inj hnow).symm
      have hkey : (toDomain s row').nameVersion = (toDomain s row₀).nameVersion := by
        show toLex (row'.name, row'.version) = toLex (row₀.name, row₀.version)
        rw [hrow']
        split
        · rw [hname, hversion]
        · rw [hname, hversion]
      have hown : OwnCodes (toDomain s row').rules := by
        have hsame : (toDomain s row').rules = (toDomain s row₀).rules := by
          show row'.rules.map ruleToDomain = row₀.rules.map ruleToDomain
          rw [hrow', ← hrules]
          split
          · rfl
          · rfl
        rw [hsame]
        exact hs.codes row₀.id _ hq
      obtain ⟨hshelved, hputs⟩ := hs.put hInv hq hkey ht hown
      refine ⟨r, t, hupdate, hshelved, ?_, hr ▸ hputs⟩
      rw [hr, hrow']
      split
      · rfl
      · rfl

/-- An activation raises without its pack or with a stale lock version. -/
theorem activate_cases (order : RowOrder) (hs : Shelved s) (name : String) (version : Int)
    (lock : Option Nat) :
    (get order name version s = none → ∃ e, activate order name version lock s = .error e) ∧
    ∀ q, get order name version s = some q →
      (¬LockMatches lock q → ∃ e, activate order name version lock s = .error e) ∧
      (LockMatches lock q → ∃ r t u, activate order name version lock s = .ok (r, t) ∧ Shelved t ∧
        catalogue s u = some q ∧ r = { q with status := .active, lockVersion := r.lockVersion } ∧
        catalogue t = (catalogue s).activate name u r) := by
  constructor
  · intro hnone
    have hfirst : PostgresRulePackRepository.first order name version s = none := Option.map_eq_none_iff.mp hnone
    unfold activate
    rw [hfirst]
    exact ⟨_, rfl⟩
  · intro q hget
    obtain ⟨row, hfirst, rfl⟩ := get_eq_some hget
    obtain ⟨hmem, hname, hversion⟩ := first_mem hfirst
    have hq := catalogue_of_mem hs.inv hmem
    constructor
    · intro hstale
      unfold activate
      rw [hfirst]
      cases hcheck : checkLock (some row.id) row.lockVersion lock with
      | ok => exact absurd (checkLock_ok_iff.mp hcheck) hstale
      | error e =>
        simp only [hcheck]
        exact ⟨e, rfl⟩
    · intro hlock
      obtain ⟨t, hsets, hactivate⟩ : ∃ t : PostgresStore,
          t.ruleSets = s.ruleSets.map (activateRow name row.id) ∧
          activate order name version lock s = .ok (toDomain t (activateRow name row.id row), t) := by
        unfold activate
        rw [hfirst]
        simp only [show checkLock (some row.id) row.lockVersion lock = .ok () from
          checkLock_ok_iff.mpr hlock]
        exact ⟨_, rfl, rfl⟩
      obtain ⟨hInv, -, heffect⟩ := activate_effect none hs.inv hactivate
      obtain ⟨target, htarget, hnow⟩ := activate_returns hInv hactivate
      cases hfirst.symm.trans htarget
      cases heffect with
      | @activate p q _ u _ _ _ _ hp hunder _ hq' _ ht =>
        obtain ⟨q', hget', hid⟩ := hunder
        have hget' : get order name version s = some q' := hget'
        rw [hget] at hget'
        cases hget'
        have hu : row.id = u := Option.some.inj hid
        subst hu
        have hp : catalogue s row.id = some p := hp
        rw [hq] at hp
        cases hp
        have ht : catalogue t = (catalogue s).activate name row.id q := ht
        have hr : toDomain t (activateRow name row.id row) = q := by
          rw [ht, Catalogue.activate_self] at hnow
          exact (Option.some.inj hnow).symm
        rw [hr] at hactivate
        have hdistinct : (catalogue t).Distinct := by
          rw [ht]
          apply hs.distinct.activate hq
          rw [hq']
          rfl
        refine ⟨q, t, row.id, hactivate, ⟨hInv, hdistinct, fun v p hp => ?_⟩, hq, hq', ht⟩
        rw [ht] at hp
        rcases Catalogue.activate_eq_some hp with ⟨-, rfl⟩ | ⟨-, p₀, hp₀, rfl⟩
        · have hrules : p.rules = (toDomain s row).rules := by rw [hq']
          rw [hrules]
          exact hs.codes row.id _ hq
        · have hrules : (Catalogue.deprecateNamed name p₀).rules = p₀.rules := by
            unfold Catalogue.deprecateNamed
            split
            · rfl
            · rfl
          rw [hrules]
          exact hs.codes v p₀ hp₀

end PostgresRulePackRepository

end PulseGuard
