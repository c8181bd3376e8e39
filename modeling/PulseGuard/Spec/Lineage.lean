import PulseGuard.ForStd.Acyclic
import PulseGuard.Spec.PostgresCorrect
import PulseGuard.Spec.StoreCoherent

/-!
# The lineage of a name

A rollback moves from a version of a name to the parent version of its pack. As long as no
pack takes a version that its parent leads back to, in either backend, no such walk returns to
a version it has visited (`lineage_acyclic`). `lineage_cycle` renames a Draft away, so that its
version is given out again to a descendant.
-/

namespace PulseGuard

open Run Acyclic

variable {σ ρ : Type}

/-- The packs of a name and version: what `get` finds, and what `list_versions` shows. -/
def PackOf (repo : RulePackRepository σ ρ) (s : σ) (name : String) (version : Int) (ref : ρ) :
    Prop :=
  repo.get name version s = some ref ∨
    ref ∈ repo.listVersions name s ∧ (repo.pack s ref).version = version

/-- A move of a rollback, from a version of a name to the parent version of a pack of it. -/
def ParentOf (repo : RulePackRepository σ ρ) (s : σ) (name : String) (version parent : Int) :
    Prop :=
  ∃ ref, PackOf repo s name version ref ∧ (repo.pack s ref).parentVersion = some parent

/-- The lineage that a write gives to a version of a name: that of a new pack, or of a pack
    which metadata move under the name. -/
def Write.Gives (c : Catalogue) (name : String) (version parent : Int) : Write → Prop
  | .saveNew p => p.name = name ∧ p.version = version ∧ p.parentVersion = some parent
  | .updateMetadata u _ fields => ∃ p, c u = some p ∧
    (fields.foldl PackAttr.set p).name = name ∧ p.version = version ∧
    p.parentVersion = some parent
  | _ => False

/-- The condition on a write: metadata updates are about metadata, and the parent that a pack
    brings to a version does not lead back to that version. -/
def KeepsLineage (repo : RulePackRepository σ ρ) (V : StoreView σ) (s : σ) (w : Write) : Prop :=
  (∀ u lock fields, w = .updateMetadata u lock fields → V.inPlace →
    fields.all PackAttr.isMetadata = true) ∧
  ∀ name version parent, w.Gives (V.catalogue s) name version parent →
    ¬Relation.ReflTransGen (ParentOf repo s name) parent version

/-! ## Any repository -/

section

variable {repo : RulePackRepository σ ρ} {V : StoreView σ} (L : Lawful repo V)

/-- Every move after a write was one before it, or is given by the write. -/
def MovesKept : Prop :=
  ∀ s w t, L.Inv s → L.Performs s w t →
    ∀ name version parent, ParentOf repo t name version parent →
      ParentOf repo s name version parent ∨ w.Gives (V.catalogue s) name version parent

variable {L}

/-- A write gives at most one move to each name. -/
theorem Write.Gives.unique {c : Catalogue} {w : Write} {name : String} {v v' p p' : Int}
    (h : w.Gives c name v p) (h' : w.Gives c name v' p') : v = v' ∧ p = p' := by
  cases w with
  | saveNew q =>
    exact ⟨h.2.1.symm.trans h'.2.1, Option.some.inj (h.2.2.symm.trans h'.2.2)⟩
  | updateMetadata u lock fields =>
    obtain ⟨q, hq, -, hversion, hparent⟩ := h
    obtain ⟨q', hq', -, hversion', hparent'⟩ := h'
    cases hq.symm.trans hq'
    exact ⟨hversion.symm.trans hversion', Option.some.inj (hparent.symm.trans hparent')⟩
  | _ => exact absurd h id

/-- What a write that keeps to the condition leaves of the lineages. -/
theorem terminating_of_performs (hmoves : MovesKept L) {s t : σ} {w : Write} (hInv : L.Inv s)
    (h : L.Performs s w t) (hkeeps : KeepsLineage repo V s w)
    (hs : ∀ name, Terminating (ParentOf repo s name)) (name : String) :
    Terminating (ParentOf repo t name) := by
  have hstep := hmoves s w t hInv h name
  by_cases hgives : ∃ version parent, w.Gives (V.catalogue s) name version parent
  · obtain ⟨version, parent, hgives⟩ := hgives
    refine (hs name).addStep (fun x y hxy => ?_) (hkeeps.2 name version parent hgives)
    exact (hstep x y hxy).imp_right fun hnew => hnew.unique hgives
  · refine (hs name).mono fun x y hxy => ?_
    rcases hstep x y hxy with hold | hnew
    · exact hold
    · exact absurd ⟨x, y, hnew⟩ hgives

/-- In a run of calls whose writes keep to the condition, from a store without lineages. -/
theorem terminating_of_calls (hmoves : MovesKept L) {calls : List Call} {app : App σ}
    (hInv : L.Inv app.repository)
    (hempty : ∀ name version parent, ¬ParentOf repo app.repository name version parent)
    (hkeeps : CallsEach repo (KeepsLineage repo V) calls app) (name : String) :
    Terminating (ParentOf repo (runCalls repo calls app).repository name) := by
  have hmeta : ∀ s u lock fields, KeepsLineage repo V s (.updateMetadata u lock fields) →
      V.inPlace → fields.all PackAttr.isMetadata = true :=
    fun _ u lock fields h => h.1 u lock fields rfl
  obtain ⟨-, hrun⟩ := L.runCalls_performs hmeta hInv hkeeps
  refine (hrun.invariant (fun s => L.Inv s ∧ ∀ name, Terminating (ParentOf repo s name)) ?_ ?_).2
    name
  · rintro s w t hperforms ⟨hInv, hkeeps⟩ ⟨-, hs⟩
    exact ⟨(hperforms.step hInv).1, terminating_of_performs hmoves hInv hperforms hkeeps hs⟩
  · refine ⟨hInv, fun name => ⟨fun version => .intro version fun parent hmove => ?_⟩⟩
    exact absurd hmove (hempty name version parent)

end

/-! ## In memory -/

namespace InMemoryRulePackRepository

variable {s t : InMemoryStore}

/-- The packs of a key: the one stored under it, and the stored packs of its name and
    version. -/
def At (s : InMemoryStore) (key : String × Int) (ref : PackRef) : Prop :=
  s.store.get? key = some ref ∨ ref ∈ refs s ∧ keyOf (s.objects ref) = key

theorem packOf_iff {name : String} {version : Int} {ref : PackRef} :
    PackOf inMemoryRulePackRepository s name version ref ↔ At s (name, version) ref := by
  unfold PackOf At
  refine or_congr Iff.rfl ?_
  change ref ∈ listVersions name s ∧ (s.objects ref).version = version ↔ _
  rw [mem_listVersions, keyOf, Prod.mk.injEq, and_assoc]

/-- Another pack than the one that a save puts under a key. -/
theorem At.of_set {key k : String × Int} {ref r : PackRef} (h : At t k ref)
    (hstore : t.store = s.store.set key r) (hr : ref ≠ r)
    (hkey : keyOf (t.objects ref) = keyOf (s.objects ref)) : At s k ref := by
  rcases h with hget | ⟨hmem, hkey'⟩
  · left
    rw [hstore, Dict.get?_set] at hget
    split at hget
    · exact absurd (Option.some.inj hget).symm hr
    · exact hget
  · right
    refine ⟨?_, hkey.symm.trans hkey'⟩
    unfold refs at hmem ⊢
    rw [hstore, Dict.mem_values_set] at hmem
    rcases hmem with hsame | ⟨k', -, hget⟩
    · exact absurd hsame hr
    · exact (Dict.mem_values_iff s.store).mpr ⟨k', hget⟩

theorem At.of_store {k : String × Int} {ref : PackRef} (h : At t k ref)
    (hstore : t.store = s.store) (hkey : keyOf (t.objects ref) = keyOf (s.objects ref)) :
    At s k ref := by
  unfold At refs at h ⊢
  rw [hstore, hkey] at h
  exact h

/-- A pack that a save does not move to another key stays at its keys. -/
theorem At.of_set_self {k : String × Int} {ref : PackRef} (h : At t k ref) (hmem : ref ∈ refs s)
    (hstore : t.store = s.store.set (keyOf (s.objects ref)) ref)
    (hkey : keyOf (t.objects ref) = keyOf (s.objects ref)) : At s k ref := by
  rcases h with hget | ⟨-, hkey'⟩
  · rw [hstore, Dict.get?_set] at hget
    split at hget
    · rename_i hk
      exact Or.inr ⟨hmem, hk⟩
    · exact Or.inl hget
  · exact Or.inr ⟨hmem, hkey.symm.trans hkey'⟩

theorem movesKept : MovesKept lawful := by
  intro s w t hInv hperforms name version parent h
  obtain ⟨ref, hof, hparent⟩ := h
  rw [packOf_iff] at hof
  have hparent : (t.objects ref).parentVersion = some parent := hparent
  -- a pack that was at the key and had the parent made the move before
  have hold : At s (name, version) ref →
      (t.objects ref).parentVersion = (s.objects ref).parentVersion →
      ParentOf inMemoryRulePackRepository s name version parent :=
    fun hat hsame => ⟨ref, packOf_iff.mpr hat, hsame.symm.trans hparent⟩
  cases wrote_of_performs hperforms with
  | @saveNew p hfree hstore hobjects =>
    by_cases hr : ref = s.nextRef
    · right
      subst hr
      rw [hobjects, Function.update_self] at hparent
      have hkey : keyOf p = (name, version) := by
        rcases hof with hget | ⟨-, hkey⟩
        · rw [hstore, Dict.get?_set] at hget
          split at hget
          · assumption
          · exact absurd (hInv.allocated _ (mem_refs_of_get hget)) (Nat.lt_irrefl _)
        · rw [hobjects, Function.update_self] at hkey
          exact hkey
      simp only [keyOf, Prod.mk.injEq] at hkey
      exact ⟨hkey.1, hkey.2, hparent⟩
    · have hsame : t.objects ref = s.objects ref := by rw [hobjects, Function.update_of_ne hr]
      exact Or.inl (hold (hof.of_set hstore hr (by rw [hsame])) (by rw [hsame]))
  | @saveEdited ref' rules hmem hstore hobjects =>
    left
    by_cases hr : ref = ref'
    · subst hr
      have hsame : t.objects ref = { s.objects ref with rules } := by
        rw [hobjects, Function.update_self]
      exact hold (hof.of_set_self hmem hstore (by rw [hsame]; rfl)) (by rw [hsame])
    · have hsame : t.objects ref = s.objects ref := by rw [hobjects, Function.update_of_ne hr]
      exact hold (hof.of_set hstore hr (by rw [hsame])) (by rw [hsame])
  | @updateMetadata u lock fields ref' hget hmetadata hstore hobjects =>
    by_cases hr : ref = ref'
    · subst hr
      have hcatalogue : catalogue s u = some (s.objects ref) := by rw [catalogue, hget]; rfl
      obtain ⟨-, -, -, -, hversion', hparent'⟩ :=
        foldl_set_metadata fields hmetadata (s.objects ref)
      rw [hobjects, Function.update_self] at hparent
      have hparent := hparent'.symm.trans hparent
      rcases hof with hkey | ⟨-, hkey⟩
      · rw [hstore] at hkey
        exact Or.inl ⟨ref, Or.inl hkey, hparent⟩
      · right
        rw [hobjects, Function.update_self] at hkey
        simp only [keyOf, Prod.mk.injEq] at hkey
        exact ⟨_, hcatalogue, hkey.1, hversion'.symm.trans hkey.2, hparent⟩
    · have hsame : t.objects ref = s.objects ref := by rw [hobjects, Function.update_of_ne hr]
      exact Or.inl (hold (hof.of_store hstore (by rw [hsame])) (by rw [hsame]))
  | status hsave hstore hobjects =>
    have hsame := hobjects ref
    exact Or.inl (hold (hof.of_store hstore (by rw [hsame]; rfl)) (by rw [hsame]))

theorem no_moves_init (name : String) (version parent : Int) :
    ¬ParentOf inMemoryRulePackRepository init name version parent := by
  intro h
  obtain ⟨ref, hof, -⟩ := h
  rw [packOf_iff] at hof
  rcases hof with hget | ⟨hmem, -⟩
  · cases hget
  · cases hmem

end InMemoryRulePackRepository

/-! ## Postgres -/

namespace PostgresRulePackRepository

variable {order : RowOrder} {s t : PostgresStore}

/-- A pack is of a name and version when a row reads as it. -/
theorem exists_of_packOf (hInv : Inv s) {name : String} {version : Int} {p : RulePack}
    (h : PackOf (postgresRulePackRepository order) s name version p) :
    ∃ u, catalogue s u = some p ∧ p.name = name ∧ p.version = version := by
  rcases h with hget | ⟨hlisted, hversion⟩
  · obtain ⟨row, hfirst, rfl⟩ := get_eq_some hget
    obtain ⟨hmem, hname, hversion⟩ := first_mem hfirst
    exact ⟨row.id, catalogue_of_mem hInv hmem, hname, hversion⟩
  · obtain ⟨row, hmem, hname, rfl⟩ := mem_listVersions.mp hlisted
    exact ⟨row.id, catalogue_of_mem hInv hmem, hname, hversion⟩

theorem parentOf_of_catalogue {u : Uuid} {p : RulePack} {parent : Int}
    (hp : catalogue s u = some p) (hparent : p.parentVersion = some parent) :
    ParentOf (postgresRulePackRepository order) s p.name p.version parent := by
  obtain ⟨row, hrow, rfl⟩ := exists_row hp
  exact ⟨toDomain s row, Or.inr ⟨mem_listVersions.mpr ⟨row, (row?_mem hrow).1, rfl, rfl⟩, rfl⟩,
    hparent⟩

/-- A pack with the name, version and parent version that another one had. -/
def SamePlace (p q : RulePack) : Prop :=
  q.name = p.name ∧ q.version = p.version ∧ q.parentVersion = p.parentVersion

/-- What is neither a save nor an update of metadata leaves every pack in its place. -/
theorem samePlace_of_change {w : Write} (hsave : ¬w.IsSave)
    (hmeta : ∀ u lock fields, w ≠ .updateMetadata u lock fields) {v : Uuid} {p q : RulePack}
    (h : PackChange (postgresRulePackRepository order) view s w v p q) : SamePlace p q := by
  cases h with
  | edited => exact absurd trivial hsave
  | overwritten => exact absurd trivial hsave
  | metadata => exact absurd rfl (hmeta _ _ _)
  | activated hunder hlock hp' hbump =>
    rw [hp']
    exact ⟨rfl, rfl, rfl⟩
  | _ => exact ⟨rfl, rfl, rfl⟩

/-- The name that an update of metadata leaves. -/
theorem foldl_setColumn_name (fields : List PackAttr) (b : Bool) (row : RuleSetRow) (p : RulePack)
    (h : row.name = p.name) :
    (fields.foldl setColumn (b, row)).2.name = (fields.foldl PackAttr.set p).name := by
  induction fields generalizing b row p with
  | nil => exact h
  | cons attr rest ih =>
    rw [List.foldl_cons, List.foldl_cons]
    have hattr : (setColumn (b, row) attr).2.name = (PackAttr.set p attr).name := by
      cases attr with
      | region value => cases value <;> exact h
      | tenantId value => cases value <;> exact h
      | name value => rfl
      | _ => exact h
    exact ih (setColumn (b, row) attr).1 (setColumn (b, row) attr).2 (PackAttr.set p attr) hattr

/-- The place of a pack after a write: a new pack's, its own, or its own under a new name. -/
theorem place_of_performs {w : Write} (hInv : Inv s) (h : (lawful order).Performs s w t) {v : Uuid}
    {q : RulePack} (hq : catalogue t v = some q) :
    (∃ p, catalogue s v = some p ∧ SamePlace p q) ∨
      ∀ parent, q.parentVersion = some parent → w.Gives (catalogue s) q.name q.version parent := by
  have hstep := h.step hInv
  -- only saves and updates of metadata move a pack
  have hother : ¬w.IsSave → (∀ u lock fields, w ≠ .updateMetadata u lock fields) →
      ∃ p, catalogue s v = some p ∧ SamePlace p q := by
    intro hsave hmeta
    rcases hstep.2.sighting hq with ⟨p, rfl, -⟩ | ⟨p, hp, hchange⟩
    · exact absurd trivial hsave
    · exact ⟨p, hp, samePlace_of_change hsave hmeta hchange⟩
  cases h with
  | @saveNew p r _ hid hfree hsave =>
    have hsave : save order p s = .ok (r, t) := hsave
    have hnone := first_none_of_free hfree
    rw [save, hnone] at hsave
    obtain ⟨row, -, -, -, hname, hversion, -, -, -, -, hparent, -, -, ht⟩ :=
      saveNew_effect hInv hsave
    -- the row is the new one, with the parent it was given, or an older one
    rw [ht] at hq
    rcases Catalogue.put_eq_some hq with ⟨-, rfl⟩ | ⟨-, hold⟩
    · exact Or.inr fun parent hq => ⟨hname.symm, hversion.symm, hparent parent hq⟩
    · exact Or.inl ⟨q, hold, rfl, rfl, rfl⟩
  | @saveEdited s' _ p r u rules hs' hreads hdraft hsave =>
    left
    have hreads : catalogue s u = some p := hreads
    have hInv' : Inv s' := by
      rcases hs' with rfl | rfl
      · exact hInv
      · exact (lawful order).inv_uuid4 hInv
    have htable : s'.ruleSets = s.ruleSets := by rcases hs' with rfl | rfl <;> rfl
    -- the row that the save finds keeps its name, version and parent
    obtain ⟨own, hown, rfl⟩ := exists_row hreads
    have hown' : own ∈ s'.ruleSets := htable ▸ (row?_mem hown).1
    obtain ⟨row, hfirst⟩ := first_isSome order hown'
    have hsave : save order { toDomain s own with rules } s' = .ok (r, t) := hsave
    unfold save at hsave
    rw [show first order ({ toDomain s own with rules } : RulePack).name
      ({ toDomain s own with rules } : RulePack).version s' = some row from hfirst] at hsave
    have hrow := (first_mem hfirst).1
    obtain ⟨row', -, hname, hversion, -, hparent, -, -, -, -, -, -, -, -, -, ht⟩ :=
      saveExisting_effect hInv' hrow hsave
    have hsame : catalogue s' = catalogue s := by
      rcases hs' with rfl | rfl <;> rfl
    rw [ht] at hq
    rcases Catalogue.put_eq_some hq with ⟨rfl, rfl⟩ | ⟨-, hold⟩
    · refine ⟨toDomain s' row, hsame ▸ catalogue_of_mem hInv' hrow, hname, hversion, ?_⟩
      change resolveParentVersion row'.parentVersionId s' = _
      rw [hparent]
      rfl
    · exact ⟨q, hsame ▸ hold, rfl, rfl, rfl⟩
  | @updateMetadata p u lock fields r _ hp hdraft hmeta hupdate =>
    have hupdate : updateById u lock (fun row => fields.foldl setColumn (false, row)) s =
      .ok (r, t) := hupdate
    have hfold := foldl_setColumn fields false
    obtain ⟨row, row', rfl, hmem, rfl, -, hrow', -, -, ht⟩ := updateById_effect hInv hp
      (fun row => ⟨(hfold row).1, (hfold row).2.1, (hfold row).2.2.1, (hfold row).2.2.2.1⟩) hupdate
    obtain ⟨-, hversion, hparent, -⟩ := hfold row
    have hname := foldl_setColumn_name fields false row (toDomain s row) rfl
    -- the row gets the name that was sent, and keeps version and parent
    have hplace : row'.name = (fields.foldl PackAttr.set (toDomain s row)).name ∧
        row'.version = row.version ∧ row'.parentVersionId = row.parentVersionId := by
      rw [hrow']
      split <;> exact ⟨hname, hversion, hparent⟩
    rw [ht] at hq
    rcases Catalogue.put_eq_some hq with ⟨rfl, rfl⟩ | ⟨-, hold⟩
    · right
      intro parent hq
      refine ⟨toDomain s row, hp, hplace.1.symm, hplace.2.1.symm, ?_⟩
      have hq : resolveParentVersion row'.parentVersionId s = some parent := hq
      rw [hplace.2.2] at hq
      exact hq
    · exact Or.inl ⟨q, hold, rfl, rfl, rfl⟩
  | publish => exact Or.inl (hother id fun _ _ _ h => by cases h)
  | softDelete => exact Or.inl (hother id fun _ _ _ h => by cases h)
  | activate => exact Or.inl (hother id fun _ _ _ h => by cases h)
  | promoteToShadow => exact Or.inl (hother id fun _ _ _ h => by cases h)

theorem movesKept (order : RowOrder) : MovesKept (lawful order) := by
  intro s w t hInv hperforms name version parent h
  obtain ⟨q, hof, hparent⟩ := h
  obtain ⟨v, hq, rfl, rfl⟩ := exists_of_packOf (hperforms.step hInv).1 hof
  rcases place_of_performs hInv hperforms hq with ⟨p, hp, hname, hversion, hsame⟩ | hgives
  · left
    rw [hname, hversion]
    exact parentOf_of_catalogue hp (hsame.symm.trans hparent)
  · exact Or.inr (hgives parent hparent)

theorem no_moves_init (name : String) (version parent : Int) :
    ¬ParentOf (postgresRulePackRepository order) init name version parent := by
  intro h
  obtain ⟨p, hof, -⟩ := h
  obtain ⟨u, hp, -⟩ := exists_of_packOf inv_init hof
  cases hp

end PostgresRulePackRepository

/-! ## Both backends -/

open InMemoryRulePackRepository in
/-- As long as no pack takes a version that its parent leads back to, the walk from a version
    to the parent version of its pack ends, and never comes back to where it was. -/
theorem lineage_acyclic (order : RowOrder) (calls : List Call) :
    (CallsEach inMemoryRulePackRepository (KeepsLineage inMemoryRulePackRepository view)
        calls inMemoryStart →
      let s := (runCalls inMemoryRulePackRepository calls inMemoryStart).repository
      ∀ name, Terminating (ParentOf inMemoryRulePackRepository s name) ∧
        ∀ version, ¬Relation.TransGen (ParentOf inMemoryRulePackRepository s name)
          version version) ∧
      (CallsEach (postgresRulePackRepository order)
        (KeepsLineage (postgresRulePackRepository order) PostgresRulePackRepository.view)
        calls postgresStart →
      let s := (runCalls (postgresRulePackRepository order) calls postgresStart).repository
      ∀ name, Terminating (ParentOf (postgresRulePackRepository order) s name) ∧
        ∀ version, ¬Relation.TransGen (ParentOf (postgresRulePackRepository order) s name)
          version version) := by
  constructor
  · intro hkeeps s name
    have hstart : lawful.Inv inMemoryStart.repository := inv_init
    have h := terminating_of_calls movesKept hstart no_moves_init hkeeps name
    exact ⟨h, h.no_return⟩
  · intro hkeeps s name
    have hstart : (PostgresRulePackRepository.lawful order).Inv postgresStart.repository :=
      PostgresRulePackRepository.inv_init
    have h := terminating_of_calls (PostgresRulePackRepository.movesKept order) hstart
      PostgresRulePackRepository.no_moves_init hkeeps name
    exact ⟨h, h.no_return⟩

open InMemoryRulePackRepository in
/-- Two versions, the second with the first as its parent. -/
theorem lineage_acyclic_two :
    let s := (runCalls inMemoryRulePackRepository [createPlain "noc" none, createPlain "noc" none]
      inMemoryStart).repository
    ParentOf inMemoryRulePackRepository s "noc" 2 1 ∧
      ¬Relation.TransGen (ParentOf inMemoryRulePackRepository s "noc") 2 2 := by
  have hfirst : (createPlain "noc" none).Each inMemoryRulePackRepository
      (KeepsLineage inMemoryRulePackRepository view) inMemoryStart := by
    refine ⟨fun _ _ _ h => (by cases h), fun name version parent hgives => ?_⟩
    cases hgives.2.2
  have hsecond : (createPlain "noc" none).Each inMemoryRulePackRepository
      (KeepsLineage inMemoryRulePackRepository view)
      (runCalls inMemoryRulePackRepository [createPlain "noc" none] inMemoryStart) := by
    refine ⟨fun _ _ _ h => (by cases h), ?_⟩
    rintro name version parent ⟨-, hversion, hparent⟩ hpath
    cases hversion
    cases hparent
    -- the first version has no parent, so nothing leads on from it
    rcases hpath.cases_head with hsame | ⟨next, ⟨ref, hof, hnext⟩, -⟩
    · cases hsame
    · rw [packOf_iff] at hof
      have href : ref ∈ [0] := by
        rcases hof with hget | ⟨hmem, -⟩
        · exact mem_refs_of_get hget
        · exact hmem
      cases List.mem_singleton.mp href
      cases hnext
  have hkeeps : CallsEach inMemoryRulePackRepository
      (KeepsLineage inMemoryRulePackRepository view)
      [createPlain "noc" none, createPlain "noc" none] inMemoryStart := ⟨hfirst, hsecond, trivial⟩
  exact ⟨⟨1, Or.inl rfl, rfl⟩, ((lineage_acyclic writtenOrder _).1 hkeeps "noc").2 2⟩

/-- The import of a pack of some version, and no rules. -/
def importPlain (name : String) (version : Int) : Call :=
  .importRulePack { name := some name, version := some version } "editor"

open InMemoryRulePackRepository in
/-- The parent of version 1 is version 2, which is renamed away, so that the next pack is
    version 2 again, with version 1 as its parent. -/
theorem lineage_cycle :
    ¬∀ (calls : List Call) (name : String) (version : Int),
      Succeed inMemoryRulePackRepository calls inMemoryStart →
      let s := (runCalls inMemoryRulePackRepository calls inMemoryStart).repository
      ¬Relation.TransGen (fun version parent => ∃ ref, get name version s = some ref ∧
        (s.objects ref).parentVersion = some parent) version version := by
  intro h
  refine h [importPlain "noc" 2, importPlain "noc" 1, .updateMetadata 0 "editor" none
    [.name "edge"], createPlain "noc" none] "noc" 1 ⟨rfl, rfl, rfl, rfl, trivial⟩ ?_
  exact .head ⟨1, rfl, rfl⟩ (.single ⟨2, rfl, rfl⟩)

end PulseGuard
