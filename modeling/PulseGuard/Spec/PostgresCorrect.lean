import Mathlib.Data.List.Find
import Mathlib.Data.List.Forall2
import PulseGuard.Native.PostgresRulePackRepository
import PulseGuard.Spec.RepositoryLaws

/-!
# The Postgres repository is lawful

The catalogue of a `PostgresStore` shows the rows of its table, by their keys, as the packs
they read as. Every operation of `PostgresRulePackRepository` does to it what `Lawful` says,
in whatever order the database returns rows; no save loses a pack, but the save of an edited
Draft may write to another row of its name and version.
-/

namespace PulseGuard.PostgresRulePackRepository

/-- The invariant of the tables: keys are unique and were drawn, parents are rows, and every
    rule has its key. -/
structure Inv (s : PostgresStore) : Prop where
  nodup : (s.ruleSets.map RuleSetRow.id).Nodup
  bound : ∀ row ∈ s.ruleSets, row.id < s.nextUuid
  parents : ∀ row ∈ s.ruleSets, ∀ id, row.parentVersionId = some id →
    ∃ parent ∈ s.ruleSets, parent.id = id
  ruleIds : ∀ row ∈ s.ruleSets, ∀ rule ∈ row.rules, rule.id.isSome = true

/-- The packs by the keys of their rows. -/
def catalogue (s : PostgresStore) : Catalogue := fun u => (row? u s).map (toDomain s)

/-- A rule as it reads after it was stored: with a key, and without an empty exceptions clause. -/
def StoredRule (rule stored : Rule) : Prop := stored = { ruleToDomain rule with id := stored.id }

/-- The view of the abstract model: packs are handed out as copies. -/
def view : StoreView PostgresStore where
  catalogue := catalogue
  supply := PostgresStore.nextUuid
  inPlace := False
  stored := List.Forall₂ StoredRule

/-! ## Rows by key -/

theorem row?_mem {s : PostgresStore} {u : Uuid} {row : RuleSetRow} (h : row? u s = some row) :
    row ∈ s.ruleSets ∧ row.id = u := by
  have hid := List.find?_some h
  simp only [beq_iff_eq] at hid
  exact ⟨List.mem_of_find?_eq_some h, hid⟩

theorem row?_eq_some_iff {s : PostgresStore} (hs : Inv s) {u : Uuid} {row : RuleSetRow} :
    row? u s = some row ↔ row ∈ s.ruleSets ∧ row.id = u :=
  PyList.find?_key_eq_some_iff hs.nodup

theorem catalogue_of_mem {s : PostgresStore} (hs : Inv s) {row : RuleSetRow}
    (hmem : row ∈ s.ruleSets) : catalogue s row.id = some (toDomain s row) := by
  rw [catalogue, (row?_eq_some_iff hs).mpr ⟨hmem, rfl⟩, Option.map_some]

theorem exists_row {s : PostgresStore} {u : Uuid} {p : RulePack} (h : catalogue s u = some p) :
    ∃ row, row? u s = some row ∧ toDomain s row = p :=
  Option.map_eq_some_iff.mp h

/-! ## A table whose rows are changed in place -/

/-- A change of rows that keeps their keys, versions and parents, and the keys of their
    rules. -/
structure KeepsKeys (s : PostgresStore) (f : RuleSetRow → RuleSetRow) : Prop where
  id : ∀ row ∈ s.ruleSets, (f row).id = row.id
  version : ∀ row ∈ s.ruleSets, (f row).version = row.version
  parent : ∀ row ∈ s.ruleSets, (f row).parentVersionId = row.parentVersionId
  ruleIds : ∀ row ∈ s.ruleSets, ∀ rule ∈ (f row).rules, rule.id.isSome = true

section

variable {s t : PostgresStore} {f : RuleSetRow → RuleSetRow}

private theorem row?_map (hf : KeepsKeys s f) (ht : t.ruleSets = s.ruleSets.map f) (u : Uuid) :
    row? u t = (row? u s).map f := by
  unfold row?
  rw [ht, List.find?_map]
  congr 1
  refine List.find?_congr fun row hmem => ?_
  rw [Function.comp_apply, hf.id row hmem]

private theorem resolveParentVersion_map (hf : KeepsKeys s f)
    (ht : t.ruleSets = s.ruleSets.map f) (id : Option Uuid) :
    resolveParentVersion id t = resolveParentVersion id s := by
  unfold resolveParentVersion
  cases id with
  | none => rfl
  | some id =>
    simp only [Option.bind_eq_bind, Option.bind_some, row?_map hf ht]
    cases hrow : row? id s with
    | none => rfl
    | some row =>
      rw [Option.map_some, Option.bind_some, Option.bind_some, hf.version row (row?_mem hrow).1]

theorem toDomain_map (hf : KeepsKeys s f) (ht : t.ruleSets = s.ruleSets.map f) (row : RuleSetRow) :
    toDomain t row = toDomain s row := by
  unfold toDomain
  rw [resolveParentVersion_map hf ht]

theorem catalogue_map (hf : KeepsKeys s f) (ht : t.ruleSets = s.ruleSets.map f) (u : Uuid) :
    catalogue t u = (row? u s).map fun row => toDomain s (f row) := by
  rw [catalogue, row?_map hf ht, Option.map_map]
  congr 1
  funext row
  exact toDomain_map hf ht (f row)

theorem inv_map (hs : Inv s) (hf : KeepsKeys s f) (ht : t.ruleSets = s.ruleSets.map f)
    (huuid : s.nextUuid ≤ t.nextUuid) : Inv t := by
  have hids : t.ruleSets.map RuleSetRow.id = s.ruleSets.map RuleSetRow.id := by
    rw [ht, List.map_map]
    exact List.map_congr_left fun row hmem => hf.id row hmem
  refine ⟨hids ▸ hs.nodup, ?_, ?_, ?_⟩
  · intro row hmem
    rw [ht] at hmem
    obtain ⟨row', hmem', rfl⟩ := List.mem_map.mp hmem
    rw [hf.id row' hmem']
    exact lt_of_lt_of_le (hs.bound row' hmem') huuid
  · intro row hmem id hid
    rw [ht] at hmem
    obtain ⟨row', hmem', rfl⟩ := List.mem_map.mp hmem
    rw [hf.parent row' hmem'] at hid
    obtain ⟨parent, hparent, heq⟩ := hs.parents row' hmem' id hid
    exact ⟨f parent, by rw [ht]; exact List.mem_map_of_mem hparent, by rw [hf.id parent hparent, heq]⟩
  · intro row hmem
    rw [ht] at hmem
    obtain ⟨row', hmem', rfl⟩ := List.mem_map.mp hmem
    exact hf.ruleIds row' hmem'

end

/-- The rows changed by `writeRow`. -/
private abbrev overwriteWith (row r : RuleSetRow) : RuleSetRow := if r.id == row.id then row else r

/-- One row written: the pack of its key now reads as the new row, the others as before. -/
theorem writeRow_effect {s : PostgresStore} (hs : Inv s) {row row' : RuleSetRow}
    (hmem : row ∈ s.ruleSets) (hid : row'.id = row.id) (hversion : row'.version = row.version)
    (hparent : row'.parentVersionId = row.parentVersionId)
    (hrules : ∀ rule ∈ row'.rules, rule.id.isSome = true) (n : Uuid) (hn : s.nextUuid ≤ n) :
    let t := writeRow row' { s with nextUuid := n }
    Inv t ∧ toDomain t row' = toDomain s row' ∧
      catalogue t = (catalogue s).put row.id (toDomain s row') := by
  -- the row written is `row` itself, every other one stays
  have hcases : ∀ r ∈ s.ruleSets,
      r = row ∧ overwriteWith row' r = row' ∨ overwriteWith row' r = r := by
    intro r hr
    by_cases heq : r.id = row'.id
    · exact Or.inl ⟨List.inj_on_of_nodup_map hs.nodup hr hmem (heq.trans hid), by
        simp [overwriteWith, heq]⟩
    · exact Or.inr (by simp [overwriteWith, heq])
  have hkeep : KeepsKeys s (overwriteWith row') := by
    refine ⟨?_, ?_, ?_, ?_⟩ <;> intro r hr <;> rcases hcases r hr with ⟨rfl, h⟩ | h <;> rw [h]
    · exact hid
    · exact hversion
    · exact hparent
    · exact hrules
    · exact hs.ruleIds r hr
  have htable : (writeRow row' { s with nextUuid := n }).ruleSets =
      s.ruleSets.map (overwriteWith row') := rfl
  refine ⟨inv_map hs hkeep htable hn, toDomain_map hkeep htable row', ?_⟩
  funext v
  rw [catalogue_map hkeep htable]
  by_cases hv : v = row.id
  · subst hv
    rw [(row?_eq_some_iff hs).mpr ⟨hmem, rfl⟩, Catalogue.put_self, Option.map_some]
    simp [overwriteWith, hid]
  · rw [Catalogue.put_of_ne hv, catalogue]
    cases hrow : row? v s with
    | none => rfl
    | some r =>
      have hne : r.id ≠ row'.id := by
        rw [(row?_mem hrow).2, hid]
        exact hv
      rw [Option.map_some, Option.map_some]
      simp [overwriteWith, hne]

/-! ## The rules of a saved pack -/

/-- The rows of rules: with keys drawn where there were none, on an unchanged table. -/
theorem rulesToOrm_spec (rules : List Rule) (s : PostgresStore) :
    (rulesToOrm rules s).2 = { s with nextUuid := (rulesToOrm rules s).2.nextUuid } ∧
      s.nextUuid ≤ (rulesToOrm rules s).2.nextUuid ∧
      (∀ rule ∈ (rulesToOrm rules s).1, rule.id.isSome = true) ∧
      List.Forall₂ (fun rule row => row = { rule with id := row.id }) rules
        (rulesToOrm rules s).1 ∧
      ((∀ rule ∈ rules, rule.id.isSome = true) → (rulesToOrm rules s).1 = rules) := by
  induction rules generalizing s with
  | nil => exact ⟨rfl, le_refl _, by simp [rulesToOrm], .nil, fun _ => rfl⟩
  | cons rule rest ih =>
    unfold rulesToOrm
    cases hid : rule.id with
    | some id =>
      obtain ⟨htable, hsupply, hids, hrows, hsame⟩ := ih s
      refine ⟨htable, hsupply, ?_, .cons rfl hrows, ?_⟩
      · intro r hr
        rcases List.mem_cons.mp hr with rfl | hr
        · simp [hid]
        · exact hids r hr
      · intro hall
        simp only [List.cons.injEq, true_and]
        exact hsame fun r hr => hall r (List.mem_cons_of_mem _ hr)
    | none =>
      obtain ⟨htable, hsupply, hids, hrows, -⟩ := ih (uuid4 s).2
      refine ⟨by rw [htable]; rfl, le_trans (Nat.le_succ _) hsupply, ?_, .cons rfl hrows, ?_⟩
      · intro r hr
        rcases List.mem_cons.mp hr with rfl | hr
        · rfl
        · exact hids r hr
      · intro hall
        have hsome := hall rule List.mem_cons_self
        simp [hid] at hsome

/-- A flush that returns has written the rules it was given. -/
theorem flushRules_ok {rows rules result : List Rule} (h : flushRules rows rules = .ok result) :
    result = rules := by
  obtain ⟨_, -, h⟩ := Except.bind_ok_iff.mp h
  exact (Except.ok.inj h).symm

theorem ruleToDomain_ruleToDomain (rule : Rule) :
    ruleToDomain (ruleToDomain rule) = ruleToDomain rule := by
  unfold ruleToDomain
  cases rule.exceptions with
  | none => rfl
  | some x => by_cases hx : x.tree.truthy = true <;> simp [Option.filter, hx]

private theorem stored_of_rows {rules rows : List Rule}
    (h : List.Forall₂ (fun rule row => row = { rule with id := row.id }) rules rows) :
    List.Forall₂ StoredRule rules (rows.map ruleToDomain) := by
  induction h with
  | nil => exact .nil
  | cons hrow _ ih =>
    refine .cons ?_ ih
    rw [hrow]
    rfl

/-! ## Queries -/

section

variable {order : RowOrder} {s t : PostgresStore}

theorem mem_rows {row : RuleSetRow} : row ∈ order.rows s.ruleSets ↔ row ∈ s.ruleSets :=
  (order.perm s.ruleSets).mem_iff

theorem first_mem {name : String} {version : Int} {row : RuleSetRow}
    (h : first order name version s = some row) :
    row ∈ s.ruleSets ∧ row.name = name ∧ row.version = version := by
  have hkey := List.find?_some h
  simp only [Bool.and_eq_true, beq_iff_eq] at hkey
  exact ⟨mem_rows.mp (List.mem_of_find?_eq_some h), hkey⟩

/-- A query by name and version returns some row when there is one. -/
theorem first_isSome (order : RowOrder) {row : RuleSetRow} (hmem : row ∈ s.ruleSets) :
    ∃ row', first order row.name row.version s = some row' := by
  cases hfirst : first order row.name row.version s with
  | some row' => exact ⟨row', rfl⟩
  | none =>
    have hnone := List.find?_eq_none.mp hfirst row (mem_rows.mpr hmem)
    simp at hnone

theorem get_eq_some {name : String} {version : Int} {p : RulePack}
    (h : get order name version s = some p) :
    ∃ row, first order name version s = some row ∧ toDomain s row = p :=
  Option.map_eq_some_iff.mp h

/-- A query for the active pack that returns none leaves none out. -/
theorem not_active_of_getActive {name : String} {region : Option String} {u : Uuid} {p : RulePack}
    (h : getActive order name region s = none) (hp : catalogue s u = some p) :
    ¬(p.status = .active ∧ p.name = name ∧ p.region = region) := by
  intro hactive
  obtain ⟨row, hrow, rfl⟩ := exists_row hp
  have hfind := Option.map_eq_none_iff.mp h
  have hnone := List.find?_eq_none.mp hfind row (mem_rows.mpr (row?_mem hrow).1)
  have hrow' : row.status = .active ∧ row.name = name ∧ row.region = region := hactive
  simp [hrow'] at hnone

theorem getById_eq_some {u : Uuid} {p : RulePack} (h : getById order u s = some p) :
    ∃ row ∈ s.ruleSets, row.id = u ∧ row.status ≠ .archived ∧ toDomain s row = p := by
  obtain ⟨row, hfind, hp⟩ := Option.map_eq_some_iff.mp h
  have hcond := List.find?_some hfind
  simp only [Bool.and_eq_true, beq_iff_eq, bne_iff_ne] at hcond
  exact ⟨row, mem_rows.mp (List.mem_of_find?_eq_some hfind), hcond.1, hcond.2, hp⟩

theorem mem_listVersions {name : String} {p : RulePack} :
    p ∈ listVersions order name s ↔ ∃ row ∈ s.ruleSets, row.name = name ∧ toDomain s row = p := by
  unfold listVersions
  simp only [List.mem_insertionSort, List.mem_map, List.mem_filter, mem_rows, beq_iff_eq, and_assoc]

theorem listAll_subset {status : Option PackStatus} {region : Option String} {archived : Bool}
    {limit offset : Nat} {p : RulePack}
    (h : p ∈ listAll order status region archived limit offset s) :
    ∃ row ∈ s.ruleSets, toDomain s row = p := by
  unfold listAll at h
  simp only at h
  have h := List.mem_of_mem_drop (List.mem_of_mem_take h)
  rw [List.mem_insertionSort, List.mem_map] at h
  obtain ⟨row, hmem, rfl⟩ := h
  refine ⟨row, ?_, rfl⟩
  have hfilter : ∀ {l : List RuleSetRow} {q : RuleSetRow → Bool}, row ∈ l.filter q → row ∈ l :=
    fun hq => (List.mem_filter.mp hq).1
  cases archived <;> cases status <;> cases region <;>
    simp only [Bool.false_eq_true, if_true, if_false] at hmem <;>
    first
      | exact mem_rows.mp hmem
      | exact mem_rows.mp (hfilter hmem)
      | exact mem_rows.mp (hfilter (hfilter hmem))
      | exact mem_rows.mp (hfilter (hfilter (hfilter hmem)))

/-- No row has the name and version of a pack that is new. -/
theorem first_none_of_free {name : String} {version : Int}
    (hfree : (∀ p ∈ listVersions order name s, p.version ≠ version) ∨
      get order name version s = none) : first order name version s = none := by
  cases hfirst : first order name version s with
  | none => rfl
  | some row =>
    exfalso
    obtain ⟨hmem, hname, hversion⟩ := first_mem hfirst
    rcases hfree with hfree | hget
    · exact hfree (toDomain s row) (mem_listVersions.mpr ⟨row, hmem, hname, rfl⟩) hversion
    · rw [get, hfirst] at hget
      cases hget

/-! ## Saves -/

/-- A save of a pack there is no row for adds its row, and touches no other. -/
theorem saveNew_effect {p r : RulePack} (hs : Inv s) (h : saveNew order p s = .ok (r, t)) :
    ∃ row, row.id = s.nextUuid ∧ row.id < t.nextUuid ∧ r = { p with id := some row.id } ∧
      row.name = p.name ∧ row.version = p.version ∧ row.status = p.status ∧
      row.region = p.region ∧ row.lockVersion = 1 ∧
      List.Forall₂ StoredRule p.rules (row.rules.map ruleToDomain) ∧
      (∀ version, (toDomain t row).parentVersion = some version → p.parentVersion = some version) ∧
      t.ruleSets = s.ruleSets ++ [row] ∧ Inv t ∧
      catalogue t = (catalogue s).put row.id (toDomain t row) := by
  obtain ⟨htable, hsupply, hids, hrows, -⟩ := rulesToOrm_spec p.rules (uuid4 s).2
  obtain ⟨rules, hflush, h⟩ := Except.bind_ok_iff.mp h
  rw [flushRules_ok hflush] at h
  let row : RuleSetRow := {
    id := s.nextUuid, name := p.name, version := p.version, status := p.status
    region := p.region, tenantId := none
    parentVersionId := do
      let parent ← first order p.name (← p.parentVersion) s
      return parent.id
    createdBy := p.createdBy, lockVersion := 1, rules := (rulesToOrm p.rules (uuid4 s).2).1 }
  have ht : ({ p with id := some row.id },
      { (rulesToOrm p.rules (uuid4 s).2).2 with ruleSets := s.ruleSets ++ [row] }) = (r, t) := by
    have hsets : (rulesToOrm p.rules (uuid4 s).2).2.ruleSets = s.ruleSets := by
      rw [htable]
      rfl
    rw [← hsets]
    exact Except.ok.inj h
  cases ht
  have hlt : s.nextUuid < (rulesToOrm p.rules (uuid4 s).2).2.nextUuid :=
    lt_of_lt_of_le (Nat.lt_succ_self _) hsupply
  have hold : ∀ r ∈ s.ruleSets, r.id ≠ row.id := fun r hr => Nat.ne_of_lt (hs.bound r hr)
  generalize ht : ({ (rulesToOrm p.rules (uuid4 s).2).2 with
    ruleSets := s.ruleSets ++ [row] } : PostgresStore) = t
  have htable' : t.ruleSets = s.ruleSets ++ [row] := by rw [← ht]
  have hlt' : s.nextUuid < t.nextUuid := by rw [← ht]; exact hlt
  -- the rows that were there are found as before
  have hrow? : ∀ v, v ≠ row.id → row? v t = row? v s := by
    intro v hv
    unfold row?
    rw [htable', List.find?_append, List.find?_singleton]
    simp [Ne.symm hv]
  have hparents : ∀ r ∈ s.ruleSets, toDomain t r = toDomain s r := by
    intro r hr
    have hparent : resolveParentVersion r.parentVersionId t =
        resolveParentVersion r.parentVersionId s := by
      unfold resolveParentVersion
      cases hid : r.parentVersionId with
      | none => rfl
      | some id =>
        obtain ⟨parent, hparent, rfl⟩ := hs.parents r hr id hid
        simp only [Option.bind_eq_bind, Option.bind_some, hrow? _ (hold parent hparent)]
    unfold toDomain
    rw [hparent]
  have hInv : Inv t := by
    refine ⟨?_, ?_, ?_, ?_⟩
    · rw [htable', List.map_append, List.nodup_append]
      refine ⟨hs.nodup, List.nodup_singleton _, ?_⟩
      intro a ha b hb
      obtain ⟨r, hr, rfl⟩ := List.mem_map.mp ha
      rw [List.mem_singleton.mp hb]
      exact hold r hr
    · intro r hr
      rw [htable', List.mem_append, List.mem_singleton] at hr
      rcases hr with hr | rfl
      · exact lt_trans (hs.bound r hr) hlt'
      · exact hlt'
    · intro r hr id hid
      rw [htable', List.mem_append, List.mem_singleton] at hr
      have hmem : ∃ parent ∈ s.ruleSets, parent.id = id := by
        rcases hr with hr | rfl
        · exact hs.parents r hr id hid
        · obtain ⟨version, -, hfirst⟩ := Option.bind_eq_some_iff.mp hid
          obtain ⟨parent, hparent, heq⟩ := Option.bind_eq_some_iff.mp hfirst
          exact ⟨parent, (first_mem hparent).1, Option.some.inj heq⟩
      obtain ⟨parent, hparent, heq⟩ := hmem
      exact ⟨parent, by rw [htable']; exact List.mem_append_left _ hparent, heq⟩
    · intro r hr
      rw [htable', List.mem_append, List.mem_singleton] at hr
      rcases hr with hr | rfl
      · exact hs.ruleIds r hr
      · exact hids
  -- the parent is the row found under the name and the parent version
  have hparent : ∀ version, (toDomain t row).parentVersion = some version →
      p.parentVersion = some version := by
    intro version hversion
    obtain ⟨id, hid, hrow⟩ := Option.bind_eq_some_iff.mp hversion
    obtain ⟨parentVersion, hparentVersion, hfirst⟩ := Option.bind_eq_some_iff.mp hid
    obtain ⟨parent, hfound, hparentId⟩ := Option.bind_eq_some_iff.mp hfirst
    obtain ⟨hmem, -, hkey⟩ := first_mem hfound
    cases Option.some.inj hparentId
    rw [hrow? _ (hold parent hmem), (row?_eq_some_iff hs).mpr ⟨hmem, rfl⟩] at hrow
    rw [hparentVersion, ← hkey]
    exact hrow
  refine ⟨row, rfl, hlt', rfl, rfl, rfl, rfl, rfl, rfl, stored_of_rows hrows, hparent, htable',
    hInv, ?_⟩
  funext v
  by_cases hv : v = row.id
  · subst hv
    rw [Catalogue.put_self]
    exact catalogue_of_mem hInv (by rw [htable']; simp)
  · rw [Catalogue.put_of_ne hv, catalogue, catalogue, hrow? v hv]
    cases hfind : row? v s with
    | none => rfl
    | some r => rw [Option.map_some, Option.map_some, hparents r (row?_mem hfind).1]

/-- A save over a row writes its status, region, author and rules, and raises its lock
    version when one of the first three changes. -/
theorem saveExisting_effect {p r : RulePack} {row : RuleSetRow} (hs : Inv s)
    (hmem : row ∈ s.ruleSets) (h : saveExisting p row s = .ok (r, t)) :
    ∃ row', row'.id = row.id ∧ row'.name = row.name ∧ row'.version = row.version ∧
      row'.tenantId = row.tenantId ∧ row'.parentVersionId = row.parentVersionId ∧
      row'.status = p.status ∧ row'.region = p.region ∧ row'.createdBy = p.createdBy ∧
      row'.lockVersion = (if row.status = p.status ∧ row.region = p.region ∧
        row.createdBy = p.createdBy then row.lockVersion else row.lockVersion + 1) ∧
      List.Forall₂ StoredRule p.rules (row'.rules.map ruleToDomain) ∧
      ((∀ rule ∈ p.rules, rule.id.isSome = true) → row'.rules = p.rules) ∧
      s.nextUuid ≤ t.nextUuid ∧ t = writeRow row' { s with nextUuid := t.nextUuid } ∧ Inv t ∧
      catalogue t = (catalogue s).put row.id (toDomain s row') := by
  obtain ⟨htable, hsupply, hids, hrows, hsame⟩ := rulesToOrm_spec p.rules s
  obtain ⟨rules, hflush, h⟩ := Except.bind_ok_iff.mp h
  rw [flushRules_ok hflush, htable] at h
  obtain ⟨⟨row', t'⟩, hcommit, h⟩ := Except.bind_ok_iff.mp h
  rw [Except.pure_ok_iff] at h
  cases h
  unfold commitRow at hcommit
  split at hcommit
  · cases hcommit
  · have hpair := Except.ok.inj hcommit
    have hrow' := congrArg Prod.fst hpair
    have ht := congrArg Prod.snd hpair
    simp only at hrow' ht
    rw [hrow'] at ht
    generalize hn : (rulesToOrm p.rules s).2.nextUuid = n at ht hsupply
    have hfields : row'.id = row.id ∧ row'.name = row.name ∧ row'.version = row.version ∧
        row'.tenantId = row.tenantId ∧ row'.parentVersionId = row.parentVersionId ∧
        row'.status = p.status ∧ row'.region = p.region ∧ row'.createdBy = p.createdBy ∧
        row'.rules = (rulesToOrm p.rules s).1 := by
      rw [← hrow']
      split <;> exact ⟨rfl, rfl, rfl, rfl, rfl, rfl, rfl, rfl, rfl⟩
    obtain ⟨hid, hname, hversion, htenant, hparent, hstatus, hregion, hcreated, hrules⟩ := hfields
    obtain ⟨hInv, -, hcat⟩ :=
      writeRow_effect hs hmem hid hversion hparent (by rw [hrules]; exact hids) n hsupply
    have hnt : t.nextUuid = n := by rw [← ht]; rfl
    refine ⟨row', hid, hname, hversion, htenant, hparent, hstatus, hregion, hcreated, ?_,
      by rw [hrules]; exact stored_of_rows hrows, fun hall => by rw [hrules, hsame hall],
      by rw [hnt]; exact hsupply, by rw [hnt, ht], by rw [← ht]; exact hInv, by rw [← ht, hcat]⟩
    rw [← hrow']
    by_cases hcols : row.status = p.status ∧ row.region = p.region ∧ row.createdBy = p.createdBy
    · simp [hcols.1, hcols.2.1, hcols.2.2]
    · rw [if_neg hcols, if_pos]
      simp only [Bool.or_eq_true, bne_iff_ne]
      by_contra hno
      simp only [not_or, not_not] at hno
      exact hcols ⟨hno.1.1.symm, hno.1.2.symm, hno.2.symm⟩

/-! ## Writes of one row, and activation -/

/-- What `updateById` does when it returns. -/
theorem updateById_effect {u : Uuid} {lock : Option Nat} {f : RuleSetRow → Bool × RuleSetRow}
    {r p : RulePack} (hs : Inv s) (hp : catalogue s u = some p)
    (hf : ∀ row, (f row).2.id = row.id ∧ (f row).2.version = row.version ∧
      (f row).2.parentVersionId = row.parentVersionId ∧ (f row).2.rules = row.rules)
    (h : updateById u lock f s = .ok (r, t)) :
    ∃ row row', toDomain s row = p ∧ row ∈ s.ruleSets ∧ row.id = u ∧ LockMatches lock p ∧
      row' = (if (f row).1 then
        { (f row).2 with lockVersion := (f row).2.lockVersion + 1 } else (f row).2) ∧
      t = writeRow row' s ∧ Inv t ∧ catalogue t = (catalogue s).put u (toDomain s row') := by
  obtain ⟨row, hrow, rfl⟩ := exists_row hp
  obtain ⟨hmem, rfl⟩ := row?_mem hrow
  unfold updateById at h
  rw [hrow] at h
  obtain ⟨_, hlock, h⟩ := Except.bind_ok_iff.mp h
  obtain ⟨⟨row', t'⟩, hcommit, h⟩ := Except.bind_ok_iff.mp h
  rw [Except.pure_ok_iff] at h
  cases h
  unfold commitRow at hcommit
  split at hcommit
  · cases hcommit
  · have hpair := Except.ok.inj hcommit
    have hrow' := congrArg Prod.fst hpair
    have ht := congrArg Prod.snd hpair
    simp only at hrow' ht
    rw [hrow'] at ht
    obtain ⟨hid, hversion, hparent, hrules⟩ := hf row
    have hkeep : row'.id = row.id ∧ row'.version = row.version ∧
        row'.parentVersionId = row.parentVersionId ∧ row'.rules = row.rules := by
      rw [← hrow']
      split <;> exact ⟨hid, hversion, hparent, hrules⟩
    obtain ⟨hInv, -, hcat⟩ := writeRow_effect hs hmem hkeep.1 hkeep.2.1 hkeep.2.2.1
      (by rw [hkeep.2.2.2]; exact hs.ruleIds row hmem) s.nextUuid (le_refl _)
    exact ⟨row, row', rfl, hmem, rfl, checkLock_ok_iff.mp hlock, hrow'.symm, ht.symm,
      by rw [← ht]; exact hInv, by rw [← ht]; exact hcat⟩

/-- An update by identifier returns the pack as the store has it then. -/
theorem updateById_returns {u : Uuid} {lock : Option Nat} {f : RuleSetRow → Bool × RuleSetRow}
    {r : RulePack} (hid : ∀ row, (f row).2.id = row.id) (hInv : Inv t)
    (h : updateById u lock f s = .ok (r, t)) : catalogue t u = some r := by
  unfold updateById at h
  split at h
  · cases h
  · rename_i row hrow
    obtain ⟨hmem, rfl⟩ := row?_mem hrow
    obtain ⟨_, -, h⟩ := Except.bind_ok_iff.mp h
    obtain ⟨⟨row', t'⟩, hcommit, h⟩ := Except.bind_ok_iff.mp h
    rw [Except.pure_ok_iff] at h
    cases h
    unfold commitRow at hcommit
    split at hcommit
    · cases hcommit
    · cases hcommit
      have hkeep : (if (f row).1 then
          { (f row).2 with lockVersion := (f row).2.lockVersion + 1 } else (f row).2).id = row.id := by
        split
        · exact hid row
        · exact hid row
      have hwritten : ∀ row', row'.id = row.id → row' ∈ (writeRow row' s).ruleSets := by
        intro row' hsame
        refine List.mem_map.mpr ⟨row, hmem, ?_⟩
        rw [hsame, beq_self_eq_true, if_pos rfl]
      rw [← hkeep]
      exact catalogue_of_mem hInv (hwritten _ hkeep)

/-- Metadata touch four columns, and count as a change when one of them moves. -/
theorem foldl_setColumn (fields : List PackAttr) (b : Bool) (row : RuleSetRow) :
    let q := fields.foldl setColumn (b, row)
    q.2.id = row.id ∧ q.2.version = row.version ∧ q.2.parentVersionId = row.parentVersionId ∧
      q.2.rules = row.rules ∧ q.2.status = row.status ∧ q.2.lockVersion = row.lockVersion ∧
      (q.1 = false → b = false ∧ q.2 = row) := by
  induction fields generalizing b row with
  | nil => exact ⟨rfl, rfl, rfl, rfl, rfl, rfl, fun h => ⟨h, rfl⟩⟩
  | cons attr rest ih =>
    obtain ⟨hid, hversion, hparent, hrules, hstatus, hlock, hsame⟩ :=
      ih (setColumn (b, row) attr).1 (setColumn (b, row) attr).2
    have hattr : (setColumn (b, row) attr).2.id = row.id ∧
        (setColumn (b, row) attr).2.version = row.version ∧
        (setColumn (b, row) attr).2.parentVersionId = row.parentVersionId ∧
        (setColumn (b, row) attr).2.rules = row.rules ∧
        (setColumn (b, row) attr).2.status = row.status ∧
        (setColumn (b, row) attr).2.lockVersion = row.lockVersion := by
      cases attr with
      | region value => cases value <;> exact ⟨rfl, rfl, rfl, rfl, rfl, rfl⟩
      | tenantId value => cases value <;> exact ⟨rfl, rfl, rfl, rfl, rfl, rfl⟩
      | _ => exact ⟨rfl, rfl, rfl, rfl, rfl, rfl⟩
    have hquiet : (setColumn (b, row) attr).1 = false →
        b = false ∧ (setColumn (b, row) attr).2 = row := by
      intro hfalse
      cases attr with
      | name value => simp_all [setColumn]
      | createdBy value => simp_all [setColumn]
      | region value => cases value <;> simp_all [setColumn]
      | tenantId value => cases value <;> simp_all [setColumn]
      | _ => exact ⟨hfalse, rfl⟩
    refine ⟨hid.trans hattr.1, hversion.trans hattr.2.1, hparent.trans hattr.2.2.1,
      hrules.trans hattr.2.2.2.1, hstatus.trans hattr.2.2.2.2.1, hlock.trans hattr.2.2.2.2.2, ?_⟩
    intro hfalse
    obtain ⟨hfirst, hrest⟩ := hsame hfalse
    exact ⟨(hquiet hfirst).1, hrest.trans (hquiet hfirst).2⟩

theorem updateMetadata_effect {u : Uuid} {lock : Option Nat} {fields : List PackAttr}
    {r p : RulePack} (hs : Inv s) (hp : catalogue s u = some p) (hdraft : p.status = .draft)
    (h : updateMetadata u lock fields s = .ok (r, t)) :
    Inv t ∧ WriteStep (postgresRulePackRepository order) view s
      (.updateMetadata u lock fields) t := by
  have hfold := foldl_setColumn fields false
  obtain ⟨row, row', rfl, hmem, rfl, hlock, hrow', rfl, hInv, ht⟩ := updateById_effect hs hp
    (fun row => ⟨(hfold row).1, (hfold row).2.1, (hfold row).2.2.1, (hfold row).2.2.2.1⟩) h
  obtain ⟨hid, hversion, hparent, hrules, hstatus, hcolumn, hsame⟩ := hfold row
  have hstatus' : (toDomain s row').status = (toDomain s row).status := by
    change row'.status = row.status
    rw [hrow']
    split <;> exact hstatus
  have hrules' : (toDomain s row').rules = (toDomain s row).rules := by
    change row'.rules.map ruleToDomain = row.rules.map ruleToDomain
    rw [hrow']
    split <;> simp only [hrules]
  have hbump : (toDomain s row).lockVersion < (toDomain s row').lockVersion ∨
      toDomain s row' = toDomain s row := by
    cases hchanged : (fields.foldl setColumn (false, row)).1 with
    | true =>
      left
      change row.lockVersion < row'.lockVersion
      rw [hrow', hchanged, if_pos rfl, hcolumn]
      exact Nat.lt_succ_self _
    | false =>
      right
      rw [hrow', hchanged, if_neg Bool.false_ne_true, (hsame hchanged).2]
  exact ⟨hInv, le_refl _, .updateMetadata hp hdraft hlock hstatus' hrules' hbump ht⟩

theorem publish_effect {u : Uuid} {r p : RulePack} (hs : Inv s) (hp : catalogue s u = some p)
    (hdraft : p.status = .draft) (hvalid : (ValidateRulePackUseCase.execute p).isValid = true)
    (h : updateStatus u .published none s = .ok (r, t)) :
    Inv t ∧ WriteStep (postgresRulePackRepository order) view s (.publish u) t := by
  obtain ⟨row, row', rfl, hmem, rfl, -, hrow', rfl, hInv, ht⟩ :=
    updateById_effect (f := fun row => (PackStatus.published != row.status,
      { row with status := .published })) hs hp (fun row => ⟨rfl, rfl, rfl, rfl⟩) h
  have hstatus : row.status = .draft := hdraft
  refine ⟨hInv, le_refl _, .publish hp hdraft hvalid ?_⟩
  refine ht.trans ?_
  rw [hrow', hstatus]
  rfl

theorem softDelete_effect {u : Uuid} {lock : Option Nat} {r p : RulePack} (hs : Inv s)
    (hp : catalogue s u = some p) (hactive : p.status ≠ .active)
    (h : softDelete u lock s = .ok (r, t)) :
    Inv t ∧ WriteStep (postgresRulePackRepository order) view s (.softDelete u lock) t := by
  obtain ⟨row, row', rfl, hmem, rfl, hlock, hrow', rfl, hInv, ht⟩ :=
    updateById_effect (f := fun row => (true, { row with status := .archived })) hs hp
      (fun row => ⟨rfl, rfl, rfl, rfl⟩) h
  refine ⟨hInv, le_refl _, .softDelete hp hactive hlock ?_⟩
  refine ht.trans ?_
  rw [hrow']
  rfl

/-- The row that `activate` goes by is the one it finds by name and version. -/
theorem activate_ok {name : String} {version : Int} {lock : Option Nat} {r : RulePack}
    (h : activate order name version lock s = .ok (r, t)) :
    ∃ target, first order name version s = some target ∧
      LockMatches lock (toDomain s target) ∧
      t = { s with ruleSets := s.ruleSets.map (activateRow name target.id) } := by
  unfold activate at h
  split at h
  · cases h
  · rename_i target hfirst
    obtain ⟨_, hlock, h⟩ := Except.bind_ok_iff.mp h
    have ht := congrArg Prod.snd (Except.ok.inj h)
    exact ⟨target, hfirst, checkLock_ok_iff.mp hlock, ht.symm⟩

private theorem keepsKeys_activateRow (hs : Inv s) (name : String) (u : Uuid) :
    KeepsKeys s (activateRow name u) := by
  refine ⟨?_, ?_, ?_, ?_⟩ <;> intro row hrow <;> unfold activateRow <;> split
  all_goals first | rfl | exact hs.ruleIds row hrow | (split <;> first | rfl | exact hs.ruleIds row hrow)

theorem activate_effect {name : String} {version : Int} {lock : Option Nat} {r : RulePack}
    (requested : Option Uuid) (hs : Inv s) (h : activate order name version lock s = .ok (r, t)) :
    Inv t ∧ WriteStep (postgresRulePackRepository order) view s
      (.activate requested name version lock) t := by
  obtain ⟨target, hfirst, hlock, rfl⟩ := activate_ok h
  obtain ⟨hmem, hname, -⟩ := first_mem hfirst
  have hkeep := keepsKeys_activateRow hs name target.id
  have hInv := inv_map (t := { s with ruleSets := s.ruleSets.map (activateRow name target.id) })
    hs hkeep rfl (le_refl _)
  have hp := catalogue_of_mem hs hmem
  have hunder : Under (postgresRulePackRepository order) s name version target.id := by
    refine ⟨toDomain s target, ?_, rfl⟩
    change get order name version s = _
    rw [get, hfirst, Option.map_some]
  let q : RulePack := { toDomain s target with
    status := .active, lockVersion := target.lockVersion + 1 }
  refine ⟨hInv, le_refl _, .activate hp hunder hlock (show q = _ from rfl) (Nat.lt_succ_self _) ?_⟩
  funext v
  refine (catalogue_map hkeep rfl v).trans ?_
  by_cases hv : v = target.id
  · subst hv
    rw [(row?_eq_some_iff hs).mpr ⟨hmem, rfl⟩, Catalogue.activate_self, Option.map_some]
    simp only [activateRow, beq_self_eq_true, if_true]
    rfl
  · rw [Catalogue.activate_of_ne hv]
    change _ = ((row? v s).map (toDomain s)).map _
    cases hrow : row? v s with
    | none => rfl
    | some row =>
      have hne : (row.id == target.id) = false := by
        rw [(row?_mem hrow).2]
        exact beq_false_of_ne hv
      rw [Option.map_some, Option.map_some, Option.map_some]
      unfold activateRow Catalogue.deprecateNamed
      rw [hne]
      by_cases hcond : row.name = name ∧ row.status = .active
      · simp [toDomain, hcond.1, hcond.2]
      · have hcond' : ¬((row.name == name && row.status == .active) = true) := by
          simpa using hcond
        have hcond'' : ¬((toDomain s row).name = name ∧ (toDomain s row).status = .active) := hcond
        rw [if_neg Bool.false_ne_true, if_neg hcond', if_neg hcond'']

/-- An activation returns the row it finds by name and version, as the store has it then. -/
theorem activate_returns {name : String} {version : Int} {lock : Option Nat} {r : RulePack}
    (hInv : Inv t) (h : activate order name version lock s = .ok (r, t)) :
    ∃ target, first order name version s = some target ∧ catalogue t target.id = some r := by
  unfold activate at h
  split at h
  · cases h
  · rename_i target hfirst
    obtain ⟨_, -, h⟩ := Except.bind_ok_iff.mp h
    rw [Except.pure_ok_iff] at h
    cases h
    have hid : (activateRow name target.id target).id = target.id := by
      unfold activateRow
      rw [beq_self_eq_true, if_pos rfl]
    have hwritten : activateRow name target.id target ∈
        s.ruleSets.map (activateRow name target.id) := List.mem_map_of_mem (first_mem hfirst).1
    have hread := catalogue_of_mem hInv hwritten
    rw [hid] at hread
    exact ⟨target, hfirst, hread⟩

/-- A save of an edited Draft writes the row under its name and version: its own, or, where that is
    another's, the other, which takes the Draft's columns and rules. -/
theorem saveEdited_effect {u : Uuid} {p r : RulePack} {rules : List Rule} (hs : Inv s)
    (hp : catalogue s u = some p) (hdraft : p.status = .draft)
    (h : save order { p with rules } s = .ok (r, t)) :
    Inv t ∧ WriteStep (postgresRulePackRepository order) view s (.saveEdited p rules) t := by
  obtain ⟨own, hown, rfl⟩ := exists_row hp
  obtain ⟨hmem, rfl⟩ := row?_mem hown
  obtain ⟨row, hfirst⟩ := first_isSome order hmem
  unfold save at h
  rw [show first order ({ toDomain s own with rules } : RulePack).name
    ({ toDomain s own with rules } : RulePack).version s = some row from hfirst] at h
  obtain ⟨hrow, hname, hversion⟩ := first_mem hfirst
  obtain ⟨row', hid', hname', hversion', htenant', hparent', hstatus', hregion', hcreated', hlock',
    hrules', hsame', hsupply, -, hInv, ht⟩ := saveExisting_effect hs hrow h
  change row'.lockVersion = (if row.status = own.status ∧ row.region = own.region ∧
    row.createdBy = own.createdBy then row.lockVersion else row.lockVersion + 1) at hlock'
  refine ⟨hInv, hsupply, ?_⟩
  have hunder : OnlyUnder (postgresRulePackRepository order) s own.name own.version row.id := by
    refine ⟨⟨toDomain s row, ?_, rfl⟩, ?_⟩
    · change get order own.name own.version s = _
      rw [get, hfirst, Option.map_some]
    · intro name' version' ⟨q, hget, hid⟩
      obtain ⟨other, hother, rfl⟩ := get_eq_some hget
      obtain ⟨hmem', rfl, rfl⟩ := first_mem hother
      rw [List.inj_on_of_nodup_map hs.nodup hmem' hrow (Option.some.inj hid)]
      exact ⟨hname, hversion⟩
  -- the rules that the row has, written again, stay as they are
  have hunchanged : rules = (toDomain s row).rules →
      (toDomain s row').rules = (toDomain s row).rules := by
    intro hrules
    change row'.rules.map ruleToDomain = row.rules.map ruleToDomain
    rw [hsame' ?_]
    · change rules.map ruleToDomain = _
      rw [hrules]
      change (row.rules.map ruleToDomain).map ruleToDomain = row.rules.map ruleToDomain
      rw [List.map_map]
      exact List.map_congr_left fun rule _ => ruleToDomain_ruleToDomain rule
    · intro rule hrule
      change rule ∈ rules at hrule
      rw [hrules] at hrule
      obtain ⟨rule', hrule', rfl⟩ := List.mem_map.mp hrule
      exact hs.ruleIds row hrow rule' hrule'
  -- and a row that keeps its status, region and author keeps all but its rules
  have hkept : row.status = own.status ∧ row.region = own.region ∧
      row.createdBy = own.createdBy →
      toDomain s row' = { toDomain s row with rules := (toDomain s row').rules } := by
    intro hcols
    rw [if_pos hcols] at hlock'
    unfold toDomain
    rw [hid', hname', hversion', htenant', hparent', hlock', hstatus', hregion', hcreated',
      hcols.1, hcols.2.1, hcols.2.2]
    rfl
  by_cases hsame : row.id = own.id
  · -- the row is the Draft's own
    obtain rfl := List.inj_on_of_nodup_map hs.nodup hrow hmem hsame
    rw [hkept ⟨rfl, rfl, rfl⟩, ← (catalogue s).drop_none] at ht
    exact .saveEdited hp hdraft (fun _ => hunder.1) hunchanged (fun v hv => by cases hv) ht
  · refine .overwrite (fun hf => hf) hp rfl hdraft (catalogue_of_mem hs hrow) hsame hunder
      (hstatus'.trans hdraft) hname' ⟨?_, hunchanged⟩ ht
    by_cases hcols : row.status = own.status ∧ row.region = own.region ∧
        row.createdBy = own.createdBy
    · exact Or.inr ⟨hcols.1, hcols.2.1, hcols.2.2, hkept hcols⟩
    · left
      change row.lockVersion < row'.lockVersion
      rw [if_neg hcols] at hlock'
      omega

end

/-- `PostgresRulePackRepository` is lawful. -/
def lawful (order : RowOrder) : Lawful (postgresRulePackRepository order) view where
  Inv := Inv
  Reads s p u := catalogue s u = some p
  bound := by
    intro s u p hs hp
    obtain ⟨row, hrow, -⟩ := exists_row hp
    obtain ⟨hmem, rfl⟩ := row?_mem hrow
    exact hs.bound row hmem
  reads := by
    intro s p u hs hp
    obtain ⟨row, hrow, rfl⟩ := exists_row hp
    exact ⟨hp, congrArg some (row?_mem hrow).2⟩
  getById := by
    intro s u p hs h
    obtain ⟨row, hmem, rfl, -, rfl⟩ := getById_eq_some h
    exact catalogue_of_mem hs hmem
  get := by
    intro s name version p hs h
    obtain ⟨row, hfirst, rfl⟩ := get_eq_some h
    exact ⟨row.id, catalogue_of_mem hs (first_mem hfirst).1⟩
  getActive_none := fun _ h hp => not_active_of_getActive h hp
  getActive := by
    intro s name region p hs h
    obtain ⟨row, hfind, rfl⟩ := Option.map_eq_some_iff.mp h
    have hcond := List.find?_some hfind
    simp only [Bool.and_eq_true, beq_iff_eq] at hcond
    have hmem := mem_rows.mp (List.mem_of_find?_eq_some hfind)
    exact ⟨⟨row.id, catalogue_of_mem hs hmem⟩, hcond.1.2⟩
  listAll := by
    intro s status region archived limit offset p hs h
    obtain ⟨row, hmem, rfl⟩ := listAll_subset h
    exact ⟨row.id, catalogue_of_mem hs hmem⟩
  inv_uuid4 := fun hs => ⟨hs.nodup, fun row hrow => Nat.lt_succ_of_lt (hs.bound row hrow),
    hs.parents, hs.ruleIds⟩
  catalogue_uuid4 := fun _ => rfl
  supply_uuid4 := fun _ => Nat.le_succ _
  get_uuid4 := fun _ _ _ => rfl
  pack_uuid4 := fun _ _ => rfl
  reads_uuid4 := fun h => h
  saveNew := by
    intro s p r t hs hid hfresh h
    have hnone := first_none_of_free hfresh
    change save order p s = .ok (r, t) at h
    rw [save, hnone] at h
    obtain ⟨row, hrowid, hlt, rfl, hname, hversion, hstatus, hregion, -, hrules, -, -, hInv, ht⟩ :=
      saveNew_effect hs h
    refine ⟨hInv, ⟨?_, ?_⟩, rfl, rfl⟩
    · rw [hrowid] at hlt
      exact Nat.le_of_lt hlt
    · rw [← (catalogue s).drop_none] at ht
      exact .saveNew (le_of_eq hrowid.symm) hlt (show (toDomain t row).name = p.name from hname)
        hversion hstatus hregion hrules (fun v hv => by cases hv) ht
  saveEdited := fun hs hp hdraft h => saveEdited_effect hs hp hdraft h
  updateMetadata := fun hs hp hdraft _ h => updateMetadata_effect hs hp hdraft h
  publish := fun hs hp hdraft hvalid h => publish_effect hs hp hdraft hvalid h
  softDelete := fun hs hp hactive h => softDelete_effect hs hp hactive h
  activate := fun hs h => activate_effect _ hs h
  promoteToShadow := fun _ _ _ => Or.inl rfl

/-- The empty tables satisfy the invariant. -/
theorem inv_init : Inv init :=
  ⟨List.nodup_nil, by simp [init], by simp [init], by simp [init]⟩

end PulseGuard.PostgresRulePackRepository
