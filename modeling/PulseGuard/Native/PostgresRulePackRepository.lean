import PulseGuard.Native.RulePackRepository

/-!
# The Postgres repository

`PostgresRulePackRepository` over the tables of `app/infrastructure/db/models.py`
(`app/infrastructure/repositories/postgres_rule_pack_repository.py`, `mappers.py`).

A session is one atomic transaction over a list of `rule_sets` rows, each with its `rules`
rows in the order they were written. A pack handed out is a detached copy. An `UPDATE` is
sent, and `lock_version` raised, only when some column of the row changes; the rows of its
rules are no such column. Timestamps, the cache of the active pack and the lengths of the
columns are left out; a tenant id is taken to be the text of a UUID.
-/

namespace PulseGuard

/-- A row of `rule_sets`, with its rows of `rules`. -/
structure RuleSetRow where
  id : Uuid
  name : String
  version : Int
  status : PackStatus
  region : Option String
  tenantId : Option String
  parentVersionId : Option Uuid
  createdBy : String
  lockVersion : Nat
  rules : List Rule

/-- The table, and the supply of identifiers. -/
structure PostgresStore where
  ruleSets : List RuleSetRow
  nextUuid : Uuid

/-- The order in which the database returns the rows of a query that asks for none. -/
structure RowOrder where
  rows : List RuleSetRow → List RuleSetRow
  perm : ∀ table, (rows table).Perm table

/-- The rows as they were written. -/
def writtenOrder : RowOrder where
  rows := id
  perm := fun _ => .refl _

/-- `sqlalchemy.exc.IntegrityError` -/
def integrityError (constraint : String) : PyError :=
  .userError "IntegrityError"
    ("duplicate key value violates unique constraint \"" ++ constraint ++ "\"")

namespace PostgresRulePackRepository

/-- The empty tables. -/
def init : PostgresStore where
  ruleSets := []
  nextUuid := 0

/-- `uuid.uuid4()` -/
def uuid4 (s : PostgresStore) : Uuid × PostgresStore :=
  (s.nextUuid, { s with nextUuid := s.nextUuid + 1 })

/-- `session.get(RuleSetORM, pack_id)` -/
def row? (packId : Uuid) (s : PostgresStore) : Option RuleSetRow :=
  s.ruleSets.find? fun row => row.id == packId

/-- The rows with an identifier, replaced. -/
def writeRow (row : RuleSetRow) (s : PostgresStore) : PostgresStore :=
  { s with ruleSets := s.ruleSets.map fun r => if r.id == row.id then row else r }

/-- `rule_to_domain`: an empty exceptions clause reads as none. -/
def ruleToDomain (rule : Rule) : Rule :=
  { rule with exceptions := rule.exceptions.filter (·.tree.truthy) }

/-- `_resolve_parent_version` -/
def resolveParentVersion (parentVersionId : Option Uuid) (s : PostgresStore) : Option Int := do
  let parent ← row? (← parentVersionId) s
  return parent.version

/-- `_to_domain` -/
def toDomain (s : PostgresStore) (row : RuleSetRow) : RulePack where
  name := row.name
  version := row.version
  status := row.status
  region := row.region
  rules := row.rules.map ruleToDomain
  parentVersion := resolveParentVersion row.parentVersionId s
  id := some row.id
  tenantId := row.tenantId
  createdBy := row.createdBy
  lockVersion := row.lockVersion

/-- `rule_to_orm` for the rules of a pack, in their order: a rule without an identifier
    gets a new one. -/
def rulesToOrm : List Rule → PostgresStore → List Rule × PostgresStore
  | [], s => ([], s)
  | rule :: rest, s =>
    match rule.id with
    | some _ =>
      let (rows, s) := rulesToOrm rest s
      (rule :: rows, s)
    | none =>
      let (id, s) := uuid4 s
      let (rows, s) := rulesToOrm rest s
      ({ rule with id := some id } :: rows, s)

/-- The flush of one row of `rules`, an `UPDATE` of the row with its identifier or an
    `INSERT`, under the constraint `ux_rule_code_per_set`. -/
def flushRule (rows : List Rule) (rule : Rule) : Except PyError (List Rule) :=
  if rows.any fun r => r.id != rule.id && r.ruleCode == rule.ruleCode then
    .error (integrityError "ux_rule_code_per_set")
  else if rows.any fun r => r.id == rule.id then
    .ok (rows.map fun r => if r.id == rule.id then rule else r)
  else .ok (rows ++ [rule])

/-- The flush of the rules of one set: the `UPDATE`s, then the `INSERT`s, then the
    `DELETE`s of the rows that are no longer there. -/
def flushRules (rows rules : List Rule) : Except PyError (List Rule) := do
  let old := rules.filter fun rule => rows.any fun r => r.id == rule.id
  let new := rules.filter fun rule => !rows.any fun r => r.id == rule.id
  let _ ← (old ++ new).foldlM flushRule rows
  return rules

/-- Whether a row breaks the constraint `ux_rule_set_version`, for which a null differs
    from everything. -/
def violatesVersionKey (row : RuleSetRow) (s : PostgresStore) : Bool :=
  row.region.isSome && row.tenantId.isSome && s.ruleSets.any fun r =>
    r.id != row.id && r.name == row.name && r.version == row.version &&
      r.region == row.region && r.tenantId == row.tenantId

/-- The commit of a row that was changed when `changed` holds. -/
def commitRow (changed : Bool) (row : RuleSetRow) (s : PostgresStore) :
    Except PyError (RuleSetRow × PostgresStore) :=
  if violatesVersionKey row s then .error (integrityError "ux_rule_set_version")
  else
    let row := if changed then { row with lockVersion := row.lockVersion + 1 } else row
    .ok (row, writeRow row s)

/-- `_check_lock` and the commit of one row, found by its identifier. -/
def updateById (packId : Uuid) (expectedLockVersion : Option Nat)
    (f : RuleSetRow → Bool × RuleSetRow) (s : PostgresStore) :
    Except PyError (RulePack × PostgresStore) :=
  match row? packId s with
  | none => .error (noSuchPack packId)
  | some row => do
    checkLock (some row.id) row.lockVersion expectedLockVersion
    let (changed, row) := f row
    let (row, s) ← commitRow changed row s
    return (toDomain s row, s)

/-- The `setattr` of `update_metadata`, for one keyword argument. A tenant id is a string
    where the row holds a UUID, and so counts as a change whatever its value. -/
def setColumn : Bool × RuleSetRow → PackAttr → Bool × RuleSetRow
  | (changed, row), .name value => (changed || value != row.name, { row with name := value })
  | (changed, row), .region (some value) =>
    (changed || some value != row.region, { row with region := some value })
  | (_, row), .tenantId (some value) => (true, { row with tenantId := some value })
  | (changed, row), .createdBy value =>
    (changed || value != row.createdBy, { row with createdBy := value })
  | (changed, row), _ => (changed, row)

/-- `update_metadata` -/
def updateMetadata (packId : Uuid) (expectedLockVersion : Option Nat) (fields : List PackAttr) :
    PostgresStore → Except PyError (RulePack × PostgresStore) :=
  updateById packId expectedLockVersion fun row => fields.foldl setColumn (false, row)

/-- `update_status` -/
def updateStatus (packId : Uuid) (status : PackStatus) (expectedLockVersion : Option Nat) :
    PostgresStore → Except PyError (RulePack × PostgresStore) :=
  updateById packId expectedLockVersion fun row => (status != row.status, { row with status })

/-- `soft_delete`, which stamps `deleted_at` and so always changes the row. -/
def softDelete (packId : Uuid) (expectedLockVersion : Option Nat) :
    PostgresStore → Except PyError (RulePack × PostgresStore) :=
  updateById packId expectedLockVersion fun row => (true, { row with status := .archived })

variable (order : RowOrder)

/-- `.first()` on the rows with a name and a version. -/
def first (name : String) (version : Int) (s : PostgresStore) : Option RuleSetRow :=
  (order.rows s.ruleSets).find? fun row => row.name == name && row.version == version

/-- `save` over the row it finds: status, region, author and rules are written, name,
    version, tenant and parent are not. -/
def saveExisting (pack : RulePack) (row : RuleSetRow) (s : PostgresStore) :
    Except PyError (RulePack × PostgresStore) := do
  let (rules, s) := rulesToOrm pack.rules s
  let rules ← flushRules row.rules rules
  let changed := pack.status != row.status || pack.region != row.region ||
    pack.createdBy != row.createdBy
  let (_, s) ← commitRow changed
    { row with status := pack.status, region := pack.region, createdBy := pack.createdBy, rules } s
  return ({ pack with id := some row.id }, s)

/-- `save` of a pack there is no row for. -/
def saveNew (pack : RulePack) (s : PostgresStore) : Except PyError (RulePack × PostgresStore) := do
  let parentVersionId := do
    let parent ← first order pack.name (← pack.parentVersion) s
    return parent.id
  let (id, s) := uuid4 s
  let (rules, s) := rulesToOrm pack.rules s
  let rules ← flushRules [] rules
  let row : RuleSetRow := {
    id, name := pack.name, version := pack.version, status := pack.status, region := pack.region
    tenantId := none, parentVersionId, createdBy := pack.createdBy, lockVersion := 1, rules }
  return ({ pack with id := some id }, { s with ruleSets := s.ruleSets ++ [row] })

/-- `save` -/
def save (pack : RulePack) (s : PostgresStore) : Except PyError (RulePack × PostgresStore) :=
  match first order pack.name pack.version s with
  | some row => saveExisting pack row s
  | none => saveNew order pack s

/-- `get` -/
def get (name : String) (version : Int) (s : PostgresStore) : Option RulePack :=
  (first order name version s).map (toDomain s)

/-- `get_by_id`, which hides archived packs. -/
def getById (packId : Uuid) (s : PostgresStore) : Option RulePack :=
  ((order.rows s.ruleSets).find? fun row => row.id == packId && row.status != .archived).map
    (toDomain s)

/-- `get_active` -/
def getActive (name : String) (region : Option String) (s : PostgresStore) : Option RulePack :=
  ((order.rows s.ruleSets).find? fun row =>
    row.name == name && row.status == .active && row.region == region).map (toDomain s)

/-- `list_versions` -/
def listVersions (name : String) (s : PostgresStore) : List RulePack :=
  (((order.rows s.ruleSets).filter fun row => row.name == name).map (toDomain s)).insertionSort
    fun a b => a.version ≤ b.version

/-- `list_all` -/
def listAll (status : Option PackStatus) (region : Option String) (includeArchived : Bool)
    (limit offset : Nat) (s : PostgresStore) : List RulePack :=
  let rows := order.rows s.ruleSets
  let rows := if includeArchived then rows else rows.filter fun row => row.status != .archived
  let rows := match status with
    | none => rows
    | some status => rows.filter fun row => row.status == status
  let rows := match region with
    | none => rows
    | some region => rows.filter fun row => row.region == some region
  let packs := (rows.map (toDomain s)).insertionSort fun a b => a.nameVersion ≤ b.nameVersion
  (packs.drop offset).take limit

/-- What `activate` writes to a row: the target goes live, which stamps `activated_at`, and
    every other active row of the name is deprecated. -/
def activateRow (name : String) (target : Uuid) (row : RuleSetRow) : RuleSetRow :=
  if row.id == target then { row with status := .active, lockVersion := row.lockVersion + 1 }
  else if row.name == name && row.status == .active then
    { row with status := .deprecated, lockVersion := row.lockVersion + 1 }
  else row

/-- `activate` -/
def activate (name : String) (version : Int) (expectedLockVersion : Option Nat)
    (s : PostgresStore) : Except PyError (RulePack × PostgresStore) :=
  match first order name version s with
  | none => .error (noSuchVersion name version)
  | some target => do
    checkLock (some target.id) target.lockVersion expectedLockVersion
    let s := { s with ruleSets := s.ruleSets.map (activateRow name target.id) }
    return (toDomain s (activateRow name target.id target), s)

end PostgresRulePackRepository

/-- `PostgresRulePackRepository` behind the interface: a reference to a pack is a detached
    copy of it. -/
def postgresRulePackRepository (order : RowOrder) : RulePackRepository PostgresStore RulePack where
  pack := fun _ pack => pack
  new := fun pack s => (pack, s)
  assign := fun _ pack s => (pack, s)
  uuid4 := PostgresRulePackRepository.uuid4
  save := PostgresRulePackRepository.save order
  get := PostgresRulePackRepository.get order
  getById := PostgresRulePackRepository.getById order
  getActive := PostgresRulePackRepository.getActive order
  listVersions := PostgresRulePackRepository.listVersions order
  listAll := PostgresRulePackRepository.listAll order
  updateMetadata := PostgresRulePackRepository.updateMetadata
  updateStatus := PostgresRulePackRepository.updateStatus
  softDelete := PostgresRulePackRepository.softDelete
  activate := PostgresRulePackRepository.activate order

section

variable (order : RowOrder)

@[simp] theorem pack_postgres (s : PostgresStore) (p : RulePack) :
    (postgresRulePackRepository order).pack s p = p := rfl

@[simp] theorem assign_postgres (p q : RulePack) (s : PostgresStore) :
    (postgresRulePackRepository order).assign p q s = (q, s) := rfl

@[simp] theorem getById_postgres :
    (postgresRulePackRepository order).getById = PostgresRulePackRepository.getById order := rfl

@[simp] theorem save_postgres :
    (postgresRulePackRepository order).save = PostgresRulePackRepository.save order := rfl

@[simp] theorem updateStatus_postgres :
    (postgresRulePackRepository order).updateStatus = PostgresRulePackRepository.updateStatus := rfl

@[simp] theorem activate_postgres :
    (postgresRulePackRepository order).activate = PostgresRulePackRepository.activate order := rfl

end

end PulseGuard
