import Mathlib.Logic.Function.Basic
import PulseGuard.Native.RulePackRepository

/-!
# The in-memory repository

`InMemoryRulePackRepository`: a dictionary from `(name, version)` to pack objects
(`app/infrastructure/repositories/in_memory_rule_pack_repository.py`).

The objects are shared: a use case that changes a pack it was given changes the stored
object, and a pack whose name is changed stays under its old key, so that a later `save`
puts the same object under two keys. The model keeps the objects on a heap and references
in the dictionary. The timestamps and the cache of the active pack, which nothing here
reads, are left out.
-/

namespace PulseGuard

/-- The address of a `RulePack` object. -/
abbrev PackRef := Nat

/-- The heap of pack objects, `_store`, and the supply of identifiers. -/
structure InMemoryStore where
  objects : PackRef → RulePack
  nextRef : PackRef
  store : Dict (String × Int) PackRef
  nextUuid : Uuid

namespace InMemoryRulePackRepository

/-- A pack object that no reference leads to. -/
def blank : RulePack where
  name := ""
  version := 0
  status := .draft
  region := none
  rules := []
  parentVersion := none
  id := none
  tenantId := none
  createdBy := "system"
  lockVersion := 1

/-- `__init__` -/
def init : InMemoryStore where
  objects := fun _ => blank
  nextRef := 0
  store := Dict.empty
  nextUuid := 0

/-- The object a reference leads to. -/
def pack (s : InMemoryStore) (ref : PackRef) : RulePack := s.objects ref

/-- The construction of a pack object. -/
def new (p : RulePack) (s : InMemoryStore) : PackRef × InMemoryStore :=
  (s.nextRef, { s with objects := Function.update s.objects s.nextRef p, nextRef := s.nextRef + 1 })

/-- A change of an object in place. -/
def assign (ref : PackRef) (p : RulePack) (s : InMemoryStore) : PackRef × InMemoryStore :=
  (ref, { s with objects := Function.update s.objects ref p })

/-- `uuid.uuid4()` -/
def uuid4 (s : InMemoryStore) : Uuid × InMemoryStore :=
  (s.nextUuid, { s with nextUuid := s.nextUuid + 1 })

/-- `self._store.values()` -/
def refs (s : InMemoryStore) : List PackRef := s.store.values

/-- The identifier `save` gives an object that has none. -/
def assignId (ref : PackRef) (s : InMemoryStore) : InMemoryStore :=
  match (s.objects ref).id with
  | some _ => s
  | none =>
    let (id, s) := uuid4 s
    (assign ref { s.objects ref with id := some id } s).2

/-- `save` -/
def save (ref : PackRef) (s : InMemoryStore) : Except PyError (PackRef × InMemoryStore) :=
  let s := assignId ref s
  let p := s.objects ref
  .ok (ref, { s with store := s.store.set (p.name, p.version) ref })

/-- `get` -/
def get (name : String) (version : Int) (s : InMemoryStore) : Option PackRef :=
  s.store.get? (name, version)

/-- `get_by_id` -/
def getById (packId : Uuid) (s : InMemoryStore) : Option PackRef :=
  (refs s).find? fun ref => (s.objects ref).id == some packId

/-- `get_active` -/
def getActive (name : String) (region : Option String) (s : InMemoryStore) : Option PackRef :=
  (refs s).find? fun ref =>
    let p := s.objects ref
    p.name == name && p.status == .active && p.region == region

/-- `list_versions` -/
def listVersions (name : String) (s : InMemoryStore) : List PackRef :=
  ((refs s).filter fun ref => (s.objects ref).name == name).insertionSort fun a b =>
    (s.objects a).version ≤ (s.objects b).version

/-- `list_all` -/
def listAll (status : Option PackStatus) (region : Option String) (includeArchived : Bool)
    (limit offset : Nat) (s : InMemoryStore) : List PackRef :=
  let packs := refs s
  let packs := if includeArchived then packs
    else packs.filter fun ref => (s.objects ref).status != .archived
  let packs := match status with
    | none => packs
    | some status => packs.filter fun ref => (s.objects ref).status == status
  let packs := match region with
    | none => packs
    | some region => packs.filter fun ref => (s.objects ref).region == some region
  let packs := packs.insertionSort fun a b =>
    (s.objects a).nameVersion ≤ (s.objects b).nameVersion
  (packs.drop offset).take limit

/-- Changes the object of the pack with an identifier, after the lock check. -/
def updateById (packId : Uuid) (expectedLockVersion : Option Nat) (f : RulePack → RulePack)
    (s : InMemoryStore) : Except PyError (PackRef × InMemoryStore) :=
  match getById packId s with
  | none => .error (noSuchPack packId)
  | some ref => do
    let p := s.objects ref
    checkLock p.id p.lockVersion expectedLockVersion
    let p := f p
    return assign ref { p with lockVersion := p.lockVersion + 1 } s

/-- `update_metadata` -/
def updateMetadata (packId : Uuid) (expectedLockVersion : Option Nat) (fields : List PackAttr) :
    InMemoryStore → Except PyError (PackRef × InMemoryStore) :=
  updateById packId expectedLockVersion fun p => fields.foldl PackAttr.set p

/-- `update_status` -/
def updateStatus (packId : Uuid) (status : PackStatus) (expectedLockVersion : Option Nat) :
    InMemoryStore → Except PyError (PackRef × InMemoryStore) :=
  updateById packId expectedLockVersion fun p => { p with status }

/-- `soft_delete` -/
def softDelete (packId : Uuid) (expectedLockVersion : Option Nat) :
    InMemoryStore → Except PyError (PackRef × InMemoryStore) :=
  updateById packId expectedLockVersion fun p => { p with status := .archived }

/-- The deprecation of one pack, when it is active. -/
def deprecateActive (s : InMemoryStore) (ref : PackRef) : InMemoryStore :=
  let p := s.objects ref
  if p.status == .active then
    (assign ref { p with status := .deprecated, lockVersion := p.lockVersion + 1 } s).2
  else s

/-- `activate` -/
def activate (name : String) (version : Int) (expectedLockVersion : Option Nat)
    (s : InMemoryStore) : Except PyError (PackRef × InMemoryStore) :=
  match get name version s with
  | none => .error (noSuchVersion name version)
  | some target => do
    checkLock (s.objects target).id (s.objects target).lockVersion expectedLockVersion
    let s := (listVersions name s).foldl deprecateActive s
    let p := s.objects target
    return assign target { p with status := .active, lockVersion := p.lockVersion + 1 } s

end InMemoryRulePackRepository

/-- `InMemoryRulePackRepository` behind the interface. -/
def inMemoryRulePackRepository : RulePackRepository InMemoryStore PackRef where
  pack := InMemoryRulePackRepository.pack
  new := InMemoryRulePackRepository.new
  assign := InMemoryRulePackRepository.assign
  uuid4 := InMemoryRulePackRepository.uuid4
  save := InMemoryRulePackRepository.save
  get := InMemoryRulePackRepository.get
  getById := InMemoryRulePackRepository.getById
  getActive := InMemoryRulePackRepository.getActive
  listVersions := InMemoryRulePackRepository.listVersions
  listAll := InMemoryRulePackRepository.listAll
  updateMetadata := InMemoryRulePackRepository.updateMetadata
  updateStatus := InMemoryRulePackRepository.updateStatus
  softDelete := InMemoryRulePackRepository.softDelete
  activate := InMemoryRulePackRepository.activate

end PulseGuard
