import Mathlib.Data.String.Basic
import PulseGuard.Native.RuleData

/-!
# The repository interface

`RulePackRepository`, the lifecycle repository behind the use cases
(`app/domain/interfaces/rule_pack_repository.py`), over a state `σ` and a type `ρ` of
references to packs. A use case holds the packs it is given by reference and may change
them in place: in memory that changes the stored object, with Postgres a detached copy.
-/

namespace PulseGuard

/-- One keyword argument of `update_metadata`: an attribute of `RulePack` and its value. -/
inductive PackAttr where
  | name (value : String)
  | version (value : Int)
  | status (value : PackStatus)
  | region (value : Option String)
  | rules (value : List Rule)
  | parentVersion (value : Option Int)
  | id (value : Option Uuid)
  | tenantId (value : Option String)
  | createdBy (value : String)
  | lockVersion (value : Nat)

namespace PackAttr

/-- `setattr(pack, key, value)` -/
def set (pack : RulePack) : PackAttr → RulePack
  | name value => { pack with name := value }
  | version value => { pack with version := value }
  | status value => { pack with status := value }
  | region value => { pack with region := value }
  | rules value => { pack with rules := value }
  | parentVersion value => { pack with parentVersion := value }
  | id value => { pack with id := value }
  | tenantId value => { pack with tenantId := value }
  | createdBy value => { pack with createdBy := value }
  | lockVersion value => { pack with lockVersion := value }

/-- The attributes that are metadata: what the PATCH route sends, and `created_by`. -/
def isMetadata : PackAttr → Bool
  | name _ | region _ | tenantId _ | createdBy _ => true
  | _ => false

end PackAttr

/-- The key `list_all` sorts by: `(name, version)`. -/
def RulePack.nameVersion (pack : RulePack) : String ×ₗ Int := toLex (pack.name, pack.version)

/-- `ConcurrentModificationError` -/
def concurrentModification (message : String) : PyError :=
  .userError "ConcurrentModificationError" message

/-- What `_check_lock` raises. -/
def staleLock (id : Option Uuid) (expected current : Nat) : PyError :=
  concurrentModification ("Rule pack " ++ ((id.map toString).getD "None") ++
    " was modified by someone else since it was loaded (expected lock_version=" ++
    toString expected ++ ", current=" ++ toString current ++
    ") -- reload the latest version and retry your change.")

/-- `_check_lock` -/
def checkLock (id : Option Uuid) (current : Nat) (expected : Option Nat) : Except PyError Unit :=
  match expected with
  | none => .ok ()
  | some n => if current == n then .ok () else .error (staleLock id n current)

theorem checkLock_ok_iff {id : Option Uuid} {current : Nat} {expected : Option Nat} :
    checkLock id current expected = .ok () ↔ ∀ n, expected = some n → current = n := by
  unfold checkLock
  cases expected with
  | none => simp
  | some n =>
    by_cases h : current = n
    · simp [h]
    · simp [h]

/-- `raise ValueError(f"No such rule pack: {pack_id}")` -/
def noSuchPack (packId : Uuid) : PyError := .valueError ("No such rule pack: " ++ toString packId)

/-- `raise ValueError(f"No such rule pack version: {name} v{version}")` -/
def noSuchVersion (name : String) (version : Int) : PyError :=
  .valueError ("No such rule pack version: " ++ name ++ " v" ++ toString version)

/-- The operations of `RulePackRepository`. `pack` reads a reference, `new` constructs a
    `RulePack`, `assign` changes one in place, `uuid4` draws an identifier. -/
structure RulePackRepository (σ ρ : Type) where
  pack : σ → ρ → RulePack
  new : RulePack → σ → ρ × σ
  assign : ρ → RulePack → σ → ρ × σ
  uuid4 : σ → Uuid × σ
  save : ρ → σ → Except PyError (ρ × σ)
  get : String → Int → σ → Option ρ
  getById : Uuid → σ → Option ρ
  getActive : String → Option String → σ → Option ρ
  listVersions : String → σ → List ρ
  listAll : (status : Option PackStatus) → (region : Option String) → (includeArchived : Bool) →
    (limit offset : Nat) → σ → List ρ
  updateMetadata : Uuid → (expectedLockVersion : Option Nat) → List PackAttr → σ →
    Except PyError (ρ × σ)
  updateStatus : Uuid → PackStatus → (expectedLockVersion : Option Nat) → σ →
    Except PyError (ρ × σ)
  softDelete : Uuid → (expectedLockVersion : Option Nat) → σ → Except PyError (ρ × σ)
  activate : String → Int → (expectedLockVersion : Option Nat) → σ → Except PyError (ρ × σ)

end PulseGuard
