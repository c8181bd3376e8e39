import PulseGuard.Native.PostgresRulePackRepository
import PulseGuard.Native.RuleSnapshot

/-!
# The hot path's repository

`PostgresRuleRepository` (`app/infrastructure/repositories/postgres_rule_repository.py`): the
active pack of one name, read through a `RuleCache` when there is one. The tenant, which the
query does not look at, is passed on as in the source.
-/

namespace PulseGuard

/-- The tables, with the rows that have a `deleted_at`. -/
structure RuleDatabase where
  store : PostgresStore
  deleted : Uuid → Bool

/-- `PostgresRuleRepository` -/
structure PostgresRuleRepository (δ : Type) where
  ruleSetName : String
  cache : Option (RuleCache RulePack PackSnapshot δ)

namespace PostgresRuleRepository

/-- `raise LookupError(...)` -/
def noActiveRuleSet (ruleSetName : String) (region : Option String) : PyError :=
  .userError "LookupError" ("No active rule set named '" ++ ruleSetName ++ "' for region=" ++
    ((region.map PyVal.reprStr).getD "None") ++
    ". Run scripts/seed_base_rule_pack.py, or create+publish+activate one via " ++
    "POST /api/v1/rule-packs, after migrating.")

/-- `_load_from_db`. The pack it builds has no lock version. -/
def loadFromDb (order : RowOrder) (ruleSetName : String) (region _tenant : Option String)
    (db : RuleDatabase) : Except PyError RulePack :=
  match (order.rows db.store.ruleSets).find? fun row =>
      row.name == ruleSetName && row.status == .active && row.region == region &&
        !db.deleted row.id with
  | none => .error (noActiveRuleSet ruleSetName region)
  | some row => .ok { PostgresRulePackRepository.toDomain db.store row with lockVersion := 1 }

variable {δ : Type}

/-- `get_active` -/
def getActive (order : RowOrder) (repository : PostgresRuleRepository δ)
    (region tenant : Option String) (now : Rat) (db : RuleDatabase) (d : δ) :
    Except PyError RulePack × PostgresRuleRepository δ × δ :=
  let loader := loadFromDb order repository.ruleSetName region tenant db
  match repository.cache with
  | none => (loader, repository, d)
  | some cache =>
    let (pack, cache, d) := cache.get ruleSnapshotCodec loader now d
    (pack, { repository with cache := some cache }, d)

/-- The query does not look at the tenant. -/
theorem loadFromDb_tenant (order : RowOrder) (ruleSetName : String)
    (region tenant tenant' : Option String) (db : RuleDatabase) :
    loadFromDb order ruleSetName region tenant db =
      loadFromDb order ruleSetName region tenant' db := rfl

end PostgresRuleRepository

end PulseGuard
