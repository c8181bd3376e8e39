import Mathlib.Algebra.Order.Ring.Unbundled.Rat
import PulseGuard.ForStd.PyVal

/-!
# The rule cache

`TTLCache` (`app/core/cache.py`) and `RuleCache` (`app/infrastructure/cache/rule_cache.py`):
a local value that lives for a while, in front of a shared layer, in front of a loader.

The packs `α` and the snapshots `β` are never looked into. A loader stands for the outcome of
its call, which counts only where the source makes that call; `now` is what
`time.monotonic()` gives during the method. Metrics and log lines are left out.
-/

namespace PulseGuard

variable {α β δ : Type}

/-- `TTLCache` -/
structure TTLCache (α : Type) where
  ttlSeconds : Rat
  value : Option α
  loadedAt : Rat

namespace TTLCache

/-- `__init__` -/
def init (ttlSeconds : Rat) : TTLCache α where
  ttlSeconds := ttlSeconds
  value := none
  loadedAt := 0

/-- The value that `get` returns without calling its loader. -/
def fresh? (cache : TTLCache α) (now : Rat) : Option α :=
  cache.value.filter fun _ => !decide (now - cache.loadedAt > cache.ttlSeconds)

theorem value_of_fresh {cache : TTLCache α} {now : Rat} {value : α}
    (h : cache.fresh? now = some value) : cache.value = some value :=
  (Option.filter_eq_some_iff.mp h).1

/-- `set`, and what `get` does with the value it has loaded. -/
def set (cache : TTLCache α) (value : α) (now : Rat) : TTLCache α :=
  { cache with value := some value, loadedAt := now }

/-- `invalidate` and `reload` -/
def invalidate (cache : TTLCache α) : TTLCache α := { cache with value := none, loadedAt := 0 }

end TTLCache

/-- `DistributedCacheBackend` over a state `δ`. By its contract no method raises: a backend
    out of reach reads as a miss and drops a write. -/
structure DistributedCacheBackend (β δ : Type) where
  readActive : String → δ → Option β
  writeActive : String → β → δ → δ

/-- `rule_pack_to_snapshot` and `rule_pack_from_snapshot` -/
structure SnapshotCodec (α β : Type) where
  toSnapshot : α → β
  fromSnapshot : β → Except PyError α

/-- `RuleCache`. Of the default loader it keeps whether one is bound. -/
structure RuleCache (α β δ : Type) where
  ttlCache : TTLCache α
  distributed : Option (DistributedCacheBackend β δ)
  cacheKey : String
  loaderBound : Bool
  lastKnownGood : Option α

namespace RuleCache

/-- `__init__` -/
def init (ttlSeconds : Rat) (distributed : Option (DistributedCacheBackend β δ))
    (cacheKey : String) : RuleCache α β δ where
  ttlCache := TTLCache.init ttlSeconds
  distributed := distributed
  cacheKey := cacheKey
  loaderBound := false
  lastKnownGood := none

/-- `bind_loader` -/
def bindLoader (cache : RuleCache α β δ) : RuleCache α β δ := { cache with loaderBound := true }

variable (codec : SnapshotCodec α β)

/-- `_distributed_read`: an unreadable snapshot is a miss. -/
def distributedRead (cache : RuleCache α β δ) (d : δ) : Option α := do
  let distributed ← cache.distributed
  let snapshot ← distributed.readActive cache.cacheKey d
  (codec.fromSnapshot snapshot).toOption

/-- `_distributed_write` -/
def distributedWrite (cache : RuleCache α β δ) (pack : α) (d : δ) : δ :=
  match cache.distributed with
  | none => d
  | some distributed => distributed.writeActive cache.cacheKey (codec.toSnapshot pack) d

/-- `_load_from_source_and_propagate` -/
def loadFromSourceAndPropagate (cache : RuleCache α β δ) (loader : Except PyError α) (d : δ) :
    Except PyError α × RuleCache α β δ × δ :=
  match loader with
  | .error e =>
    match cache.lastKnownGood with
    | some pack => (.ok pack, cache, d)
    | none => (.error e, cache, d)
  | .ok pack => (.ok pack, { cache with lastKnownGood := some pack },
      cache.distributedWrite codec pack d)

/-- `_resolve_for_get` -/
def resolveForGet (cache : RuleCache α β δ) (loader : Except PyError α) (d : δ) :
    Except PyError α × RuleCache α β δ × δ :=
  match cache.distributedRead codec d with
  | some pack => (.ok pack, { cache with lastKnownGood := some pack }, d)
  | none => cache.loadFromSourceAndPropagate codec loader d

/-- The local value becomes the pack that was resolved, if one was. -/
def store (now : Rat) : Except PyError α × RuleCache α β δ × δ →
    Except PyError α × RuleCache α β δ × δ
  | (.ok pack, cache, d) => (.ok pack, { cache with ttlCache := cache.ttlCache.set pack now }, d)
  | (.error e, cache, d) => (.error e, cache, d)

/-- `get` and `warmup` -/
def get (cache : RuleCache α β δ) (loader : Except PyError α) (now : Rat) (d : δ) :
    Except PyError α × RuleCache α β δ × δ :=
  match cache.ttlCache.fresh? now with
  | some pack => (.ok pack, cache, d)
  | none => store now (cache.resolveForGet codec loader d)

section

variable {codec} {cache : RuleCache α β δ} {loader : Except PyError α} {now : Rat} {d : δ} {pack : α}

theorem get_of_fresh (hfresh : cache.ttlCache.fresh? now = some pack) :
    cache.get codec loader now d = (.ok pack, cache, d) := by
  simp only [get, hfresh]

theorem get_of_read (hstale : cache.ttlCache.fresh? now = none)
    (hread : cache.distributedRead codec d = some pack) :
    cache.get codec loader now d =
      (.ok pack, { cache with ttlCache := cache.ttlCache.set pack now, lastKnownGood := some pack },
        d) := by
  simp only [get, hstale, resolveForGet, hread]
  rfl

theorem get_of_miss (hstale : cache.ttlCache.fresh? now = none)
    (hmiss : cache.distributedRead codec d = none) :
    cache.get codec loader now d = store now (cache.loadFromSourceAndPropagate codec loader d) := by
  simp only [get, hstale, resolveForGet, hmiss]

end

/-- `refresh` -/
def refresh (cache : RuleCache α β δ) (loader : Except PyError α) (now : Rat) (d : δ) :
    Except PyError α × RuleCache α β δ × δ :=
  store now (cache.loadFromSourceAndPropagate codec loader d)

/-- `reload` and `invalidate` -/
def reload (cache : RuleCache α β δ) : RuleCache α β δ :=
  { cache with ttlCache := cache.ttlCache.invalidate }

/-- `_on_event`, for an event on an entity of the given type. -/
def onEvent (cache : RuleCache α β δ) (entityType : String) (defaultLoader : Except PyError α)
    (now : Rat) (d : δ) : RuleCache α β δ × δ :=
  if entityType != "rule_pack" && entityType != "rule" then (cache, d)
  else if cache.loaderBound then (cache.refresh codec defaultLoader now d).2
  else (cache.reload, d)

end RuleCache

end PulseGuard
