import PulseGuard.ForStd.AtomicObject
import PulseGuard.ForStd.Json
import PulseGuard.Native.RuleCacheFleet

/-!
# The Redis cache backend

`RedisCacheBackend` (`app/infrastructure/cache/redis_cache_backend.py`) as a protocol: any
number of calls of `read_active` and `write_active`, by any number of replicas, over one
Redis. A read is two `GET`s, a write two `SET`s, and the commands of different calls
interleave. The client sends a command once. One that fails raises, which ends its call; a
`SET` that failed may have reached Redis all the same, and then takes effect at some moment
after it was sent. Keys expire or are evicted at any moment, so their lifetime is left out.
Metrics and log lines are left out too.
-/

namespace PulseGuard

open AtomicObject Refinement

/-- What `uuid.uuid4().hex` gives. -/
structure UuidHex where
  text : String
  length_text : text.length = 32
  hex : ∀ c ∈ text.toList, c ∈ "0123456789abcdef".toList
deriving DecidableEq

/-- A Python value. No dictionary in it has a key twice. -/
abbrev JsonValue := { v : PyVal // Json.distinctKeys v = true }

/-- What Redis holds under a key: a token, or a payload. -/
inductive RedisValue where
  | token (text : String)
  | payload (text : List Json.Token)

/-- How far a call is: the command it makes next, or its answer. -/
inductive RedisCall where
  | ready
  | getPointer (key : String)
  | getSnapshot (key : String) (token : String)
  | setSnapshot (key : String) (token : UuidHex) (snapshot : JsonValue)
  | setPointer (key : String) (token : UuidHex)
  | finished (answer : Option PyVal)
  | returned

/-- A call of the backend. `write_active` answers `None`. -/
inductive CacheOp where
  | readActive (key : String)
  | writeActive (key : String) (snapshot : JsonValue)

/-- `RedisCacheBackend._prefix` -/
structure RedisCacheBackend where
  keyPrefix : String

/-- Redis, the calls, and the `SET`s whose calls no longer wait for them. `drawn` says for what
    a token was drawn, if it was. -/
structure RedisState (ι : Type) where
  store : String → Option RedisValue
  calls : ι → RedisCall
  inFlight : ι → Option (String × RedisValue)
  drawn : UuidHex → Option (String × JsonValue)

/-- What can happen: a call is made; its next command is answered, or fails; a `SET` in flight
    reaches Redis; a key goes; a call returns. -/
inductive RedisEvent (ι : Type) where
  | read (i : ι) (key : String)
  | write (i : ι) (key : String) (snapshot : JsonValue) (token : UuidHex)
  | command (i : ι)
  | fail (i : ι)
  | arrive (i : ι)
  | expire (redisKey : String)
  | ret (i : ι)

namespace RedisState

variable {ι : Type}

/-- An empty Redis, and no call made. -/
def start : RedisState ι where
  store := fun _ => none
  calls := fun _ => .ready
  inFlight := fun _ => none
  drawn := fun _ => none

/-- `SET` -/
def set (s : RedisState ι) (redisKey : String) (value : RedisValue) : RedisState ι :=
  { s with store := Function.update s.store redisKey (some value) }

/-- A key goes. -/
def drop (s : RedisState ι) (redisKey : String) : RedisState ι :=
  { s with store := Function.update s.store redisKey none }

/-- A token is drawn. -/
def draw (s : RedisState ι) (token : UuidHex) (key : String) (snapshot : JsonValue) :
    RedisState ι :=
  { s with drawn := Function.update s.drawn token (some (key, snapshot)) }

variable [DecidableEq ι]

/-- A call goes on. -/
def goOn (s : RedisState ι) (i : ι) (call : RedisCall) : RedisState ι :=
  { s with calls := Function.update s.calls i call }

/-- A `SET` that was sent is in flight, or none is any longer. -/
def leave (s : RedisState ι) (i : ι) (command : Option (String × RedisValue)) : RedisState ι :=
  { s with inFlight := Function.update s.inFlight i command }

@[simp] theorem calls_goOn_self (s : RedisState ι) (i : ι) (call : RedisCall) :
    (s.goOn i call).calls i = call := Function.update_self ..

theorem calls_goOn_of_ne (s : RedisState ι) {i j : ι} (h : j ≠ i) (call : RedisCall) :
    (s.goOn i call).calls j = s.calls j := Function.update_of_ne h ..

@[simp] theorem store_goOn (s : RedisState ι) (i : ι) (call : RedisCall) :
    (s.goOn i call).store = s.store := rfl

omit [DecidableEq ι] in
@[simp] theorem calls_set (s : RedisState ι) (redisKey : String) (value : RedisValue) :
    (s.set redisKey value).calls = s.calls := rfl

omit [DecidableEq ι] in
@[simp] theorem store_set_self (s : RedisState ι) (redisKey : String) (value : RedisValue) :
    (s.set redisKey value).store redisKey = some value := Function.update_self ..

omit [DecidableEq ι] in
theorem store_set_of_ne (s : RedisState ι) {redisKey other : String} (h : other ≠ redisKey)
    (value : RedisValue) : (s.set redisKey value).store other = s.store other :=
  Function.update_of_ne h ..

omit [DecidableEq ι] in
@[simp] theorem calls_draw (s : RedisState ι) (token : UuidHex) (key : String)
    (snapshot : JsonValue) : (s.draw token key snapshot).calls = s.calls := rfl

end RedisState

namespace RedisCacheBackend

variable {ι : Type} (backend : RedisCacheBackend)

/-- `_pointer_key` -/
def pointerKey (key : String) : String := backend.keyPrefix ++ ":" ++ key ++ ":pointer"

/-- `_snapshot_key` -/
def snapshotKey (key token : String) : String :=
  backend.keyPrefix ++ ":" ++ key ++ ":snapshot:" ++ token

/-- The call after the reply to the `GET` of its pointer. -/
def followPointer (key : String) : Option RedisValue → RedisCall
  | none => .finished none
  | some (.token text) => .getSnapshot key text
  -- no payload is ever stored under a pointer key
  | some (.payload _) => .finished none

/-- The answer of a call after the reply to the `GET` of its snapshot. -/
def readSnapshot : Option RedisValue → Option PyVal
  | none => none
  | some (.payload text) => Json.loads text
  -- nor a token under a snapshot key
  | some (.token _) => none

/-- The `SET` that a call makes next, if it does. -/
def nextSet : RedisCall → Option (String × RedisValue)
  | .setSnapshot key token snapshot =>
    some (backend.snapshotKey key token.text, .payload (Json.dumps snapshot.1))
  | .setPointer key token => some (backend.pointerKey key, .token token.text)
  | _ => none

variable [DecidableEq ι]

/-- The next command of `read_active` or `write_active` is answered. -/
def command (s : RedisState ι) (i : ι) : Option (RedisState ι) :=
  match s.calls i with
  | .getPointer key => some (s.goOn i (followPointer key (s.store (backend.pointerKey key))))
  | .getSnapshot key token =>
    some (s.goOn i (.finished (readSnapshot (s.store (backend.snapshotKey key token)))))
  | .setSnapshot key token snapshot =>
    some ((s.set (backend.snapshotKey key token.text) (.payload (Json.dumps snapshot.1))).goOn i
      (.setPointer key token))
  | .setPointer key token =>
    some ((s.set (backend.pointerKey key) (.token token.text)).goOn i (.finished none))
  | _ => none

/-- The next command raises, and its call ends with `None`. -/
def fail (s : RedisState ι) (i : ι) : Option (RedisState ι) :=
  match s.calls i with
  | .getPointer _ => some (s.goOn i (.finished none))
  | .getSnapshot .. => some (s.goOn i (.finished none))
  | .setSnapshot key token snapshot =>
    some ((s.goOn i (.finished none)).leave i (backend.nextSet (.setSnapshot key token snapshot)))
  | .setPointer key token =>
    some ((s.goOn i (.finished none)).leave i (backend.nextSet (.setPointer key token)))
  | _ => none

/-- One event, where it can happen. A token is drawn once. -/
def advance (s : RedisState ι) : RedisEvent ι → Option (RedisState ι)
  | .read i key =>
    match s.calls i with
    | .ready => some (s.goOn i (.getPointer key))
    | _ => none
  | .write i key snapshot token =>
    match s.calls i, s.drawn token with
    | .ready, none => some ((s.draw token key snapshot).goOn i (.setSnapshot key token snapshot))
    | _, _ => none
  | .command i => backend.command s i
  | .fail i => backend.fail s i
  | .arrive i =>
    match s.inFlight i with
    | some (redisKey, value) => some ((s.leave i none).set redisKey value)
    | none => none
  | .expire redisKey => some (s.drop redisKey)
  | .ret i =>
    match s.calls i with
    | .finished _ => some (s.goOn i .returned)
    | _ => none

/-- What is seen of an event: calls and answers, and that something went wrong. -/
def seen (s : RedisState ι) : RedisEvent ι → Option (Observation ι CacheOp (Option PyVal))
  | .read i key => some (.call i (.readActive key))
  | .write i key snapshot _ => some (.call i (.writeActive key snapshot))
  | .command _ => none
  | .fail _ => some .fault
  | .arrive _ => none
  | .expire _ => some .fault
  | .ret i =>
    match s.calls i with
    | .finished answer => some (.ret i answer)
    | _ => none

/-- The calls over Redis, as a system. -/
def system : System (RedisState ι) (RedisEvent ι) (Observation ι CacheOp (Option PyVal)) where
  step s event t := backend.advance s event = some t
  seen := seen

end RedisCacheBackend

end PulseGuard
