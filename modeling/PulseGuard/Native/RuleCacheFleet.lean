import Mathlib.Logic.Function.Basic
import PulseGuard.Native.RuleSnapshot

/-!
# Replicas over one shared layer

Any number of replicas, each with its `RuleCache`, over one shared snapshot and one database
in which packs go live. A replica answers one call at a time; a call of `get` or `refresh`
goes in steps, each of which reaches the shared layer or the database at most once, and the
steps of different replicas interleave.

The shared layer is a `RedisCacheBackend`, of which one key counts: a write sets the pointer
last, so it takes place as a whole or not at all, and a read follows the pointer to a
snapshot that never changes. Either fails while Redis is out of reach, and entries expire.
-/

namespace PulseGuard

/-- What stands behind the pointer of the key, and whether Redis can be reached just now. -/
structure SharedLayer where
  snapshot : Option PackSnapshot
  reachable : Bool

/-- `RedisCacheBackend`: what fails is swallowed. -/
def redisCacheBackend : DistributedCacheBackend PackSnapshot SharedLayer where
  readActive := fun _ d => if d.reachable then d.snapshot else none
  writeActive := fun _ snapshot d => if d.reachable then { d with snapshot := some snapshot } else d

/-- A call of the cache, `get` with the time it read first. -/
inductive CacheCall where
  | get (started : Rat)
  | refresh

namespace CacheCall

/-- The time that the local value is taken to be loaded at: `refresh` reads the clock last. -/
def loadedAt (now : Rat) : CacheCall → Rat
  | get started => started
  | refresh => now

end CacheCall

/-- How far a replica is with its call. -/
inductive CachePhase where
  | idle
  | reading (started : Rat)
  | loading (call : CacheCall)
  | loaded (call : CacheCall) (outcome : Except PyError RulePack)

/-- A pack that a call returned. -/
structure Served (R : Type) where
  replica : R
  call : CacheCall
  pack : RulePack

/-- The replicas, the snapshot they share, and the database: the active pack, and the packs in
    the order of their activations. `served` is what the calls returned, in turn. -/
structure Fleet (R : Type) where
  caches : R → RuleCache RulePack PackSnapshot SharedLayer
  phases : R → CachePhase
  snapshot : Option PackSnapshot
  active : Option RulePack
  activations : List (Option Uuid)
  served : List (Served R)

/-- What can happen. A load fails with `failure`, if any; the clock may read anything. -/
inductive FleetEvent (R : Type) where
  | get (r : R) (now : Rat)
  | refresh (r : R)
  | read (r : R) (reachable : Bool)
  | load (r : R) (failure : Option PyError)
  | finish (r : R) (now : Rat) (reachable : Bool)
  | reload (r : R)
  | activate (pack : RulePack)
  | expire

namespace Fleet

variable {R : Type}

/-- New caches, an empty shared layer and no active pack. -/
def start (ttlSeconds : Rat) (cacheKey : String) : Fleet R where
  caches := fun _ => .init ttlSeconds (some redisCacheBackend) cacheKey
  phases := fun _ => .idle
  snapshot := none
  active := none
  activations := []
  served := []

/-- The call of the loader: the active pack, unless the database fails or there is none. -/
def loader (s : Fleet R) (failure : Option PyError) : Except PyError RulePack :=
  match failure, s.active with
  | some e, _ => .error e
  | none, some pack => .ok pack
  | none, none => .error (.userError "LookupError" "No active rule set")

variable [DecidableEq R]

/-- The call of a replica goes on. -/
def setPhase (s : Fleet R) (r : R) (phase : CachePhase) : Fleet R :=
  { s with phases := Function.update s.phases r phase }

/-- The call of a replica ends, and returns its pack if it has one. -/
def settle (s : Fleet R) (r : R) (call : CacheCall) :
    Except PyError RulePack × RuleCache RulePack PackSnapshot SharedLayer × SharedLayer → Fleet R
  | (result, cache, d) => {
      s with
      caches := Function.update s.caches r cache
      phases := Function.update s.phases r .idle
      snapshot := d.snapshot
      served := match result with
        | .ok pack => s.served ++ [⟨r, call, pack⟩]
        | .error _ => s.served }

/-- One step, where it can be taken. An activation is of a pack that was never active, so
    nothing is rolled back. -/
def advance (s : Fleet R) : FleetEvent R → Option (Fleet R)
  | .get r now =>
    match s.phases r with
    | .idle =>
      match (s.caches r).ttlCache.fresh? now with
      | some pack => some (s.settle r (.get now) (.ok pack, s.caches r, ⟨s.snapshot, true⟩))
      | none => some (s.setPhase r (.reading now))
    | _ => none
  | .refresh r =>
    match s.phases r with
    | .idle => some (s.setPhase r (.loading .refresh))
    | _ => none
  | .read r reachable =>
    match s.phases r with
    | .reading started =>
      let d : SharedLayer := ⟨s.snapshot, reachable⟩
      match (s.caches r).distributedRead ruleSnapshotCodec d with
      | some pack => some (s.settle r (.get started) (RuleCache.store started
          (.ok pack, { s.caches r with lastKnownGood := some pack }, d)))
      | none => some (s.setPhase r (.loading (.get started)))
    | _ => none
  | .load r failure =>
    match s.phases r with
    | .loading call => some (s.setPhase r (.loaded call (s.loader failure)))
    | _ => none
  | .finish r now reachable =>
    match s.phases r with
    | .loaded call outcome => some (s.settle r call (RuleCache.store (call.loadedAt now)
        ((s.caches r).loadFromSourceAndPropagate ruleSnapshotCodec outcome
          ⟨s.snapshot, reachable⟩)))
    | _ => none
  | .reload r =>
    match s.phases r with
    | .idle => some { s with caches := Function.update s.caches r (s.caches r).reload }
    | _ => none
  | .activate pack =>
    if s.activations.contains pack.id then none
    else some { s with active := some pack, activations := s.activations ++ [pack.id] }
  | .expire => some { s with snapshot := none }

/-- One step of the fleet. -/
def Step (s : Fleet R) (event : FleetEvent R) (t : Fleet R) : Prop := s.advance event = some t

/-- The steps in turn. -/
def advances (s : Fleet R) : List (FleetEvent R) → Option (Fleet R)
  | [] => some s
  | event :: rest => (s.advance event).bind fun t => t.advances rest

@[simp] theorem setPhase_setPhase (s : Fleet R) (r : R) (phase phase' : CachePhase) :
    (s.setPhase r phase).setPhase r phase' = s.setPhase r phase' := by
  simp [setPhase]

@[simp] theorem settle_setPhase (s : Fleet R) (r : R) (phase : CachePhase) (call : CacheCall)
    (x : Except PyError RulePack × RuleCache RulePack PackSnapshot SharedLayer × SharedLayer) :
    (s.setPhase r phase).settle r call x = s.settle r call x := by
  simp [setPhase, settle]

/-- The steps of a `refresh` with nothing between them make up `RuleCache.refresh`. -/
theorem refresh_alone {s : Fleet R} {r : R} (hidle : s.phases r = .idle)
    (failure : Option PyError) (now : Rat) (reachable : Bool) :
    s.advances [.refresh r, .load r failure, .finish r now reachable] =
      some (s.settle r .refresh ((s.caches r).refresh ruleSnapshotCodec (s.loader failure) now
        ⟨s.snapshot, reachable⟩)) := by
  have hrefresh : s.advance (.refresh r) = some (s.setPhase r (.loading .refresh)) := by
    simp only [advance, hidle]
  have hload : (s.setPhase r (.loading .refresh)).advance (.load r failure) =
      some (s.setPhase r (.loaded .refresh (s.loader failure))) := by
    simp [advance, setPhase, loader]
  have hfinish : (s.setPhase r (.loaded .refresh (s.loader failure))).advance
      (.finish r now reachable) =
      some (s.settle r .refresh ((s.caches r).refresh ruleSnapshotCodec (s.loader failure) now
        ⟨s.snapshot, reachable⟩)) := by
    rw [← settle_setPhase s r (.loaded .refresh (s.loader failure))]
    simp only [advance, setPhase, Function.update_self]
    rfl
  simp [advances, hrefresh, hload, hfinish]

/-- The steps of a `get` with nothing between them make up `RuleCache.get`. -/
theorem get_alone {s : Fleet R} {r : R} (hidle : s.phases r = .idle)
    (failure : Option PyError) (now : Rat) (reachable : Bool) :
    ∃ events, s.advances events =
      some (s.settle r (.get now) ((s.caches r).get ruleSnapshotCodec (s.loader failure) now
        ⟨s.snapshot, reachable⟩)) := by
  cases hfresh : (s.caches r).ttlCache.fresh? now with
  | some pack =>
    refine ⟨[.get r now], ?_⟩
    rw [RuleCache.get_of_fresh hfresh]
    simp [advances, advance, hidle, hfresh, settle]
  | none =>
    have hget : s.advance (.get r now) = some (s.setPhase r (.reading now)) := by
      simp only [advance, hidle, hfresh]
    cases hread : (s.caches r).distributedRead ruleSnapshotCodec ⟨s.snapshot, reachable⟩ with
    | some pack =>
      refine ⟨[.get r now, .read r reachable], ?_⟩
      have hhit : (s.setPhase r (.reading now)).advance (.read r reachable) =
          some (s.settle r (.get now) (RuleCache.store now (.ok pack,
            { s.caches r with lastKnownGood := some pack }, ⟨s.snapshot, reachable⟩))) := by
        rw [← settle_setPhase s r (.reading now)]
        simp only [advance, setPhase, Function.update_self, hread]
      rw [RuleCache.get_of_read hfresh hread]
      simp only [advances, hget, Option.bind_some, hhit]
      rfl
    | none =>
      refine ⟨[.get r now, .read r reachable, .load r failure, .finish r now reachable], ?_⟩
      have hmiss : (s.setPhase r (.reading now)).advance (.read r reachable) =
          some (s.setPhase r (.loading (.get now))) := by
        rw [← setPhase_setPhase s r (.reading now) (.loading (.get now))]
        simp only [advance, setPhase, Function.update_self, hread, Function.update_idem]
      have hload : (s.setPhase r (.loading (.get now))).advance (.load r failure) =
          some (s.setPhase r (.loaded (.get now) (s.loader failure))) := by
        simp [advance, setPhase, loader]
      have hfinish : (s.setPhase r (.loaded (.get now) (s.loader failure))).advance
          (.finish r now reachable) = some (s.settle r (.get now) (RuleCache.store now
            ((s.caches r).loadFromSourceAndPropagate ruleSnapshotCodec (s.loader failure)
              ⟨s.snapshot, reachable⟩))) := by
        rw [← settle_setPhase s r (.loaded (.get now) (s.loader failure))]
        simp only [advance, setPhase, Function.update_self]
        rfl
      rw [RuleCache.get_of_miss hfresh hread]
      simp [advances, hget, hmiss, hload, hfinish]

end Fleet

end PulseGuard
