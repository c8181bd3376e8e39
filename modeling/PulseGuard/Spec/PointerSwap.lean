import PulseGuard.Native.RedisCacheBackend
import PulseGuard.Native.SnapshotText

/-!
# The pointer swap is atomic

The calls of the Redis backend behave as if every read and every write took place at one
moment, on one snapshot for each key: the histories of the protocol, whatever the order of
its commands, are the linearizable ones of that object (`history_linearizes`). A read takes
place when it fetches the pointer, a write when it moves the pointer. That a read finds the
snapshot which the pointer named is due to the tokens: nothing is written under one twice.
-/

namespace PulseGuard

open AtomicObject Refinement

/-- The shared layer as one object: a snapshot for each key. -/
def sharedLayer : Object (String → Option JsonValue) CacheOp (Option PyVal) where
  apply op active :=
    match op with
    | .readActive key => ((active key).map Subtype.val, active)
    | .writeActive key snapshot => (none, Function.update active key (some snapshot))
  lost _ := none

/-- Nothing has been written. -/
def noSnapshots : String → Option JsonValue := fun _ => none

/-- One key of the shared layer, as the fleet of replicas sees it. -/
def layerAt (active : String → Option JsonValue) (key : String) : SharedLayer where
  snapshot := (active key).bind fun v => PackSnapshot.ofVal v.1
  reachable := true

/-- A read of the fleet is one of this object. -/
theorem layerAt_readActive (active : String → Option JsonValue) (key : String) :
    redisCacheBackend.readActive key (layerAt active key) =
      (sharedLayer.apply (.readActive key) active).1.bind PackSnapshot.ofVal := by
  simp only [redisCacheBackend, layerAt, sharedLayer, Option.bind_map]
  rfl

/-- So is a write, of a snapshot that can be read back. -/
theorem layerAt_writeActive (active : String → Option JsonValue) (key : String) {v : JsonValue}
    {snapshot : PackSnapshot} (h : PackSnapshot.ofVal v.1 = some snapshot) :
    layerAt (sharedLayer.apply (.writeActive key v) active).2 key =
      redisCacheBackend.writeActive key snapshot (layerAt active key) := by
  simp [redisCacheBackend, layerAt, sharedLayer, h]

/-! ## Keys -/

namespace RedisCacheBackend

variable (backend : RedisCacheBackend)

theorem pointerKey_inj {key key' : String}
    (h : backend.pointerKey key = backend.pointerKey key') : key = key' := by
  have hlists := congrArg String.toList h
  simp only [pointerKey, String.toList_append, List.append_assoc] at hlists
  rw [List.append_cancel_left_eq, List.append_cancel_left_eq, List.append_cancel_right_eq] at hlists
  exact String.toList_inj.mp hlists

theorem snapshotKey_inj {key key' : String} {token token' : UuidHex}
    (h : backend.snapshotKey key token.text = backend.snapshotKey key' token'.text) :
    key = key' ∧ token = token' := by
  have hlists := congrArg String.toList h
  simp only [snapshotKey, String.toList_append, List.append_assoc] at hlists
  rw [List.append_cancel_left_eq, List.append_cancel_left_eq, ← List.append_assoc,
    ← List.append_assoc] at hlists
  -- tokens have one length, so what stands before them is one text
  have hlength : token.text.toList.length = token'.text.toList.length := by
    rw [String.length_toList, String.length_toList, token.length_text, token'.length_text]
  obtain ⟨hkeys, htokens⟩ := List.append_inj' hlists hlength
  rw [List.append_cancel_right_eq] at hkeys
  refine ⟨String.toList_inj.mp hkeys, ?_⟩
  cases token
  cases token'
  cases String.toList_inj.mp htokens
  rfl

theorem pointerKey_ne_snapshotKey (key key' : String) (token : UuidHex) :
    backend.pointerKey key ≠ backend.snapshotKey key' token.text := by
  intro h
  -- A pointer key ends in an `r`, a snapshot key in a hexadecimal digit.
  have hlast := congrArg (fun text => text.toList.getLast?) h
  simp only [pointerKey, snapshotKey, String.toList_append] at hlast
  have hne : token.text.toList ≠ [] := by
    intro hnil
    have hlength := token.length_text
    rw [← String.length_toList, hnil] at hlength
    cases hlength
  rw [List.getLast?_append_of_ne_nil _ hne, List.getLast?_append_of_ne_nil _ (by decide)] at hlast
  have hr : 'r' ∈ token.text.toList := List.mem_of_getLast? hlast.symm
  exact absurd (token.hex 'r' hr) (by decide)

end RedisCacheBackend

/-! ## The simulation -/

/-- What tokens were drawn for. -/
abbrev Drawn := UuidHex → Option (String × JsonValue)

section

variable (backend : RedisCacheBackend) (drawn : Drawn)

/-- What can be in flight of a call that ended early: nothing, the snapshot of a write, whose
    arrival changes nothing, or its pointer, whose arrival is the write. -/
inductive Sends (op : CacheOp) : Bool → Option (String × RedisValue) → Prop where
  | nothing (late : Bool) : Sends op late none
  | snapshot {key : String} {token : UuidHex} {v : JsonValue} (late : Bool)
      (hdrawn : drawn token = some (key, v)) :
      Sends op late (some (backend.snapshotKey key token.text, .payload (Json.dumps v.1)))
  | pointer {key : String} {token : UuidHex} {v : JsonValue} (hdrawn : drawn token = some (key, v))
      (hop : op = .writeActive key v) :
      Sends op true (some (backend.pointerKey key, .token token.text))

/-- How a call over Redis stands as a call of the object. -/
inductive Matches : RedisCall → Option (String × RedisValue) → Phase CacheOp (Option PyVal) →
    Prop where
  | ready : Matches .ready none .ready
  | getPointer (key : String) : Matches (.getPointer key) none (.called (.readActive key))
  | getSnapshot {key : String} {token : UuidHex} {v : JsonValue}
      (hdrawn : drawn token = some (key, v)) :
      Matches (.getSnapshot key token.text) none (.done (.readActive key) (some v.1))
  | setSnapshot {key : String} {token : UuidHex} {v : JsonValue}
      (hdrawn : drawn token = some (key, v)) :
      Matches (.setSnapshot key token v) none (.called (.writeActive key v))
  | setPointer {key : String} {token : UuidHex} {v : JsonValue}
      (hdrawn : drawn token = some (key, v)) :
      Matches (.setPointer key token) none (.called (.writeActive key v))
  | finished (op : CacheOp) (answer : Option PyVal) : Matches (.finished answer) none (.done op answer)
  | dropped {op : CacheOp} {late : Bool} {command : Option (String × RedisValue)}
      (hsends : Sends backend drawn op late command) :
      Matches (.finished none) command (.dropped op late)
  | returned {op : CacheOp} {late : Bool} {command : Option (String × RedisValue)}
      (hsends : Sends backend drawn op late command) : Matches .returned command (.returned op late)

end

/-- What a call holds of a token has its snapshot. -/
def Held (backend : RedisCacheBackend) (store : String → Option RedisValue) : RedisCall → Prop
  | .getSnapshot key text => store (backend.snapshotKey key text) ≠ none
  | .setPointer key token => store (backend.snapshotKey key token.text) ≠ none
  | _ => True

section

variable {ι : Type} (backend : RedisCacheBackend)

/-- What holds while nothing has gone wrong: a key without a pointer was never written, and no
    pointer, nor token that a call holds, lacks its snapshot. -/
structure Exact (s : RedisState ι) (active : String → Option JsonValue) : Prop where
  unwritten : ∀ {key}, s.store (backend.pointerKey key) = none → active key = none
  pointed : ∀ {key text}, s.store (backend.pointerKey key) = some (.token text) →
    s.store (backend.snapshotKey key text) ≠ none
  held : ∀ i, Held backend s.store (s.calls i)

/-- Redis and its calls stand for an object that has the snapshots `active`, and its calls. A
    pointer names the snapshot that the object has, and what is stored under a token is what
    the token was drawn for. -/
structure StandsFor (s : RedisState ι) (phases : ι → Phase CacheOp (Option PyVal)) (faulty : Bool)
    (active : String → Option JsonValue) : Prop where
  matched : ∀ i, Matches backend s.drawn (s.calls i) (s.inFlight i) (phases i)
  pointers : ∀ {key value}, s.store (backend.pointerKey key) = some value →
    ∃ token v, value = .token token.text ∧ s.drawn token = some (key, v) ∧ active key = some v
  snapshots : ∀ {key token value}, s.store (backend.snapshotKey key token.text) = some value →
    ∃ v, s.drawn token = some (key, v) ∧ value = .payload (Json.dumps v.1)
  sent : ∀ {i}, s.inFlight i ≠ none → faulty = true
  exact : faulty = false → Exact backend s active

end

theorem drawn_kept {drawn : Drawn} {token token' : UuidHex} {e e' : String × JsonValue}
    (hnew : drawn token = none) (hdrawn : drawn token' = some e) :
    Function.update drawn token (some e') token' = some e := by
  rw [Function.update_of_ne, hdrawn]
  intro heq
  rw [heq, hnew] at hdrawn
  cases hdrawn

variable {ι : Type} {backend : RedisCacheBackend}

theorem Sends.draw {drawn : Drawn} {op : CacheOp} {late : Bool}
    {command : Option (String × RedisValue)} (h : Sends backend drawn op late command)
    {token : UuidHex} (hnew : drawn token = none) (e : String × JsonValue) :
    Sends backend (Function.update drawn token (some e)) op late command := by
  cases h with
  | nothing => exact .nothing late
  | snapshot _ hdrawn => exact .snapshot late (drawn_kept hnew hdrawn)
  | pointer hdrawn hop => exact .pointer (drawn_kept hnew hdrawn) hop

/-- Tokens that are drawn later change nothing. -/
theorem Matches.draw {drawn : Drawn} {call : RedisCall} {command : Option (String × RedisValue)}
    {phase : Phase CacheOp (Option PyVal)} (h : Matches backend drawn call command phase)
    {token : UuidHex} (hnew : drawn token = none) (e : String × JsonValue) :
    Matches backend (Function.update drawn token (some e)) call command phase := by
  cases h with
  | ready => exact .ready
  | getPointer key => exact .getPointer key
  | getSnapshot hdrawn => exact .getSnapshot (drawn_kept hnew hdrawn)
  | setSnapshot hdrawn => exact .setSnapshot (drawn_kept hnew hdrawn)
  | setPointer hdrawn => exact .setPointer (drawn_kept hnew hdrawn)
  | finished op answer => exact .finished op answer
  | dropped hsends => exact .dropped (hsends.draw hnew e)
  | returned hsends => exact .returned (hsends.draw hnew e)

/-! ### What each change of the state leaves -/

namespace StandsFor

variable {s : RedisState ι} {phases : ι → Phase CacheOp (Option PyVal)}
  {faulty : Bool} {active : String → Option JsonValue}

/-- A token is drawn that was never drawn. -/
theorem draw (h : StandsFor backend s phases faulty active) {token : UuidHex}
    (hnew : s.drawn token = none) (key : String) (v : JsonValue) :
    StandsFor backend (s.draw token key v) phases faulty active where
  matched i := (h.matched i).draw hnew (key, v)
  pointers hstore := by
    obtain ⟨token', v', hvalue, hdrawn, hactive⟩ := h.pointers hstore
    exact ⟨token', v', hvalue, drawn_kept hnew hdrawn, hactive⟩
  snapshots hstore := by
    obtain ⟨v', hdrawn, hvalue⟩ := h.snapshots hstore
    exact ⟨v', drawn_kept hnew hdrawn, hvalue⟩
  sent := h.sent
  exact := fun hfaulty => ⟨(h.exact hfaulty).unwritten, (h.exact hfaulty).pointed,
    (h.exact hfaulty).held⟩

/-- A `SET` adds a key or gives it a new value. -/
theorem set_ne_none {redisKey other : String} {value : RedisValue}
    (h : s.store other ≠ none) : (s.set redisKey value).store other ≠ none := by
  simp only [RedisState.set, Function.update_apply]
  split
  · simp
  · exact h

theorem held_set {redisKey : String} {value : RedisValue} {call : RedisCall}
    (h : Held backend s.store call) : Held backend (s.set redisKey value).store call := by
  cases call with
  | getSnapshot => exact set_ne_none h
  | setPointer => exact set_ne_none h
  | _ => trivial

/-- The snapshot of a token is stored: no pointer is touched. -/
theorem setSnapshot (h : StandsFor backend s phases faulty active) {key : String}
    {token : UuidHex} {v : JsonValue} (hdrawn : s.drawn token = some (key, v)) :
    StandsFor backend (s.set (backend.snapshotKey key token.text) (.payload (Json.dumps v.1)))
      phases faulty active := by
  have hpointer (key' : String) :
      (s.set (backend.snapshotKey key token.text) (.payload (Json.dumps v.1))).store
        (backend.pointerKey key') = s.store (backend.pointerKey key') :=
    Function.update_of_ne (backend.pointerKey_ne_snapshotKey key' key token) _ _
  refine ⟨h.matched, ?_, ?_, h.sent, ?_⟩
  · intro key' value hstore
    rw [hpointer] at hstore
    exact h.pointers hstore
  · intro key' token' value hstore
    simp only [RedisState.set, Function.update_apply] at hstore
    split at hstore
    · next heq =>
      obtain ⟨rfl, rfl⟩ := backend.snapshotKey_inj heq
      cases hstore
      exact ⟨v, hdrawn, rfl⟩
    · exact h.snapshots hstore
  · intro hfaulty
    have hexact := h.exact hfaulty
    refine ⟨?_, ?_, fun i => held_set (hexact.held i)⟩
    · intro key' hnone
      rw [hpointer] at hnone
      exact hexact.unwritten hnone
    · intro key' text hsome
      rw [hpointer] at hsome
      exact set_ne_none (hexact.pointed hsome)

/-- The pointer of a key moves to a token: the object has the snapshot of the token. -/
theorem setPointer (h : StandsFor backend s phases faulty active) {key : String}
    {token : UuidHex} {v : JsonValue} (hdrawn : s.drawn token = some (key, v))
    (hstored : faulty = false → s.store (backend.snapshotKey key token.text) ≠ none) :
    StandsFor backend (s.set (backend.pointerKey key) (.token token.text)) phases faulty
      (Function.update active key (some v)) := by
  refine ⟨h.matched, ?_, ?_, h.sent, ?_⟩
  · intro key' value hstore
    -- The pointer that moved, or another one, which stays as it is.
    by_cases hkey : key' = key
    · subst hkey
      simp only [RedisState.set, Function.update_self, Option.some.injEq] at hstore
      exact ⟨token, v, hstore.symm, hdrawn, Function.update_self ..⟩
    · have hne : backend.pointerKey key' ≠ backend.pointerKey key :=
        fun heq => hkey (backend.pointerKey_inj heq)
      simp only [RedisState.set, Function.update_of_ne hne] at hstore
      rw [Function.update_of_ne hkey]
      exact h.pointers hstore
  · intro key' token' value hstore
    have hne := (backend.pointerKey_ne_snapshotKey key key' token').symm
    simp only [RedisState.set, Function.update_of_ne hne] at hstore
    exact h.snapshots hstore
  · intro hfaulty
    have hexact := h.exact hfaulty
    refine ⟨?_, ?_, fun i => held_set (hexact.held i)⟩
    · intro key' hnone
      by_cases hkey : key' = key
      · subst hkey
        simp [RedisState.set] at hnone
      · have hne : backend.pointerKey key' ≠ backend.pointerKey key :=
          fun heq => hkey (backend.pointerKey_inj heq)
        simp only [RedisState.set, Function.update_of_ne hne] at hnone
        rw [Function.update_of_ne hkey]
        exact hexact.unwritten hnone
    · intro key' text hsome
      by_cases hkey : key' = key
      · subst hkey
        simp only [RedisState.set, Function.update_self, Option.some.injEq, RedisValue.token.injEq] at hsome
        subst hsome
        exact set_ne_none (hstored hfaulty)
      · have hne : backend.pointerKey key' ≠ backend.pointerKey key :=
          fun heq => hkey (backend.pointerKey_inj heq)
        simp only [RedisState.set, Function.update_of_ne hne] at hsome
        exact set_ne_none (hexact.pointed hsome)

/-- Something goes wrong. -/
theorem fault (h : StandsFor backend s phases faulty active) :
    StandsFor backend s phases true active where
  matched := h.matched
  pointers := h.pointers
  snapshots := h.snapshots
  sent _ := rfl
  exact hfaulty := by cases hfaulty

/-- A key goes. -/
theorem expire (h : StandsFor backend s phases true active) (redisKey : String) :
    StandsFor backend (s.drop redisKey) phases true active := by
  have hold {other : String} {value : RedisValue}
      (hstore : Function.update s.store redisKey none other = some value) :
      s.store other = some value := by
    rw [Function.update_apply] at hstore
    split at hstore
    · cases hstore
    · exact hstore
  exact ⟨h.matched, fun hstore => h.pointers (hold hstore), fun hstore => h.snapshots (hold hstore),
    fun _ => rfl, fun hfaulty => by cases hfaulty⟩

variable [DecidableEq ι]

/-- A call goes on, as a call of the object. -/
theorem goOn (h : StandsFor backend s phases faulty active) {i : ι} {call : RedisCall}
    {phase : Phase CacheOp (Option PyVal)}
    (hmatch : Matches backend s.drawn call (s.inFlight i) phase)
    (hheld : faulty = false → Held backend s.store call) :
    StandsFor backend (s.goOn i call) (Function.update phases i phase) faulty active where
  matched j := by
    simp only [RedisState.goOn, Function.update_apply]
    split
    · next hj => exact hj ▸ hmatch
    · exact h.matched j
  pointers := h.pointers
  snapshots := h.snapshots
  sent := h.sent
  exact hfaulty := by
    have hexact := h.exact hfaulty
    refine ⟨hexact.unwritten, hexact.pointed, ?_⟩
    intro j
    simp only [RedisState.goOn, Function.update_apply]
    split
    · exact hheld hfaulty
    · exact hexact.held j

/-- A call goes on, and is where it was as a call of the object. -/
theorem goOn_same (h : StandsFor backend s phases faulty active) {i : ι} {call : RedisCall}
    (hmatch : Matches backend s.drawn call (s.inFlight i) (phases i))
    (hheld : faulty = false → Held backend s.store call) :
    StandsFor backend (s.goOn i call) phases faulty active := by
  have hsame := h.goOn hmatch hheld
  rw [Function.update_eq_self] at hsame
  exact hsame

/-- A `SET` of a call is left in flight, or reaches Redis. -/
theorem leave (h : StandsFor backend s phases true active) {i : ι}
    {command : Option (String × RedisValue)} {phase : Phase CacheOp (Option PyVal)}
    (hmatch : Matches backend s.drawn (s.calls i) command phase) :
    StandsFor backend (s.leave i command) (Function.update phases i phase) true active where
  matched j := by
    simp only [RedisState.leave, Function.update_apply]
    split
    · next hj => exact hj ▸ hmatch
    · exact h.matched j
  pointers := h.pointers
  snapshots := h.snapshots
  sent _ := rfl
  exact hfaulty := by cases hfaulty

end StandsFor

/-! ### What each event does -/

section

variable [DecidableEq ι]

variable (backend) in
/-- Redis and its calls stand for the object and its calls. -/
def Implements (s : RedisState ι) (x : Config ι CacheOp (Option PyVal)) : Prop :=
  StandsFor backend s x.phase x.faulty (sharedLayer.after noSnapshots x.log)

/-- The shared layer and its calls. -/
abbrev layer : System (Config ι CacheOp (Option PyVal)) (Label ι CacheOp (Option PyVal))
    (Observation ι CacheOp (Option PyVal)) := sharedLayer.system noSnapshots

variable {s s' : RedisState ι} {x : Config ι CacheOp (Option PyVal)} {i : ι}

/-- A read takes place: the object stays as it is. -/
theorem Implements.perform_read (h : Implements backend s x) {key : String} {call : RedisCall}
    {phase : Phase CacheOp (Option PyVal)}
    (hmatch : Matches backend s.drawn call (s.inFlight i) phase)
    (hheld : x.faulty = false → Held backend s.store call) :
    Implements backend (s.goOn i call) (Object.perform x i (.readActive key) phase) := by
  show StandsFor backend _ (Function.update x.phase i phase) x.faulty
    (sharedLayer.after noSnapshots (x.log ++ [(i, .readActive key)]))
  rw [Object.after_concat]
  exact h.goOn hmatch hheld

/-- A read fetches the pointer. This is the moment it takes place, if there is a pointer; if
    there is none, then either nothing was written or a fault lost the answer. -/
theorem Implements.getPointer (h : Implements backend s x) {key : String}
    (hcall : s.calls i = .getPointer key) :
    ∃ x', Trace layer x [] x' ∧
      Implements backend (s.goOn i (RedisCacheBackend.followPointer key
        (s.store (backend.pointerKey key)))) x' := by
  have hm := h.matched i
  rw [hcall] at hm
  generalize hsent : s.inFlight i = sent at hm
  generalize hphase : x.phase i = phase at hm
  cases hm
  cases hstore : s.store (backend.pointerKey key) with
  | some value =>
    obtain ⟨token, v, rfl, hdrawn, hactive⟩ := h.pointers hstore
    have hanswer : sharedLayer.answer noSnapshots x.log (.readActive key) = some v.1 := by
      show Option.map Subtype.val _ = _
      rw [hactive]
      rfl
    refine ⟨_, Object.trace_hidden (.perform hphase) rfl, h.perform_read ?_ fun hfaulty => ?_⟩
    · rw [hanswer, hsent]
      exact .getSnapshot hdrawn
    · exact (h.exact hfaulty).pointed hstore
  | none =>
    cases hfaulty : x.faulty with
    | false =>
      have hanswer : sharedLayer.answer noSnapshots x.log (.readActive key) = none := by
        show Option.map Subtype.val _ = _
        rw [(h.exact hfaulty).unwritten hstore]
        rfl
      refine ⟨_, Object.trace_hidden (.perform hphase) rfl, h.perform_read ?_ fun _ => trivial⟩
      rw [hanswer, hsent]
      exact .finished _ _
    | true =>
      refine ⟨_, Object.trace_hidden (.drop hfaulty hphase) rfl, h.goOn ?_ fun _ => trivial⟩
      rw [hsent]
      exact .dropped (.nothing true)

/-- A read fetches the snapshot that its token names: the one it was bound to get, unless a
    fault has taken it. -/
theorem Implements.getSnapshot (h : Implements backend s x) {key text : String}
    (hcall : s.calls i = .getSnapshot key text) :
    ∃ x', Trace layer x [] x' ∧
      Implements backend (s.goOn i (.finished (RedisCacheBackend.readSnapshot
        (s.store (backend.snapshotKey key text))))) x' := by
  have hm := h.matched i
  rw [hcall] at hm
  generalize hsent : s.inFlight i = sent at hm
  generalize hphase : x.phase i = phase at hm
  cases hm with
  | @getSnapshot _ token v hdrawn =>
    cases hstore : s.store (backend.snapshotKey key token.text) with
    | some value =>
      obtain ⟨v', hdrawn', rfl⟩ := h.snapshots hstore
      have hv : v' = v := by
        rw [hdrawn] at hdrawn'
        cases hdrawn'
        rfl
      subst hv
      have hread : RedisCacheBackend.readSnapshot (some (.payload (Json.dumps v'.1))) = some v'.1 :=
        Json.loads_dumps v'.2
      refine ⟨x, .refl, h.goOn_same ?_ fun _ => trivial⟩
      rw [hread, hsent, hphase]
      exact .finished _ _
    | none =>
      -- Nothing but a fault takes away a snapshot that a call holds the token of.
      have hfaulty : x.faulty = true := by
        by_contra hnot
        have hheld := (h.exact (Bool.eq_false_iff.mpr hnot)).held i
        rw [hcall] at hheld
        exact hheld hstore
      refine ⟨_, Object.trace_hidden (.lose hfaulty hphase) rfl, h.goOn ?_ fun _ => trivial⟩
      rw [hsent]
      exact .dropped (.nothing false)

/-- A write stores its snapshot, which no pointer names yet. -/
theorem Implements.setSnapshot (h : Implements backend s x) {key : String} {token : UuidHex}
    {v : JsonValue} (hcall : s.calls i = .setSnapshot key token v) :
    Implements backend ((s.set (backend.snapshotKey key token.text) (.payload (Json.dumps v.1))).goOn
      i (.setPointer key token)) x := by
  have hm := h.matched i
  rw [hcall] at hm
  generalize hsent : s.inFlight i = sent at hm
  generalize hphase : x.phase i = phase at hm
  cases hm with
  | setSnapshot hdrawn =>
    refine (StandsFor.setSnapshot h hdrawn).goOn_same ?_ fun _ => ?_
    · show Matches backend s.drawn _ (s.inFlight i) (x.phase i)
      rw [hsent, hphase]
      exact .setPointer hdrawn
    · show (RedisState.set _ _ _).store _ ≠ none
      simp [RedisState.set]

omit [DecidableEq ι] in
/-- The pointer of a write reaches Redis: the moment the write takes place. -/
theorem Implements.setPointer (h : Implements backend s x) {key : String} {token : UuidHex}
    {v : JsonValue} (hdrawn : s.drawn token = some (key, v))
    (hstored : x.faulty = false → s.store (backend.snapshotKey key token.text) ≠ none) :
    StandsFor backend (s.set (backend.pointerKey key) (.token token.text)) x.phase x.faulty
      (sharedLayer.after noSnapshots (x.log ++ [(i, .writeActive key v)])) := by
  rw [Object.after_concat]
  exact StandsFor.setPointer h hdrawn hstored

/-- A command is answered. -/
theorem Implements.command (h : Implements backend s x) (hstep : backend.command s i = some s') :
    ∃ x', Trace layer x [] x' ∧ Implements backend s' x' := by
  unfold RedisCacheBackend.command at hstep
  cases hcall : s.calls i with
  | getPointer key =>
    rw [hcall] at hstep
    cases hstep
    exact h.getPointer hcall
  | getSnapshot key text =>
    rw [hcall] at hstep
    cases hstep
    exact h.getSnapshot hcall
  | setSnapshot key token v =>
    rw [hcall] at hstep
    cases hstep
    exact ⟨x, .refl, h.setSnapshot hcall⟩
  | setPointer key token =>
    rw [hcall] at hstep
    cases hstep
    have hm := h.matched i
    rw [hcall] at hm
    generalize hsent : s.inFlight i = sent at hm
    generalize hphase : x.phase i = phase at hm
    cases hm with
    | @setPointer _ _ v hdrawn =>
      refine ⟨_, Object.trace_hidden (.perform hphase) rfl, ?_⟩
      have hstored (hfaulty : x.faulty = false) :
          s.store (backend.snapshotKey key token.text) ≠ none := by
        have hheld := (h.exact hfaulty).held i
        rw [hcall] at hheld
        exact hheld
      refine (h.setPointer hdrawn hstored).goOn ?_ fun _ => trivial
      show Matches backend s.drawn _ (s.inFlight i) _
      rw [hsent]
      exact .finished _ _
  | ready => rw [hcall] at hstep; cases hstep
  | finished => rw [hcall] at hstep; cases hstep
  | returned => rw [hcall] at hstep; cases hstep

/-- A call ends early: its answer is lost. -/
theorem Implements.endEarly (h : Implements backend s x) {op : CacheOp} {late : Bool}
    {command : Option (String × RedisValue)} (hsent : s.inFlight i = none)
    (hsends : Sends backend s.drawn op late command) :
    Implements backend ((s.goOn i (.finished none)).leave i command)
      (Object.move { x with faulty := true } i (.dropped op late)) := by
  have hfault : StandsFor backend s x.phase true (sharedLayer.after noSnapshots x.log) := h.fault
  have hmatch : Matches backend s.drawn (.finished none) (s.inFlight i) (.dropped op late) := by
    rw [hsent]
    exact .dropped (.nothing late)
  have hended := hfault.goOn hmatch fun _ => trivial
  have hmatch' : Matches backend s.drawn ((s.goOn i (.finished none)).calls i) command
      (.dropped op late) := by
    rw [RedisState.calls_goOn_self]
    exact .dropped hsends
  have hleft := hended.leave hmatch'
  rw [Function.update_idem] at hleft
  exact hleft

/-- A command fails. -/
theorem Implements.fail (h : Implements backend s x) (hstep : backend.fail s i = some s') :
    ∃ x', Trace layer x [.fault] x' ∧ Implements backend s' x' := by
  have hm := h.matched i
  generalize hsent : s.inFlight i = sent at hm
  generalize hphase : x.phase i = phase at hm
  generalize hcall : s.calls i = call at hm
  unfold RedisCacheBackend.fail at hstep
  rw [hcall] at hstep
  -- nothing in flight before, nothing after: the state that `leave` makes is the same
  have hleave (hnone : s.inFlight i = none) :
      (s.goOn i (.finished none)).leave i none = s.goOn i (.finished none) := by
    show RedisState.mk _ _ (Function.update s.inFlight i none) _ = _
    rw [← hnone, Function.update_eq_self]
    rfl
  cases hm with
  | getPointer key =>
    cases hstep
    rw [← hleave hsent]
    exact ⟨_, Object.trace_fault (.drop rfl hphase) rfl, h.endEarly hsent (.nothing true)⟩
  | getSnapshot hdrawn =>
    cases hstep
    rw [← hleave hsent]
    exact ⟨_, Object.trace_fault (.lose rfl hphase) rfl, h.endEarly hsent (.nothing false)⟩
  | setSnapshot hdrawn =>
    cases hstep
    exact ⟨_, Object.trace_fault (.drop rfl hphase) rfl,
      h.endEarly hsent (.snapshot true hdrawn)⟩
  | setPointer hdrawn =>
    cases hstep
    exact ⟨_, Object.trace_fault (.drop rfl hphase) rfl,
      h.endEarly hsent (.pointer hdrawn rfl)⟩
  | ready => cases hstep
  | finished => cases hstep
  | dropped => cases hstep
  | returned => cases hstep

/-- A `SET` in flight reaches Redis. That of a pointer is a write that takes place late. -/
theorem Implements.arrive (h : Implements backend s x) {redisKey : String} {value : RedisValue}
    (hsent : s.inFlight i = some (redisKey, value)) :
    ∃ x', Trace layer x [] x' ∧ Implements backend ((s.leave i none).set redisKey value) x' := by
  have hfaulty : x.faulty = true := h.sent (by rw [hsent]; simp)
  have hm := h.matched i
  rw [hsent] at hm
  generalize hphase : x.phase i = phase at hm
  generalize hcall : s.calls i = call at hm
  have hstands : StandsFor backend s x.phase true (sharedLayer.after noSnapshots x.log) := by
    rw [← hfaulty]
    exact h
  -- the call is where it was, with nothing in flight
  have hleft {phase' : Phase CacheOp (Option PyVal)}
      (hmatch : Matches backend s.drawn call none phase') :
      StandsFor backend (s.leave i none) (Function.update x.phase i phase') true
        (sharedLayer.after noSnapshots x.log) :=
    hstands.leave (by rw [hcall]; exact hmatch)
  have hwrite {phase' : Phase CacheOp (Option PyVal)} {key : String} {token : UuidHex}
      {v : JsonValue} (hdrawn : s.drawn token = some (key, v))
      (hmatch : Matches backend s.drawn call none phase') :
      Implements backend ((s.leave i none).set (backend.pointerKey key) (.token token.text))
        (Object.perform x i (.writeActive key v) phase') := by
    show StandsFor backend _ _ x.faulty (sharedLayer.after noSnapshots (x.log ++ _))
    rw [Object.after_concat, hfaulty]
    exact (hleft hmatch).setPointer hdrawn fun hnot => by cases hnot
  have hstore {key : String} {token : UuidHex} {v : JsonValue}
      (hdrawn : s.drawn token = some (key, v)) (hmatch : Matches backend s.drawn call none phase) :
      Implements backend ((s.leave i none).set (backend.snapshotKey key token.text)
        (.payload (Json.dumps v.1))) x := by
    have hset := (hleft hmatch).setSnapshot hdrawn
    rw [← hphase, Function.update_eq_self] at hset
    show StandsFor backend _ x.phase x.faulty _
    rw [hfaulty]
    exact hset
  cases hm with
  | dropped hsends =>
    cases hsends with
    | snapshot late hdrawn => exact ⟨x, .refl, hstore hdrawn (.dropped (.nothing _))⟩
    | pointer hdrawn hop =>
      subst hop
      exact ⟨_, Object.trace_hidden (.late hphase) rfl, hwrite hdrawn (.dropped (.nothing false))⟩
  | returned hsends =>
    cases hsends with
    | snapshot late hdrawn => exact ⟨x, .refl, hstore hdrawn (.returned (.nothing _))⟩
    | pointer hdrawn hop =>
      subst hop
      exact ⟨_, Object.trace_hidden (.belated hphase) rfl,
        hwrite hdrawn (.returned (.nothing false))⟩

/-- A call returns. -/
theorem Implements.ret (h : Implements backend s x) {answer : Option PyVal}
    (hcall : s.calls i = .finished answer) :
    ∃ x', Trace layer x [.ret i answer] x' ∧ Implements backend (s.goOn i .returned) x' := by
  have hm := h.matched i
  rw [hcall] at hm
  generalize hsent : s.inFlight i = sent at hm
  generalize hphase : x.phase i = phase at hm
  cases hm with
  | finished op =>
    refine ⟨_, Object.trace_seen (.ret hphase) rfl, StandsFor.goOn h ?_ fun _ => trivial⟩
    rw [hsent]
    exact .returned (.nothing false)
  | dropped hsends =>
    refine ⟨_, Object.trace_seen (.giveUp hphase) rfl, StandsFor.goOn h ?_ fun _ => trivial⟩
    rw [hsent]
    exact .returned hsends

/-- A call is made. -/
theorem Implements.call (h : Implements backend s x) {op : CacheOp} {call : RedisCall}
    (hcall : s.calls i = .ready)
    (hmatch : Matches backend s.drawn call none (.called op))
    (hheld : Held backend s.store call) :
    ∃ x', Trace layer x [.call i op] x' ∧ Implements backend (s.goOn i call) x' := by
  have hm := h.matched i
  rw [hcall] at hm
  generalize hsent : s.inFlight i = sent at hm
  generalize hphase : x.phase i = phase at hm
  cases hm
  refine ⟨_, Object.trace_seen (.call op hphase) rfl, StandsFor.goOn h ?_ fun _ => hheld⟩
  rw [hsent]
  exact hmatch

/-- The protocol refines the shared layer. -/
theorem simulates (backend : RedisCacheBackend) :
    Simulates backend.system (layer : System (Config ι _ _) _ _) (Implements backend) := by
  -- One case for each kind of event.
  intro s event s' x h hstep
  change backend.advance s event = some s' at hstep
  cases event with
  | read i key =>
    simp only [RedisCacheBackend.advance] at hstep
    split at hstep
    · next hcall =>
      cases hstep
      exact h.call hcall (.getPointer key) trivial
    · cases hstep
  | write i key snapshot token =>
    simp only [RedisCacheBackend.advance] at hstep
    split at hstep
    · next hcall hnew =>
      cases hstep
      have hdrawn : Implements backend (s.draw token key snapshot) x := StandsFor.draw h hnew key snapshot
      exact hdrawn.call hcall (.setSnapshot (Function.update_self ..)) trivial
    · cases hstep
  | command i => exact h.command hstep
  | fail i => exact h.fail hstep
  | arrive i =>
    simp only [RedisCacheBackend.advance] at hstep
    split at hstep
    · next hsent =>
      cases hstep
      exact h.arrive hsent
    · cases hstep
  | expire redisKey =>
    cases hstep
    exact ⟨_, Object.trace_seen .fault rfl, (StandsFor.fault h).expire redisKey⟩
  | ret i =>
    simp only [RedisCacheBackend.advance] at hstep
    split at hstep
    · next answer hcall =>
      cases hstep
      have hseen : RedisCacheBackend.seen s (.ret i) = some (.ret i answer) := by
        simp only [RedisCacheBackend.seen, hcall]
      obtain ⟨x', htrace, hafter⟩ := h.ret hcall
      refine ⟨x', ?_, hafter⟩
      show Trace layer x (RedisCacheBackend.seen s (.ret i)).toList x'
      rw [hseen]
      exact htrace
    · cases hstep

omit [DecidableEq ι] in
theorem implements_start (backend : RedisCacheBackend) :
    Implements backend RedisState.start (Config.start : Config ι CacheOp (Option PyVal)) := by
  refine ⟨fun _ => .ready, ?_, ?_, ?_, ?_⟩
  · intro key value hstore
    cases hstore
  · intro key token value hstore
    cases hstore
  · intro i hsent
    exact absurd rfl hsent
  · intro _
    refine ⟨fun _ => rfl, ?_, fun _ => trivial⟩
    intro key text hstore
    cases hstore

/-! ## Calls with nothing in between -/

/-- A `write_active` alone stores its snapshot under its token, and the token under its key. -/
theorem write_alone (backend : RedisCacheBackend) {s : RedisState ι} {i : ι} {token : UuidHex}
    (hready : s.calls i = .ready) (hnew : s.drawn token = none) (key : String) (v : JsonValue) :
    ∃ t, Trace backend.system s [.call i (.writeActive key v), .ret i none] t ∧
      t.store (backend.pointerKey key) = some (.token token.text) ∧
      t.store (backend.snapshotKey key token.text) = some (.payload (Json.dumps v.1)) ∧
      ∀ j, j ≠ i → t.calls j = s.calls j := by
  -- The four states of the call.
  let s₁ := (s.draw token key v).goOn i (.setSnapshot key token v)
  let s₂ := (s₁.set (backend.snapshotKey key token.text) (.payload (Json.dumps v.1))).goOn i
    (.setPointer key token)
  let s₃ := (s₂.set (backend.pointerKey key) (.token token.text)).goOn i (.finished none)
  let s₄ := s₃.goOn i .returned
  have hcall : backend.advance s (.write i key v token) = some s₁ := by
    simp only [RedisCacheBackend.advance, hready, hnew, s₁]
  have hsnapshot : backend.advance s₁ (.command i) = some s₂ := by
    simp only [RedisCacheBackend.advance, RedisCacheBackend.command, s₁, s₂,
      RedisState.calls_goOn_self]
  have hpointer : backend.advance s₂ (.command i) = some s₃ := by
    simp only [RedisCacheBackend.advance, RedisCacheBackend.command, s₂, s₃,
      RedisState.calls_goOn_self]
  have hret : backend.advance s₃ (.ret i) = some s₄ := by
    simp only [RedisCacheBackend.advance, s₃, s₄, RedisState.calls_goOn_self]
  have hanswer : backend.system.seen s₃ (.ret i) = some (.ret i none) := by
    simp only [RedisCacheBackend.system, RedisCacheBackend.seen, s₃, RedisState.calls_goOn_self]
  refine ⟨s₄, ?_, ?_, ?_, ?_⟩
  · exact .head hcall rfl (.head hsnapshot rfl (.head hpointer rfl (.one hret hanswer)))
  · simp [s₄, s₃]
  · have hne := (backend.pointerKey_ne_snapshotKey key key token).symm
    simp [s₄, s₃, s₂, RedisState.store_set_of_ne _ hne]
  · intro j hj
    simp [s₄, s₃, s₂, s₁, RedisState.calls_goOn_of_ne _ hj]

/-- A `read_active` alone returns the snapshot that the pointer of its key names. -/
theorem read_alone (backend : RedisCacheBackend) {s : RedisState ι} {i : ι} {key text : String}
    {v : JsonValue} (hready : s.calls i = .ready)
    (hpointer : s.store (backend.pointerKey key) = some (.token text))
    (hsnapshot : s.store (backend.snapshotKey key text) = some (.payload (Json.dumps v.1))) :
    ∃ t, Trace backend.system s [.call i (.readActive key), .ret i (some v.1)] t := by
  let s₁ := s.goOn i (.getPointer key)
  let s₂ := s₁.goOn i (.getSnapshot key text)
  let s₃ := s₂.goOn i (.finished (some v.1))
  have hcall : backend.advance s (.read i key) = some s₁ := by
    simp only [RedisCacheBackend.advance, hready, s₁]
  have hfollow : backend.advance s₁ (.command i) = some s₂ := by
    simp only [RedisCacheBackend.advance, RedisCacheBackend.command, s₁, s₂,
      RedisState.calls_goOn_self, RedisState.store_goOn, hpointer, RedisCacheBackend.followPointer]
  have hread : backend.advance s₂ (.command i) = some s₃ := by
    simp only [RedisCacheBackend.advance, RedisCacheBackend.command, s₁, s₂, s₃,
      RedisState.calls_goOn_self, RedisState.store_goOn, hsnapshot, RedisCacheBackend.readSnapshot,
      Json.loads_dumps v.2]
  have hret : backend.advance s₃ (.ret i) = some (s₃.goOn i .returned) := by
    simp only [RedisCacheBackend.advance, s₃, RedisState.calls_goOn_self]
  have hanswer : backend.system.seen s₃ (.ret i) = some (.ret i (some v.1)) := by
    simp only [RedisCacheBackend.system, RedisCacheBackend.seen, s₃, RedisState.calls_goOn_self]
  exact ⟨_, .head hcall rfl (.head hfollow rfl (.head hread rfl (.one hret hanswer)))⟩

/-- A write and a read after it. -/
def writeThenRead (key : String) (v : JsonValue) : List (Observation Bool CacheOp (Option PyVal)) :=
  [.call true (.writeActive key v), .ret true none, .call false (.readActive key),
    .ret false (some v.1)]

theorem trace_writeThenRead (backend : RedisCacheBackend) (token : UuidHex) (key : String)
    (v : JsonValue) : ∃ s, Trace backend.system .start (writeThenRead key v) s := by
  have hready : RedisState.start.calls true = .ready := rfl
  have hnew : (RedisState.start : RedisState Bool).drawn token = none := rfl
  obtain ⟨t, hwrite, hpointer, hsnapshot, hothers⟩ := write_alone backend hready hnew key v
  obtain ⟨s, hread⟩ := read_alone backend (i := false) (hothers false (by decide)) hpointer hsnapshot
  exact ⟨s, hwrite.trans hread⟩

/-! ## Linearizable histories -/

/-- **The pointer swap is atomic.** Whatever the order of the commands, and whatever fails or
    goes, the calls agree with reads and writes done in turn on one snapshot for each key, in
    an order that keeps to real time. -/
theorem history_linearizes {backend : RedisCacheBackend}
    {h : List (Observation ι CacheOp (Option PyVal))}
    {s : RedisState ι} (hrun : Trace backend.system .start h s) :
    ∃ log, Linearizes sharedLayer noSnapshots h log := by
  obtain ⟨x, htrace, -⟩ := (simulates backend).trace (implements_start backend) hrun
  exact ⟨x.log, linearizes htrace⟩

/-- A token. -/
def someToken : UuidHex where
  text := "0123456789abcdef0123456789abcdef"
  length_text := rfl
  hex := by simp

/-- A snapshot. -/
def someSnapshot : JsonValue := ⟨.dict [("version", .int 2)], rfl⟩

theorem history_linearizes_writeThenRead :
    ∃ log, Linearizes sharedLayer noSnapshots (writeThenRead "default" someSnapshot) log := by
  obtain ⟨s, hrun⟩ := trace_writeThenRead ⟨"decisiox:rulecache"⟩ someToken "default" someSnapshot
  exact history_linearizes hrun

/-! ## What readers get -/

omit [DecidableEq ι] in
/-- The snapshot of a key after some operations is that of the last write of the key. -/
theorem after_key (log : List (ι × CacheOp)) (key : String) :
    (sharedLayer.after noSnapshots log key = none ∧ ∀ e ∈ log, ∀ v, e.2 ≠ .writeActive key v) ∨
      ∃ earlier j v later, log = earlier ++ (j, .writeActive key v) :: later ∧
        sharedLayer.after noSnapshots log key = some v ∧
        ∀ e ∈ later, ∀ v', e.2 ≠ .writeActive key v' := by
  induction log using List.reverseRecOn with
  | nil => exact .inl ⟨rfl, fun e he => absurd he List.not_mem_nil⟩
  | append_singleton log entry ih =>
    obtain ⟨j, op⟩ := entry
    rw [Object.after_concat]
    by_cases hwrites : ∃ v, op = .writeActive key v
    · obtain ⟨v, rfl⟩ := hwrites
      refine .inr ⟨log, j, v, [], rfl, Function.update_self .., ?_⟩
      intro e he
      exact absurd he List.not_mem_nil
    · -- an operation that is no write of the key leaves its snapshot
      have hsame : (sharedLayer.apply op (sharedLayer.after noSnapshots log)).2 key =
          sharedLayer.after noSnapshots log key := by
        cases op with
        | readActive => rfl
        | writeActive other v =>
          refine Function.update_of_ne ?_ _ _
          intro heq
          exact hwrites ⟨v, by rw [heq]⟩
      have hnot : ∀ e ∈ [(j, op)], ∀ v, e.2 ≠ .writeActive key v :=
        List.forall_mem_singleton.mpr fun v heq => hwrites ⟨v, heq⟩
      rw [hsame]
      cases ih with
      | inl hnone => exact .inl ⟨hnone.1, List.forall_mem_append.mpr ⟨hnone.2, hnot⟩⟩
      | inr hlast =>
        obtain ⟨earlier, j', v, later, rfl, hactive, hlater⟩ := hlast
        refine .inr ⟨earlier, j', v, later ++ [(j, op)], by simp, hactive, ?_⟩
        exact List.forall_mem_append.mpr ⟨hlater, hnot⟩

section

variable {h : List (Observation ι CacheOp (Option PyVal))}

omit [DecidableEq ι] in
/-- The answer of a read that took place is the snapshot of its key at that moment. -/
theorem read_took {log : List (ι × CacheOp)} (hlin : Linearizes sharedLayer noSnapshots h log)
    {r : ι} {key : String} (hcall : .call r (.readActive key) ∈ h) {answer : Option PyVal}
    (htook : Took sharedLayer noSnapshots log r answer) :
    ∃ earlier later, log = earlier ++ (r, .readActive key) :: later ∧
      answer = (sharedLayer.after noSnapshots earlier key).map Subtype.val := by
  obtain ⟨earlier, op, later, rfl, hanswer⟩ := htook
  have hop : op = .readActive key := hlin.single (hlin.called (by simp)) hcall
  subst hop
  exact ⟨earlier, later, rfl, hanswer⟩

/-- **No torn reads.** What a read returns was given, as it is, to a write of the same key. -/
theorem read_given_whole {backend : RedisCacheBackend} {s : RedisState ι}
    (hrun : Trace backend.system .start h s) {r : ι} {key : String} {v : PyVal}
    (hcall : .call r (.readActive key) ∈ h) (hret : .ret r (some v) ∈ h) :
    ∃ w snapshot, .call w (.writeActive key snapshot) ∈ h ∧ snapshot.1 = v := by
  obtain ⟨log, hlin⟩ := history_linearizes hrun
  have hheard : Heard sharedLayer h r (some v) := .inr fun op _ hlost => by cases hlost
  -- The read found the last write of its key before it.
  obtain ⟨earlier, later, rfl, hanswer⟩ := read_took hlin hcall (hlin.answered hret hheard)
  cases after_key earlier key with
  | inl hnone =>
    rw [hnone.1] at hanswer
    cases hanswer
  | inr hlast =>
    obtain ⟨before, w, snapshot, between, rfl, hactive, -⟩ := hlast
    rw [hactive] at hanswer
    cases hanswer
    exact ⟨w, snapshot, hlin.called (by simp), rfl⟩

theorem read_given_whole_writeThenRead : ∃ w snapshot,
    .call w (.writeActive "default" snapshot) ∈ writeThenRead "default" someSnapshot ∧
      snapshot.1 = someSnapshot.1 := by
  obtain ⟨s, hrun⟩ := trace_writeThenRead ⟨"decisiox:rulecache"⟩ someToken "default" someSnapshot
  exact read_given_whole hrun (r := false) (by simp [writeThenRead]) (by simp [writeThenRead])

/-- **No window.** While nothing has gone wrong, a read that is called after a write of its key
    has returned finds a snapshot, and not one that this write has replaced. -/
theorem read_up_to_date {backend : RedisCacheBackend} {s : RedisState ι}
    (hrun : Trace backend.system .start h s) (hfault : .fault ∉ h) {w r : ι} {key : String}
    {v : JsonValue} {done answer : Option PyVal} (hwrite : .call w (.writeActive key v) ∈ h)
    (horder : Before (.ret w done) (.call r (.readActive key)) h) (hret : .ret r answer ∈ h) :
    ∃ w' v', .call w' (.writeActive key v') ∈ h ∧ answer = some v'.1 ∧
      ∀ done', ¬ Before (.ret w' done') (.call w (.writeActive key v)) h := by
  obtain ⟨log, hlin⟩ := history_linearizes hrun
  have hheard (i : ι) (a : Option PyVal) : Heard sharedLayer h i a :=
    .inl fun hbefore => hfault hbefore.mem_left
  obtain ⟨earlier, later, hlog, hanswer⟩ :=
    read_took hlin horder.mem_right (hlin.answered hret (hheard r answer))
  -- the write stands before the read
  obtain ⟨op, hfirst⟩ := hlin.ordered horder (hheard w done) (by rw [hlog]; simp)
  have hop : op = .writeActive key v := hlin.single (hlin.called hfirst.mem_left) hwrite
  subst hop
  have hnodup : log.Nodup := hlin.once.of_map
  have hmem : (w, .writeActive key v) ∈ earlier := by
    rw [hlog] at hfirst hnodup
    exact hfirst.mem_earlier hnodup
  cases after_key earlier key with
  | inl hnone => exact absurd rfl (hnone.2 _ hmem v)
  | inr hlast =>
    obtain ⟨before, w', v', between, rfl, hactive, hbetween⟩ := hlast
    rw [hactive] at hanswer
    have hcall' : .call w' (.writeActive key v') ∈ h := hlin.called (by rw [hlog]; simp)
    refine ⟨w', v', hcall', hanswer, ?_⟩
    intro done' hreplaced
    obtain ⟨op', hbefore⟩ := hlin.ordered hreplaced (hheard w' done') hfirst.mem_left
    have hop' : op' = .writeActive key v' := hlin.single (hlin.called hbefore.mem_left) hcall'
    subst hop'
    -- the last write of the key is this one, or comes after it
    rw [List.mem_append, List.mem_cons] at hmem
    rw [hlog, List.append_assoc, List.cons_append] at hbefore hnodup
    rcases hmem with hmem | hmem | hmem
    · exact hbefore.asymm hnodup (before_of_mem hmem)
    · rw [hmem] at hbefore
      exact hbefore.asymm hnodup hbefore
    · exact hbetween _ hmem v rfl

theorem read_up_to_date_writeThenRead : ∃ w' v',
    .call w' (.writeActive "default" v') ∈ writeThenRead "default" someSnapshot ∧
      some someSnapshot.1 = some v'.1 ∧
      ∀ done', ¬ Before (.ret w' done') (.call true (.writeActive "default" someSnapshot))
        (writeThenRead "default" someSnapshot) := by
  obtain ⟨s, hrun⟩ := trace_writeThenRead ⟨"decisiox:rulecache"⟩ someToken "default" someSnapshot
  have horder : Before (.ret true none) (.call false (.readActive "default"))
      (writeThenRead "default" someSnapshot) :=
    .cons _ (List.sublist_append_left [_, _] [_])
  exact read_up_to_date hrun (by simp [writeThenRead]) (by simp [writeThenRead]) horder
    (by simp [writeThenRead])

end

end

end PulseGuard
