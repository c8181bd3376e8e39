import PulseGuard.ForStd.Run
import PulseGuard.Native.InMemoryRulePackRepository
import PulseGuard.Native.RuleSnapshot

/-!
# What the rule cache serves

A session of one rule cache is any sequence of its calls and events, with loaders that raise
and a shared layer that anything may happen to. Every pack the cache holds was produced by a
loader call or a readable snapshot of the session, and once one was, no `get` raises
(`get_available`). The same fallback answers a refresh whose loader raises, so such a refresh
leaves everything as it was only while there is nothing to fall back on
(`refresh_atomic_iff`).
-/

namespace PulseGuard

open Run

variable {α β δ : Type} {codec : SnapshotCodec α β}

namespace RuleCache

/-! ## The two resolution strategies -/

/-- How a call of `get` or `refresh` gets at its pack: from what it calls, which produced
    `produced`, or from the last known good pack; or there is none and it raises. -/
inductive Resolves (cache : RuleCache α β δ) (produced : List α) :
    Except PyError α × RuleCache α β δ × δ → Prop where
  | serves (pack : α) (d : δ) (h : pack ∈ produced ∨ cache.lastKnownGood = some pack) :
      Resolves cache produced (.ok pack, { cache with lastKnownGood := some pack }, d)
  | raises (e : PyError) (d : δ) (hproduced : produced = []) (hnone : cache.lastKnownGood = none) :
      Resolves cache produced (.error e, cache, d)

/-- The packs a call of the loader produces: one, unless it raises. -/
def loads : Except PyError α → List α
  | .ok pack => [pack]
  | .error _ => []

variable (codec) in
/-- The packs that `_resolve_for_get` produces: what it reads, else what it loads. -/
def resolved (cache : RuleCache α β δ) (loader : Except PyError α) (d : δ) : List α :=
  match cache.distributedRead codec d with
  | some pack => [pack]
  | none => loads loader

theorem loadFromSource_resolves (cache : RuleCache α β δ) (loader : Except PyError α) (d : δ) :
    Resolves cache (loads loader) (cache.loadFromSourceAndPropagate codec loader d) := by
  cases loader with
  | ok pack => exact .serves pack _ (.inl (by simp [loads]))
  | error e =>
    unfold loadFromSourceAndPropagate
    cases hgood : cache.lastKnownGood with
    | none => exact .raises e d rfl hgood
    | some pack =>
      have hsame : { cache with lastKnownGood := some pack } = cache := by rw [← hgood]
      have hserves : Resolves cache (loads (.error e))
          (.ok pack, { cache with lastKnownGood := some pack }, d) := .serves pack d (.inr hgood)
      rw [hsame] at hserves
      exact hserves

theorem resolveForGet_resolves (cache : RuleCache α β δ) (loader : Except PyError α) (d : δ) :
    Resolves cache (cache.resolved codec loader d) (cache.resolveForGet codec loader d) := by
  unfold resolveForGet resolved
  cases cache.distributedRead codec d with
  | some pack => exact .serves pack d (.inl List.mem_cons_self)
  | none => exact loadFromSource_resolves cache loader d

end RuleCache

/-! ## Sessions -/

/-- A cache, its shared layer, and the packs produced so far. -/
structure CacheSession (α β δ : Type) where
  cache : RuleCache α β δ
  backend : δ
  produced : List α

/-- What can happen in a session. A loader stands for the outcome of its call; the shared
    layer changes at will: other replicas write it, entries expire, it fails. -/
inductive CacheEvent (α δ : Type) where
  | get (loader : Except PyError α) (now : Rat)
  | refresh (loader : Except PyError α) (now : Rat)
  | reload
  | bindLoader
  | notified (entityType : String) (defaultLoader : Except PyError α) (now : Rat)
  | backend (d : δ)

namespace CacheSession

/-- A new cache over any shared layer. -/
def start (ttlSeconds : Rat) (distributed : Option (DistributedCacheBackend β δ))
    (cacheKey : String) (d : δ) : CacheSession α β δ where
  cache := .init ttlSeconds distributed cacheKey
  backend := d
  produced := []

/-- The packs that the loader calls and the readable snapshots of an event produce. -/
def produces (codec : SnapshotCodec α β) (s : CacheSession α β δ) : CacheEvent α δ → List α
  | .get loader now =>
    match s.cache.ttlCache.fresh? now with
    | some _ => []
    | none => s.cache.resolved codec loader s.backend
  | .refresh loader _ => RuleCache.loads loader
  | .notified entityType defaultLoader _ =>
    if entityType != "rule_pack" && entityType != "rule" then []
    else if s.cache.loaderBound then RuleCache.loads defaultLoader
    else []
  | .reload | .bindLoader | .backend _ => []

/-- What an event leaves of the cache and the shared layer. -/
def after (codec : SnapshotCodec α β) (s : CacheSession α β δ) :
    CacheEvent α δ → RuleCache α β δ × δ
  | .get loader now => (s.cache.get codec loader now s.backend).2
  | .refresh loader now => (s.cache.refresh codec loader now s.backend).2
  | .reload => (s.cache.reload, s.backend)
  | .bindLoader => (s.cache.bindLoader, s.backend)
  | .notified entityType defaultLoader now =>
    s.cache.onEvent codec entityType defaultLoader now s.backend
  | .backend d => (s.cache, d)

/-- The session after an event. -/
def advance (codec : SnapshotCodec α β) (s : CacheSession α β δ) (event : CacheEvent α δ) :
    CacheSession α β δ where
  cache := (s.after codec event).1
  backend := (s.after codec event).2
  produced := s.produced ++ s.produces codec event

/-- One event of a session. -/
def Step (codec : SnapshotCodec α β) (s : CacheSession α β δ) (event : CacheEvent α δ)
    (t : CacheSession α β δ) : Prop :=
  t = s.advance codec event

/-- A session that any events lead to. -/
def Reaches (codec : SnapshotCodec α β) : CacheSession α β δ → CacheSession α β δ → Prop :=
  RunWhere (Step codec) fun _ _ => True

/-- All that a cache holds was produced in the session, and once anything was, there is a
    last known good pack. -/
structure Backed (cache : RuleCache α β δ) (produced : List α) : Prop where
  value : ∀ pack, cache.ttlCache.value = some pack → pack ∈ produced
  lastKnownGood : ∀ pack, cache.lastKnownGood = some pack → pack ∈ produced
  fallback : produced ≠ [] → ∃ pack, cache.lastKnownGood = some pack

namespace Backed

variable {cache : RuleCache α β δ} {before produced : List α}

/-- A call that resolves its pack leaves the cache backed by what was produced before and by
    the call; its pack is one of these, and it raises only where there are none. -/
theorem store (h : Backed cache before) {r : Except PyError α × RuleCache α β δ × δ}
    (hr : RuleCache.Resolves cache produced r) (now : Rat) :
    Backed (RuleCache.store now r).2.1 (before ++ produced) ∧
      ∀ pack, (RuleCache.store now r).1 = .ok pack → pack ∈ before ++ produced := by
  cases hr with
  | serves pack d hpack =>
    have hmem : pack ∈ before ++ produced := by
      rcases hpack with hpack | hgood
      · exact List.mem_append_right _ hpack
      · exact List.mem_append_left _ (h.lastKnownGood pack hgood)
    have honly : ∀ q, some pack = some q → q ∈ before ++ produced := by
      intro q h
      cases h
      exact hmem
    refine ⟨⟨honly, honly, fun _ => ⟨pack, rfl⟩⟩, ?_⟩
    intro q h
    cases h
    exact hmem
  | raises e d hproduced hnone =>
    subst hproduced
    rw [List.append_nil]
    exact ⟨h, fun pack hpack => by cases hpack⟩

/-- Nothing produced, nothing changed but the local value, which may go. -/
theorem of_subset (h : Backed cache before) {cache' : RuleCache α β δ}
    (hgood : cache'.lastKnownGood = cache.lastKnownGood)
    (hvalue : ∀ pack, cache'.ttlCache.value = some pack → cache.ttlCache.value = some pack) :
    Backed cache' (before ++ []) := by
  rw [List.append_nil]
  refine ⟨fun pack hpack => h.value pack (hvalue pack hpack), ?_, ?_⟩
  · rw [hgood]
    exact h.lastKnownGood
  · rw [hgood]
    exact h.fallback

end Backed

/-- What every event of a session keeps. -/
theorem backed_advance {s : CacheSession α β δ} (h : Backed s.cache s.produced)
    (event : CacheEvent α δ) :
    Backed (s.advance codec event).cache (s.advance codec event).produced := by
  cases event with
  | get loader now =>
    simp only [advance, after, produces, RuleCache.get]
    cases s.cache.ttlCache.fresh? now with
    | some pack => exact h.of_subset rfl fun _ => id
    | none => exact (h.store (RuleCache.resolveForGet_resolves _ _ _) now).1
  | refresh loader now => exact (h.store (RuleCache.loadFromSource_resolves _ _ _) now).1
  | reload => exact h.of_subset rfl fun pack hpack => by cases hpack
  | bindLoader => exact h.of_subset rfl fun _ => id
  | notified entityType defaultLoader now =>
    simp only [advance, after, produces, RuleCache.onEvent]
    split
    · exact h.of_subset rfl fun _ => id
    · split
      · exact (h.store (RuleCache.loadFromSource_resolves _ _ _) now).1
      · exact h.of_subset rfl fun pack hpack => by cases hpack
  | backend d => exact h.of_subset rfl fun _ => id

/-- Every reachable session is backed. -/
theorem backed_of_reaches {ttlSeconds : Rat} {distributed : Option (DistributedCacheBackend β δ)}
    {cacheKey : String} {d : δ} {s : CacheSession α β δ}
    (hrun : Reaches codec (start ttlSeconds distributed cacheKey d) s) :
    Backed s.cache s.produced := by
  refine hrun.invariant (fun s => Backed s.cache s.produced) ?_ ?_
  · rintro s event t rfl _ h
    exact backed_advance h event
  · exact { value := nofun, lastKnownGood := nofun, fallback := fun h => absurd rfl h }

end CacheSession

open CacheSession

/-- Once a loader call or a readable snapshot has produced a pack, every `get` of the session
    returns, whatever its loader does, and returns a pack that was produced. -/
theorem get_available {ttlSeconds : Rat} {distributed : Option (DistributedCacheBackend β δ)}
    {cacheKey : String} {d : δ} {s : CacheSession α β δ}
    (hrun : Reaches codec (start ttlSeconds distributed cacheKey d) s) (hloaded : s.produced ≠ [])
    (loader : Except PyError α) (now : Rat) :
    ∃ pack, (s.cache.get codec loader now s.backend).1 = .ok pack ∧
      pack ∈ (s.advance codec (.get loader now)).produced := by
  have hbacked := backed_of_reaches hrun
  obtain ⟨good, hgood⟩ := hbacked.fallback hloaded
  simp only [advance, produces, RuleCache.get]
  cases hfresh : s.cache.ttlCache.fresh? now with
  | some pack =>
    have hvalue : s.cache.ttlCache.value = some pack := TTLCache.value_of_fresh hfresh
    exact ⟨pack, rfl, List.mem_append_left _ (hbacked.value pack hvalue)⟩
  | none =>
    have hresolves : RuleCache.Resolves s.cache (s.cache.resolved codec loader s.backend)
        (s.cache.resolveForGet codec loader s.backend) :=
      RuleCache.resolveForGet_resolves s.cache loader s.backend
    have hpack := (hbacked.store hresolves now).2
    revert hresolves hpack
    generalize s.cache.resolveForGet codec loader s.backend = r
    intro hresolves hpack
    cases hresolves with
    | serves pack d hserves => exact ⟨pack, rfl, hpack pack rfl⟩
    | raises e d hproduced hnone =>
      rw [hgood] at hnone
      cases hnone

/-- A cache without a shared layer that has loaded one pack. -/
def loadedOnce : CacheSession RulePack PackSnapshot Unit :=
  (start 10 none "noc-default" ()).advance ruleSnapshotCodec
    (.get (.ok InMemoryRulePackRepository.blank) 0)

theorem loadedOnce_reaches :
    Reaches ruleSnapshotCodec (start 10 none "noc-default" ()) loadedOnce :=
  .tail .refl ⟨_, trivial, rfl⟩

theorem get_available_outage :
    ∃ pack, (loadedOnce.cache.get ruleSnapshotCodec (.error .attributeError) 60 ()).1 = .ok pack ∧
      pack ∈ (loadedOnce.advance ruleSnapshotCodec (.get (.error .attributeError) 60)).produced :=
  get_available loadedOnce_reaches (List.cons_ne_nil _ _) (.error .attributeError) 60

/-! ## Refreshes whose loader raises -/

/-- Such a refresh raises that error and leaves the cache and the shared layer as they were
    exactly when there is no last known good pack. -/
theorem refresh_atomic_iff (cache : RuleCache α β δ) (e : PyError) (now : Rat) (d : δ) :
    cache.refresh codec (.error e) now d = (.error e, cache, d) ↔ cache.lastKnownGood = none := by
  unfold RuleCache.refresh RuleCache.loadFromSourceAndPropagate
  cases hgood : cache.lastKnownGood with
  | none => exact ⟨fun _ => rfl, fun _ => rfl⟩
  | some pack =>
    -- the fallback of the read path answers, and starts a new life of the local value
    constructor
    · intro h
      cases congrArg Prod.fst h
    · intro h
      cases h

/-- After one load, a refresh whose loader raises returns the old pack. -/
theorem refresh_not_atomic :
    ¬∀ s : CacheSession RulePack PackSnapshot Unit,
      Reaches ruleSnapshotCodec (start 10 none "noc-default" ()) s → ∀ (e : PyError) (now : Rat),
        s.cache.refresh ruleSnapshotCodec (.error e) now s.backend = (.error e, s.cache, s.backend) := by
  intro hatomic
  have h := congrArg Prod.fst (hatomic loadedOnce loadedOnce_reaches .attributeError 60)
  cases h

end PulseGuard
