import PulseGuard.Spec.Lifecycle

/-!
# Lock versions

When the lock version of a pack tells a reader that the pack has changed. Every write of a
pack either leaves it as it was or raises its lock version (`Bumps.step`), but for a change of
its rules and the promotion to shadow, which leave the lock version alone.
`rule_edit_keeps_lockVersion` is a rule edit that does.
-/

namespace PulseGuard

open Run

variable {σ ρ : Type}

/-- The condition on a write: the save of an edited Draft writes the rules that are there, or
    changes the status, region or author of the row it takes, and a pack promoted to shadow is
    shadow already. Metadata is all that an update of metadata names. -/
def Bumps (repo : RulePackRepository σ ρ) (V : StoreView σ) (s : σ) : Write → Prop
  | .saveEdited p rules => (V.inPlace → rules = p.rules) ∧
      (¬V.inPlace → ∀ v q, Under repo s p.name p.version v → V.catalogue s v = some q →
        q.status = p.status → q.region = p.region → q.createdBy = p.createdBy → rules = q.rules)
  | .promoteToShadow u => V.inPlace → ∀ p, V.catalogue s u = some p → p.status = .shadow
  | .updateMetadata _ _ fields => V.inPlace → fields.all PackAttr.isMetadata = true
  | _ => True

/-- A pack seen again is the same, or shows a higher lock version. -/
def SameOrLater (p q : RulePack) : Prop := q = p ∨ p.lockVersion < q.lockVersion

theorem SameOrLater.trans {p q r : RulePack} (h : SameOrLater p q) (h' : SameOrLater q r) :
    SameOrLater p r := by
  rcases h with rfl | hlt
  · exact h'
  · rcases h' with rfl | hlt'
    · exact Or.inr hlt
    · exact Or.inr (Nat.lt_trans hlt hlt')

/-- A pack that shows the lock version a reader saw is what the reader saw. -/
theorem SameOrLater.eq_of_lockVersion {p q : RulePack} (h : SameOrLater p q)
    (hlock : q.lockVersion = p.lockVersion) : q = p := by
  rcases h with heq | hlt
  · exact heq
  · omega

section

variable {repo : RulePackRepository σ ρ} {V : StoreView σ}

/-- One write: a pack that is there before and after is the same, or its lock version rises. -/
theorem Bumps.step {s t : σ} {w : Write} (hbumps : Bumps repo V s w) (h : WriteStep repo V s w t)
    {v : Uuid} (hv : v < V.supply s) {q : RulePack} (hq : V.catalogue t v = some q) :
    ∃ p, V.catalogue s v = some p ∧ SameOrLater p q := by
  obtain ⟨p, hp, hchange⟩ := h.sighting_old hv hq
  refine ⟨p, hp, ?_⟩
  cases hchange with
  | same => exact Or.inl rfl
  | @edited _ rules rules' _ hdraft hunder hsame =>
    have hrules : rules = p.rules := by
      by_cases hinPlace : V.inPlace
      · exact hbumps.1 hinPlace
      · exact hbumps.2 hinPlace v p (hunder hinPlace) hp rfl rfl rfl
    left
    rw [hsame hrules]
  | @overwritten edited _ _ rules _ _ hcopy _ _ _ _ hunder _ _ hwrite =>
    obtain ⟨hlt | ⟨hstatus, hregion, hcreatedBy, hrest⟩, hsame⟩ := hwrite
    · exact Or.inr hlt
    · have hrules := hbumps.2 hcopy v p hunder.1 hp hstatus hregion hcreatedBy
      left
      rw [hrest, hsame hrules]
  | metadata _ _ _ _ hbump => exact hbump.symm
  | published => exact Or.inr (Nat.lt_succ_self _)
  | archived => exact Or.inr (Nat.lt_succ_self _)
  | activated _ _ _ hbump => exact Or.inr hbump
  | deprecated => exact Or.inr (Nat.lt_succ_self _)
  | shadowed hinPlace =>
    left
    rw [← hbumps hinPlace p hp]

variable (L : Lawful repo V)

/-- A run of such writes. -/
private theorem sameOrLater_run {s t : σ}
    (h : RunWhere (WriteStep repo V) (fun s w => L.Inv s ∧ Bumps repo V s w) s t) {u : Uuid}
    (hu : u < V.supply s) {q : RulePack} (hq : V.catalogue t u = some q) :
    ∃ p, V.catalogue s u = some p ∧ SameOrLater p q := by
  refine (RunWhere.tracked (fun s => u < V.supply s) (fun s => V.catalogue s u) SameOrLater
    (fun _ => Or.inl rfl) (fun _ _ _ => SameOrLater.trans) ?_ ?_ h hu).2 q hq
  · intro s w t hstep hold
    exact lt_of_lt_of_le hold hstep.1
  · intro s w t hstep hbumps hold b hb
    exact hbumps.2.step hstep hold hb

/-! ## Guarded calls -/

/-- A call on a pack that names the lock version it expects. -/
def Call.ExpectsLock (u : Uuid) (n : Nat) : Call → Prop
  | updateMetadata packId _ lock _ => packId = u ∧ lock = some n
  | softDelete packId _ _ lock => packId = u ∧ lock = some n
  | activate packId _ _ lock => packId = u ∧ lock = some n
  | _ => False

/-- The condition on a guarded call: the key of the pack that Activate is asked for leads to
    that pack, and an update of metadata names metadata. -/
def Call.GuardsItsPack (repo : RulePackRepository σ ρ) (V : StoreView σ) (s : σ) : Call → Prop
  | activate packId _ _ _ => ∀ ref, repo.getById packId s = some ref →
      Under repo s (repo.pack s ref).name (repo.pack s ref).version packId
  | updateMetadata _ _ _ fields => V.inPlace → fields.all PackAttr.isMetadata = true
  | _ => True

include L in
/-- A guarded call that returns has found the lock version it expects. -/
theorem lockVersion_of_guarded {app : App σ} (hInv : L.Inv app.repository) {call : Call} {u : Uuid}
    {n : Nat} (hlock : call.ExpectsLock u n) (hown : call.GuardsItsPack repo V app.repository)
    (hok : (call.exec repo app).1 = .ok ()) :
    ∃ q, V.catalogue app.repository u = some q ∧ q.lockVersion = n := by
  cases call with
  | updateMetadata packId actor lock fields =>
    obtain ⟨rfl, rfl⟩ := hlock
    obtain ⟨r, h⟩ := execute_of_outcome_ok hok
    obtain ⟨-, -, heffect⟩ := (L.updateMetadata_performs hInv hown h).step hInv
    cases heffect with
    | updateMetadata hp _ hmatch => exact ⟨_, hp, hmatch n rfl⟩
  | softDelete packId actor reason lock =>
    obtain ⟨rfl, rfl⟩ := hlock
    obtain ⟨r, h⟩ := execute_of_outcome_ok hok
    obtain ⟨-, -, heffect⟩ := (L.softDelete_performs hInv h).step hInv
    cases heffect with
    | softDelete hp _ hmatch => exact ⟨_, hp, hmatch n rfl⟩
  | activate packId actor reason lock =>
    obtain ⟨rfl, rfl⟩ := hlock
    obtain ⟨r, h⟩ := execute_of_outcome_ok hok
    obtain ⟨ref, hget, -, hperforms⟩ := L.activate_performs h
    obtain ⟨-, -, heffect⟩ := hperforms.step hInv
    cases heffect with
    | activate hp hunder hmatch =>
      rw [(hown ref hget).unique hunder] at hp
      exact ⟨_, hp, hmatch n rfl⟩
  | _ => cases hlock

/-- What a lock version says of a pack, between two states of a run. -/
def LockSound (repo : RulePackRepository σ ρ) (V : StoreView σ) (before after : App σ) : Prop :=
  ∀ u p, V.catalogue before.repository u = some p →
    (∀ q, V.catalogue after.repository u = some q → SameOrLater p q) ∧
    ∀ call : Call, call.ExpectsLock u p.lockVersion →
      call.GuardsItsPack repo V after.repository → (call.exec repo after).1 = .ok () →
      V.catalogue after.repository u = some p

include L in
theorem lockSound_runCalls {calls more : List Call} {app : App σ} (hInv : L.Inv app.repository)
    (hcalls : CallsEach repo (MetadataOnly V) calls app)
    (hmore : CallsEach repo (Bumps repo V) more (runCalls repo calls app)) :
    LockSound repo V (runCalls repo calls app) (runCalls repo (calls ++ more) app) := by
  intro u p hp
  obtain ⟨hInv', -⟩ := L.runCalls_run (fun _ _ _ _ h => h) hInv hcalls
  obtain ⟨hInv'', hrun⟩ := L.runCalls_run (fun _ _ _ _ h => h) hInv' hmore
  rw [runCalls_append]
  have hseen : ∀ q, V.catalogue (runCalls repo more (runCalls repo calls app)).repository u = some q →
      SameOrLater p q := by
    intro q hq
    obtain ⟨p', hp', hlater⟩ := sameOrLater_run L hrun (L.bound hInv' hp) hq
    rw [hp] at hp'
    cases hp'
    exact hlater
  refine ⟨hseen, ?_⟩
  intro call hlock hown hok
  obtain ⟨q, hq, hversion⟩ := lockVersion_of_guarded L hInv'' hlock hown hok
  rw [hq, (hseen q hq).eq_of_lockVersion hversion]

end

/-- Lock versions, on either backend: from any state that calls lead to, calls that change no
    rules and promote nothing to shadow leave a pack as it was or raise its lock version, so
    that a guarded call which returns has found the pack as its reader saw it. -/
theorem lockVersion_sound (order : RowOrder) (calls more : List Call) :
    (CallsEach inMemoryRulePackRepository (MetadataOnly InMemoryRulePackRepository.view) calls
        inMemoryStart →
      CallsEach inMemoryRulePackRepository
        (Bumps inMemoryRulePackRepository InMemoryRulePackRepository.view) more
        (runCalls inMemoryRulePackRepository calls inMemoryStart) →
      LockSound inMemoryRulePackRepository InMemoryRulePackRepository.view
        (runCalls inMemoryRulePackRepository calls inMemoryStart)
        (runCalls inMemoryRulePackRepository (calls ++ more) inMemoryStart)) ∧
      (CallsEach (postgresRulePackRepository order)
        (Bumps (postgresRulePackRepository order) PostgresRulePackRepository.view) more
        (runCalls (postgresRulePackRepository order) calls postgresStart) →
      LockSound (postgresRulePackRepository order) PostgresRulePackRepository.view
        (runCalls (postgresRulePackRepository order) calls postgresStart)
        (runCalls (postgresRulePackRepository order) (calls ++ more) postgresStart)) := by
  constructor
  · intro hcalls hmore
    exact lockSound_runCalls InMemoryRulePackRepository.lawful InMemoryRulePackRepository.inv_init
      hcalls hmore
  · intro hmore
    exact lockSound_runCalls (PostgresRulePackRepository.lawful order)
      PostgresRulePackRepository.inv_init metadataOnly_postgres hmore

open InMemoryRulePackRepository in
/-- A Draft whose author changes, and a reader who asks to delete what it saw before. -/
theorem lockVersion_sound_author :
    ∃ p q,
      catalogue (runCalls inMemoryRulePackRepository [createPlain "noc" none]
        inMemoryStart).repository 0 = some p ∧
      catalogue (runCalls inMemoryRulePackRepository ([createPlain "noc" none] ++
        [.updateMetadata 0 "editor" (some 1) [.createdBy "author"]]) inMemoryStart).repository 0
        = some q ∧
      p.lockVersion = 1 ∧ q.lockVersion = 2 ∧ SameOrLater p q := by
  refine ⟨_, _, rfl, rfl, rfl, rfl, ?_⟩
  have hsound := (lockVersion_sound writtenOrder [createPlain "noc" none]
    [.updateMetadata 0 "editor" (some 1) [.createdBy "author"]]).1 ⟨trivial, trivial⟩
    ⟨fun _ => rfl, trivial⟩
  exact (hsound 0 _ rfl).1 _ rfl

open InMemoryRulePackRepository in
/-- A rule is added to a Draft, whose lock version stays. -/
theorem rule_edit_keeps_lockVersion :
    ¬∀ (calls : List Call) (call : Call) (u : Uuid) (p q : RulePack),
      Succeed inMemoryRulePackRepository (calls ++ [call]) inMemoryStart →
      catalogue (runCalls inMemoryRulePackRepository calls inMemoryStart).repository u = some p →
      catalogue (runCalls inMemoryRulePackRepository (calls ++ [call]) inMemoryStart).repository u
        = some q →
      SameOrLater p q := by
  intro h
  let data : RuleData := {
    ruleCode := some "R2", name := some "R2", conditions := some (.dict [("var", .str "severity")]) }
  have hedit := h [createPlain "noc" none] (.createRule 0 data "editor") 0 _ _
    ⟨rfl, rfl, trivial⟩ rfl rfl
  rcases hedit with heq | hlt
  · have hrules := congrArg (fun p => p.rules.length) heq
    revert hrules
    decide
  · revert hlt
    decide

end PulseGuard
