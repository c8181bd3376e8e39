import PulseGuard.Spec.VettedPacks

/-!
# No empty policy goes live

When an active pack has a rule to evaluate. The validator counts the rules of a pack, active or
not, and a rollback does not look at the status of the parent. When every pack that is published
has an active rule, and so has every Draft that an activation goes to, every active pack has an
active rule in every state that calls lead to. `disabled_pack_live` is a pack whose one rule is
deleted before it is published.
-/

namespace PulseGuard

open Run

variable {σ ρ : Type}

/-- Some rule of the pack is active. -/
def RulePack.HasActiveRule (pack : RulePack) : Prop := ∃ rule ∈ pack.rules, rule.isActive = true

/-- A pack with an active rule has a rule to evaluate. -/
theorem RulePack.HasActiveRule.activeRules {pack : RulePack} (h : pack.HasActiveRule) :
    pack.activeRules none ≠ [] := by
  obtain ⟨rule, hmem, hactive⟩ := h
  exact List.ne_nil_of_mem (RulePack.mem_activeRules.mpr ⟨hmem, hactive⟩)

/-- The condition on a write: the pack it publishes has an active rule; the pack it activates
    may become active by the transition table, or has an active rule; an update of metadata
    names metadata. -/
def ReleasesRules (repo : RulePackRepository σ ρ) (V : StoreView σ) (s : σ) : Write → Prop
  | .publish u => ∀ p, V.catalogue s u = some p → p.HasActiveRule
  | .activate _ name version _ => ∀ u p, Under repo s name version u → V.catalogue s u = some p →
      (p.status = .active ∨ canTransition p.status .active = true) ∨ p.HasActiveRule
  | .updateMetadata _ _ fields => V.inPlace → fields.all PackAttr.isMetadata = true
  | _ => True

/-- The packs that come in are Drafts, but for the fixture. -/
def DraftOrFixture : Write → Prop
  | .saveNew p => p.status = .draft ∨ ∃ ruleSetName, p = fixturePack ruleSetName
  | _ => True

/-- The invariant: every pack that is live or may go live has an active rule. -/
def ReleasedHaveRules (V : StoreView σ) (s : σ) : Prop :=
  ∀ u p, V.catalogue s u = some p → p.status.Released → p.HasActiveRule

theorem Call.Makes.draftOrFixture {call : Call} {w : Write} (h : call.Makes w) :
    DraftOrFixture w := by
  cases w with
  | saveNew p =>
    cases call with
    | createRulePack => exact Or.inl h
    | importRulePack => exact Or.inl h
    | seed ruleSetName => exact Or.inr ⟨ruleSetName, h⟩
    | _ => cases h
  | _ => trivial

theorem fixturePack_hasActiveRule (ruleSetName : String) :
    (fixturePack ruleSetName).HasActiveRule := by
  have hrules : (InMemoryRuleRepository.getActive.rules.any Rule.isActive) = true := by
    decide +kernel
  obtain ⟨rule, hmem, hactive⟩ := List.any_eq_true.mp hrules
  exact ⟨rule, hmem, hactive⟩

section

variable {repo : RulePackRepository σ ρ} {V : StoreView σ}

/-- One write: the released packs have an active rule after it if they had before. -/
theorem releasedHaveRules_step
    (hstored : ∀ {p q : RulePack}, V.stored p.rules q.rules → p.HasActiveRule → q.HasActiveRule)
    {s t : σ} {w : Write} (h : WriteStep repo V s w t) (hw : ReleasesRules repo V s w)
    (hin : DraftOrFixture w) (hs : ReleasedHaveRules V s) : ReleasedHaveRules V t := by
  intro u q hq hreleased
  rcases h.sighting hq with ⟨p, rfl, -, -, hstatus, -, hrules⟩ | ⟨p, hp, hchange⟩
  · rcases hin with hdraft | ⟨ruleSetName, rfl⟩
    · rw [hstatus, hdraft] at hreleased
      cases hreleased
    · exact hstored hrules (fixturePack_hasActiveRule ruleSetName)
  · cases hchange with
    | same => exact hs u q hp hreleased
    | edited hdraft => simp [hdraft, PackStatus.Released] at hreleased
    | overwritten _ _ _ _ _ _ hstatus => simp [hstatus, PackStatus.Released] at hreleased
    | metadata hdraft _ hstatus => simp [hstatus, hdraft, PackStatus.Released] at hreleased
    | published => exact hw p hp
    | archived => cases hreleased
    | activated hunder _ hp' =>
      have hrules : p.HasActiveRule := by
        rcases hw u p hunder hp with hstatus | hrules
        · exact hs u p hp (PackStatus.released_of_canTransition hstatus)
        · exact hrules
      rw [hp']
      exact hrules
    | deprecated _ hactive => exact hs u p hp (by rw [hactive]; trivial)
    | shadowed => cases hreleased

variable (L : Lawful repo V)

include L in
/-- After calls that release rules, the released packs have an active rule. -/
theorem releasedHaveRules_runCalls
    (hstored : ∀ {p q : RulePack}, V.stored p.rules q.rules → p.HasActiveRule → q.HasActiveRule)
    {calls : List Call} (app : App σ) (hInv : L.Inv app.repository)
    (hempty : ∀ u, V.catalogue app.repository u = none)
    (hcalls : CallsEach repo (ReleasesRules repo V) calls app) :
    L.Inv (runCalls repo calls app).repository ∧
      ReleasedHaveRules V (runCalls repo calls app).repository := by
  have heach : CallsEach repo (fun s w => ReleasesRules repo V s w ∧ DraftOrFixture w) calls app :=
    hcalls.strengthen fun _ _ h =>
      h.map₂ Call.each_makes fun _ _ hw hmakes => ⟨hw, hmakes.draftOrFixture⟩
  obtain ⟨hInv', hrun⟩ := L.runCalls_run (fun _ _ _ _ h => h.1) hInv heach
  have hstart : ReleasedHaveRules V app.repository := by
    intro u p hp
    rw [hempty u] at hp
    cases hp
  exact ⟨hInv', RunWhere.invariant (ReleasedHaveRules V)
    (fun _ _ _ hstep hw => releasedHaveRules_step hstored hstep hw.2.1 hw.2.2) hrun hstart⟩

include L in
/-- What `get_active` returns after such calls has a rule to evaluate. -/
theorem activeRules_getActive {s : σ} (hInv : L.Inv s) (hs : ReleasedHaveRules V s)
    {name : String} {region : Option String} {ref : ρ} (h : repo.getActive name region s = some ref) :
    (repo.pack s ref).activeRules none ≠ [] := by
  obtain ⟨⟨u, hreads⟩, hactive⟩ := L.getActive hInv h
  have hp := (L.reads hInv hreads).1
  exact (hs u _ hp (by rw [hactive]; trivial)).activeRules

end

/-- A rule is as active as the rule it is read back from. -/
theorem PostgresRulePackRepository.hasActiveRule_stored {p q : RulePack}
    (h : List.Forall₂ StoredRule p.rules q.rules) (hp : p.HasActiveRule) : q.HasActiveRule := by
  obtain ⟨rule, hmem, hactive⟩ := hp
  obtain ⟨i, hi, rfl⟩ := List.mem_iff_getElem.mp hmem
  have hi' : i < q.rules.length := h.length_eq ▸ hi
  have hread : StoredRule p.rules[i] q.rules[i] := List.Forall₂.get h hi hi'
  refine ⟨q.rules[i], List.getElem_mem hi', ?_⟩
  rw [hread]
  exact hactive

open InMemoryRulePackRepository in
/-- No empty policy goes live, on either backend: after calls that publish only packs with an
    active rule, and activate only packs that were published or have one, every active pack has
    an active rule, and what `get_active` returns has a rule to evaluate. -/
theorem live_policy_has_rules (order : RowOrder) (calls : List Call) :
    (CallsEach inMemoryRulePackRepository
        (ReleasesRules inMemoryRulePackRepository view) calls inMemoryStart →
      (∀ u p, catalogue (runCalls inMemoryRulePackRepository calls inMemoryStart).repository u
          = some p → p.status = .active → p.HasActiveRule) ∧
      ∀ name region ref, getActive name region
          (runCalls inMemoryRulePackRepository calls inMemoryStart).repository = some ref →
        (pack (runCalls inMemoryRulePackRepository calls inMemoryStart).repository ref).activeRules
          none ≠ []) ∧
      (CallsEach (postgresRulePackRepository order)
        (ReleasesRules (postgresRulePackRepository order) PostgresRulePackRepository.view)
        calls postgresStart →
      (∀ u p, PostgresRulePackRepository.catalogue
          (runCalls (postgresRulePackRepository order) calls postgresStart).repository u = some p →
        p.status = .active → p.HasActiveRule) ∧
      ∀ name region p, PostgresRulePackRepository.getActive order name region
          (runCalls (postgresRulePackRepository order) calls postgresStart).repository = some p →
        p.activeRules none ≠ []) := by
  have hreleased : ∀ {p : RulePack}, p.status = .active → p.status.Released := by
    intro p hactive
    rw [hactive]
    trivial
  constructor
  · intro hcalls
    have hstored : ∀ {p q : RulePack}, view.stored p.rules q.rules → p.HasActiveRule →
        q.HasActiveRule := by
      intro p q heq hp
      rw [RulePack.HasActiveRule, ← show p.rules = q.rules from heq]
      exact hp
    obtain ⟨hInv, hrules⟩ :=
      releasedHaveRules_runCalls lawful hstored inMemoryStart inv_init (fun _ => rfl) hcalls
    constructor
    · intro u p hp hactive
      exact hrules u p hp (hreleased hactive)
    · intro name region ref h
      exact activeRules_getActive lawful hInv hrules h
  · intro hcalls
    obtain ⟨hInv, hrules⟩ := releasedHaveRules_runCalls (PostgresRulePackRepository.lawful order)
      PostgresRulePackRepository.hasActiveRule_stored postgresStart
      PostgresRulePackRepository.inv_init (fun _ => rfl) hcalls
    constructor
    · intro u p hp hactive
      exact hrules u p hp (hreleased hactive)
    · intro name region p h
      exact activeRules_getActive (PostgresRulePackRepository.lawful order) hInv hrules h

open InMemoryRulePackRepository in
/-- A pack of one rule that is published and activated. -/
theorem live_policy_has_rules_published :
    ∃ p, catalogue (runCalls inMemoryRulePackRepository
        [createPlain "noc" none, .publish 0 "admin", .activate 0 "admin" none none]
        inMemoryStart).repository 0 = some p ∧ p.HasActiveRule := by
  refine ⟨_, rfl, ?_⟩
  refine ((live_policy_has_rules writtenOrder
    [createPlain "noc" none, .publish 0 "admin", .activate 0 "admin" none none]).1
    ⟨trivial, ?_, ?_, trivial⟩).1 0 _ rfl rfl
  · intro p hp
    cases hp
    exact ⟨plainRule "R1", List.mem_singleton_self _, rfl⟩
  · intro ref hget htransition u p hunder hp
    obtain ⟨ref', hget', rfl⟩ := Option.map_eq_some_iff.mp hp
    obtain rfl : ref' = 0 := List.mem_singleton.mp (getById_mem hget').1
    exact Or.inl (Or.inr rfl)

/-- The one rule of a pack is deleted, the pack published and activated: the live policy has
    no rule to evaluate. -/
theorem disabled_pack_live :
    ¬∀ (calls : List Call) (u : Uuid) (p : RulePack),
      PostgresRulePackRepository.catalogue
        (runCalls (postgresRulePackRepository writtenOrder) calls postgresStart).repository u
        = some p →
      p.status = .active → p.HasActiveRule := by
  intro h
  have hrule := h [createPlain "noc" none, .deleteRule 1 "editor" none, .publish 0 "admin",
    .activate 0 "admin" none none] 0 _ rfl rfl
  obtain ⟨rule, hmem, hactive⟩ := hrule
  rw [List.mem_singleton.mp hmem] at hactive
  cases hactive

end PulseGuard
