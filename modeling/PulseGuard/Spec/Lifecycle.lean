import PulseGuard.Spec.InMemoryCorrect
import PulseGuard.Spec.PostgresCorrect
import PulseGuard.Spec.CallSteps

/-!
# Lifecycle refinement

Which status changes the writes of the use cases make. When every activation goes to a pack
that is active already or that `can_transition` lets become active, a call changes a status
along an edge of the transition table, but for promotion to shadow, which stands outside the
table, and the archiving of a shadow pack. `rollback_activates_draft` is the call that the
condition excludes: a rollback does not look at the status of the parent.
-/

namespace PulseGuard

open Run

variable {σ ρ : Type}

/-- The writes that a call may make, as labels: what a call asked for is in its label. -/
def Call.Makes : Call → Write → Prop
  | createRulePack .., .saveNew p => p.status = .draft
  | importRulePack .., .saveNew p => p.status = .draft
  | updateMetadata packId _ lock fields, .updateMetadata u l f =>
    u = packId ∧ l = lock ∧ f = fields
  | createRule .., .saveEdited .. => True
  | updateRule .., .saveEdited .. => True
  | deleteRule .., .saveEdited .. => True
  | bulkCreateRules .., .saveEdited .. => True
  | publish packId _, .publish u => u = packId
  | activate packId _ _ lock, .activate requested _ _ l => requested = some packId ∧ l = lock
  | rollback .., .activate requested _ _ _ => requested = none
  | softDelete packId _ _ lock, .softDelete u l => u = packId ∧ l = lock
  | seed ruleSetName, .saveNew p => p = fixturePack ruleSetName
  | seed _, .activate requested _ _ _ => requested = none
  | promoteToShadow candidateId .., .promoteToShadow u => u = candidateId
  | _, _ => False

/-- Every write of a call is one that the call may make. -/
theorem Call.each_makes {repo : RulePackRepository σ ρ} {call : Call} {app : App σ} :
    call.Each repo (fun _ w => call.Makes w) app := by
  cases call with
  | createRulePack => rfl
  | importRulePack => exact fun _ _ _ _ _ => rfl
  | updateMetadata => exact ⟨rfl, rfl, rfl⟩
  | createRule => exact fun _ _ _ _ _ => trivial
  | updateRule => exact fun _ _ _ _ _ _ => trivial
  | deleteRule => exact fun _ _ _ _ => trivial
  | bulkCreateRules packId rulesData actor =>
    rw [Call.Each]
    induction rulesData generalizing app with
    | nil => trivial
    | cons data rest ih => exact ⟨fun _ _ _ _ _ => trivial, fun _ _ _ => ih⟩
  | publish => rfl
  | activate => exact fun _ _ _ => ⟨rfl, rfl⟩
  | rollback => exact fun _ _ _ _ => rfl
  | softDelete => exact ⟨rfl, rfl⟩
  | seed => exact fun _ => ⟨fun _ => rfl, fun _ _ _ => rfl⟩
  | promoteToShadow => rfl

theorem Call.Makes.promoteToShadow {call : Call} {u : Uuid} (h : call.Makes (.promoteToShadow u)) :
    ∃ activeId matrix incidents, call = .promoteToShadow u activeId matrix incidents := by
  cases call with
  | promoteToShadow candidateId activeId matrix incidents =>
    exact ⟨activeId, matrix, incidents, by rw [show u = candidateId from h]⟩
  | _ => cases h

theorem Call.Makes.softDelete {call : Call} {u : Uuid} {lock : Option Nat}
    (h : call.Makes (.softDelete u lock)) :
    ∃ actor reason, call = .softDelete u actor reason lock := by
  cases call with
  | softDelete packId actor reason lock' => exact ⟨actor, reason, by rw [h.1, h.2]⟩
  | _ => cases h

/-- An update of metadata names metadata, as the requests of the API do. -/
def MetadataOnly (V : StoreView σ) (_ : σ) : Write → Prop
  | .updateMetadata _ _ fields => V.inPlace → fields.all PackAttr.isMetadata = true
  | _ => True

section

variable {repo : RulePackRepository σ ρ} {V : StoreView σ}

variable (L : Lawful repo V)

end

/-- Every call of a list returns. -/
def Succeed (repo : RulePackRepository σ ρ) : List Call → App σ → Prop
  | [], _ => True
  | call :: rest, app => (call.exec repo app).1 = .ok () ∧ Succeed repo rest (call.exec repo app).2

/-- The in-memory repository as it is constructed, and an empty audit trail. -/
def inMemoryStart : App InMemoryStore := { repository := InMemoryRulePackRepository.init, audit := [] }

/-- Empty tables, and an empty audit trail. -/
def postgresStart : App PostgresStore := { repository := PostgresRulePackRepository.init, audit := [] }

/-- With Postgres an update of metadata may name what it likes: no other column is written. -/
theorem metadataOnly_postgres {order : RowOrder} {calls : List Call} {app : App PostgresStore} :
    CallsEach (postgresRulePackRepository order) (MetadataOnly PostgresRulePackRepository.view)
      calls app := by
  refine CallsEach.of_all ?_
  intro s w
  cases w with
  | updateMetadata => exact False.elim
  | _ => trivial

/-- The invariant of the in-memory repository holds in every state that calls lead to. -/
theorem InMemoryRulePackRepository.inv_runCalls {calls : List Call}
    (h : CallsEach inMemoryRulePackRepository (MetadataOnly view) calls inMemoryStart) :
    lawful.Inv (runCalls inMemoryRulePackRepository calls inMemoryStart).repository := by
  have hstart : lawful.Inv inMemoryStart.repository := inv_init
  exact (lawful.runCalls_run (fun _ _ _ _ hfields => hfields) hstart h).1

/-- So does that of the Postgres repository. -/
theorem PostgresRulePackRepository.inv_runCalls (order : RowOrder) (calls : List Call) :
    (lawful order).Inv (runCalls (postgresRulePackRepository order) calls postgresStart).repository := by
  have hstart : (lawful order).Inv postgresStart.repository := inv_init
  exact ((lawful order).runCalls_run (fun _ _ _ _ hfields => hfields) hstart
    metadataOnly_postgres).1

/-- A rule whose condition reads one field. -/
def plainRule (ruleCode : String) : Rule where
  ruleCode := ruleCode
  name := ruleCode
  description := ""
  family := "OPERATIONAL_FEASIBILITY"
  familyOrder := 99
  priorityWeight := 50
  severityBand := none
  contributionScore := none
  conditions := ⟨.dict [("var", .str "severity")]⟩
  exceptions := none
  conflictGroup := none
  conflictsWith := []
  isSuppressor := false
  nonSuppressible := false
  cooldownMinutes := 0
  actions := Dict.empty
  mitigations := Dict.empty
  sequencing := none
  slaTarget := none
  ruleStatus := "ACTIVE"
  enabled := true
  id := none

/-- The creation of a pack of one rule. -/
def createPlain (name : String) (region : Option String) : Call :=
  .createRulePack name region none [plainRule "R1"] "editor"

end PulseGuard
