import PulseGuard.ForStd.FloatRounding
import PulseGuard.Native.EvaluateIncident

/-!
# Decisions in the database

`PostgresDecisionRepository` and the mappers between decisions and rows of the table `decisions`
(`app/infrastructure/repositories/postgres_decision_repository.py`,
`app/infrastructure/db/mappers.py`), the interface that it has in common with
`InMemoryDecisionRepository`, and evaluations on either.

What the database makes of a value that does not fit its column is not modelled: a result is
`none` there. A JSON column gives back the value that was written, and texts fit their columns.
-/

namespace PyVal

/-- A value that is `None` or a text. -/
def textOrNone? : PyVal → Option (Option String)
  | .none => some Option.none
  | .str s => some (some s)
  | _ => Option.none

/-- A value that is `None` or an integer. -/
def intOrNone? : PyVal → Option (Option Int)
  | .none => some Option.none
  | .int n => some (some n)
  | _ => Option.none

/-- A value that is a text. -/
def text? : PyVal → Option String
  | .str s => some s
  | _ => Option.none

/-- A value that is an integer, and no `bool`. -/
def plainInt? : PyVal → Option Int
  | .int n => some n
  | _ => Option.none

/-- `None` or a text, as a value. -/
def ofText (text : Option String) : PyVal := text.elim .none .str

/-- `None` or an integer, as a value. -/
def ofInt (n : Option Int) : PyVal := n.elim .none .int

@[simp] theorem textOrNone?_ofText (text : Option String) :
    textOrNone? (ofText text) = some text := by
  cases text <;> rfl

@[simp] theorem intOrNone?_ofInt (n : Option Int) : intOrNone? (ofInt n) = some n := by
  cases n <;> rfl

/-- Only a text, or `None`, is read as one. -/
theorem ofText_of_textOrNone? {v : PyVal} {text : Option String} (h : textOrNone? v = some text) :
    ofText text = v := by
  cases v with
  | none =>
    cases h
    rfl
  | str s =>
    cases h
    rfl
  | _ => cases h

end PyVal

namespace PulseGuard

/-- A row of `decisions`, as `decision_to_orm` fills it. The confidence is in hundredths. -/
structure DecisionRow where
  incidentId : String
  priority : Option String
  riskScore : Option Int
  riskBand : Option String
  decision : Dict String PyVal
  mitigations : Dict String PyVal
  executionPlan : List PlanStep
  matchedRules : List (Dict String PyVal)
  rejectedRules : List (Dict String PyVal)
  suppressedRules : List SuppressedEntry
  complianceConstraints : List ComplianceConstraint
  confidenceScore : Option Int
  degradedContext : Bool
  explanation : String
  resolved : Bool
  createdAt : Int

/-! ## Traces -/

namespace MatchedRuleTrace

/-- `m.__dict__` -/
def toDict (m : MatchedRuleTrace) : Dict String PyVal := .ofList
  [("rule_code", .str m.ruleCode), ("name", .str m.name), ("family", .str m.family),
    ("priority_weight", .int m.priorityWeight), ("severity_band", .ofText m.severityBand),
    ("contribution_score", .ofInt m.contributionScore)]

/-- `MatchedRuleTrace(**m)`; `none` where it raises, or a field is not of its type. -/
def ofDict (m : Dict String PyVal) : Option MatchedRuleTrace := do
  guard (m.keys.length = 6)
  return {
    ruleCode := ← (← m.get? "rule_code").text?
    name := ← (← m.get? "name").text?
    family := ← (← m.get? "family").text?
    priorityWeight := ← (← m.get? "priority_weight").plainInt?
    severityBand := ← (← m.get? "severity_band").textOrNone?
    contributionScore := ← (← m.get? "contribution_score").intOrNone? }

end MatchedRuleTrace

namespace RejectedRuleTrace

/-- `r.__dict__` -/
def toDict (r : RejectedRuleTrace) : Dict String PyVal := .ofList
  [("rule_code", .str r.ruleCode), ("name", .str r.name), ("reason", .str r.reason)]

/-- `RejectedRuleTrace(**r)`; `none` where it raises, or a field is not of its type. -/
def ofDict (r : Dict String PyVal) : Option RejectedRuleTrace := do
  guard (r.keys.length = 3)
  return {
    ruleCode := ← (← r.get? "rule_code").text?
    name := ← (← r.get? "name").text?
    reason := ← (← r.get? "reason").text? }

end RejectedRuleTrace

/-! ## Rows -/

/-- What `Numeric(5, 2)` keeps of a float, in hundredths: of the double nearest to a decimal with
    two places, that decimal. Other floats the database would round. -/
def numericColumn : PyFloat → Option Int
  | .fin q =>
    let n := PyFloat.hundredths q
    if n.natAbs < 10 ^ 5 ∧ PyFloat.ofRat (mkRat n 100) = .fin q then some n else none
  | _ => none

/-- `decision_to_orm` -/
def decisionToOrm (decision : DecisionRecord) : Option DecisionRow := do
  let priority ← decision.priority.textOrNone?
  let confidenceScore ← numericColumn decision.confidenceScore
  return {
    incidentId := decision.incidentId
    priority
    riskScore := some decision.riskScore
    riskBand := some decision.riskBand
    decision := decision.actions
    mitigations := decision.mitigations
    executionPlan := decision.executionPlan
    matchedRules := decision.matchedRules.map MatchedRuleTrace.toDict
    rejectedRules := decision.rejectedRules.map RejectedRuleTrace.toDict
    suppressedRules := decision.suppressedRules
    complianceConstraints := decision.complianceConstraints
    confidenceScore := some confidenceScore
    degradedContext := decision.degradedContext
    explanation := decision.explanation
    resolved := decision.resolved
    createdAt := decision.createdAt }

/-- `decision_to_domain`. The empty band, like none at all, is read as `"LOW"`. -/
def decisionToDomain (row : DecisionRow) : Option DecisionRecord := do
  let matchedRules ← row.matchedRules.mapM MatchedRuleTrace.ofDict
  let rejectedRules ← row.rejectedRules.mapM RejectedRuleTrace.ofDict
  return {
    incidentId := row.incidentId
    priority := .ofText row.priority
    riskScore := row.riskScore.getD 0
    riskBand := (row.riskBand.filter (· != "")).getD "LOW"
    actions := row.decision
    mitigations := row.mitigations
    executionPlan := row.executionPlan
    matchedRules
    rejectedRules
    suppressedRules := row.suppressedRules
    complianceConstraints := row.complianceConstraints
    confidenceScore := row.confidenceScore.elim (.fin 0) fun n => PyFloat.ofRat (mkRat n 100)
    degradedContext := row.degradedContext
    explanation := row.explanation
    createdAt := row.createdAt
    resolved := row.resolved }

/-! ## Repositories -/

/-- `DecisionRepository`, over the state it keeps; decisions are handed out as they stand. -/
structure DecisionRepository (σ : Type) where
  save : DecisionRecord → σ → Option σ
  get : String → σ → Option (Option DecisionRecord)
  listByIncident : String → σ → Option (List DecisionRecord)
  listAll : (limit offset : Nat) → σ → Option (List DecisionRecord)

/-- The order in which the database takes up the rows before it sorts them. -/
structure DecisionOrder where
  rows : List DecisionRow → List DecisionRow
  perm : ∀ table, (rows table).Perm table

namespace PostgresDecisionRepository

variable (order : DecisionOrder)

/-- `.order_by(DecisionORM.created_at.asc())` -/
def ascending (rows : List DecisionRow) : List DecisionRow :=
  rows.insertionSort fun a b => a.createdAt ≤ b.createdAt

/-- `.order_by(DecisionORM.created_at.desc())` -/
def descending (rows : List DecisionRow) : List DecisionRow :=
  rows.insertionSort fun a b => b.createdAt ≤ a.createdAt

/-- The rows of one incident. -/
def ofIncident (incidentId : String) (table : List DecisionRow) : List DecisionRow :=
  (order.rows table).filter fun row => row.incidentId == incidentId

/-- `save` -/
def save (decision : DecisionRecord) (table : List DecisionRow) : Option (List DecisionRow) := do
  let row ← decisionToOrm decision
  return table ++ [row]

/-- `get` -/
def get (incidentId : String) (table : List DecisionRow) : Option (Option DecisionRecord) :=
  match (descending (ofIncident order incidentId table)).head? with
  | some row => do return some (← decisionToDomain row)
  | none => some none

/-- `list_by_incident` -/
def listByIncident (incidentId : String) (table : List DecisionRow) :
    Option (List DecisionRecord) :=
  (ascending (ofIncident order incidentId table)).mapM decisionToDomain

/-- `list_all` -/
def listAll (limit offset : Nat) (table : List DecisionRow) : Option (List DecisionRecord) :=
  (((descending (order.rows table)).drop offset).take limit).mapM decisionToDomain

end PostgresDecisionRepository

/-- `PostgresDecisionRepository` behind the interface. -/
def postgresDecisionRepository (order : DecisionOrder) : DecisionRepository (List DecisionRow) where
  save := PostgresDecisionRepository.save
  get := PostgresDecisionRepository.get order
  listByIncident := PostgresDecisionRepository.listByIncident order
  listAll := PostgresDecisionRepository.listAll order

/-- `InMemoryDecisionRepository` behind the interface. -/
def inMemoryDecisionRepository : DecisionRepository DecisionStore where
  save := fun decision store => some (InMemoryDecisionRepository.save decision store)
  get := fun incidentId store =>
    some ((InMemoryDecisionRepository.get incidentId store).map store.objects)
  listByIncident := fun incidentId store =>
    some ((InMemoryDecisionRepository.listByIncident incidentId store).map store.objects)
  listAll := fun limit offset store =>
    some ((InMemoryDecisionRepository.listAll limit offset store).map store.objects)

/-! ## Evaluations -/

variable {σ : Type}

/-- `EvaluateIncidentUseCase.execute` with any repository of decisions. -/
def EvaluateIncidentUseCase.executeOn (useCase : EvaluateIncidentUseCase)
    (repository : DecisionRepository σ) (incident : IncidentRecord) (region tenant : PyVal)
    (now : Int) (s : σ) : Option (Except PyError DecisionRecord × IncidentRecord × σ) :=
  let incident := useCase.enrich incident
  match useCase.decide incident region tenant with
  | .error e => some (.error e, incident, s)
  | .ok decision => do
    let decision : DecisionRecord := { decision with createdAt := now, resolved := false }
    let s ← if useCase.persists then repository.save decision s else some s
    return (.ok decision, incident, s)

/-- With the decisions in memory, an evaluation is `execute`. -/
theorem EvaluateIncidentUseCase.executeOn_inMemory (useCase : EvaluateIncidentUseCase)
    (incident : IncidentRecord) (region tenant : PyVal) (now : Int) (store : DecisionStore) :
    useCase.executeOn inMemoryDecisionRepository incident region tenant now store =
      some (useCase.execute incident region tenant now store) := by
  unfold executeOn execute
  simp only
  cases useCase.decide (useCase.enrich incident) region tenant with
  | error e => rfl
  | ok decision => cases useCase.persists <;> rfl

/-- What is asked of the decisions: an evaluation, or one of the reads of the interface. -/
inductive DecisionCall where
  | evaluate (useCase : EvaluateIncidentUseCase) (incident : IncidentRecord)
      (region tenant : PyVal) (now : Int)
  | get (incidentId : String)
  | listByIncident (incidentId : String)
  | listAll (limit offset : Nat)

/-- What is answered. -/
inductive DecisionAnswer where
  | evaluated (result : Except PyError DecisionRecord)
  | decision (found : Option DecisionRecord)
  | decisions (found : List DecisionRecord)

namespace DecisionCall

variable (repository : DecisionRepository σ)

/-- The answer to a call, and the state it leaves. -/
def exec : DecisionCall → σ → Option (DecisionAnswer × σ)
  | evaluate useCase incident region tenant now, s => do
    let (result, _, s) ← useCase.executeOn repository incident region tenant now s
    return (.evaluated result, s)
  | get incidentId, s => do return (.decision (← repository.get incidentId s), s)
  | listByIncident incidentId, s => do
    return (.decisions (← repository.listByIncident incidentId s), s)
  | listAll limit offset, s => do return (.decisions (← repository.listAll limit offset s), s)

/-- The answers to a list of calls. -/
def answers : List DecisionCall → σ → Option (List DecisionAnswer)
  | [], _ => some []
  | call :: calls, s => do
    let (answer, s) ← call.exec repository s
    return answer :: (← answers calls s)

end DecisionCall

end PulseGuard
