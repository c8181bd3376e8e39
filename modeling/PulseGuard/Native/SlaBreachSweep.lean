import PulseGuard.Native.EvaluateIncident

/-!
# The SLA sweep

`SlaBreachSweep`, a job over open decisions that raises the priority of those whose target is
almost over (`app/jobs/sla_breach_sweep.py`). It is handed decision objects and changes them in
place.
-/

namespace PulseGuard

/-- `SlaBreachSweep` -/
structure SlaBreachSweep where
  thresholdFraction : PyFloat

namespace SlaBreachSweep

/-- `_SEVERITY_ORDER` -/
def severityOrder : List String := ["Low", "Medium", "High", "Critical"]

/-- `_SEVERITY_ORDER.index(priority)`, if the priority is on the scale. -/
def severityIndex (priority : PyVal) : Option Nat :=
  match priority with
  | .str s => severityOrder.idxOf? s
  | _ => none

/-- `_parse_duration_minutes`, which is the conflict resolver's but for a false value. -/
def parseDurationMinutes (value : PyVal) : Except PyError Int :=
  if !value.truthy then .ok (10 ^ 6) else ConflictResolver.parseDurationMinutes value

/-- `(now - decision.created_at).total_seconds() / 60` -/
def elapsedMinutes (now createdAt : Int) : PyFloat :=
  (PyFloat.ofRat (mkRat (now - createdAt) 1000000)).divFin 60

/-- `decision.actions.get("targetSLA")` -/
def targetSla (decision : DecisionRecord) : PyVal :=
  (decision.actions.get? "targetSLA").getD .none

variable (sweep : SlaBreachSweep)

/-- `not elapsed_minutes < target_minutes * self.threshold_fraction` -/
def thresholdReached (now : Int) (decision : DecisionRecord) : Except PyError Bool := do
  let targetMinutes ← parseDurationMinutes (targetSla decision)
  let threshold := (← PyVal.floatOfInt targetMinutes).mul sweep.thresholdFraction
  return !(elapsedMinutes now decision.createdAt).blt threshold

/-- A decision with a new priority, and the flag for the supervisor. -/
def raised (decision : DecisionRecord) (priority : PyVal) : DecisionRecord :=
  { decision with
    priority
    actions := (decision.actions.set "priority" priority).set "supervisorNotified" (.bool true) }

/-- The body of the loop: the raised decision, or `none` when the loop passes over it. -/
def check (now : Int) (decision : DecisionRecord) : Except PyError (Option DecisionRecord) := do
  if decision.resolved || !decision.priority.truthy then return none
  if !(targetSla decision).truthy then return none
  if !(← sweep.thresholdReached now decision) then return none
  match severityIndex decision.priority with
  | none => return none
  | some idx =>
    match severityOrder[idx + 1]? with
    | none => return none
    | some priority => return some (raised decision (.str priority))

/-- `SlaBreachSweep.run`: the incidents bumped, and the decisions as it leaves them, which are
    changed up to where it raises. -/
def run (now : Int) : List DecisionRef → (DecisionRef → DecisionRecord) →
    Except PyError (List String) × (DecisionRef → DecisionRecord)
  | [], objects => (.ok [], objects)
  | ref :: rest, objects =>
    match sweep.check now (objects ref) with
    | .error e => (.error e, objects)
    | .ok none => run now rest objects
    | .ok (some decision) =>
      let (bumped, objects) := run now rest (Function.update objects ref decision)
      (bumped.map (decision.incidentId :: ·), objects)

end SlaBreachSweep

end PulseGuard
