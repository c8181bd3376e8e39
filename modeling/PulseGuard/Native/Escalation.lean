import PulseGuard.Native.SlaBreachSweep

/-!
# Escalation

`EscalationSweep`, a job that opens an event when an escalation level has gone without one for
too long, the acknowledgement of an event, and the stores of policies and events
(`app/jobs/escalation_sweep.py`, `app/application/use_cases/acknowledge_escalation.py`,
`app/infrastructure/repositories/in_memory_escalation_repository.py`,
`in_memory_escalation_policy_repository.py`).

Times are microseconds. An acknowledgement changes an event in place, so the events are kept on a
heap and references in the repository.
-/

namespace PulseGuard

/-- `EscalationLevel` -/
structure EscalationLevel where
  level : String
  timeoutMinutes : Int
deriving DecidableEq

/-- `EscalationPolicy` -/
structure EscalationPolicy where
  severityBand : String
  levels : List EscalationLevel

/-- `EscalationEvent` -/
structure EscalationEvent where
  id : Uuid
  decisionId : String
  level : String
  triggeredAt : Int
  acknowledgedAt : Option Int
  acknowledgedBy : Option String

namespace InMemoryEscalationPolicyRepository

/-- `_DEFAULT_POLICIES` -/
def defaultPolicies : List (String × EscalationPolicy) := [
  ("Critical", { severityBand := "Critical", levels := [
    ⟨"ENGINEER", 5⟩, ⟨"REGIONAL_MANAGER", 15⟩, ⟨"NATIONAL_NOC", 30⟩, ⟨"VENDOR", 60⟩,
    ⟨"OEM", 120⟩] }),
  ("High", { severityBand := "High", levels := [
    ⟨"ENGINEER", 15⟩, ⟨"REGIONAL_MANAGER", 30⟩, ⟨"NATIONAL_NOC", 60⟩, ⟨"VENDOR", 120⟩] }),
  ("Medium", { severityBand := "Medium", levels := [
    ⟨"ENGINEER", 30⟩, ⟨"REGIONAL_MANAGER", 90⟩] }),
  ("Low", { severityBand := "Low", levels := [⟨"ENGINEER", 120⟩] })]

/-- `get_for_severity` -/
def getForSeverity (policies : List (String × EscalationPolicy)) (severityBand : String) :
    Option EscalationPolicy :=
  policies.lookup severityBand

end InMemoryEscalationPolicyRepository

namespace EscalationSweep

/-- `elapsed_minutes >= level_def.timeout_minutes`, with
    `elapsed_minutes = (now - decision_created_at).total_seconds() / 60` -/
def elapsed (decisionCreatedAt now : Int) (levelDef : EscalationLevel) : Bool :=
  (PyFloat.fin levelDef.timeoutMinutes).ble (SlaBreachSweep.elapsedMinutes now decisionCreatedAt)

/-- `triggered_levels` -/
def triggeredLevels (existingEvents : List EscalationEvent) : List String :=
  existingEvents.map (·.level)

/-- The loop over the levels: the last one that is due and has no event is kept. -/
def nextLevel (policy : EscalationPolicy) (triggered : List String) (decisionCreatedAt now : Int) :
    Option EscalationLevel :=
  policy.levels.foldl (fun nextLevel levelDef =>
    if elapsed decisionCreatedAt now levelDef && !triggered.contains levelDef.level then
      some levelDef
    else nextLevel) none

/-- `EscalationSweep.run`; `newId` is what `uuid.uuid4()` gives. -/
def run (newId : Uuid) (decisionId : String) (policy : EscalationPolicy)
    (existingEvents : List EscalationEvent) (decisionCreatedAt now : Int) :
    Option EscalationEvent :=
  (nextLevel policy (triggeredLevels existingEvents) decisionCreatedAt now).map fun nextLevel => {
    id := newId
    decisionId
    level := nextLevel.level
    triggeredAt := now
    acknowledgedAt := none
    acknowledgedBy := none }

end EscalationSweep

/-- `AcknowledgeEscalationUseCase.execute`, with the event as it leaves it. -/
def AcknowledgeEscalationUseCase.execute (event : EscalationEvent) (acknowledgedBy : String)
    (now : Int) : Except PyError EscalationEvent :=
  if event.acknowledgedAt.isSome then
    .error (.valueError ("Escalation event " ++ toString event.id ++
      " was already acknowledged by " ++ event.acknowledgedBy.getD "None"))
  else if acknowledgedBy == "" || PyStr.strip acknowledgedBy == "" then
    .error (.valueError "Acknowledging an escalation requires an identified acknowledger")
  else .ok { event with acknowledgedAt := some now, acknowledgedBy := some acknowledgedBy }

/-! ## The events of the decisions -/

/-- The address of an `EscalationEvent` object. -/
abbrev EscalationEventRef := Nat

/-- The heap of event objects, `_by_decision`, and the supply of identifiers. -/
structure EscalationStore where
  objects : EscalationEventRef → EscalationEvent
  nextRef : EscalationEventRef
  byDecision : Dict String (List EscalationEventRef)
  nextUuid : Uuid

namespace InMemoryEscalationRepository

/-- An event object that no reference leads to. -/
def blank : EscalationEvent where
  id := 0
  decisionId := ""
  level := ""
  triggeredAt := 0
  acknowledgedAt := none
  acknowledgedBy := none

/-- `__init__` -/
def init : EscalationStore where
  objects := fun _ => blank
  nextRef := 0
  byDecision := Dict.empty
  nextUuid := 0

/-- `list_by_decision` -/
def listByDecision (decisionId : String) (store : EscalationStore) : List EscalationEventRef :=
  (store.byDecision.get? decisionId).getD []

/-- The events themselves. -/
def events (decisionId : String) (store : EscalationStore) : List EscalationEvent :=
  (listByDecision decisionId store).map store.objects

/-- `save`, of an event object that was just constructed. -/
def save (event : EscalationEvent) (store : EscalationStore) : EscalationStore :=
  { store with
    objects := Function.update store.objects store.nextRef event
    nextRef := store.nextRef + 1
    byDecision := store.byDecision.set event.decisionId
      (listByDecision event.decisionId store ++ [store.nextRef]) }

end InMemoryEscalationRepository

/-- What happens to the events of the decisions: a sweep, whose event is stored, or the
    acknowledgement of an event. -/
inductive EscalationCall where
  | sweep (decisionId : String) (policy : EscalationPolicy) (decisionCreatedAt now : Int)
  | acknowledge (event : EscalationEventRef) (acknowledgedBy : String) (now : Int)

namespace EscalationCall

/-- What a sweep of a decision returns. -/
def opened (decisionId : String) (policy : EscalationPolicy) (decisionCreatedAt now : Int)
    (store : EscalationStore) : Option EscalationEvent :=
  EscalationSweep.run store.nextUuid decisionId policy
    (InMemoryEscalationRepository.events decisionId store) decisionCreatedAt now

/-- What a call does to the events. -/
def exec : EscalationCall → EscalationStore → EscalationStore
  | sweep decisionId policy decisionCreatedAt now, store =>
    match opened decisionId policy decisionCreatedAt now store with
    | none => store
    | some event =>
      InMemoryEscalationRepository.save event { store with nextUuid := store.nextUuid + 1 }
  | acknowledge ref acknowledgedBy now, store =>
    match AcknowledgeEscalationUseCase.execute (store.objects ref) acknowledgedBy now with
    | .error _ => store
    | .ok event => { store with objects := Function.update store.objects ref event }

/-- The events after a list of calls. -/
def runAll (calls : List EscalationCall) (store : EscalationStore) : EscalationStore :=
  calls.foldl (fun store call => call.exec store) store

end EscalationCall

end PulseGuard
