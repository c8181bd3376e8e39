import PulseGuard.Spec.AddOnPacks
import PulseGuard.Spec.DecisionHistory

/-!
# Replay consistency

A replay runs the pipeline on the incident that the evaluation has left in the store, enriched
context and all, so against the same pack it comes to the decision that was stored, whatever the
providers did. It reports no difference, but where the comparison itself finds one between a
decision and that decision (`replay_consistent`).
-/

namespace PulseGuard

variable {σ ρ : Type}

/-! ## A decision and itself -/

theorem codeChanges_self (codes : List String) : codeChanges codes codes = [] := by
  have hnone : (codes.any fun code => !codes.contains code) = false := by
    rw [List.any_eq_false]
    intro code hcode
    simpa using hcode
  rw [codeChanges, hnone]
  rfl

/-- A decision differs from itself in a priority that is not a number, and in nothing else. -/
theorem diff_self_iff (decision : DecisionRecord) :
    diff (some decision) decision.toDecision = [] ↔ decision.priority ≠ .float .nan := by
  unfold diff
  simp only [codeChanges_self, PyVal.sameDict_self, bne_self_eq_false, Bool.not_true,
    Bool.false_eq_true, if_false, List.append_nil]
  rw [← PyVal.sameValue_self_iff]
  cases decision.priority.sameValue decision.priority with
  | true => simp
  | false => simp

/-! ## What the creation of an incident leaves in the store -/

/-- The evaluation of an incident, by what it decides. -/
theorem EvaluateIncidentUseCase.execute_eq (useCase : EvaluateIncidentUseCase)
    (incident : IncidentRecord) (region tenant : PyVal) (now : Int) (store : DecisionStore) :
    useCase.execute incident region tenant now store =
      match useCase.decide (useCase.enrich incident) region tenant with
      | .error e => (.error e, useCase.enrich incident, store)
      | .ok decision =>
        (.ok { decision with createdAt := now, resolved := false }, useCase.enrich incident,
          if useCase.persists then
            InMemoryDecisionRepository.save { decision with createdAt := now, resolved := false } store
          else store) := rfl

namespace CreateIncidentUseCase

/-- The incident as it is received. -/
def received (incidentId : String) (payload : Dict String PyVal) (region tenantId : PyVal)
    (enrichedContext : Option (Dict String PyVal)) : IncidentRecord where
  incidentId := incidentId
  payload := payload
  enrichedContext := enrichedContext.getD Dict.empty
  degradedContext := false
  contextSourcesTotal := 0
  contextSourcesDegraded := 0
  status := "received"
  region
  tenantId

/-- An incident that was created and evaluated is stored enriched, with the decision on it. -/
theorem execute_evaluated {useCase : EvaluateIncidentUseCase} {incidentId : String}
    {payload : Dict String PyVal} {region tenantId : PyVal}
    {enrichedContext : Option (Dict String PyVal)} {now : Int} {app app' : IncidentApp}
    {incident : IncidentRecord} {decision : DecisionRecord} (hpersists : useCase.persists = true)
    (h : execute useCase incidentId payload region tenantId enrichedContext true now app =
      (.ok (incident, some decision), app')) :
    incident = { useCase.enrich (received incidentId payload region tenantId enrichedContext) with
      status := "evaluated" } ∧
    useCase.decide incident region tenantId = .ok decision.toDecision ∧
    app'.incidents = app.incidents.set incidentId incident ∧
    app'.decisions = InMemoryDecisionRepository.save decision app.decisions := by
  have hexecute := useCase.execute_eq (received incidentId payload region tenantId enrichedContext)
    region tenantId now app.decisions
  unfold received at hexecute
  unfold execute at h
  simp only [Bool.not_true, Bool.false_eq_true, if_false] at h
  cases hdecide : useCase.decide (useCase.enrich (received incidentId payload region tenantId
      enrichedContext)) region tenantId with
  | error e =>
    unfold received at hdecide
    rw [hdecide] at hexecute
    rw [hexecute] at h
    cases h
  | ok decided =>
    have hdecided := hdecide
    unfold received at hdecide
    rw [hdecide] at hexecute
    rw [hexecute] at h
    cases h
    refine ⟨rfl, hdecided, rfl, ?_⟩
    simp only [hpersists, if_true]

end CreateIncidentUseCase

/-! ## Replay -/

/-- A decision names the incident it is on. -/
theorem EvaluateIncidentUseCase.incidentId_decide {useCase : EvaluateIncidentUseCase}
    {incident : IncidentRecord} {region tenant : PyVal} {decision : Decision}
    (h : useCase.decide incident region tenant = .ok decision) :
    decision.incidentId = incident.incidentId := by
  obtain ⟨pack, -, hrun⟩ := Except.bind_ok_iff.mp h
  obtain ⟨_, _, _, _, _, _, _, _, -, -, -, -, -, -, rfl⟩ := PipelineOrchestrator.run_ok_iff.mp hrun
  rfl

theorem EvaluateIncidentUseCase.incidentId_enrich (useCase : EvaluateIncidentUseCase)
    (incident : IncidentRecord) : (useCase.enrich incident).incidentId = incident.incidentId := by
  unfold enrich
  split
  · rfl
  · rfl

/-- The decision that was saved last is the current one of its incident. -/
theorem InMemoryDecisionRepository.get_save (decision : DecisionRecord) (store : DecisionStore) :
    (get decision.incidentId (save decision store)).map (save decision store).objects =
      some decision := by
  have hrefs : refs decision.incidentId (save decision store) =
      refs decision.incidentId store ++ [store.nextRef] := by
    rw [refs_save, if_pos rfl]
  rw [get, hrefs, List.getLast?_append, List.getLast?_singleton, Option.some_or, Option.map_some]
  exact congrArg some (Function.update_self _ _ _)

/-- Replay consistency: an incident that was created and evaluated, and that nothing has changed
    since, nor its current decision, is replayed against the pack it was evaluated by with the
    decision that was stored. The replay reports no difference exactly when the priority of the
    decision is not the float that is not a number, which no comparison finds equal to itself. -/
theorem replay_consistent {production : EvaluateIncidentUseCase}
    (packs : Option (RulePackRepository σ ρ)) (s : σ) {incidentId : String}
    {payload : Dict String PyVal} {region tenantId : PyVal}
    {enrichedContext : Option (Dict String PyVal)} {now : Int} {app created later : IncidentApp}
    {incident : IncidentRecord} {decision : DecisionRecord} (reference : PackReference)
    (replayRegion replayTenant : PyVal) (hpersists : production.persists = true)
    (hcreate : CreateIncidentUseCase.execute production incidentId payload region tenantId
      enrichedContext true now app = (.ok (incident, some decision), created))
    (hincident : later.incidents.get? incidentId = created.incidents.get? incidentId)
    (hdecision :
      (InMemoryDecisionRepository.get incidentId later.decisions).map later.decisions.objects =
        (InMemoryDecisionRepository.get incidentId created.decisions).map created.decisions.objects)
    (hpack : Prod.fst <$> resolveRulePack production.ruleRepository packs s reference
        (replayRegion.orElse incident.region) (replayTenant.orElse incident.tenantId) =
      production.ruleRepository.getActive region tenantId) :
    ∃ result,
      (replaySimulationUseCase production packs).execute incidentId reference replayRegion
        replayTenant later s = .ok result ∧
      result.originalDecision = some decision ∧ result.replayedDecision = decision.toDecision ∧
      (result.differs = false ↔ decision.priority ≠ .float .nan) := by
  obtain ⟨hevaluated, hdecide, hincidents, hdecisions⟩ :=
    CreateIncidentUseCase.execute_evaluated hpersists hcreate
  -- the decision is stored under the incident it was made for
  have hid : decision.incidentId = incidentId := by
    rw [production.incidentId_decide hdecide, hevaluated]
    exact production.incidentId_enrich _
  have hstored : later.incidents.get? incidentId = some incident := by
    rw [hincident, hincidents, Dict.get?_set_self]
  have hcurrent : (InMemoryDecisionRepository.get incidentId later.decisions).map
      later.decisions.objects = some decision := by
    rw [hdecision, hdecisions, ← hid, InMemoryDecisionRepository.get_save]
  -- the replay runs the same pack on the same record, so it decides the same
  obtain ⟨pack, hactive, hrun⟩ := Except.bind_ok_iff.mp hdecide
  rw [hactive] at hpack
  obtain ⟨⟨resolved, source⟩, hresolve, rfl⟩ := Except.map_ok_iff.mp hpack
  have hreplay : (replaySimulationUseCase production packs).execute incidentId reference
      replayRegion replayTenant later s = .ok {
        incidentId
        originalDecision := some decision
        replayedDecision := decision.toDecision
        rulePackUsed := rulePackRefDict resolved source
        differs := !(diff (some decision) decision.toDecision).isEmpty
        differences := diff (some decision) decision.toDecision } := by
    unfold ReplaySimulationUseCase.execute
    rw [hstored]
    simp only [replaySimulationUseCase, hcurrent]
    exact Except.bind_ok_iff.mpr ⟨_, hresolve, Except.bind_ok_iff.mpr ⟨_, hrun, rfl⟩⟩
  refine ⟨_, hreplay, rfl, rfl, ?_⟩
  -- a decision differs from itself only by a priority that is not a number
  rw [← diff_self_iff, Bool.not_eq_false', List.isEmpty_iff]

/-! ## Examples -/

/-- The creation of an incident that is evaluated by one rule. -/
def createBy (rule : Rule) :
    Except PyError (IncidentRecord × Option DecisionRecord) × IncidentApp :=
  CreateIncidentUseCase.execute (evaluateBy [rule]) "INC-1" severeIncident.payload .none .none none true 0
    incidentStart

theorem exists_created (rule : Rule)
    (h : ((createBy rule).1.toOption.bind Prod.snd).isSome = true) :
    ∃ incident decision, createBy rule = (.ok (incident, some decision), (createBy rule).2) := by
  revert h
  cases createBy rule with
  | mk result created =>
    intro h
    match result with
    | .ok (incident, some decision) => exact ⟨incident, decision, rfl⟩
    | .ok (incident, none) => cases h
    | .error e => cases h

/-- A replay right after the creation finds nothing changed. -/
theorem replay_consistent_quarter :
    ∃ incident decision result,
      createBy quarterRule = (.ok (incident, some decision), (createBy quarterRule).2) ∧
      (replaySimulationUseCase (σ := Unit) (ρ := Unit) (evaluateBy [quarterRule]) none).execute
        "INC-1" .unnamed .none .none (createBy quarterRule).2 () = .ok result ∧
      result.originalDecision = some decision ∧ result.replayedDecision = decision.toDecision ∧
      (result.differs = false ↔ decision.priority ≠ .float .nan) := by
  obtain ⟨incident, decision, hcreate⟩ := exists_created quarterRule (by decide +kernel)
  obtain ⟨result, hresult⟩ := replay_consistent (σ := Unit) (ρ := Unit) none () .unnamed .none .none
    rfl hcreate rfl rfl rfl
  exact ⟨incident, decision, result, hcreate, hresult⟩

/-- A rule that writes a priority which is not a number. -/
def nanRule : Rule := PipelineOrchestrator.fieldRule "R1" "priority" (.float .nan)

/-- The replay of the same decision reports a change of its priority. -/
theorem replay_reports_same_priority :
    ¬∀ (production : EvaluateIncidentUseCase) (app created : IncidentApp) (incident : IncidentRecord)
      (decision : DecisionRecord) (result : ReplayResult),
      production.persists = true →
      CreateIncidentUseCase.execute production "INC-1" severeIncident.payload .none .none none true 0 app =
        (.ok (incident, some decision), created) →
      (replaySimulationUseCase (σ := Unit) (ρ := Unit) production none).execute "INC-1" .unnamed
        .none .none created () = .ok result →
      result.differs = false := by
  intro h
  obtain ⟨incident, decision, hcreate⟩ := exists_created nanRule (by decide +kernel)
  have hdiffers : (((replaySimulationUseCase (σ := Unit) (ρ := Unit) (evaluateBy [nanRule])
      none).execute "INC-1" .unnamed .none .none (createBy nanRule).2 ()).toOption.map
        ReplayResult.differs) = some true := by decide +kernel
  cases hreplay : (replaySimulationUseCase (σ := Unit) (ρ := Unit) (evaluateBy [nanRule])
      none).execute "INC-1" .unnamed .none .none (createBy nanRule).2 () with
  | error e =>
    rw [hreplay] at hdiffers
    cases hdiffers
  | ok result =>
    have hsame := h _ _ _ incident decision result rfl hcreate hreplay
    rw [hreplay] at hdiffers
    have hchanged : result.differs = true := Option.some.inj hdiffers
    rw [hsame] at hchanged
    cases hchanged

end PulseGuard
