import PulseGuard.Spec.AddOnPacks
import PulseGuard.Spec.DecisionHistory
import PulseGuard.Spec.SameVerdicts

/-!
# What-if fidelity

When the what-if simulation of a request rules as the evaluation does. The two share the rule
repository and the orchestrator, but the simulation runs on the incident as it was sent and the
evaluation on the enriched one. So they agree when every active rule comes to the same verdict
with the aggregated context as with the context of the request (`whatIf_ruling`).
-/

namespace PulseGuard

variable {σ ρ : Type}

namespace EvaluateIncidentUseCase

/-- What the evaluation of an incident rules. -/
theorem ruling_execute (useCase : EvaluateIncidentUseCase) (incident : IncidentRecord)
    (region tenant : PyVal) (now : Int) (store : DecisionStore) :
    (fun decision => decision.ruling) <$> (useCase.execute incident region tenant now store).1 =
      Decision.ruling <$> useCase.decide (useCase.enrich incident) region tenant := by
  unfold execute
  simp only
  cases useCase.decide (useCase.enrich incident) region tenant with
  | error e => rfl
  | ok decision => rfl

/-- Aggregation leaves the payload alone. -/
theorem payload_enrich (useCase : EvaluateIncidentUseCase) (incident : IncidentRecord) :
    (useCase.enrich incident).payload = incident.payload := by
  unfold enrich
  split
  · rfl
  · rfl

/-- The confidence score of an enriched incident can be computed, for as many sources as a list
    can have. -/
theorem measured_enrich (useCase : EvaluateIncidentUseCase) {incident : IncidentRecord}
    (htotal : incident.contextSourcesTotal = 0) (hdegraded : incident.contextSourcesDegraded = 0)
    (hproviders : ∀ providers, useCase.contextProviders = some providers → providers.length < 2 ^ 63)
    (hcontext : incident.enrichedContext.entries.length < 2 ^ 63) :
    PipelineOrchestrator.measured (useCase.enrich incident).toIncident = .ok () := by
  unfold enrich
  split
  · exact PipelineOrchestrator.measured_ok
      (PipelineOrchestrator.totalSources_unmeasured htotal hcontext)
      (PipelineOrchestrator.degradedSources_nonneg (le_of_eq hdegraded.symm))
  · rename_i providers heq
    obtain ⟨hlength, -⟩ :=
      ContextAggregationService.length_degraded_aggregate providers incident
    refine PipelineOrchestrator.measured_ok ?_
      (PipelineOrchestrator.degradedSources_nonneg (Int.natCast_nonneg _))
    by_cases hzero : providers = []
    · -- without providers the context is the incident's own
      subst hzero
      have hsame : ((ContextAggregationService.aggregate [] incident).merged.update
          incident.enrichedContext) = incident.enrichedContext :=
        Dict.ext (Dict.entries_ofList incident.enrichedContext.nodup)
      refine PipelineOrchestrator.totalSources_unmeasured rfl ?_
      simp only [hsame]
      exact hcontext
    · have hne : ((providers.length : Int) != 0) = true := by simpa using hzero
      unfold PipelineOrchestrator.totalSources
      simp only [hlength, hne, if_true]
      exact_mod_cast hproviders providers heq

end EvaluateIncidentUseCase

/-- What the simulation of a request rules: the ruling of a run over the pack that the request
    means. -/
theorem ruling_simulate (useCase : WhatIfSimulationUseCase σ ρ) (body : IncidentEvaluateRequest)
    (reference : PackReference) (region tenant : PyVal) (s : σ) :
    (fun result => result.1.ruling) <$> simulate useCase body reference region tenant s =
      (do
        let pack ← Prod.fst <$> resolveRulePack useCase.ruleRepository useCase.rulePackRepository s
          reference region tenant
        Decision.ruling <$>
          PipelineOrchestrator.run useCase.slaMatrix (incidentFromRequest body).toIncident pack) := by
  unfold simulate WhatIfSimulationUseCase.execute
  cases resolveRulePack useCase.ruleRepository useCase.rulePackRepository s reference region
    tenant with
  | error e => rfl
  | ok resolved =>
    obtain ⟨pack, source⟩ := resolved
    show (fun result => result.1.ruling) <$> (do
        let decision ← PipelineOrchestrator.run useCase.slaMatrix (incidentFromRequest body).toIncident pack
        return (decision, rulePackRefDict pack source)) =
      Decision.ruling <$>
        PipelineOrchestrator.run useCase.slaMatrix (incidentFromRequest body).toIncident pack
    cases PipelineOrchestrator.run useCase.slaMatrix (incidentFromRequest body).toIncident pack with
    | error e => rfl
    | ok decision => rfl

/-- What-if fidelity: the simulation of a request against the active pack, by whatever reference
    leads there, rules as the evaluation of the request does (the same priority, risk, actions,
    mitigations, plan and matched rules, or the same exception), when every active rule of the
    pack comes to the same verdict on the request as on the request with the aggregated
    context. No list has so many items that its length is no float. -/
theorem whatIf_ruling (production : EvaluateIncidentUseCase)
    (packs : Option (RulePackRepository σ ρ)) (s : σ) (reference : PackReference)
    (region tenant : PyVal) (body : IncidentEvaluateRequest) (now : Int) (store : DecisionStore)
    (hactive : Prod.fst <$> resolveRulePack production.ruleRepository packs s reference region tenant
      = production.ruleRepository.getActive .none .none)
    (hproviders : ∀ providers, production.contextProviders = some providers →
      providers.length < 2 ^ 63)
    (hcontext : (body.context.getD Dict.empty).entries.length < 2 ^ 63)
    (halike : ∀ pack, production.ruleRepository.getActive .none .none = .ok pack →
      SameVerdicts pack.rules (incidentFromRequest body).asEvaluationData
        (production.enrich (incidentFromRequest body)).asEvaluationData) :
    (fun result => result.1.ruling) <$>
        simulate (whatIfSimulationUseCase production packs) body reference region tenant s =
      (fun decision => decision.ruling) <$> (evaluateIncident production body now store).1 := by
  have hevaluate : (fun decision : DecisionRecord => decision.ruling) <$>
      (evaluateIncident production body now store).1 =
      Decision.ruling <$> production.decide (production.enrich (incidentFromRequest body)) .none .none :=
    production.ruling_execute (incidentFromRequest body) .none .none now store
  rw [hevaluate, ruling_simulate]
  simp only [whatIfSimulationUseCase, EvaluateIncidentUseCase.decide, map_bind]
  rw [hactive]
  cases hpack : production.ruleRepository.getActive .none .none with
  | error e => rfl
  | ok pack =>
    refine PipelineOrchestrator.ruling_congr production.slaMatrix (halike pack hpack) ?_ ?_
    · rw [production.payload_enrich]
    · rw [production.measured_enrich rfl rfl hproviders hcontext]
      exact PipelineOrchestrator.measured_ok
        (PipelineOrchestrator.totalSources_unmeasured rfl hcontext)
        (PipelineOrchestrator.degradedSources_nonneg (le_refl _))

/-! ## Examples -/

/-- A provider that says whether the site is in a high-risk zone. -/
def zoneProvider (highRisk : Bool) : ContextProvider where
  sourceName := "regional_policy_store"
  fetch := fun _ => .ok (some (Dict.empty.set "highRiskZone" (.bool highRisk)))

/-- A request with a severity. -/
def severeRequest : IncidentEvaluateRequest where
  incidentId := "INC-1"
  fields := Dict.empty.set "severity" (.str "high")
  context := none
  degradedContext := none
  apart := by
    intro k hk
    rw [Dict.get?_set_of_ne]
    · rfl
    · rintro rfl
      revert hk
      decide

/-- The evaluation by one list of rules, with a provider. -/
def evaluateWith (rules : List Rule) (provider : ContextProvider) : EvaluateIncidentUseCase :=
  { evaluateBy rules with contextProviders := some [provider] }

/-- The rule reads the severity, and the provider gives the zone. -/
theorem whatIf_ruling_severity :
    (fun result => result.1.ruling) <$>
        simulate (whatIfSimulationUseCase (σ := Unit) (ρ := Unit)
          (evaluateWith PipelineOrchestrator.priorityRules (zoneProvider true)) none)
          severeRequest .unnamed .none .none () =
      (fun decision => decision.ruling) <$>
        (evaluateIncident (evaluateWith PipelineOrchestrator.priorityRules (zoneProvider true))
          severeRequest 0 InMemoryDecisionRepository.init).1 := by
  refine whatIf_ruling _ none () .unnamed .none .none severeRequest 0 _ rfl ?_ ?_ ?_
  · intro providers heq
    cases heq
    decide
  · decide
  · intro pack hpack rule hrule _
    cases hpack
    obtain rfl := List.mem_singleton.mp hrule
    exact ⟨rfl, fun _ => rfl⟩

/-- A rule that reads the zone, which the provider gives and the request does not. -/
def zoneRule : Rule :=
  { PipelineOrchestrator.fieldRule "R1" "priority" (.str "High") with
    conditions := ⟨.dict [("var", .str "context.highRiskZone")]⟩ }

/-- The evaluation raises the priority, the simulation does not. -/
theorem whatIf_misses_context :
    ¬∀ (production : EvaluateIncidentUseCase) (body : IncidentEvaluateRequest),
      (fun result => result.1.ruling) <$>
          simulate (whatIfSimulationUseCase (σ := Unit) (ρ := Unit) production none) body .unnamed
            .none .none () =
        (fun decision => decision.ruling) <$>
          (evaluateIncident production body 0 InMemoryDecisionRepository.init).1 := by
  intro h
  have hsame := congrArg (fun result => result.toOption.map fun ruling => ruling.priority.truthy)
    (h (evaluateWith [zoneRule] (zoneProvider true)) severeRequest)
  revert hsame
  decide +kernel

end PulseGuard
