import PulseGuard.ForStd.FloatRange
import PulseGuard.Native.BulkEvaluate
import PulseGuard.Spec.RunStages

/-!
# Incidents that the rules judge alike

Two incidents on which every active rule of a pack comes to the same verdict are ruled on alike
(`ruling_congr`), whatever else differs in what the evaluation is given. `aggregate_congr` and
`enrich_congr` say when two incidents are given the same context.
-/

namespace PulseGuard

/-- The active rules come to the same verdicts on two sets of data, and so do the conditions of
    the compliance rules, or fail alike. -/
def SameVerdicts (rules : List Rule) (data data' : PyVal) : Prop :=
  ∀ rule ∈ rules, rule.isActive = true →
    PolicyEngine.judge data rule = PolicyEngine.judge data' rule ∧
    (rule.family = PolicyEngine.complianceFamily →
      rule.conditions.isSatisfiedBy data = rule.conditions.isSatisfiedBy data')

theorem PolicyEngine.matchedRules_congr {data data' : PyVal} {rules : List Rule}
    (h : ∀ rule ∈ rules, judge data rule = judge data' rule) :
    matchedRules data rules = matchedRules data' rules := by
  induction rules with
  | nil => rfl
  | cons rule rest ih =>
    obtain ⟨hrule, hrest⟩ := List.forall_mem_cons.mp h
    rw [matchedRules_cons, matchedRules_cons, hrule, ih hrest]

theorem ComplianceApplier.applyRules_congr {data data' : PyVal} {rules : List Rule}
    (h : ∀ rule ∈ rules,
      rule.conditions.isSatisfiedBy data = rule.conditions.isSatisfiedBy data')
    (actions : Dict String PyVal) (constraints : List ComplianceConstraint) :
    applyRules data actions constraints rules = applyRules data' actions constraints rules := by
  induction rules generalizing actions constraints with
  | nil => rfl
  | cons rule rest ih =>
    obtain ⟨hrule, hrest⟩ := List.forall_mem_cons.mp h
    simp only [applyRules, hrule, ih hrest]

namespace PipelineOrchestrator

/-- The confidence score of an incident, as far as it can keep a run from completing. -/
def measured (incident : Incident) : Except PyError Unit :=
  (fun _ => ()) <$> ConfidenceCalculator.compute (totalSources incident) (degradedSources incident)

/-- The ruling of a run asks of the confidence score only that it can be computed. -/
theorem ruling_run_measured (matrix : Option SlaMatrix) (incident : Incident) (pack : RulePack) :
    Decision.ruling <$> run matrix incident pack = do
      let matched ← PolicyEngine.matchedRules incident.asEvaluationData (pack.activeRules none)
      let resolution ← ConflictResolver.resolve matched
      let actions ← finalActions matrix incident pack resolution.actions
      let executionPlan ← ExecutionPlanBuilder.build actions matched
      measured incident
      let (riskScore, riskBand) :=
        RiskScorer.score matched (resolution.suppressed.map SuppressedEntry.ruleCode)
      return {
        priority := (actions.get? "priority").getD .none
        riskScore, riskBand, actions, mitigations := resolution.mitigations, executionPlan
        matchedRules := ExplainabilityBuilder.matchedTrace matched } := by
  rw [ruling_run]
  simp only [measured, bind_map_left]

/-- Incidents that the rules of a pack judge alike are ruled on alike. -/
theorem ruling_congr (matrix : Option SlaMatrix) {incident incident' : Incident} {pack : RulePack}
    (h : SameVerdicts pack.rules incident.asEvaluationData incident'.asEvaluationData)
    (htier : incident.payload.get? "customerTier" = incident'.payload.get? "customerTier")
    (hmeasured : measured incident = measured incident') :
    Decision.ruling <$> run matrix incident pack = Decision.ruling <$> run matrix incident' pack := by
  have hmatched : PolicyEngine.matchedRules incident.asEvaluationData (pack.activeRules none) =
      PolicyEngine.matchedRules incident'.asEvaluationData (pack.activeRules none) := by
    refine PolicyEngine.matchedRules_congr ?_
    intro rule hrule
    obtain ⟨hmem, hactive⟩ := RulePack.mem_activeRules.mp hrule
    exact (h rule hmem hactive).1
  have hcompliance : ∀ actions, ComplianceApplier.apply pack incident actions =
      ComplianceApplier.apply pack incident' actions := by
    intro actions
    refine ComplianceApplier.applyRules_congr ?_ actions []
    intro rule hrule
    obtain ⟨hmem, hactive, hfamily⟩ := RulePack.mem_activeRules_family.mp hrule
    exact (h rule hmem hactive).2 hfamily
  have hfill : ∀ actions, fillSla matrix incident actions = fillSla matrix incident' actions := by
    intro actions
    unfold fillSla
    rw [htier]
  have hfinal : ∀ actions, finalActions matrix incident pack actions =
      finalActions matrix incident' pack actions := by
    intro actions
    unfold finalActions
    simp only [hcompliance, hfill]
  rw [ruling_run_measured, ruling_run_measured]
  simp only [hmatched, hfinal, hmeasured]

end PipelineOrchestrator

/-! ## The confidence score -/

theorem ConfidenceCalculator.compute_ok {total degraded : Int} (htotal : total < 2 ^ 63)
    (hdegraded : 0 ≤ degraded) : ∃ score, compute total degraded = .ok score := by
  unfold compute
  by_cases hpos : total ≤ 0
  · exact ⟨.fin 100, by rw [if_pos hpos]; rfl⟩
  · rw [if_neg hpos]
    obtain ⟨n, rfl⟩ := Int.eq_ofNat_of_zero_le (show 0 ≤ total by omega)
    obtain ⟨live, hlive⟩ := Int.eq_ofNat_of_zero_le (le_max_right ((n : Int) - degraded) 0)
    have hle : live ≤ n := by
      have : max ((n : Int) - degraded) 0 ≤ n := max_le (by omega) (by omega)
      omega
    have hn : n < 2 ^ 63 := by exact_mod_cast htotal
    obtain ⟨q, hq⟩ := PyVal.floatOfInt_natCast (lt_of_le_of_lt hle hn)
    obtain ⟨t, ht⟩ := PyVal.floatOfInt_natCast hn
    simp only [hlive, hq, ht]
    exact ⟨_, rfl⟩

namespace PipelineOrchestrator

/-- The sources of an incident whose context was not aggregated. -/
theorem totalSources_unmeasured {incident : Incident} (htotal : incident.contextSourcesTotal = 0)
    (hcontext : incident.enrichedContext.entries.length < 2 ^ 63) :
    totalSources incident < 2 ^ 63 := by
  unfold totalSources
  rw [htotal]
  simp only [bne_self_eq_false, Bool.false_eq_true, if_false]
  split
  · norm_num
  · exact_mod_cast hcontext

theorem degradedSources_nonneg {incident : Incident} (h : 0 ≤ incident.contextSourcesDegraded) :
    0 ≤ degradedSources incident := by
  unfold degradedSources
  split
  · exact h
  · split
    · exact Int.one_nonneg
    · exact le_refl _

/-- A run over fewer sources than a list can have is not kept from completing by its score. -/
theorem measured_ok {incident : Incident}
    (htotal : totalSources incident < 2 ^ 63) (hdegraded : 0 ≤ degradedSources incident) :
    measured incident = .ok () := by
  obtain ⟨score, hscore⟩ := ConfidenceCalculator.compute_ok htotal hdegraded
  rw [measured, hscore]
  rfl

end PipelineOrchestrator

/-! ## The context -/

namespace ContextAggregationService

theorem aggregate_congr {providers : List ContextProvider} {incident incident' : IncidentRecord}
    (h : ∀ provider ∈ providers, provider.fetch incident = provider.fetch incident') :
    aggregate providers incident = aggregate providers incident' := by
  unfold aggregate
  generalize ({ merged := _, totalSources := _, degradedSources := _ } : AggregatedContext) = context
  induction providers generalizing context with
  | nil => rfl
  | cons provider rest ih =>
    obtain ⟨hprovider, hrest⟩ := List.forall_mem_cons.mp h
    have hstep : addSource incident context provider = addSource incident' context provider := by
      unfold addSource
      rw [hprovider]
    rw [List.foldl_cons, List.foldl_cons, hstep]
    exact ih hrest _

/-- A provider adds to the degraded sources, or to the context. -/
theorem length_degraded_aggregate (providers : List ContextProvider) (incident : IncidentRecord) :
    (aggregate providers incident).totalSources = providers.length ∧
      (aggregate providers incident).degradedSources.length ≤ providers.length := by
  have hloop : ∀ context : AggregatedContext,
      (providers.foldl (addSource incident) context).totalSources = context.totalSources ∧
      (providers.foldl (addSource incident) context).degradedSources.length ≤
        context.degradedSources.length + providers.length := by
    induction providers with
    | nil => exact fun context => ⟨rfl, le_refl _⟩
    | cons provider rest ih =>
      intro context
      obtain ⟨htotal, hlength⟩ := ih (addSource incident context provider)
      have hstep : (addSource incident context provider).totalSources = context.totalSources ∧
          (addSource incident context provider).degradedSources.length ≤
            context.degradedSources.length + 1 := by
        unfold addSource
        split
        · exact ⟨rfl, Nat.le_succ _⟩
        · exact ⟨rfl, by simp⟩
      rw [List.foldl_cons, List.length_cons]
      exact ⟨htotal.trans hstep.1, by omega⟩
  obtain ⟨htotal, hlength⟩ := hloop
    { merged := Dict.empty, totalSources := providers.length, degradedSources := [] }
  exact ⟨htotal, hlength.trans (le_of_eq (Nat.zero_add _))⟩

end ContextAggregationService

/-- The providers that do not tell two incidents apart give them the same context. -/
theorem EvaluateIncidentUseCase.enrich_congr (useCase : EvaluateIncidentUseCase)
    (incident : IncidentRecord) (payload : Dict String PyVal) (region tenantId : PyVal)
    (h : ∀ providers, useCase.contextProviders = some providers → ∀ provider ∈ providers,
      provider.fetch { incident with payload, region, tenantId } = provider.fetch incident) :
    useCase.enrich { incident with payload, region, tenantId } =
      { useCase.enrich incident with payload, region, tenantId } := by
  unfold enrich
  cases hproviders : useCase.contextProviders with
  | none => rfl
  | some providers =>
    simp only [ContextAggregationService.aggregate_congr (h providers hproviders)]

end PulseGuard
