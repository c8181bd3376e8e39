import PulseGuard.Spec.ExportImport
import PulseGuard.Spec.RunStages

/-!
# The compliance pass

The compliance rules are to narrow how a decision is carried out: they run last, and never
contend for its priority. Nothing keeps them from writing any field. `priority_kept_iff` says
when a pack decides the priority that it decides without its compliance rules, and
`lastWord_iff` when every constraint that a decision lists holds in its actions.
-/

namespace PulseGuard

/-- The pack without its compliance rules. -/
def RulePack.withoutCompliance (pack : RulePack) : RulePack :=
  { pack with rules := pack.rules.filter fun r => r.family != PolicyEngine.complianceFamily }

/-- Every constraint that the decision lists holds in its actions. -/
def Decision.LastWord (decision : Decision) : Prop :=
  ∀ constraint ∈ decision.complianceConstraints, ∀ f v,
    constraint.applied.get? f = some v → decision.actions.get? f = some v

theorem PolicyEngine.isMatch_compliance {data : PyVal} {rule : Rule}
    (h : rule.family = complianceFamily) : isMatch data rule = false := by
  unfold isMatch judge
  rw [h]
  rfl

theorem PolicyEngine.matching_withoutCompliance (data : PyVal) (pack : RulePack) :
    matching data pack.withoutCompliance.rules = matching data pack.rules := by
  unfold matching RulePack.withoutCompliance
  rw [List.filter_filter]
  congr 1
  apply List.filter_congr
  intro r _
  by_cases hfamily : r.family = complianceFamily
  · rw [isMatch_compliance hfamily, Bool.and_false, Bool.false_and]
  · rw [bne_iff_ne.mpr hfamily, Bool.and_true]

namespace ComplianceApplier

theorem applying_withoutCompliance (data : PyVal) (pack : RulePack) :
    applying data pack.withoutCompliance.rules = [] := by
  rw [List.eq_nil_iff_forall_not_mem]
  intro r hr
  obtain ⟨hmem, -, hfamily, -⟩ := mem_applying.mp hr
  have hother := (List.mem_filter.mp hmem).2
  rw [hfamily] at hother
  exact absurd hother (by decide)

/-- A field that a rule writes has a last one to write it. -/
theorem exists_lastWritten {rules : List Rule} {r : Rule} {f : String} {v : PyVal} (hr : r ∈ rules)
    (hv : r.actions.get? f = some v) :
    ∃ r' ∈ rules, ∃ v', r'.actions.get? f = some v' ∧ lastWritten f rules = some v' := by
  cases hlast : lastWritten f rules with
  | none =>
    have hnone := List.findSome?_eq_none_iff.mp hlast r (List.mem_reverse.mpr hr)
    rw [hnone] at hv
    cases hv
  | some v' =>
    obtain ⟨r', hr', hv'⟩ := List.exists_of_findSome?_eq_some hlast
    exact ⟨r', List.mem_reverse.mp hr', v', hv', rfl⟩

end ComplianceApplier

namespace ExecutionPlanBuilder

/-- Whether a plan can be built is up to the rules. -/
theorem build_total_of_ok {actions : Dict String PyVal} {matched : List Rule} {plan : List PlanStep}
    (h : build actions matched = .ok plan) (actions' : Dict String PyVal) :
    ∃ plan', build actions' matched = .ok plan' := by
  obtain ⟨⟨steps, types⟩, hsequenced, -⟩ := Except.bind_ok_iff.mp h
  unfold build
  rw [hsequenced]
  exact ⟨_, rfl⟩

end ExecutionPlanBuilder

namespace PipelineOrchestrator

/-- The SLA matrix has a default for the decision, which no rule has given a target. -/
def Filled (matrix : Option SlaMatrix) (incident : Incident) (actions : Dict String PyVal)
    (entry : SlaEntry) : Prop :=
  ∃ rows, matrix = some rows ∧ actions.contains "targetSLA" = false ∧
    SlaMatrixLookup.resolve rows ((incident.payload.get? "customerTier").getD .none)
      ((actions.get? "priority").getD .none) = .ok (some entry)

/-- The fill writes its two fields when the matrix has a default. -/
theorem fillSla_ok {matrix : Option SlaMatrix} {incident : Incident}
    {actions final : Dict String PyVal} (h : fillSla matrix incident actions = .ok final) :
    final = actions ∧ (∀ entry, ¬Filled matrix incident actions entry) ∨
      ∃ entry, Filled matrix incident actions entry ∧
        final = (actions.set "targetSLA" (.str (toString entry.responseMinutes ++ " minutes"))).set
          "slaResolutionMinutes" (.int entry.resolutionMinutes) := by
  unfold fillSla at h
  cases matrix with
  | none =>
    cases h
    left
    refine ⟨rfl, ?_⟩
    intro entry h
    obtain ⟨rows, hrows, -, -⟩ := h
    cases hrows
  | some rows =>
    simp only at h
    split at h
    · rename_i hcontains
      left
      refine ⟨(Except.pure_ok_iff.mp h).symm, ?_⟩
      intro entry h
      obtain ⟨-, -, hmissing, -⟩ := h
      rw [hcontains] at hmissing
      cases hmissing
    · rename_i hmissing
      obtain ⟨found, hfound, h⟩ := Except.bind_ok_iff.mp h
      cases found with
      | none =>
        left
        refine ⟨(Except.pure_ok_iff.mp h).symm, ?_⟩
        intro entry h
        obtain ⟨rows', hrows, -, hentry⟩ := h
        cases hrows
        rw [hfound] at hentry
        cases hentry
      | some entry =>
        right
        exact ⟨entry, ⟨rows, rfl, Bool.eq_false_iff.mpr hmissing, hfound⟩, (Except.pure_ok_iff.mp h).symm⟩

/-! ## The priority -/

/-- The compliance rules that apply leave the resolved priority as it is, and the SLA fill would
    go through without them. -/
def PriorityKept (matrix : Option SlaMatrix) (incident : Incident) (pack : RulePack) : Prop :=
  ∀ matched rejected resolution, PolicyEngine.evaluate pack incident = .ok (matched, rejected) →
    ConflictResolver.resolve matched = .ok resolution →
    (∀ v, ComplianceApplier.lastWritten "priority"
        (ComplianceApplier.applying incident.asEvaluationData pack.rules) = some v →
      (resolution.actions.get? "priority").getD .none = v) ∧
    ∃ final, fillSla matrix incident resolution.actions = .ok final

/-- A pack decides the priority, the risk score and the band that it decides without its
    compliance rules exactly when these keep the priority. -/
theorem priority_kept_iff (matrix : Option SlaMatrix) (incident : Incident) (pack : RulePack)
    (decision : Decision) (hrun : run matrix incident pack = .ok decision) :
    (∃ decision', run matrix incident pack.withoutCompliance = .ok decision' ∧
        decision'.priority = decision.priority ∧ decision'.riskScore = decision.riskScore ∧
        decision'.riskBand = decision.riskBand) ↔
      PriorityKept matrix incident pack := by
  obtain ⟨matched, rejected, resolution, actions, constraints, final, plan, confidence, hevaluate,
    hresolve, happly, hfill, hplan, hconfidence, rfl⟩ := run_ok_iff.mp hrun
  obtain ⟨hjudged, hmatched⟩ := PolicyEngine.evaluate_ok_iff.mp ⟨rejected, hevaluate⟩
  obtain ⟨hsatisfied, hactions, -⟩ := ComplianceApplier.apply_ok_iff.mp happly
  have hsub : ∀ r ∈ pack.withoutCompliance.rules, r ∈ pack.rules :=
    fun r hr => (List.mem_filter.mp hr).1
  have hpriority : (final.get? "priority").getD .none =
      ((ComplianceApplier.lastWritten "priority"
        (ComplianceApplier.applying incident.asEvaluationData pack.rules)).or
        (resolution.actions.get? "priority")).getD .none := by
    rw [get?_fillSla hfill (by decide) (by decide), hactions, ComplianceApplier.get?_narrow]
  -- without its compliance rules the pack adds no constraint and narrows no action
  have happly' : ComplianceApplier.apply pack.withoutCompliance incident resolution.actions =
      .ok (resolution.actions, []) := by
    apply ComplianceApplier.apply_ok_iff.mpr
    rw [ComplianceApplier.applying_withoutCompliance]
    exact ⟨fun r hr => hsatisfied r (hsub r hr), rfl, rfl⟩
  -- and the same rules match
  obtain ⟨rejected', hevaluate'⟩ : ∃ rejected',
      PolicyEngine.evaluate pack.withoutCompliance incident = .ok (matched, rejected') := by
    refine PolicyEngine.evaluate_ok_iff.mpr ⟨fun r hr => hjudged r (hsub r hr), ?_⟩
    rw [PolicyEngine.matching_withoutCompliance]
    exact hmatched
  constructor
  · intro h
    obtain ⟨decision', hrun', hsame, -, -⟩ := h
    -- both runs resolve the same matches, so they differ in the narrowing alone
    intro matched₁ rejected₁ resolution₁ hevaluate₁ hresolve₁
    rw [hevaluate] at hevaluate₁
    cases hevaluate₁
    rw [hresolve] at hresolve₁
    cases hresolve₁
    obtain ⟨matched₂, rejected₂, resolution₂, actions₂, constraints₂, final₂, plan₂, confidence₂,
      hevaluate₂, hresolve₂, happly₂, hfill₂, -, -, rfl⟩ := run_ok_iff.mp hrun'
    rw [hevaluate'] at hevaluate₂
    cases hevaluate₂
    rw [hresolve] at hresolve₂
    cases hresolve₂
    rw [happly'] at happly₂
    cases happly₂
    refine ⟨fun v hv => ?_, final₂, hfill₂⟩
    have hsame : (final₂.get? "priority").getD .none = (final.get? "priority").getD .none := hsame
    rw [hpriority, hv, get?_fillSla hfill₂ (by decide) (by decide)] at hsame
    exact hsame
  · intro hkept
    obtain ⟨hlast, final', hfill'⟩ := hkept matched rejected resolution hevaluate hresolve
    obtain ⟨plan', hplan'⟩ := ExecutionPlanBuilder.build_total_of_ok hplan final'
    refine ⟨_, run_ok_iff.mpr ⟨matched, rejected', resolution, resolution.actions, [], final', plan',
      confidence, hevaluate', hresolve, happly', hfill', hplan', hconfidence, rfl⟩, ?_, rfl, rfl⟩
    show (final'.get? "priority").getD .none = (final.get? "priority").getD .none
    rw [hpriority, get?_fillSla hfill' (by decide) (by decide)]
    cases hwritten : ComplianceApplier.lastWritten "priority"
        (ComplianceApplier.applying incident.asEvaluationData pack.rules) with
    | none => rw [Option.none_or]
    | some v => exact hlast v hwritten

/-! ## The last word -/

/-- The compliance rules that apply agree on the fields they share, and the SLA fill leaves the
    resolution time as they wrote it. -/
structure Undisputed (matrix : Option SlaMatrix) (incident : Incident) (pack : RulePack) : Prop where
  agree : ∀ r ∈ ComplianceApplier.applying incident.asEvaluationData pack.rules,
    ∀ r' ∈ ComplianceApplier.applying incident.asEvaluationData pack.rules,
    ∀ f v v', r.actions.get? f = some v → r'.actions.get? f = some v' → v = v'
  kept : ∀ matched rejected resolution entry,
    PolicyEngine.evaluate pack incident = .ok (matched, rejected) →
    ConflictResolver.resolve matched = .ok resolution →
    Filled matrix incident (ComplianceApplier.narrow resolution.actions
      (ComplianceApplier.applying incident.asEvaluationData pack.rules)) entry →
    ∀ r ∈ ComplianceApplier.applying incident.asEvaluationData pack.rules,
    ∀ v, r.actions.get? "slaResolutionMinutes" = some v → v = .int entry.resolutionMinutes

/-- Every constraint that a decision lists holds in its actions exactly when the compliance
    rules are undisputed. -/
theorem lastWord_iff (matrix : Option SlaMatrix) (incident : Incident) (pack : RulePack)
    (decision : Decision) (hrun : run matrix incident pack = .ok decision) :
    decision.LastWord ↔ Undisputed matrix incident pack := by
  obtain ⟨matched, rejected, resolution, actions, constraints, final, plan, confidence, hevaluate,
    hresolve, happly, hfill, -, -, rfl⟩ := run_ok_iff.mp hrun
  obtain ⟨-, rfl, rfl⟩ := ComplianceApplier.apply_ok_iff.mp happly
  have hlists : ∀ r, r ∈ ComplianceApplier.applying incident.asEvaluationData pack.rules →
      ComplianceApplier.constraint r ∈
        (ComplianceApplier.applying incident.asEvaluationData pack.rules).map ComplianceApplier.constraint :=
    fun r hr => List.mem_map_of_mem hr
  constructor
  · intro hlast
    have hfinal : ∀ r ∈ ComplianceApplier.applying incident.asEvaluationData pack.rules, ∀ f v,
        r.actions.get? f = some v → final.get? f = some v := fun r hr => hlast _ (hlists r hr)
    constructor
    · -- two rules that write one field are both the last word only if they agree
      intro r hr r' hr' f v v' hv hv'
      have hsame := (hfinal r hr f v hv).symm.trans (hfinal r' hr' f v' hv')
      exact Option.some.inj hsame
    · -- the resolution minutes filled in after the narrowing
      intro matched₁ rejected₁ resolution₁ entry hevaluate₁ hresolve₁ hfilled r hr v hv
      rw [hevaluate] at hevaluate₁
      cases hevaluate₁
      rw [hresolve] at hresolve₁
      cases hresolve₁
      have hvalue := hfinal r hr _ v hv
      rcases fillSla_ok hfill with ⟨-, hnot⟩ | ⟨entry', ⟨rows, hrows, -, hentry⟩, rfl⟩
      · exact absurd hfilled (hnot entry)
      · obtain ⟨rows', hrows', -, hentry'⟩ := hfilled
        rw [hrows] at hrows'
        cases hrows'
        rw [hentry] at hentry'
        cases hentry'
        rw [Dict.get?_set_self] at hvalue
        exact (Option.some.inj hvalue).symm
  · rintro ⟨hagree, hkept⟩ constraint hconstraint f v hv
    obtain ⟨r, hr, rfl⟩ := List.mem_map.mp hconstraint
    have hv : r.actions.get? f = some v := hv
    obtain ⟨r', hr', v', hv', hwritten⟩ := ComplianceApplier.exists_lastWritten hr hv
    obtain rfl := hagree r hr r' hr' f v v' hv hv'
    have hnarrow : (ComplianceApplier.narrow resolution.actions
        (ComplianceApplier.applying incident.asEvaluationData pack.rules)).get? f = some v := by
      rw [ComplianceApplier.get?_narrow, hwritten, Option.some_or]
    show final.get? f = some v
    rcases fillSla_ok hfill with ⟨rfl, -⟩ | ⟨entry, hfilled, rfl⟩
    · exact hnarrow
    · -- a filled target was written by no rule
      have htarget : f ≠ "targetSLA" := by
        rintro rfl
        obtain ⟨_, -, hmissing, -⟩ := hfilled
        unfold Dict.contains at hmissing
        rw [hnarrow] at hmissing
        cases hmissing
      by_cases hresolution : f = "slaResolutionMinutes"
      · subst hresolution
        rw [Dict.get?_set_self, hkept matched rejected resolution entry hevaluate hresolve hfilled r hr v hv]
      · rw [Dict.get?_set_of_ne _ _ (Ne.symm hresolution), Dict.get?_set_of_ne _ _ (Ne.symm htarget)]
        exact hnarrow

/-! ## Examples -/

/-- A rule that writes one field. -/
def writingRule (ruleCode family field : String) (value : PyVal) : Rule :=
  { plainRule ruleCode with family, actions := Dict.empty.set field value }

/-- The pack of a rule that asks for a High priority and two compliance rules. -/
def narrowedPack (first second : Rule) : RulePack :=
  { plainVersion 1 none .active 0 3 with
    rules := [writingRule "R1" "OPERATIONAL_FEASIBILITY" "priority" (.str "High"), first, second] }

/-- A compliance rule that narrows the rerouting. -/
def rerouteRule (ruleCode value : String) : Rule :=
  writingRule ruleCode PolicyEngine.complianceFamily "rerouteTraffic" (.str value)

/-- Two compliance rules that want the same of the rerouting. -/
def agreedPack : RulePack := narrowedPack (rerouteRule "C1" "in-region-only") (rerouteRule "C2" "in-region-only")

theorem isOk_agreedPack : (run none severeIncident agreedPack).isOk = true := by decide +kernel

private theorem applying_agreedPack :
    ComplianceApplier.applying severeIncident.asEvaluationData agreedPack.rules =
      [rerouteRule "C1" "in-region-only", rerouteRule "C2" "in-region-only"] := rfl

theorem priority_kept_agreed :
    ∃ decision decision', run none severeIncident agreedPack = .ok decision ∧
      run none severeIncident agreedPack.withoutCompliance = .ok decision' ∧
      decision'.priority = decision.priority := by
  obtain ⟨decision, hrun⟩ := Except.isOk_iff.mp isOk_agreedPack
  obtain ⟨decision', hrun', hpriority, -, -⟩ :=
    (priority_kept_iff none severeIncident agreedPack decision hrun).mpr
      fun _ _ _ _ _ => ⟨fun _ hv => (by rw [applying_agreedPack] at hv; cases hv), _, rfl⟩
  exact ⟨decision, decision', hrun, hrun', hpriority⟩

theorem lastWord_agreed :
    ∃ decision, run none severeIncident agreedPack = .ok decision ∧ decision.LastWord := by
  obtain ⟨decision, hrun⟩ := Except.isOk_iff.mp isOk_agreedPack
  refine ⟨decision, hrun, (lastWord_iff none severeIncident agreedPack decision hrun).mpr ⟨?_, ?_⟩⟩
  · intro r hr r' hr' f v v' hv hv'
    rw [applying_agreedPack, List.mem_pair] at hr hr'
    have hactions : ∀ r, r = rerouteRule "C1" "in-region-only" ∨ r = rerouteRule "C2" "in-region-only" →
        r.actions = Dict.empty.set "rerouteTraffic" (.str "in-region-only") := by
      rintro r (rfl | rfl) <;> rfl
    rw [hactions r hr] at hv
    rw [hactions r' hr'] at hv'
    exact Option.some.inj (hv.symm.trans hv')
  · rintro _ _ _ entry - - ⟨_, hmatrix, -, -⟩
    cases hmatrix

/-- A compliance rule takes the priority of the decision from the rules that contend for it. -/
theorem compliance_rule_decides_priority :
    ¬∀ (matrix : Option SlaMatrix) (incident : Incident) (pack : RulePack) (decision : Decision),
      (ValidateRulePackUseCase.execute pack).isValid = true →
      run matrix incident pack = .ok decision →
      ∃ decision', run matrix incident pack.withoutCompliance = .ok decision' ∧
        decision'.priority = decision.priority ∧ decision'.riskScore = decision.riskScore ∧
        decision'.riskBand = decision.riskBand := by
  intro h
  let pack := narrowedPack (rerouteRule "C1" "in-region-only")
    (writingRule "C2" PolicyEngine.complianceFamily "priority" (.str "Low"))
  have hruns : (run none severeIncident pack).isOk = true := by decide +kernel
  obtain ⟨decision, hrun⟩ := Except.isOk_iff.mp hruns
  have hkept := (priority_kept_iff none severeIncident pack decision hrun).mp
    (h none severeIncident pack decision (by decide +kernel) hrun)
  obtain ⟨matched, rejected, resolution, _, _, _, _, _, hevaluate, hresolve, -, -, -, -, -⟩ :=
    run_ok_iff.mp hrun
  obtain ⟨-, hmatched⟩ := PolicyEngine.evaluate_ok_iff.mp ⟨rejected, hevaluate⟩
  have hresolution : ConflictResolver.resolve matched =
      .ok ⟨Dict.empty.set "priority" (.str "High"), Dict.empty, []⟩ := by
    rw [hmatched]
    rfl
  have hlow := (hkept matched rejected resolution hevaluate hresolve).1 (.str "Low") rfl
  cases hresolution.symm.trans hresolve
  exact absurd (PyVal.str.inj hlow) (by decide)

/-- Of two compliance rules that want different things, the decision lists both. -/
theorem listed_constraint_lost :
    ¬∀ (matrix : Option SlaMatrix) (incident : Incident) (pack : RulePack) (decision : Decision),
      run matrix incident pack = .ok decision → decision.LastWord := by
  intro h
  let pack := narrowedPack (rerouteRule "C1" "in-region-only") (rerouteRule "C2" "anywhere")
  have hruns : (run none severeIncident pack).isOk = true := by decide +kernel
  obtain ⟨decision, hrun⟩ := Except.isOk_iff.mp hruns
  have hundisputed := (lastWord_iff none severeIncident pack decision hrun).mp (h _ _ _ _ hrun)
  have hsame := hundisputed.agree (rerouteRule "C1" "in-region-only") (List.mem_cons_self)
    (rerouteRule "C2" "anywhere") (List.mem_cons_of_mem _ List.mem_cons_self) "rerouteTraffic" _ _ rfl rfl
  exact absurd (PyVal.str.inj hsame) (by decide)

end PipelineOrchestrator

end PulseGuard
