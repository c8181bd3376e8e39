import PulseGuard.Spec.CompliancePass
import PulseGuard.Spec.SetAside

/-!
# What the SLA matrix adds to a decision

A wired matrix only gives defaults: `SlaMatrixLookup` says that it can never override something
that a rule already decided. The fill looks for a target before it writes one, but it writes the
resolution time along with it, without a look. `fill_overrides_nothing_iff` says when a run with
the matrix decides what the run without it decides, and possibly more.
-/

namespace PulseGuard

/-- The decision is another one but for its actions, to which some may have been added. -/
structure Decision.Extends (decision' decision : Decision) : Prop where
  same : decision' = { decision with actions := decision'.actions }
  kept : ∀ f v, decision.actions.get? f = some v → decision'.actions.get? f = some v

namespace PipelineOrchestrator

open ConflictResolver ComplianceApplier

/-! ## What is decided before the fill -/

/-- What the rules and the compliance rules have decided when the fill runs. -/
def decidedActions (incident : Incident) (pack : RulePack) (resolution : Resolution) :
    Dict String PyVal :=
  narrow resolution.actions (applying incident.asEvaluationData pack.rules)

/-- What a run decides for a field but the priority: what the last compliance rule that applies and
    writes the field writes, or else what the rules come to. -/
def DecidedValue (incident : Incident) (pack : RulePack) (matched : List Rule) (f : String)
    (v : Option PyVal) : Prop :=
  match lastWritten f (applying incident.asEvaluationData pack.rules) with
  | some w => v = some w
  | none => SettlesOn f (writers f matched) v

/-- The priority that a run decides. -/
def DecidedPriority (incident : Incident) (pack : RulePack) (matched : List Rule) (p : PyVal) : Prop :=
  match lastWritten "priority" (applying incident.asEvaluationData pack.rules) with
  | some v => p = v
  | none => ∃ v q, SettlesOn "priority" (writers "priority" matched) v ∧
    raisedPriority v (floors matched) (bumps matched) = .ok q ∧ p = (q.or v).getD .none

/-- The matrix has a default for the customer tier and the decided priority. -/
def HasDefault (matrix : Option SlaMatrix) (incident : Incident) (pack : RulePack)
    (matched : List Rule) (entry : SlaEntry) : Prop :=
  ∃ rows p, matrix = some rows ∧ DecidedPriority incident pack matched p ∧
    SlaMatrixLookup.resolve rows ((incident.payload.get? "customerTier").getD .none) p =
      .ok (some entry)

section

variable {matrix : Option SlaMatrix} {incident : Incident} {pack : RulePack} {matched : List Rule}
  {resolution : Resolution}

theorem decidedValue_iff (hresolve : resolve matched = .ok resolution) {f : String}
    (hmod : f ∉ modifierFields) (hpriority : f ≠ "priority") {v : Option PyVal} :
    DecidedValue incident pack matched f v ↔
      v = (decidedActions incident pack resolution).get? f := by
  unfold DecidedValue decidedActions
  rw [get?_narrow, get?_resolve hresolve hmod hpriority]
  cases lastWritten f (applying incident.asEvaluationData pack.rules) with
  | some w => rw [Option.some_or]
  | none => rw [Option.none_or, settlesOn_iff (allDecided_of_resolve hresolve f hmod)]

theorem decidedPriority_iff (hresolve : resolve matched = .ok resolution) {p : PyVal} :
    DecidedPriority incident pack matched p ↔
      p = ((decidedActions incident pack resolution).get? "priority").getD .none := by
  have hdecides := allDecided_of_resolve hresolve "priority" (by decide)
  obtain ⟨q, hq, hget⟩ := get?_resolve_priority hresolve
  unfold DecidedPriority decidedActions
  rw [get?_narrow]
  cases lastWritten "priority" (applying incident.asEvaluationData pack.rules) with
  | some v => simp
  | none =>
    simp only [Option.none_or, hget]
    constructor
    · intro hcase
      obtain ⟨v, q', hv, hq', rfl⟩ := hcase
      obtain rfl := (settlesOn_iff hdecides).mp hv
      rw [hq] at hq'
      cases hq'
      rfl
    · rintro rfl
      exact ⟨_, q, (settlesOn_iff hdecides).mpr rfl, hq, rfl⟩

theorem filled_iff (hresolve : resolve matched = .ok resolution) {entry : SlaEntry} :
    Filled matrix incident (decidedActions incident pack resolution) entry ↔
      DecidedValue incident pack matched "targetSLA" none ∧
        HasDefault matrix incident pack matched entry := by
  have htarget : (decidedActions incident pack resolution).contains "targetSLA" = false ↔
      DecidedValue incident pack matched "targetSLA" none := by
    rw [decidedValue_iff hresolve (by decide) (by decide), eq_comm (a := none)]
    exact Option.isSome_eq_false_iff.trans Option.isNone_iff_eq_none
  constructor
  · intro hlookup
    obtain ⟨rows, hrows, hmissing, hfound⟩ := hlookup
    exact ⟨htarget.mp hmissing, rows, _, hrows, (decidedPriority_iff hresolve).mpr rfl, hfound⟩
  · intro hlookup
    obtain ⟨hnone, rows, p, hrows, hp, hfound⟩ := hlookup
    rw [(decidedPriority_iff hresolve).mp hp] at hfound
    exact ⟨rows, hrows, htarget.mpr hnone, hfound⟩

end

/-- Where no target is decided and the matrix has a default, no resolution time is decided either,
    or it is the default's. -/
def ResolutionTimeFree (matrix : SlaMatrix) (incident : Incident) (pack : RulePack) : Prop :=
  ∀ matched rejected entry, PolicyEngine.evaluate pack incident = .ok (matched, rejected) →
    DecidedValue incident pack matched "targetSLA" none →
    HasDefault (some matrix) incident pack matched entry →
    ∀ v, DecidedValue incident pack matched "slaResolutionMinutes" (some v) →
      v = .int entry.resolutionMinutes

/-! ## The fill -/

/-- One lookup gives one default. -/
theorem filled_unique {matrix : Option SlaMatrix} {incident : Incident} {actions : Dict String PyVal}
    {entry entry' : SlaEntry} (h : Filled matrix incident actions entry)
    (h' : Filled matrix incident actions entry') : entry = entry' := by
  obtain ⟨rows, rfl, -, hfound⟩ := h
  obtain ⟨rows', hrows, -, hfound'⟩ := h'
  cases hrows
  rw [hfound] at hfound'
  exact Option.some.inj (Except.ok.inj hfound')

/-- The fill keeps what is decided unless it writes another resolution time over one. -/
theorem fillSla_keeps_iff {matrix : Option SlaMatrix} {incident : Incident}
    {actions final : Dict String PyVal} (h : fillSla matrix incident actions = .ok final) :
    (∀ f v, actions.get? f = some v → final.get? f = some v) ↔
      ∀ entry, Filled matrix incident actions entry →
        ∀ v, actions.get? "slaResolutionMinutes" = some v → v = .int entry.resolutionMinutes := by
  have hfill := fillSla_ok h
  constructor
  · intro hkept entry hentry v hv
    have hfinal := hkept "slaResolutionMinutes" v hv
    cases hfill with
    | inl hnot => exact absurd hentry (hnot.2 entry)
    | inr hfilled =>
      obtain ⟨entry', hentry', rfl⟩ := hfilled
      rw [Dict.get?_set_self, filled_unique hentry' hentry] at hfinal
      exact (Option.some.inj hfinal).symm
  · intro hfree f v hv
    cases hfill with
    | inl hnot =>
      rw [hnot.1]
      exact hv
    | inr hfilled =>
      obtain ⟨entry, hentry, rfl⟩ := hfilled
      -- the target is written only where there was none
      have htarget : "targetSLA" ≠ f := by
        intro hf
        obtain ⟨rows, -, hmissing, -⟩ := hentry
        unfold Dict.contains at hmissing
        rw [hf, hv] at hmissing
        cases hmissing
      by_cases hresolution : "slaResolutionMinutes" = f
      · subst hresolution
        rw [Dict.get?_set_self, hfree entry hentry v hv]
      · rw [Dict.get?_set_of_ne _ _ hresolution, Dict.get?_set_of_ne _ _ htarget]
        exact hv

/-- A run with the matrix is the run without it, and then the fill. -/
theorem run_without_matrix {matrix : SlaMatrix} {incident : Incident} {pack : RulePack}
    {decision' : Decision} (h : run (some matrix) incident pack = .ok decision') :
    ∃ matched rejected resolution,
      PolicyEngine.evaluate pack incident = .ok (matched, rejected) ∧
      resolve matched = .ok resolution ∧
      fillSla (some matrix) incident (decidedActions incident pack resolution) = .ok decision'.actions ∧
      run none incident pack =
        .ok { decision' with actions := decidedActions incident pack resolution } := by
  obtain ⟨matched, rejected, resolution, actions, constraints, final, plan, confidence, hevaluate,
    hresolve, happly, hfill, hplan, hconfidence, rfl⟩ := run_ok_iff.mp h
  obtain ⟨-, hactions, -⟩ := apply_ok_iff.mp happly
  have hdecided : actions = decidedActions incident pack resolution := hactions
  subst hdecided
  have hpriority : final.get? "priority" =
      (decidedActions incident pack resolution).get? "priority" :=
    get?_fillSla hfill (by decide) (by decide)
  -- the plan reads none of the two fields
  have hplan' : ExecutionPlanBuilder.build (decidedActions incident pack resolution) matched =
      .ok plan := by
    have hbase : ∀ f ∈ ExecutionPlanBuilder.basePrecedence.map Prod.fst,
        f ≠ "targetSLA" ∧ f ≠ "slaResolutionMinutes" := by decide
    have hcongr := @ExecutionPlanBuilder.build_congr (fun _ => true) matched
      (decidedActions incident pack resolution) final (fun r _ hown => by cases hown)
      (fun f hf => (get?_fillSla hfill (hbase f hf).1 (hbase f hf).2).symm)
    rw [List.filter_eq_self.mpr fun _ _ => rfl] at hcongr
    rw [hcongr]
    exact hplan
  refine ⟨matched, rejected, resolution, hevaluate, hresolve, hfill, ?_⟩
  apply run_ok_iff.mpr
  refine ⟨matched, rejected, resolution, decidedActions incident pack resolution, constraints,
    decidedActions incident pack resolution, plan, confidence, hevaluate, hresolve, happly, rfl,
    hplan', hconfidence, ?_⟩
  simp only [ExplainabilityBuilder.build, hpriority]

/-- A run with the matrix extends the run without it exactly when the fill finds the resolution
    time free. -/
theorem fill_overrides_nothing_iff (matrix : SlaMatrix) (incident : Incident) (pack : RulePack)
    (decision' : Decision) (hrun : run (some matrix) incident pack = .ok decision') :
    (∃ decision, run none incident pack = .ok decision ∧ decision'.Extends decision) ↔
      ResolutionTimeFree matrix incident pack := by
  obtain ⟨matched, rejected, resolution, hevaluate, hresolve, hfill, hwithout⟩ :=
    run_without_matrix hrun
  constructor
  · intro hextends
    obtain ⟨decision, hrun', hextends⟩ := hextends
    rw [hwithout] at hrun'
    cases hrun'
    intro matched₁ rejected₁ entry hevaluate₁ hmissing hdefault v hv
    rw [hevaluate] at hevaluate₁
    cases hevaluate₁
    have hentry := (filled_iff hresolve).mpr ⟨hmissing, hdefault⟩
    rw [decidedValue_iff hresolve (by decide) (by decide)] at hv
    exact (fillSla_keeps_iff hfill).mp hextends.kept entry hentry v hv.symm
  · intro hfree
    refine ⟨_, hwithout, ⟨rfl, (fillSla_keeps_iff hfill).mpr ?_⟩⟩
    intro entry hentry v hv
    obtain ⟨hmissing, hdefault⟩ := (filled_iff hresolve).mp hentry
    apply hfree matched rejected entry hevaluate hmissing hdefault v
    exact (decidedValue_iff hresolve (by decide) (by decide)).mpr hv.symm

/-! ## Examples -/

/-- A matrix with one default: Gold customers, High priority. -/
def goldMatrix : SlaMatrix :=
  Dict.empty.set "GOLD" (Dict.empty.set "SEV2_MAJOR" ⟨15, 240⟩)

/-- The severe incident, of a Gold customer. -/
def goldIncident : Incident :=
  { severeIncident with payload := severeIncident.payload.set "customerTier" (.str "Gold") }

/-- A rule that decides the priority alone. -/
def highPack : RulePack := { plainVersion 1 none .active 0 3 with rules := priorityRules }

private theorem resolve_highPack {matched : List Rule} {rejected : List RejectedRuleTrace}
    (hevaluate : PolicyEngine.evaluate highPack goldIncident = .ok (matched, rejected)) :
    resolve matched = .ok ⟨Dict.empty.set "priority" (.str "High"), Dict.empty, []⟩ := by
  obtain ⟨-, hmatched⟩ := PolicyEngine.evaluate_ok_iff.mp ⟨rejected, hevaluate⟩
  rw [hmatched]
  rfl

theorem fill_overrides_nothing_high :
    ∃ decision' decision, run (some goldMatrix) goldIncident highPack = .ok decision' ∧
      run none goldIncident highPack = .ok decision ∧ decision'.Extends decision ∧
      decision'.actions.get? "targetSLA" = some (.str "15 minutes") := by
  have hruns : (run (some goldMatrix) goldIncident highPack).isOk = true := by decide +kernel
  obtain ⟨decision', hrun'⟩ := Except.isOk_iff.mp hruns
  obtain ⟨decision, hrun, hextends⟩ :=
    (fill_overrides_nothing_iff goldMatrix goldIncident highPack decision' hrun').mpr (by
      intro matched rejected entry hevaluate _ _ v hv
      rw [decidedValue_iff (resolve_highPack hevaluate) (by decide) (by decide)] at hv
      cases hv)
  refine ⟨decision', decision, hrun', hrun, hextends, ?_⟩
  obtain ⟨matched, rejected, resolution, hevaluate, hresolve, hfill, -⟩ := run_without_matrix hrun'
  rw [resolve_highPack hevaluate] at hresolve
  rw [← Except.ok.inj hresolve] at hfill
  rw [← Except.ok.inj hfill]
  rfl

/-- The matrix writes its resolution time over the one that a rule decided. -/
theorem fill_overrides_resolution_time :
    ¬∀ (matrix : SlaMatrix) (incident : Incident) (pack : RulePack) (decision' : Decision),
      run (some matrix) incident pack = .ok decision' →
      ∃ decision, run none incident pack = .ok decision ∧ decision'.Extends decision := by
  intro h
  let pack := { highPack with
    rules := priorityRules ++ [fieldRule "R2" "slaResolutionMinutes" (.int 60)] }
  have hruns : (run (some goldMatrix) goldIncident pack).isOk = true := by decide +kernel
  obtain ⟨decision', hrun'⟩ := Except.isOk_iff.mp hruns
  have hfree := (fill_overrides_nothing_iff goldMatrix goldIncident pack decision' hrun').mp
    (h goldMatrix goldIncident pack decision' hrun')
  obtain ⟨matched, rejected, -, hevaluate, -⟩ := run_without_matrix hrun'
  obtain ⟨-, hmatched⟩ := PolicyEngine.evaluate_ok_iff.mp ⟨rejected, hevaluate⟩
  have hresolution : resolve matched =
      .ok ⟨(Dict.empty.set "priority" (.str "High")).set "slaResolutionMinutes" (.int 60),
        Dict.empty, []⟩ := by
    rw [hmatched]
    rfl
  obtain ⟨hmissing, hdefault⟩ := (filled_iff hresolution).mp
    (⟨goldMatrix, rfl, rfl, rfl⟩ : Filled (some goldMatrix) goldIncident
      (decidedActions goldIncident pack _) ⟨15, 240⟩)
  have hsixty := hfree matched rejected ⟨15, 240⟩ hevaluate hmissing hdefault (.int 60)
    ((decidedValue_iff hresolution (by decide) (by decide)).mpr rfl)
  exact absurd (PyVal.int.inj hsixty) (by decide)

end PipelineOrchestrator

end PulseGuard
