import PulseGuard.Native.RulePacks.Composite
import PulseGuard.Spec.PipelineCorrect

/-!
# Hard stops always win

Five rules of the shipped pack are hard stops: they are not suppressible and they call for
a critical priority. Whenever one of them matches, the decision is critical, whatever else
matches.

`HardStop` says what makes a rule a hard stop among the rules of a pack, and
`run_priority_of_hardStop` is the argument for any pack. That the five shipped rules
are hard stops of the shipped pack is a computation over its rules.
-/

namespace PulseGuard

/-- A rule that no set of co-matching rules of a pack can keep from making the priority
    critical: it survives suppression, it outweighs whoever would win its conflict group
    with another priority, and every priority in the pack is on the scale. -/
structure HardStop (rules : List Rule) (rule : Rule) : Prop where
  mem : rule ∈ rules
  active : rule.isActive = true
  nonSuppressible : rule.nonSuppressible = true
  notSuppressor : rule.isSuppressor = false
  critical : rule.actions.get? "priority" = some (.str "Critical")
  onScale : ∀ r ∈ rules, ∀ v, r.actions.get? "priority" = some v →
    ∃ s ∈ ConflictResolver.order, v = .str s
  outweighs : ∀ r ∈ rules, r.isSuppressor = false → r.conflictGroup = rule.conflictGroup →
    ∀ v, r.actions.get? "priority" = some v →
      v = .str "Critical" ∨ r.priorityWeight < rule.priorityWeight
  compliance : ∀ r ∈ rules, r.family = PolicyEngine.complianceFamily →
    "priority" ∉ r.actions.keys

namespace ConflictResolver

private theorem beq_str {s : String} {v : PyVal} (h : (PyVal.str s).beq v = true) :
    v = .str s := by
  cases v <;> simp [PyVal.beq] at h
  rw [h]

private theorem written_eq {rule : Rule} {field : String} {v : PyVal}
    (h : rule.actions.get? field = some v) : written field rule = v := by
  rw [written, h, Option.getD_some]

/-- On the scale, only `Critical` is at least as severe as `Critical`. -/
private theorem eq_critical_of_rank {s : String} (hs : s ∈ order) {k : Int}
    (hk : severityRank (.str s) = .ok k) (hle : 3 ≤ k) : s = "Critical" := by
  simp only [order, List.mem_cons, List.not_mem_nil, or_false] at hs
  rcases hs with rfl | rfl | rfl | rfl
  · have hlow : severityRank (.str "Low") = .ok 0 := by decide
    rw [hlow] at hk
    cases hk
    omega
  · have hmedium : severityRank (.str "Medium") = .ok 1 := by decide
    rw [hmedium] at hk
    cases hk
    omega
  · have hhigh : severityRank (.str "High") = .ok 2 := by decide
    rw [hhigh] at hk
    cases hk
    omega
  · rfl

/-- Among any writers of the priority that include a hard stop, the field is critical. -/
theorem resolveField_of_hardStop {rules ws : List Rule} {rule : Rule}
    (hstop : HardStop rules rule) (hsub : ∀ r ∈ ws, r ∈ rules) (hrule : rule ∈ ws)
    (hwrites : ∀ r ∈ ws, "priority" ∈ r.actions.keys)
    {value : Option PyVal} {entries : List SuppressedEntry}
    (h : resolveField "priority" ws = .ok (value, entries)) :
    value = some (.str "Critical") := by
  -- What the surviving writers write.
  have heff : (applySuppression "priority" ws).1 = ws.filter (!·.isSuppressor) :=
    applySuppression_of_nonSuppressible "priority" hrule hstop.nonSuppressible
  have hmem : rule ∈ ws.filter (!·.isSuppressor) := by
    rw [List.mem_filter]
    exact ⟨hrule, by rw [hstop.notSuppressor]; rfl⟩
  have hget : ∀ r ∈ ws.filter (!·.isSuppressor),
      r ∈ rules ∧ r.isSuppressor = false ∧
        r.actions.get? "priority" = some (written "priority" r) := by
    intro r hr
    obtain ⟨hr, hsup⟩ := List.mem_filter.mp hr
    obtain ⟨v, hv⟩ := (Dict.mem_keys_iff _).mp (hwrites r hr)
    refine ⟨hsub r hr, by simpa using hsup, ?_⟩
    rw [hv, written_eq hv]
  have hcritical : written "priority" rule = .str "Critical" := written_eq hstop.critical
  unfold resolveField at h
  simp only [heff] at h
  generalize ws.filter (!·.isSuppressor) = effective at h hmem hget
  match effective, h with
  | [], _ => exact absurd hmem List.not_mem_nil
  | [c], h =>
    rw [List.mem_singleton] at hmem
    subst hmem
    obtain ⟨hvalue, -⟩ := Prod.mk.inj (Except.pure_ok_iff.mp h)
    rw [← hvalue, hcritical]
  | c :: c' :: cs, h =>
    simp only at h
    split at h
    · -- All writers agree, so they agree with the hard stop.
      rename_i hagree
      obtain ⟨hvalue, -⟩ := Prod.mk.inj (Except.pure_ok_iff.mp h)
      have heq := List.all_eq_true.mp hagree rule hmem
      rw [hcritical] at heq
      rw [← hvalue, beq_str heq]
    · split at h
      · -- One conflict group: the winner weighs at least as much as the hard stop.
        rename_i hgroup
        obtain ⟨⟨winner, lost⟩, hwin, h⟩ := Except.bind_ok_iff.mp h
        obtain ⟨hvalue, -⟩ := Prod.mk.inj (Except.pure_ok_iff.mp h)
        obtain ⟨hwinner, hmax⟩ := resolveConflictGroup_winner hwin
        obtain ⟨hin, hsup, hwin'⟩ := hget winner hwinner
        have hsame : ∀ r ∈ c :: c' :: cs, r.conflictGroup = c.conflictGroup := by
          simp only [sameGroup, Bool.and_eq_true, List.all_eq_true, beq_iff_eq] at hgroup
          intro r hr
          rcases List.mem_cons.mp hr with rfl | hr
          · rfl
          · exact hgroup.2 r hr
        have hgroup' : winner.conflictGroup = rule.conflictGroup := by
          rw [hsame winner hwinner, hsame rule hmem]
        rcases hstop.outweighs winner hin hsup hgroup' _ hwin' with hcrit | hlt
        · rw [← hvalue, hcrit]
        · have := hmax rule hmem
          omega
      · -- Several groups: the most severe priority is taken.
        obtain ⟨v, hv, h⟩ := Except.bind_ok_iff.mp h
        obtain ⟨hvalue, -⟩ := Prod.mk.inj (Except.pure_ok_iff.mp h)
        have hmerge : selectBy PyList.maxBy severityRank (written "priority" c)
            ((c' :: cs).map (written "priority")) = .ok v := hv
        obtain ⟨hvmem, k, hk, hmax⟩ := selectBy_maxBy hmerge
        rw [← List.map_cons] at hvmem hmax
        obtain ⟨r, hr, hrv⟩ := List.mem_map.mp hvmem
        obtain ⟨hin, -, hget'⟩ := hget r hr
        obtain ⟨s, hs, hvs⟩ := hstop.onScale r hin _ hget'
        obtain ⟨k', hk', hle⟩ := hmax _ (List.mem_map.mpr ⟨rule, hmem, rfl⟩)
        have hrank : severityRank (.str "Critical") = .ok 3 := by decide
        rw [hcritical, hrank] at hk'
        cases hk'
        rw [← hrv, hvs] at hk
        rw [← hvalue, ← hrv, hvs, eq_critical_of_rank hs hk hle]

end ConflictResolver

open PipelineOrchestrator

/-- A matching hard stop makes the decision critical, whatever else the pack makes match. -/
theorem run_priority_of_hardStop {matrix : Option SlaMatrix} {incident : Incident}
    {pack : RulePack} {decision : Decision} {rule : Rule}
    (hrun : run matrix incident pack = .ok decision) (hstop : HardStop pack.rules rule)
    (hmatch : PolicyEngine.judge incident.asEvaluationData rule = .ok .matched) :
    decision.priority = .str "Critical" := by
  obtain ⟨matched, rejected, resolution, actions, constraints, heval, hresolve, hcompliance,
    hfill, hpriority, -⟩ := run_ok hrun
  -- The hard stop is among the matched rules, and so among the writers of the priority.
  obtain ⟨-, hmatched⟩ := PolicyEngine.evaluateRules_ok heval
  have hmem : rule ∈ matched := by
    rw [hmatched, RulePack.mem_activeRules]
    exact ⟨⟨hstop.mem, hstop.active⟩, hmatch⟩
  have hkey : "priority" ∈ rule.actions.keys :=
    (Dict.mem_keys_iff _).mpr ⟨_, hstop.critical⟩
  have hwriter : rule ∈ ConflictResolver.writers "priority" matched :=
    ConflictResolver.mem_writers.mpr ⟨hmem, hkey⟩
  obtain ⟨resolved, hfields, hpost, -⟩ := ConflictResolver.resolve_ok_iff.mp hresolve
  obtain ⟨entries, hfield⟩ := ConflictResolver.get?_of_resolveFields hfields
    (f := "priority") (by decide) (List.ne_nil_of_mem hwriter)
  have hcritical : resolved.get? "priority" = some (.str "Critical") := by
    refine ConflictResolver.resolveField_of_hardStop hstop ?_ hwriter ?_ hfield
    · intro r hr
      have hr := (ConflictResolver.mem_writers.mp hr).1
      rw [hmatched, RulePack.mem_activeRules] at hr
      exact hr.1.1
    · intro r hr
      exact (ConflictResolver.mem_writers.mp hr).2
  -- Nothing after the resolution lowers it.
  have hpost' := ConflictResolver.applyPriorityPostprocessing_critical hpost hcritical
  have hafter : actions.get? "priority" = resolution.actions.get? "priority" := by
    refine ComplianceApplier.get?_applyRules hcompliance ?_
    intro r hr
    obtain ⟨hr, -, hfamily⟩ := RulePack.mem_activeRules_family.mp hr
    exact hstop.compliance r hr hfamily
  have hfilled := get?_fillSla hfill (f := "priority") (by decide) (by decide)
  rw [hpriority, hfilled, hafter, hpost', Option.getD_some]

/-! ## The shipped pack -/

/-- The hard stops of the shipped pack. -/
def hardStopCodes : List String := ["R008", "R020", "R015", "R032", "SLA-RULE-008"]

/-- The test of `HardStop` on the rules of a pack, for a rule of it. -/
def isHardStop (rules : List Rule) (rule : Rule) : Bool :=
  let priority (r : Rule) := r.actions.get? "priority"
  let isStr (s : String) (v : Option PyVal) := match v with
    | some (.str t) => t == s
    | _ => false
  rule.isActive && rule.nonSuppressible && !rule.isSuppressor &&
    isStr "Critical" (priority rule) &&
    rules.all fun r =>
      ((priority r).isNone || ConflictResolver.order.any fun s => isStr s (priority r)) &&
      (r.isSuppressor || r.conflictGroup != rule.conflictGroup || (priority r).isNone ||
        isStr "Critical" (priority r) || decide (r.priorityWeight < rule.priorityWeight)) &&
      (r.family != PolicyEngine.complianceFamily || (priority r).isNone)

private theorem eq_of_isStr {s : String} {v : Option PyVal}
    (h : (match v with
      | some (.str t) => t == s
      | _ => false) = true) : v = some (.str s) := by
  split at h
  · rw [beq_iff_eq.mp h]
  · cases h

theorem hardStop_of_isHardStop {rules : List Rule} {rule : Rule} (hmem : rule ∈ rules)
    (h : isHardStop rules rule = true) : HardStop rules rule := by
  simp only [isHardStop, Bool.and_eq_true, Bool.not_eq_true', List.all_eq_true] at h
  obtain ⟨⟨⟨⟨hactive, hns⟩, hsup⟩, hcritical⟩, hall⟩ := h
  refine ⟨hmem, hactive, hns, hsup, eq_of_isStr hcritical, ?_, ?_, ?_⟩
  · intro r hr v hv
    obtain ⟨⟨hscale, -⟩, -⟩ := hall r hr
    rw [hv, Option.isNone_some, Bool.false_or, List.any_eq_true] at hscale
    obtain ⟨s, hs, heq⟩ := hscale
    have := eq_of_isStr heq
    exact ⟨s, hs, Option.some.inj this⟩
  · intro r hr hrsup hgroup v hv
    obtain ⟨⟨-, hweight⟩, -⟩ := hall r hr
    rw [hrsup, hgroup, hv] at hweight
    simp only [bne_self_eq_false, Option.isNone_some, Bool.false_or, Bool.or_eq_true,
      decide_eq_true_eq] at hweight
    rcases hweight with hcrit | hlt
    · exact Or.inl (Option.some.inj (eq_of_isStr hcrit))
    · exact Or.inr hlt
  · intro r hr hfamily
    obtain ⟨-, hcompliance⟩ := hall r hr
    rw [hfamily] at hcompliance
    simp only [bne_self_eq_false, Bool.false_or, Option.isNone_iff_eq_none] at hcompliance
    exact (Dict.get?_eq_none_iff _).mp hcompliance

/-- The rules with the five codes are hard stops among the 142 rules of the pack. -/
theorem hardStop_of_shipped {pack : RulePack} (hpack : staticRuleRepository = .ok pack)
    {rule : Rule} (hmem : rule ∈ pack.rules) (hcode : rule.ruleCode ∈ hardStopCodes) :
    HardStop pack.rules rule := by
  have hall : (staticRuleRepository.toOption.all fun pack => pack.rules.all fun rule =>
      !hardStopCodes.contains rule.ruleCode || isHardStop pack.rules rule) = true := by
    decide +kernel
  rw [hpack] at hall
  have hrule := List.all_eq_true.mp hall rule hmem
  rw [List.contains_iff_mem.mpr hcode] at hrule
  exact hardStop_of_isHardStop hmem hrule

/-- When one of the five hard stops of the shipped pack matches, the decision is critical. -/
theorem shipped_priority_of_hardStop {matrix : Option SlaMatrix} {incident : Incident}
    {pack : RulePack} {decision : Decision} (hpack : staticRuleRepository = .ok pack)
    (hrun : run matrix incident pack = .ok decision)
    (hmatch : ∃ rule ∈ pack.rules, rule.ruleCode ∈ hardStopCodes ∧
      PolicyEngine.judge incident.asEvaluationData rule = .ok .matched) :
    decision.priority = .str "Critical" := by
  obtain ⟨rule, hmem, hcode, hmatch⟩ := hmatch
  exact run_priority_of_hardStop hrun (hardStop_of_shipped hpack hmem hcode) hmatch

/-- An incident on an emergency service line in a planned maintenance window, which the
    suppressor `SLA-RULE-007` matches as well. -/
def emergencyLineIncident : Incident where
  incidentId := "INC-1"
  payload := Dict.ofList [("isEmergencyServiceLine", .bool true),
    ("isDuringPlannedMaintenance", .bool true)]
  enrichedContext := Dict.empty
  degradedContext := false
  contextSourcesTotal := 0
  contextSourcesDegraded := 0

theorem shipped_priority_of_hardStop_emergencyLine :
    ∃ pack decision, staticRuleRepository = .ok pack ∧
      run (some SlaRulePack.loadSlaMatrix) emergencyLineIncident pack = .ok decision ∧
      decision.priority = .str "Critical" := by
  have hrun : (do
      let pack ← staticRuleRepository
      let matching := pack.rules.any fun rule => hardStopCodes.contains rule.ruleCode &&
        PolicyEngine.judge emergencyLineIncident.asEvaluationData rule == .ok .matched
      if matching then run (some SlaRulePack.loadSlaMatrix) emergencyLineIncident pack
      else .error .indexError : Except PyError Decision).isOk = true := by
    decide +kernel
  obtain ⟨decision, hdecision⟩ := Except.isOk_iff.mp hrun
  obtain ⟨pack, hpack, hdecision⟩ := Except.bind_ok_iff.mp hdecision
  simp only at hdecision
  split at hdecision
  · rename_i hmatch
    obtain ⟨rule, hmem, hrule⟩ := List.any_eq_true.mp hmatch
    rw [Bool.and_eq_true, beq_iff_eq, List.contains_iff_mem] at hrule
    exact ⟨pack, decision, hpack, hdecision,
      shipped_priority_of_hardStop hpack hdecision ⟨rule, hmem, hrule.1, hrule.2⟩⟩
  · cases hdecision

end PulseGuard
