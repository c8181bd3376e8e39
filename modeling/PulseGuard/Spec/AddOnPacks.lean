import PulseGuard.Spec.ExportImport
import PulseGuard.Spec.FieldByField
import PulseGuard.Spec.RunStages

/-!
# Add-on packs

The composite repository puts the rules of several packs into one. Rules that write fields of
their own, and nothing that every decision is made of, then decide those fields and leave the
decision of the other rules as it is (`addOn_isolated`), provided that they are evaluated and
resolved without an exception: `addOn_breaks_decision` is an add-on pack whose own conflict
takes the decision of the base pack away.
-/

namespace PulseGuard

/-- The fields that an add-on pack leaves alone: the priority, the SLA fields and those that the
    execution plan starts from. -/
def reservedFields : List String :=
  ["priority", "targetSLA", "slaResolutionMinutes"] ++ ExecutionPlanBuilder.basePrecedence.map Prod.fst

/-- A rule that writes action fields of its own and nothing else. -/
structure Rule.AddOn (rule : Rule) : Prop where
  modifiers : ∀ f ∈ ConflictResolver.modifierFields, f ∉ rule.actions.keys
  reserved : ∀ f ∈ reservedFields, f ∉ rule.actions.keys
  mitigations : rule.mitigations = Dict.empty
  sequencing : rule.sequencing = none
  contributionScore : rule.contributionScore = none
  family : rule.family ≠ PolicyEngine.complianceFamily

/-- Rules that can be put after those of a base pack. -/
structure AddsOn (base addOn : List Rule) : Prop where
  codes : ∀ a ∈ base, ∀ b ∈ addOn, a.ruleCode ≠ b.ruleCode
  fields : ∀ a ∈ base, ∀ b ∈ addOn, ∀ f ∈ a.actions.keys, f ∉ b.actions.keys
  rules : ∀ b ∈ addOn, b.AddOn

/-- The conditions and the exceptions of a rule are evaluated without an exception. -/
structure Rule.Evaluates (data : PyVal) (rule : Rule) : Prop where
  conditions : ∃ satisfied, rule.conditions.isSatisfiedBy data = .ok satisfied
  exceptions : ∀ clause, rule.exceptions = some clause → ∃ satisfied, clause.isSatisfiedBy data = .ok satisfied

/-- A decision that is the base pack's, but for the fields and the suppressions of the add-on. -/
structure Decision.SameBase (base addOn : List Rule) (joined alone : Decision) : Prop where
  priority : joined.priority = alone.priority
  riskScore : joined.riskScore = alone.riskScore
  riskBand : joined.riskBand = alone.riskBand
  actions : ∀ f, (∀ b ∈ addOn, f ∉ b.actions.keys) → joined.actions.get? f = alone.actions.get? f
  mitigations : joined.mitigations = alone.mitigations
  executionPlan : joined.executionPlan = alone.executionPlan
  suppressedRules : joined.suppressedRules.filter (fun entry => (base.map Rule.ruleCode).contains entry.ruleCode) =
    alone.suppressedRules

theorem PolicyEngine.judge_total {data : PyVal} {rule : Rule} (h : rule.Evaluates data) :
    ∃ verdict, judge data rule = .ok verdict := by
  obtain ⟨satisfied, hconditions⟩ := h.conditions
  unfold judge
  simp only [hconditions]
  split
  · exact ⟨.skipped, rfl⟩
  · cases hclause : rule.exceptions with
    | none => cases satisfied <;> exact ⟨_, rfl⟩
    | some clause =>
      obtain ⟨vetoed, hvetoed⟩ := h.exceptions clause hclause
      simp only [hvetoed]
      cases vetoed with
      | true => exact ⟨_, rfl⟩
      | false => cases satisfied <;> exact ⟨_, rfl⟩

/-! ## Resolution -/

namespace ConflictResolver

variable {own : Rule → Bool} {field : String → Bool} {matched : List Rule}

/-- A field that no other rule writes has the own rules for its writers. -/
theorem writers_filter {f : String} (hf : ∀ r ∈ matched, own r = false → f ∉ r.actions.keys) :
    writers f (matched.filter own) = writers f matched := by
  unfold writers
  rw [List.filter_filter]
  apply List.filter_congr
  intro r hr
  cases hown : own r with
  | true => rw [Bool.and_true]
  | false =>
    rw [Bool.and_false, eq_comm, Bool.eq_false_iff, ne_eq, Dict.contains_iff]
    exact hf r hr hown

theorem floors_filter (hf : ∀ r ∈ matched, own r = false → "priorityFloor" ∉ r.actions.keys) :
    floors (matched.filter own) = floors matched := by
  unfold floors
  induction matched with
  | nil => rfl
  | cons r rest ih =>
    rw [List.forall_mem_cons] at hf
    rw [List.filter_cons, List.filterMap_cons]
    cases hown : own r with
    | true => rw [if_pos rfl, List.filterMap_cons, ih hf.2]
    | false => rw [if_neg Bool.false_ne_true, (Dict.get?_eq_none_iff _).mpr (hf.1 hown), ih hf.2]

theorem bumps_filter (hf : ∀ r ∈ matched, own r = false → "priorityBumpOneLevel" ∉ r.actions.keys) :
    bumps (matched.filter own) = bumps matched := by
  unfold bumps
  rw [List.countP_filter]
  apply List.countP_congr
  intro r hr
  cases hown : own r with
  | true => simp
  | false =>
    rw [(Dict.get?_eq_none_iff _).mpr (hf r hr hown)]
    simp [PyVal.truthy]

theorem mergeMitigations_filter (hf : ∀ r ∈ matched, own r = false → r.mitigations = Dict.empty) :
    mergeMitigations (matched.filter own) = mergeMitigations matched := by
  unfold mergeMitigations
  generalize Dict.empty = mitigations
  induction matched generalizing mitigations with
  | nil => rfl
  | cons r rest ih =>
    rw [List.forall_mem_cons] at hf
    rw [List.filter_cons, List.foldl_cons]
    cases hown : own r with
    | true => rw [if_pos rfl, List.foldl_cons, ih hf.2]
    | false =>
      rw [if_neg Bool.false_ne_true, hf.1 hown, ih hf.2]
      rfl

/-- Suppressions of rules whose codes are told apart, field by field. -/
private theorem filter_flatMap_decided {code : String → Bool} {field : String → Bool}
    {fields : List (String × List Rule)} (hdecides : ∀ entry ∈ fields, Decides entry)
    (hcode : ∀ entry ∈ fields, ∀ r ∈ entry.2, code r.ruleCode = field entry.1) :
    (fields.flatMap fun entry => (decided entry).2).filter (fun e => code e.ruleCode) =
      (fields.filter fun entry => field entry.1).flatMap fun entry => (decided entry).2 := by
  induction fields with
  | nil => rfl
  | cons entry rest ih =>
    rw [List.forall_mem_cons] at hdecides hcode
    have hentries : ∀ e ∈ (decided entry).2, code e.ruleCode = field entry.1 := by
      intro e he
      obtain ⟨r, hr, hsame⟩ := exists_of_mem_suppressed hdecides.1 he
      rw [← hsame]
      exact hcode.1 r hr
    rw [List.flatMap_cons, List.filter_append, ih hdecides.2 hcode.2, List.filter_cons]
    cases hfield : field entry.1 with
    | true =>
      rw [if_pos rfl, List.flatMap_cons, List.filter_eq_self.mpr]
      intro e he
      rw [hentries e he, hfield]
    | false =>
      rw [if_neg Bool.false_ne_true, List.filter_eq_nil_iff.mpr, List.nil_append]
      intro e he
      rw [hentries e he, hfield]
      exact Bool.false_ne_true

/-- Rules of some codes with fields of their own, among rules that do nothing but write other
    fields. -/
structure Alone (code : String → Bool) (field : String → Bool) (matched : List Rule) : Prop where
  apart : Apart (fun r => code r.ruleCode) field matched
  others : ∀ r ∈ matched, code r.ruleCode = false → r.AddOn

/-- What a resolution with other rules keeps of one without. -/
structure SameOwn (code : String → Bool) (matched : List Rule) (res alone : Resolution) : Prop where
  actions : ∀ f, (∀ r ∈ matched, code r.ruleCode = false → f ∉ r.actions.keys) →
    res.actions.get? f = alone.actions.get? f
  mitigations : res.mitigations = alone.mitigations
  suppressed : res.suppressed.filter (fun entry => code entry.ruleCode) = alone.suppressed

variable {code : String → Bool} {res : Resolution}

theorem Alone.code_eq (h : Alone code field matched) {entry : String × List Rule}
    (hentry : entry ∈ (fieldWriters matched).entries) : ∀ r ∈ entry.2, code r.ruleCode = field entry.1 := by
  intro r hr
  obtain ⟨f, ws⟩ := entry
  obtain ⟨-, -, rfl⟩ := mem_fieldWriters.mp hentry
  obtain ⟨hmem, hkey⟩ := mem_writers.mp hr
  exact (h.apart r hmem f hkey).symm

/-- The fields that are decided for the own rules alone. -/
theorem Alone.mem_fieldWriters_filter (h : Alone code field matched) {entry : String × List Rule}
    (hentry : entry ∈ (fieldWriters matched).entries) (hfield : field entry.1 = true) :
    entry ∈ (fieldWriters (matched.filter fun r => code r.ruleCode)).entries := by
  rw [← fieldWriters_filter h.apart, List.mem_filter]
  exact ⟨hentry, hfield⟩

theorem Alone.of_resolve (h : Alone code field matched) (hres : resolve matched = .ok res) :
    ∃ alone, resolve (matched.filter fun r => code r.ruleCode) = .ok alone ∧
      SameOwn code matched res alone := by
  obtain ⟨actions, hfields, hpost, hmitigations⟩ := resolve_ok_iff.mp hres
  obtain ⟨hdecides, hsuppressed⟩ := resolveFields_ok_iff.mp ⟨actions, hfields⟩
  rw [List.nil_append] at hsuppressed
  have hownfields := fieldWriters_filter h.apart
  obtain ⟨actions', hfields'⟩ : ∃ actions', resolveFields Dict.empty []
      (fieldWriters (matched.filter fun r => code r.ruleCode)).entries =
        .ok (actions', res.suppressed.filter fun entry => code entry.ruleCode) := by
    apply resolveFields_ok_iff.mpr
    rw [List.nil_append, hsuppressed, filter_flatMap_decided hdecides fun entry => h.code_eq, hownfields]
    refine ⟨fun entry hentry => ?_, rfl⟩
    rw [← hownfields] at hentry
    exact hdecides entry (List.mem_filter.mp hentry).1
  have hget : ∀ f, (∀ r ∈ matched, code r.ruleCode = false → f ∉ r.actions.keys) →
      actions.get? f = actions'.get? f := by
    intro f hf
    rw [get?_resolveFields_eq hfields, get?_resolveFields_eq hfields', writers_filter hf]
  have hpriority : ∀ r ∈ matched, code r.ruleCode = false → "priority" ∉ r.actions.keys :=
    fun r hr hother => (h.others r hr hother).reserved _ (by decide)
  obtain ⟨priority, hraised, hactions⟩ := applyPriorityPostprocessing_ok_iff.mp hpost
  rw [hget _ hpriority, ← floors_filter fun r hr hother => (h.others r hr hother).modifiers _ (by decide),
    ← bumps_filter fun r hr hother => (h.others r hr hother).modifiers _ (by decide)] at hraised
  have hpost' := applyPriorityPostprocessing_ok_iff.mpr ⟨priority, hraised, rfl⟩
  refine ⟨⟨_, _, _⟩, resolve_ok_iff.mpr ⟨actions', hfields', hpost', rfl⟩, ⟨fun f hf => ?_, ?_, rfl⟩⟩
  · rw [hactions]
    cases priority with
    | none => exact hget f hf
    | some v =>
      show (actions.set "priority" v).get? f = (actions'.set "priority" v).get? f
      rw [Dict.get?_set, Dict.get?_set, hget f hf]
  · rw [hmitigations]
    exact (mergeMitigations_filter fun r hr hother => (h.others r hr hother).mitigations).symm

/-- The rules are resolved together when they are on both sides. -/
theorem Alone.resolves (h : Alone code field matched)
    (hown : ∃ res, resolve (matched.filter fun r => code r.ruleCode) = .ok res)
    (hother : ∃ res, resolve (matched.filter fun r => !code r.ruleCode) = .ok res) :
    ∃ res, resolve matched = .ok res := by
  obtain ⟨alone, halone⟩ := hown
  obtain ⟨others, hothers⟩ := hother
  obtain ⟨actions₁, hfields₁, hpost₁, -⟩ := resolve_ok_iff.mp halone
  obtain ⟨actions₂, hfields₂, -, -⟩ := resolve_ok_iff.mp hothers
  have hdecides₁ := (resolveFields_ok_iff.mp ⟨actions₁, hfields₁⟩).1
  have hdecides₂ := (resolveFields_ok_iff.mp ⟨actions₂, hfields₂⟩).1
  have hapart : Apart (fun r => !code r.ruleCode) (fun f => !field f) matched := by
    intro r hr f hf
    exact congrArg not (h.apart r hr f hf)
  obtain ⟨actions, hfields⟩ : ∃ actions, resolveFields Dict.empty [] (fieldWriters matched).entries =
      .ok (actions, [] ++ (fieldWriters matched).entries.flatMap fun entry => (decided entry).2) := by
    apply resolveFields_ok_iff.mpr
    refine ⟨fun entry hentry => ?_, rfl⟩
    cases hfield : field entry.1 with
    | true => exact hdecides₁ entry (h.mem_fieldWriters_filter hentry hfield)
    | false =>
      apply hdecides₂ entry
      rw [← fieldWriters_filter hapart, List.mem_filter, hfield]
      exact ⟨hentry, rfl⟩
  have hpriority : ∀ r ∈ matched, code r.ruleCode = false → "priority" ∉ r.actions.keys :=
    fun r hr hother => (h.others r hr hother).reserved _ (by decide)
  obtain ⟨priority, hraised, -⟩ := applyPriorityPostprocessing_ok_iff.mp hpost₁
  have hget : actions₁.get? "priority" = actions.get? "priority" := by
    rw [get?_resolveFields_eq hfields₁, get?_resolveFields_eq hfields, writers_filter hpriority]
  rw [hget, floors_filter fun r hr hother => (h.others r hr hother).modifiers _ (by decide),
    bumps_filter fun r hr hother => (h.others r hr hother).modifiers _ (by decide)] at hraised
  have hpost := applyPriorityPostprocessing_ok_iff.mpr ⟨priority, hraised, rfl⟩
  exact ⟨⟨_, _, _⟩, resolve_ok_iff.mpr ⟨actions, hfields, hpost, rfl⟩⟩

end ConflictResolver

/-! ## The plan and the score -/

namespace ExecutionPlanBuilder

/-- A plan is made of the sequencing of the rules and of the base fields. -/
theorem build_congr {own : Rule → Bool} {matched : List Rule} {actions actions' : Dict String PyVal}
    (hrules : ∀ r ∈ matched, own r = false → r.sequencing = none)
    (hactions : ∀ f ∈ basePrecedence.map Prod.fst, actions.get? f = actions'.get? f) :
    build actions matched = build actions' (matched.filter own) := by
  have hsequenced : ∀ plan types,
      sequencedPlan plan types matched = sequencedPlan plan types (matched.filter own) := by
    induction matched with
    | nil => intro plan types; rfl
    | cons r rest ih =>
      intro plan types
      rw [List.forall_mem_cons] at hrules
      rw [List.filter_cons]
      cases hown : own r with
      | true =>
        rw [if_pos rfl, sequencedPlan, sequencedPlan]
        split
        · exact ih hrules.2 plan types
        · simp only [ih hrules.2]
      | false =>
        rw [if_neg Bool.false_ne_true, sequencedPlan, hrules.1 hown]
        exact ih hrules.2 plan types
  have hbase : ∀ types (base : List (String × String)) plan, (∀ e ∈ base, e ∈ basePrecedence) →
      base.foldl (addBase actions types) plan = base.foldl (addBase actions' types) plan := by
    intro types base
    induction base with
    | nil => intro plan _; rfl
    | cons e rest ih =>
      intro plan hmem
      rw [List.forall_mem_cons] at hmem
      have hstep : addBase actions types plan e = addBase actions' types plan e := by
        obtain ⟨f, label⟩ := e
        unfold addBase
        simp only [hactions f (List.mem_map_of_mem hmem.1)]
      rw [List.foldl_cons, List.foldl_cons, hstep, ih _ hmem.2]
  unfold build
  rw [hsequenced]
  simp only [hbase _ _ _ fun _ he => he]

end ExecutionPlanBuilder

namespace RiskScorer

/-- Rules without a contribution do not count. -/
theorem total_filter {code : String → Bool} {matched : List Rule} {codes : List String}
    (hrules : ∀ r ∈ matched, code r.ruleCode = false → r.contributionScore = none) :
    total (matched.filter fun r => code r.ruleCode) (codes.filter code) = total matched codes := by
  have hsum : (((matched.filter fun r => code r.ruleCode).filter fun r =>
        !(codes.filter code).contains r.ruleCode).map fun r => r.contributionScore.getD 0).sum =
      ((matched.filter fun r => !codes.contains r.ruleCode).map fun r => r.contributionScore.getD 0).sum := by
    induction matched with
    | nil => rfl
    | cons r rest ih =>
      rw [List.forall_mem_cons] at hrules
      rw [List.filter_cons]
      cases hcode : code r.ruleCode with
      | true =>
        have hcontains : (codes.filter code).contains r.ruleCode = codes.contains r.ruleCode := by
          rw [Bool.eq_iff_iff, List.contains_iff_mem, List.contains_iff_mem, List.mem_filter, hcode]
          simp
        rw [if_pos rfl, List.filter_cons, List.filter_cons, hcontains]
        split
        · rw [List.map_cons, List.map_cons, List.sum_cons, List.sum_cons, ih hrules.2]
        · exact ih hrules.2
      | false =>
        rw [if_neg Bool.false_ne_true, ih hrules.2, List.filter_cons]
        split
        · rw [List.map_cons, List.sum_cons, hrules.1 hcode, Option.getD_none, zero_add]
        · rfl
  unfold total
  simp only [hsum]

end RiskScorer

/-! ## The run -/

namespace PipelineOrchestrator

variable {base addOn : List Rule}

/-- The codes of the base pack. -/
def ownCode (base : List Rule) (code : String) : Bool := (base.map Rule.ruleCode).contains code

theorem ownCode_base {r : Rule} (hr : r ∈ base) : ownCode base r.ruleCode = true :=
  List.contains_iff_mem.mpr (List.mem_map_of_mem hr)

theorem ownCode_addOn (h : AddsOn base addOn) {r : Rule} (hr : r ∈ addOn) :
    ownCode base r.ruleCode = false := by
  unfold ownCode
  rw [Bool.eq_false_iff, ne_eq, List.contains_iff_mem]
  intro hmem
  obtain ⟨a, ha, hsame⟩ := List.mem_map.mp hmem
  exact h.codes a ha r hr hsame

/-- The rules of each pack match on their own. -/
theorem matching_append (h : AddsOn base addOn) (data : PyVal) :
    (PolicyEngine.matching data (base ++ addOn)).filter (fun r => ownCode base r.ruleCode) =
        PolicyEngine.matching data base ∧
      (PolicyEngine.matching data (base ++ addOn)).filter (fun r => !ownCode base r.ruleCode) =
        PolicyEngine.matching data addOn := by
  unfold PolicyEngine.matching
  rw [RulePack.filter_sortRules, RulePack.filter_sortRules, List.filter_append, List.filter_append,
    List.filter_append]
  -- each pack is kept whole by the one filter and dropped by the other
  have hbase : ∀ p : Rule → Bool, (base.filter p).filter (fun r => ownCode base r.ruleCode) = base.filter p ∧
      (base.filter p).filter (fun r => !ownCode base r.ruleCode) = [] := by
    intro p
    have hcode : ∀ r ∈ base.filter p, ownCode base r.ruleCode = true :=
      fun r hr => ownCode_base (List.mem_filter.mp hr).1
    refine ⟨List.filter_eq_self.mpr hcode, List.filter_eq_nil_iff.mpr fun r hr => ?_⟩
    rw [hcode r hr]
    exact Bool.false_ne_true
  have haddOn : ∀ p : Rule → Bool, (addOn.filter p).filter (fun r => ownCode base r.ruleCode) = [] ∧
      (addOn.filter p).filter (fun r => !ownCode base r.ruleCode) = addOn.filter p := by
    intro p
    have hcode : ∀ r ∈ addOn.filter p, ownCode base r.ruleCode = false :=
      fun r hr => ownCode_addOn h (List.mem_filter.mp hr).1
    refine ⟨List.filter_eq_nil_iff.mpr fun r hr => ?_, List.filter_eq_self.mpr fun r hr => ?_⟩
    · rw [hcode r hr]
      exact Bool.false_ne_true
    · rw [hcode r hr]
      rfl
  rw [(hbase _).1, (hbase _).2, (haddOn _).1, (haddOn _).2, List.append_nil, List.nil_append]
  exact ⟨rfl, rfl⟩

theorem alone_matching (h : AddsOn base addOn) (data : PyVal) :
    ConflictResolver.Alone (ownCode base) (fun f => base.any fun a => a.actions.contains f)
      (PolicyEngine.matching data (base ++ addOn)) := by
  constructor
  · intro r hr f hf
    rcases List.mem_append.mp (PolicyEngine.mem_matching.mp hr).1 with hr | hr
    · show _ = ownCode base r.ruleCode
      rw [ownCode_base hr, List.any_eq_true]
      exact ⟨r, hr, (Dict.contains_iff _).mpr hf⟩
    · show _ = ownCode base r.ruleCode
      rw [ownCode_addOn h hr, List.any_eq_false]
      intro a ha hcontains
      exact h.fields a ha r hr f ((Dict.contains_iff _).mp hcontains) hf
  · intro r hr hother
    rcases List.mem_append.mp (PolicyEngine.mem_matching.mp hr).1 with hr | hr
    · rw [ownCode_base hr] at hother
      cases hother
    · exact h.rules r hr

/-- No add-on rule applies in the compliance pass. -/
theorem applying_append (h : AddsOn base addOn) (data : PyVal) :
    ComplianceApplier.applying data (base ++ addOn) = ComplianceApplier.applying data base := by
  unfold ComplianceApplier.applying
  rw [List.filter_append, List.append_right_eq_self.mpr]
  rw [List.filter_eq_nil_iff]
  intro r hr
  rw [beq_false_of_ne (h.rules r hr).family, Bool.and_false, Bool.false_and]
  exact Bool.false_ne_true

/-- The fill is up to the priority and the target, and touches its two fields. -/
theorem fillSla_congr {matrix : Option SlaMatrix} {incident : Incident}
    {actions actions' final : Dict String PyVal}
    (hpriority : actions.get? "priority" = actions'.get? "priority")
    (htarget : actions.get? "targetSLA" = actions'.get? "targetSLA")
    (h : fillSla matrix incident actions = .ok final) :
    ∃ final', fillSla matrix incident actions' = .ok final' ∧
      ∀ f, actions.get? f = actions'.get? f → final.get? f = final'.get? f := by
  unfold fillSla at h ⊢
  cases matrix with
  | none =>
    cases h
    exact ⟨actions', rfl, fun f hf => hf⟩
  | some rows =>
    have hcontains : actions.contains "targetSLA" = actions'.contains "targetSLA" := by
      unfold Dict.contains
      rw [htarget]
    simp only at h ⊢
    rw [← hcontains]
    split at h
    · rename_i hfound
      rw [if_pos hfound]
      exact ⟨actions', rfl, fun f hf => Except.pure_ok_iff.mp h ▸ hf⟩
    · rename_i hmissing
      rw [if_neg hmissing]
      obtain ⟨entry, hentry, h⟩ := Except.bind_ok_iff.mp h
      rw [← hpriority, hentry]
      cases entry with
      | none => exact ⟨actions', rfl, fun f hf => Except.pure_ok_iff.mp h ▸ hf⟩
      | some entry =>
        refine ⟨_, rfl, fun f hf => ?_⟩
        rw [← Except.pure_ok_iff.mp h]
        simp only [Dict.get?_set, hf]

/-- The narrowed actions agree on the fields that no add-on rule writes. -/
private theorem get?_narrow_append (h : AddsOn base addOn) {data : PyVal}
    {res alone : ConflictResolver.Resolution}
    (hown : ConflictResolver.SameOwn (ownCode base) (PolicyEngine.matching data (base ++ addOn)) res alone)
    {f : String} (hf : ∀ b ∈ addOn, f ∉ b.actions.keys) :
    (ComplianceApplier.narrow res.actions (ComplianceApplier.applying data (base ++ addOn))).get? f =
      (ComplianceApplier.narrow alone.actions (ComplianceApplier.applying data base)).get? f := by
  have hactions : res.actions.get? f = alone.actions.get? f := by
    apply hown.actions f
    intro r hr hother
    rcases List.mem_append.mp (PolicyEngine.mem_matching.mp hr).1 with hr | hr
    · rw [ownCode_base hr] at hother
      cases hother
    · exact hf r hr
  rw [ComplianceApplier.get?_narrow, ComplianceApplier.get?_narrow, applying_append h, hactions]

private theorem not_reserved (h : AddsOn base addOn) {f : String} (hf : f ∈ reservedFields) :
    ∀ b ∈ addOn, f ∉ b.actions.keys := fun b hb => (h.rules b hb).reserved f hf

/-- A run on both packs is, for the base pack, a run on it alone. -/
theorem run_base_of_joined {matrix : Option SlaMatrix} {incident : Incident} {pack : RulePack}
    {joined : Decision} (h : AddsOn base addOn)
    (hrun : run matrix incident { pack with rules := base ++ addOn } = .ok joined) :
    ∃ alone, run matrix incident { pack with rules := base } = .ok alone ∧
      joined.SameBase base addOn alone := by
  obtain ⟨matched, rejected, res, actions, constraints, final, plan, confidence, hevaluate, hresolve, happly,
    hfill, hplan, hconfidence, rfl⟩ := run_ok_iff.mp hrun
  obtain ⟨hjudged, rfl⟩ := PolicyEngine.evaluate_ok_iff.mp ⟨rejected, hevaluate⟩
  have halone := alone_matching h incident.asEvaluationData
  have hmatching := (matching_append h incident.asEvaluationData).1
  have hsub : ∀ r ∈ base, r ∈ base ++ addOn := fun r hr => List.mem_append_left _ hr
  obtain ⟨rejected', hevaluate'⟩ : ∃ rejected', PolicyEngine.evaluate { pack with rules := base } incident =
      .ok (PolicyEngine.matching incident.asEvaluationData base, rejected') :=
    PolicyEngine.evaluate_ok_iff.mpr ⟨fun r hr => hjudged r (hsub r hr), rfl⟩
  obtain ⟨res', hresolve', hown⟩ := halone.of_resolve hresolve
  rw [hmatching] at hresolve'
  obtain ⟨hsatisfied, rfl, rfl⟩ := ComplianceApplier.apply_ok_iff.mp happly
  have happly' : ComplianceApplier.apply { pack with rules := base } incident res'.actions =
      .ok (ComplianceApplier.narrow res'.actions (ComplianceApplier.applying incident.asEvaluationData base),
        (ComplianceApplier.applying incident.asEvaluationData base).map ComplianceApplier.constraint) :=
    ComplianceApplier.apply_ok_iff.mpr ⟨fun r hr => hsatisfied r (hsub r hr), rfl, rfl⟩
  obtain ⟨final', hfill', hfinal⟩ := fillSla_congr (get?_narrow_append h hown (not_reserved h (by decide)))
    (get?_narrow_append h hown (not_reserved h (by decide))) hfill
  have hplan' : ExecutionPlanBuilder.build final' (PolicyEngine.matching incident.asEvaluationData base) =
      .ok plan := by
    rw [← hplan, ExecutionPlanBuilder.build_congr
      (fun r hr hother => (halone.others r hr hother).sequencing)
      fun f hf => hfinal f (get?_narrow_append h hown (not_reserved h (List.mem_append_right _ hf))),
      hmatching]
  have htotal : RiskScorer.total (PolicyEngine.matching incident.asEvaluationData base)
      (res'.suppressed.map SuppressedEntry.ruleCode) =
      RiskScorer.total (PolicyEngine.matching incident.asEvaluationData (base ++ addOn))
        (res.suppressed.map SuppressedEntry.ruleCode) := by
    rw [← RiskScorer.total_filter fun r hr hother => (halone.others r hr hother).contributionScore,
      hmatching, List.filter_map, ← hown.suppressed]
    rfl
  refine ⟨_, run_ok_iff.mpr ⟨_, rejected', res', _, _, final', plan, confidence, hevaluate', hresolve',
    happly', hfill', hplan', hconfidence, rfl⟩, ?_, ?_, ?_, ?_, hown.mitigations, rfl, hown.suppressed⟩
  · show (final.get? "priority").getD .none = (final'.get? "priority").getD .none
    rw [hfinal _ (get?_narrow_append h hown (not_reserved h (by decide)))]
  · exact htotal.symm
  · exact congrArg RiskScorer.band htotal.symm
  · intro f hf
    exact hfinal f (get?_narrow_append h hown hf)

/-- A run on the base pack goes through with add-on rules that are evaluated and resolved. -/
theorem run_joined_of_base {matrix : Option SlaMatrix} {incident : Incident} {pack : RulePack}
    {alone : Decision} (h : AddsOn base addOn)
    (hevaluates : ∀ b ∈ addOn, b.Evaluates incident.asEvaluationData)
    (hresolves : ∃ res, ConflictResolver.resolve
      (PolicyEngine.matching incident.asEvaluationData addOn) = .ok res)
    (hrun : run matrix incident { pack with rules := base } = .ok alone) :
    ∃ joined, run matrix incident { pack with rules := base ++ addOn } = .ok joined := by
  obtain ⟨matched, rejected, res', actions, constraints, final', plan, confidence, hevaluate, hresolve, happly,
    hfill, hplan, hconfidence, rfl⟩ := run_ok_iff.mp hrun
  obtain ⟨hjudged, rfl⟩ := PolicyEngine.evaluate_ok_iff.mp ⟨rejected, hevaluate⟩
  have halone := alone_matching h incident.asEvaluationData
  have hmatching := matching_append h incident.asEvaluationData
  obtain ⟨rejected', hevaluate'⟩ : ∃ rejected',
      PolicyEngine.evaluate { pack with rules := base ++ addOn } incident =
        .ok (PolicyEngine.matching incident.asEvaluationData (base ++ addOn), rejected') := by
    refine PolicyEngine.evaluate_ok_iff.mpr ⟨fun r hr hactive => ?_, rfl⟩
    rcases List.mem_append.mp hr with hr | hr
    · exact hjudged r hr hactive
    · exact PolicyEngine.judge_total (hevaluates r hr)
  obtain ⟨res, hresolve'⟩ := halone.resolves (hmatching.1.symm ▸ ⟨res', hresolve⟩)
    (hmatching.2.symm ▸ hresolves)
  obtain ⟨res₁, hresolve₁, hown⟩ := halone.of_resolve hresolve'
  rw [hmatching.1, hresolve] at hresolve₁
  cases hresolve₁
  obtain ⟨hsatisfied, rfl, rfl⟩ := ComplianceApplier.apply_ok_iff.mp happly
  obtain ⟨actions, constraints, happly'⟩ : ∃ actions constraints,
      ComplianceApplier.apply { pack with rules := base ++ addOn } incident res.actions =
        .ok (actions, constraints) := by
    refine ⟨_, _, ComplianceApplier.apply_ok_iff.mpr ⟨fun r hr hactive hfamily => ?_, rfl, rfl⟩⟩
    rcases List.mem_append.mp hr with hr | hr
    · exact hsatisfied r hr hactive hfamily
    · exact absurd hfamily (h.rules r hr).family
  obtain ⟨-, rfl, -⟩ := ComplianceApplier.apply_ok_iff.mp happly'
  obtain ⟨final, hfill', hfinal⟩ := fillSla_congr (get?_narrow_append h hown (not_reserved h (by decide))).symm
    (get?_narrow_append h hown (not_reserved h (by decide))).symm hfill
  have hplan' : ExecutionPlanBuilder.build final
      (PolicyEngine.matching incident.asEvaluationData (base ++ addOn)) = .ok plan := by
    rw [← hplan, ExecutionPlanBuilder.build_congr (fun r hr hother => (halone.others r hr hother).sequencing)
      fun f hf => (hfinal f (get?_narrow_append h hown
        (not_reserved h (List.mem_append_right _ hf))).symm).symm, hmatching.1]
  exact ⟨_, run_ok_iff.mpr ⟨_, rejected', res, _, constraints, final, plan, confidence, hevaluate', hresolve',
    happly', hfill', hplan', hconfidence, rfl⟩⟩

/-- Add-on rules leave the decision of the base pack as it is, where they are evaluated and
    resolved without an exception. -/
theorem addOn_isolated (matrix : Option SlaMatrix) (incident : Incident) (pack : RulePack)
    (base addOn : List Rule) (h : AddsOn base addOn)
    (hevaluates : ∀ b ∈ addOn, b.Evaluates incident.asEvaluationData)
    (hresolves : ∃ res, ConflictResolver.resolve
      (PolicyEngine.matching incident.asEvaluationData addOn) = .ok res) :
    Except.Both (Decision.SameBase base addOn) (run matrix incident { pack with rules := base ++ addOn })
      (run matrix incident { pack with rules := base }) := by
  cases hjoined : run matrix incident { pack with rules := base ++ addOn } with
  | ok joined =>
    obtain ⟨alone, halone, hsame⟩ := run_base_of_joined h hjoined
    rw [halone]
    exact .ok hsame
  | error e =>
    cases halone : run matrix incident { pack with rules := base } with
    | ok alone =>
      obtain ⟨joined, hjoined'⟩ := run_joined_of_base h hevaluates hresolves halone
      rw [hjoined] at hjoined'
      cases hjoined'
    | error e' => exact .error

/-! ## Examples -/

/-- A rule that writes one field. -/
def fieldRule (ruleCode field : String) (value : PyVal) : Rule :=
  { plainRule ruleCode with actions := Dict.empty.set field value }

/-- The base pack of one rule, which decides the priority. -/
def priorityRules : List Rule := [fieldRule "R1" "priority" (.str "High")]

/-- Two rules of an add-on pack that write the `slaTarget`. -/
def slaTargetRules (first second : String) : List Rule :=
  [fieldRule "A1" "slaTarget" (.str first), fieldRule "A2" "slaTarget" (.str second)]

theorem addsOn_slaTarget (first second : String) :
    AddsOn priorityRules (slaTargetRules first second) := by
  have haddOn : ∀ b ∈ slaTargetRules first second, ∃ code value, b = fieldRule code "slaTarget" value ∧
      code ≠ "R1" := by
    intro b hb
    rcases List.mem_pair.mp hb with rfl | rfl
    · exact ⟨"A1", _, rfl, by decide⟩
    · exact ⟨"A2", _, rfl, by decide⟩
  refine ⟨fun a ha b hb => ?_, fun a ha b hb f hf => ?_, fun b hb => ?_⟩
  · obtain ⟨code, value, rfl, hcode⟩ := haddOn b hb
    rw [List.mem_singleton.mp ha]
    exact hcode.symm
  · obtain ⟨code, value, rfl, -⟩ := haddOn b hb
    rw [List.mem_singleton.mp ha] at hf
    obtain rfl : f = "priority" := List.mem_singleton.mp hf
    show "priority" ∉ ["slaTarget"]
    decide
  · obtain ⟨code, value, rfl, -⟩ := haddOn b hb
    have hkeys : ∀ f ∈ (fieldRule code "slaTarget" value).actions.keys, f = "slaTarget" :=
      fun f hf => List.mem_singleton.mp hf
    refine ⟨fun f hf hmem => ?_, fun f hf hmem => ?_, rfl, rfl, rfl, ?_⟩
    · rw [hkeys f hmem] at hf
      exact absurd hf (by decide)
    · rw [hkeys f hmem] at hf
      exact absurd hf (by decide)
    · show "OPERATIONAL_FEASIBILITY" ≠ PolicyEngine.complianceFamily
      decide

theorem evaluates_slaTarget (first second : String) :
    ∀ b ∈ slaTargetRules first second, b.Evaluates severeIncident.asEvaluationData := by
  intro b hb
  rcases List.mem_pair.mp hb with rfl | rfl
  · exact ⟨⟨true, rfl⟩, fun _ hclause => (by cases hclause)⟩
  · exact ⟨⟨true, rfl⟩, fun _ hclause => (by cases hclause)⟩

/-- Two add-on rules whose targets can be compared. -/
theorem addOn_isolated_durations :
    Except.Both (Decision.SameBase priorityRules (slaTargetRules "15 minutes" "2 hours"))
      (run none severeIncident { plainVersion 1 none .active 0 3 with
        rules := priorityRules ++ slaTargetRules "15 minutes" "2 hours" })
      (run none severeIncident { plainVersion 1 none .active 0 3 with rules := priorityRules }) := by
  have hresolves : (ConflictResolver.resolve (PolicyEngine.matching severeIncident.asEvaluationData
      (slaTargetRules "15 minutes" "2 hours"))).isOk = true := by decide +kernel
  exact addOn_isolated none severeIncident (plainVersion 1 none .active 0 3) priorityRules
    (slaTargetRules "15 minutes" "2 hours") (addsOn_slaTarget _ _) (evaluates_slaTarget _ _)
    (Except.isOk_iff.mp hresolves)

/-- Two add-on rules whose targets are no durations take the decision of the base pack away. -/
theorem addOn_breaks_decision :
    ¬∀ (matrix : Option SlaMatrix) (incident : Incident) (pack : RulePack) (base addOn : List Rule),
      AddsOn base addOn → (∀ b ∈ addOn, b.Evaluates incident.asEvaluationData) →
      Except.Both (Decision.SameBase base addOn) (run matrix incident { pack with rules := base ++ addOn })
        (run matrix incident { pack with rules := base }) := by
  intro h
  have hboth := h none severeIncident (plainVersion 1 none .active 0 3) priorityRules
    (slaTargetRules "soon" "later") (addsOn_slaTarget _ _) (evaluates_slaTarget _ _)
  have hjoined : (run none severeIncident { plainVersion 1 none .active 0 3 with
      rules := priorityRules ++ slaTargetRules "soon" "later" }).isOk = false := by decide +kernel
  have halone : (run none severeIncident { plainVersion 1 none .active 0 3 with
      rules := priorityRules }).isOk = true := by decide +kernel
  have hsame := hboth.isOk
  rw [hjoined, halone] at hsame
  cases hsame

end PipelineOrchestrator

end PulseGuard
