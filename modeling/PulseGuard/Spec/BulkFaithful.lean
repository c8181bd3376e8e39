import PulseGuard.Spec.ChosenValues
import PulseGuard.Spec.WhatIfFidelity

/-!
# Bulk evaluation is single evaluation

When an item of a bulk evaluation is reported as the evaluation of that incident alone decides.
What an item is reported with does not depend on the items around it (`results_foldl`). But the
payload of an item is without its region and its tenant, so the two agree when every active rule
comes to the same verdict without them (`bulk_reports`).
-/

namespace PulseGuard

/-! ## Where a priority comes from -/

namespace PipelineOrchestrator

/-- The resolved priority is written by a matched rule, or a level of the scale. -/
theorem resolved_priority_origin {matched : List Rule} {resolution : ConflictResolver.Resolution} {v : PyVal}
    (h : ConflictResolver.resolve matched = .ok resolution)
    (hv : resolution.actions.get? "priority" = some v) :
    (∃ s, v = .str s) ∨ ∃ r ∈ matched, r.actions.get? "priority" = some v := by
  obtain ⟨priority, hraised, hget⟩ := ConflictResolver.get?_resolve_priority h
  have hdecides := ConflictResolver.allDecided_of_resolve h "priority" (by decide)
  have hwritten : ConflictResolver.chosen "priority" matched = some v →
      ∃ r ∈ matched, r.actions.get? "priority" = some v := by
    intro hchosen
    obtain ⟨r, hr, rfl⟩ := ConflictResolver.chosen_written hdecides hchosen
    obtain ⟨hr, hkey⟩ := ConflictResolver.mem_of_standing hr
    exact ⟨r, hr, ConflictResolver.written_spec hkey⟩
  rw [hget] at hv
  cases priority with
  | none =>
    rw [Option.none_or] at hv
    exact Or.inr (hwritten hv)
  | some w =>
    rw [Option.some_or] at hv
    cases hv
    rcases ConflictResolver.raisedPriority_origin hraised with hcurrent | hscale
    · exact Or.inr (hwritten hcurrent)
    · exact Or.inl hscale

/-- The priority of a decision is none, a text, or what an active rule writes. -/
theorem priority_origin {matrix : Option SlaMatrix} {incident : Incident} {pack : RulePack}
    {decision : Decision} (h : run matrix incident pack = .ok decision) :
    decision.priority = .none ∨ (∃ s, decision.priority = .str s) ∨
      ∃ r ∈ pack.rules, r.isActive = true ∧ r.actions.get? "priority" = some decision.priority := by
  obtain ⟨matched, rejected, resolution, actions, constraints, final, plan, confidence, hmatched,
    hresolve, hcompliance, hfill, -, -, rfl⟩ := run_ok_iff.mp h
  show (final.get? "priority").getD .none = .none ∨ _
  rw [get?_fillSla hfill (by decide) (by decide)]
  obtain ⟨-, hactions, -⟩ := ComplianceApplier.apply_ok_iff.mp hcompliance
  obtain ⟨-, hmatching⟩ := PolicyEngine.evaluate_ok_iff.mp ⟨rejected, hmatched⟩
  rw [hactions, ComplianceApplier.get?_narrow]
  cases hlast : ComplianceApplier.lastWritten "priority"
      (ComplianceApplier.applying incident.asEvaluationData pack.rules) with
  | some v =>
    obtain ⟨r, hr, hv⟩ := List.exists_of_findSome?_eq_some hlast
    obtain ⟨hmem, hactive, -⟩ := ComplianceApplier.mem_applying.mp (List.mem_reverse.mp hr)
    exact Or.inr (Or.inr ⟨r, hmem, hactive, hv⟩)
  | none =>
    rw [Option.none_or]
    cases hget : resolution.actions.get? "priority" with
    | none => exact Or.inl rfl
    | some v =>
      rcases resolved_priority_origin hresolve hget with hscale | ⟨r, hr, hv⟩
      · exact Or.inr (Or.inl hscale)
      · rw [hmatching] at hr
        obtain ⟨hmem, hactive, -⟩ := PolicyEngine.mem_matching.mp hr
        exact Or.inr (Or.inr ⟨r, hmem, hactive, hv⟩)

end PipelineOrchestrator

/-! ## One item of a batch -/

namespace BulkEvaluateUseCase

/-- A batch can count the decisions with this priority. -/
def Countable (priority : PyVal) : Prop := (priority.orElse (.str "Unknown")).hashable = true

theorem countPriority_ok_iff {priority : PyVal} :
    (∃ counted, countPriority priority [] = .ok counted) ↔ Countable priority := by
  unfold countPriority Countable
  simp only
  split
  · rename_i hhash
    exact ⟨fun _ => hhash, fun _ => ⟨_, rfl⟩⟩
  · rename_i hhash
    constructor
    · intro h
      obtain ⟨counted, h⟩ := h
      cases h
    · intro h
      exact absurd h hhash

/-- A decision can be counted when the active rules write no priority that cannot. -/
theorem countable_run {matrix : Option SlaMatrix} {incident : Incident} {pack : RulePack}
    {decision : Decision} (hrules : ∀ rule ∈ pack.rules, rule.isActive = true →
      ∀ v, rule.actions.get? "priority" = some v → Countable v)
    (hrun : PipelineOrchestrator.run matrix incident pack = .ok decision) :
    Countable decision.priority := by
  rcases PipelineOrchestrator.priority_origin hrun with hnone | ⟨s, hs⟩ | ⟨rule, hrule, hactive, hv⟩
  · rw [hnone]
    rfl
  · rw [hs]
    unfold Countable PyVal.orElse
    split
    · rfl
    · rfl
  · exact hrules rule hrule hactive _ hv

/-- The region that an item is evaluated for. -/
def itemRegion (item : IncidentEvaluateRequest) (region : PyVal) : PyVal :=
  (field item "region").orElse region

/-- The tenant that an item is evaluated for. -/
def itemTenant (item : IncidentEvaluateRequest) (tenant : PyVal) : PyVal :=
  (field item "tenantId").orElse tenant

/-- The incident that an item is evaluated as. -/
def itemIncident (item : IncidentEvaluateRequest) (region tenant : PyVal) : IncidentRecord :=
  incidentOf item (itemRegion item region) (itemTenant item tenant)

/-- The decision on an item, or what it fails with. -/
def decideItem (useCase : EvaluateIncidentUseCase) (region tenant : PyVal)
    (item : IncidentEvaluateRequest) : Except PyError Decision := do
  if item.incidentId == "" then
    throw (.valueError "incidentId is required for every item in a bulk evaluation")
  let decision ← useCase.decide (useCase.enrich (itemIncident item region tenant))
    (itemRegion item region) (itemTenant item tenant)
  let _ ← countPriority decision.priority []
  return decision

/-- What an item is reported with. -/
def entryOf (useCase : EvaluateIncidentUseCase) (region tenant : PyVal)
    (item : IncidentEvaluateRequest) : BulkEvaluateResultEntry :=
  match decideItem useCase region tenant item with
  | .ok decision => ⟨item.incidentId, true, decision.priority, some decision.riskBand, none⟩
  | .error e => ⟨item.incidentId, false, .none, none, some e.text⟩

theorem decideItem_of_ok {useCase : EvaluateIncidentUseCase} {region tenant : PyVal}
    {item : IncidentEvaluateRequest} {decision : Decision} (hnamed : item.incidentId ≠ "")
    (hdecide : useCase.decide (useCase.enrich (itemIncident item region tenant))
      (itemRegion item region) (itemTenant item tenant) = .ok decision)
    (hcountable : Countable decision.priority) : decideItem useCase region tenant item = .ok decision := by
  obtain ⟨counted, hcount⟩ := countPriority_ok_iff.mpr hcountable
  unfold decideItem
  rw [if_neg (by simpa using hnamed), hdecide]
  show (countPriority decision.priority [] >>= fun _ => pure decision) = .ok decision
  rw [hcount]
  rfl

theorem decideItem_of_error {useCase : EvaluateIncidentUseCase} {region tenant : PyVal}
    {item : IncidentEvaluateRequest} {e : PyError} (hnamed : item.incidentId ≠ "")
    (hdecide : useCase.decide (useCase.enrich (itemIncident item region tenant))
      (itemRegion item region) (itemTenant item tenant) = .error e) :
    decideItem useCase region tenant item = .error e := by
  unfold decideItem
  rw [if_neg (by simpa using hnamed), hdecide]
  rfl

/-- Whether a decision is counted, and the exception otherwise, does not depend on the decisions
    counted before. -/
theorem results_record (item : IncidentEvaluateRequest) (decision : Decision) (progress : Progress) :
    (record item decision progress).results = progress.results ++
      [match countPriority decision.priority [] with
        | .ok _ => ⟨item.incidentId, true, decision.priority, some decision.riskBand, none⟩
        | .error e => ⟨item.incidentId, false, .none, none, some e.text⟩] := by
  unfold record countPriority
  simp only
  by_cases hhash : (decision.priority.orElse (.str "Unknown")).hashable = true
  · simp only [if_pos hhash]
  · simp only [if_neg hhash]
    rfl

/-- One round reports on its item, and what it reports depends on the item alone. -/
theorem results_evaluateItem (useCase : EvaluateIncidentUseCase) (region tenant : PyVal) (now : Int)
    (progress : Progress) (item : IncidentEvaluateRequest) :
    (evaluateItem useCase region tenant now progress item).results =
      progress.results ++ [entryOf useCase region tenant item] := by
  unfold evaluateItem entryOf decideItem
  by_cases hid : (item.incidentId == "") = true
  · simp only [if_pos hid]
    rfl
  · simp only [if_neg hid, EvaluateIncidentUseCase.execute, itemIncident, itemRegion, itemTenant]
    cases useCase.decide (useCase.enrich (incidentOf item
        ((field item "region").orElse region) ((field item "tenantId").orElse tenant)))
        ((field item "region").orElse region) ((field item "tenantId").orElse tenant) with
    | error e => rfl
    | ok decision =>
      refine (results_record item decision _).trans ?_
      cases hcount : countPriority decision.priority [] with
      | error e => simp [hcount, bind, Except.bind]
      | ok counted => simp [hcount, bind, Except.bind, pure, Except.pure]

theorem results_foldl (useCase : EvaluateIncidentUseCase) (region tenant : PyVal) (now : Int)
    (items : List IncidentEvaluateRequest) (progress : Progress) :
    (items.foldl (evaluateItem useCase region tenant now) progress).results =
      progress.results ++ items.map (entryOf useCase region tenant) := by
  induction items generalizing progress with
  | nil => rw [List.foldl_nil, List.map_nil, List.append_nil]
  | cons item rest ih =>
    rw [List.foldl_cons, ih, results_evaluateItem, List.map_cons, List.append_assoc]
    rfl

/-! ## An item and the incident alone -/

/-- An entry reports what the evaluation of an incident has come to. -/
def Reports (entry : BulkEvaluateResultEntry) : Except PyError DecisionRecord → Prop
  | .ok decision => entry.success = true ∧ entry.priority = decision.priority ∧
      entry.riskBand = some decision.riskBand
  | .error _ => entry.success = false

/-- The same rules judge an item as the incident alone, and judge it alike: its region and its
    tenant select no other pack, show no provider another incident, and change no verdict. -/
structure JudgedAlike (production : EvaluateIncidentUseCase) (region tenant : PyVal)
    (item : IncidentEvaluateRequest) : Prop where
  named : item.incidentId ≠ ""
  samePack : production.ruleRepository.getActive (itemRegion item region) (itemTenant item tenant) =
    production.ruleRepository.getActive .none .none
  sameContext : ∀ providers, production.contextProviders = some providers → ∀ provider ∈ providers,
    provider.fetch (itemIncident item region tenant) = provider.fetch (incidentFromRequest item)
  sameVerdicts : ∀ pack, production.ruleRepository.getActive .none .none = .ok pack →
    SameVerdicts pack.rules
      (production.enrich (itemIncident item region tenant)).asEvaluationData
      (production.enrich (incidentFromRequest item)).asEvaluationData
  countable : ∀ pack, production.ruleRepository.getActive .none .none = .ok pack →
    ∀ rule ∈ pack.rules, rule.isActive = true →
      ∀ v, rule.actions.get? "priority" = some v → Countable v

/-- The customer's tier is a field of the payload that a bulk evaluation keeps. -/
theorem customerTier_payloadOf (item : IncidentEvaluateRequest) :
    (payloadOf item).get? "customerTier" = item.fields.get? "customerTier" :=
  Dict.get?_filter _ (by decide)

/-- An item is ruled on as the incident alone. -/
theorem JudgedAlike.ruling_decide {production : EvaluateIncidentUseCase} {region tenant : PyVal}
    {item : IncidentEvaluateRequest} (h : JudgedAlike production region tenant item) :
    Decision.ruling <$> production.decide (production.enrich (itemIncident item region tenant))
        (itemRegion item region) (itemTenant item tenant) =
      Decision.ruling <$> production.decide (production.enrich (incidentFromRequest item)) .none
        .none := by
  unfold EvaluateIncidentUseCase.decide
  rw [h.samePack]
  cases hpack : production.ruleRepository.getActive .none .none with
  | error e => rfl
  | ok pack =>
    refine PipelineOrchestrator.ruling_congr production.slaMatrix (h.sameVerdicts pack hpack) ?_ ?_
    · rw [production.payload_enrich, production.payload_enrich]
      exact customerTier_payloadOf item
    · -- the sources are those of the same context
      have henrich : production.enrich (itemIncident item region tenant) =
          { production.enrich (incidentFromRequest item) with
            payload := payloadOf item
            region := itemRegion item region
            tenantId := itemTenant item tenant } :=
        production.enrich_congr (incidentFromRequest item) (payloadOf item) _ _ h.sameContext
      rw [henrich]
      rfl

/-- The decision on an item is one that a batch can count. -/
theorem JudgedAlike.countable_decide {production : EvaluateIncidentUseCase} {region tenant : PyVal}
    {item : IncidentEvaluateRequest} (h : JudgedAlike production region tenant item)
    {incident : IncidentRecord} {decision : Decision}
    (hdecide : production.decide incident (itemRegion item region) (itemTenant item tenant) =
      .ok decision) : Countable decision.priority := by
  obtain ⟨pack, hpack, hrun⟩ := Except.bind_ok_iff.mp hdecide
  rw [h.samePack] at hpack
  exact countable_run (h.countable pack hpack) hrun

/-- An item that is judged like the incident alone is reported with its decision. -/
theorem JudgedAlike.reports {production : EvaluateIncidentUseCase} {region tenant : PyVal}
    {item : IncidentEvaluateRequest} (h : JudgedAlike production region tenant item) (now : Int)
    (store : DecisionStore) :
    Reports (entryOf production region tenant item) (evaluateIncident production item now store).1 := by
  -- the two rulings, before the batch counts its own
  have hruling : Decision.ruling <$>
      production.decide (production.enrich (itemIncident item region tenant))
        (itemRegion item region) (itemTenant item tenant) =
      (fun decision : DecisionRecord => decision.ruling) <$>
        (evaluateIncident production item now store).1 :=
    h.ruling_decide.trans
      (production.ruling_execute (incidentFromRequest item) .none .none now store).symm
  unfold entryOf
  cases hitem : production.decide (production.enrich (itemIncident item region tenant))
      (itemRegion item region) (itemTenant item tenant) with
  | error e =>
    rw [hitem] at hruling
    rw [decideItem_of_error h.named hitem]
    cases halone : (evaluateIncident production item now store).1 with
    | error e' => rfl
    | ok alone =>
      rw [halone] at hruling
      cases hruling
  | ok decision =>
    rw [hitem] at hruling
    rw [decideItem_of_ok h.named hitem (h.countable_decide hitem)]
    cases halone : (evaluateIncident production item now store).1 with
    | error e' =>
      rw [halone] at hruling
      cases hruling
    | ok alone =>
      rw [halone] at hruling
      have hsame : decision.ruling = alone.ruling := Except.ok.inj hruling
      have hpriority : decision.priority = alone.priority := congrArg Ruling.priority hsame
      have hband : decision.riskBand = alone.riskBand := congrArg Ruling.riskBand hsame
      exact ⟨rfl, hpriority, congrArg some hband⟩

/-- A request with a severity and a region. -/
def regionalRequest : IncidentEvaluateRequest where
  incidentId := "INC-2"
  fields := (Dict.empty.set "severity" (.str "high")).set "region" (.str "EU")
  context := none
  degradedContext := none
  apart := by
    intro k hk
    rw [Dict.get?_set_of_ne, Dict.get?_set_of_ne]
    · rfl
    · rintro rfl
      revert hk
      decide
    · rintro rfl
      revert hk
      decide

/-- A rule that raises the priority of the incidents that have a field. -/
def readingRule (field : String) : Rule :=
  { PipelineOrchestrator.fieldRule "R1" "priority" (.str "High") with
    conditions := ⟨.dict [("var", .str field)]⟩ }

end BulkEvaluateUseCase

end PulseGuard
