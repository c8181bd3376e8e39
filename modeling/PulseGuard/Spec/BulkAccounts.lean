import PulseGuard.Spec.BulkFaithful
import PulseGuard.Spec.ReplayConsistent

/-!
# Bulk accounting

What the counters, the distributions, the entries and the stored decisions of a bulk evaluation
have to do with each other. The loop counts a success and stores the decision before it counts
the priority, and a priority without a hash raises there. So the accounts agree exactly when
every decision of the batch has a priority that can be counted (`bulk_accounts_iff`).
-/

namespace PulseGuard

open InMemoryDecisionRepository

namespace BulkEvaluateUseCase

/-! ## One item -/

/-- The decision that the evaluation of an item comes to. -/
def decisionOn (useCase : EvaluateIncidentUseCase) (region tenant : PyVal)
    (item : IncidentEvaluateRequest) : Except PyError Decision :=
  if item.incidentId == "" then
    .error (.valueError "incidentId is required for every item in a bulk evaluation")
  else useCase.decide (useCase.enrich (itemIncident item region tenant)) (itemRegion item region)
    (itemTenant item tenant)

/-- The decision as it is stored. -/
def stored (decision : Decision) (now : Int) : DecisionRecord :=
  { decision with createdAt := now, resolved := false }

/-- The store after a decision. -/
def storeAfter (useCase : EvaluateIncidentUseCase) (decision : Decision) (now : Int)
    (store : DecisionStore) : DecisionStore :=
  if useCase.persists then save (stored decision now) store else store

variable {useCase : EvaluateIncidentUseCase} {region tenant : PyVal} {now : Int}

theorem evaluateItem_eq (progress : Progress) (item : IncidentEvaluateRequest) :
    evaluateItem useCase region tenant now progress item =
      match decisionOn useCase region tenant item with
      | .error e => fail item e progress
      | .ok decision => record item decision
          { progress with store := storeAfter useCase decision now progress.store } := by
  unfold evaluateItem decisionOn
  by_cases hid : (item.incidentId == "") = true
  · simp only [if_pos hid]
  · simp only [if_neg hid, EvaluateIncidentUseCase.execute, itemIncident, itemRegion, itemTenant]
    cases useCase.decide (useCase.enrich (incidentOf item
        ((field item "region").orElse region) ((field item "tenantId").orElse tenant)))
        ((field item "region").orElse region) ((field item "tenantId").orElse tenant) with
    | error e => rfl
    | ok decision => rfl

theorem entryOf_eq (item : IncidentEvaluateRequest) : entryOf useCase region tenant item =
    match decisionOn useCase region tenant item with
    | .error e => ⟨item.incidentId, false, .none, none, some e.text⟩
    | .ok decision => match countPriority decision.priority [] with
      | .ok _ => ⟨item.incidentId, true, decision.priority, some decision.riskBand, none⟩
      | .error e => ⟨item.incidentId, false, .none, none, some e.text⟩ := by
  unfold entryOf decideItem decisionOn
  by_cases hid : (item.incidentId == "") = true
  · simp only [if_pos hid]
    rfl
  · simp only [if_neg hid]
    cases useCase.decide (useCase.enrich (itemIncident item region tenant))
        (itemRegion item region) (itemTenant item tenant) with
    | error e => rfl
    | ok decision => cases hcount : countPriority decision.priority [] <;>
        simp [hcount, bind, Except.bind, pure, Except.pure]

theorem entryOf_incidentId (item : IncidentEvaluateRequest) :
    (entryOf useCase region tenant item).incidentId = item.incidentId := by
  rw [entryOf_eq]
  split
  · rfl
  · split
    · rfl
    · rfl

theorem sum_countKey (key : PyVal) (distribution : List (PyVal × Nat)) :
    ((countKey key distribution).map Prod.snd).sum = (distribution.map Prod.snd).sum + 1 := by
  induction distribution with
  | nil => rfl
  | cons entry rest ih =>
    obtain ⟨k, n⟩ := entry
    unfold countKey
    split
    · simp only [List.map_cons, List.sum_cons]
      omega
    · simp only [List.map_cons, List.sum_cons, ih]
      omega

theorem countPriority_error {priority : PyVal} (h : ¬Countable priority)
    (distribution : List (PyVal × Nat)) :
    ∃ e, countPriority priority distribution = .error e := by
  unfold countPriority
  simp only
  exact ⟨_, if_neg h⟩

/-- An item fails, is counted as a success and reported so, or is counted as a success and as a
    failure. -/
theorem evaluateItem_cases (progress : Progress) (item : IncidentEvaluateRequest) :
    (∃ e, decisionOn useCase region tenant item = .error e ∧
      (entryOf useCase region tenant item).success = false ∧
      evaluateItem useCase region tenant now progress item = fail item e progress) ∨
    (∃ decision, decisionOn useCase region tenant item = .ok decision ∧
      Countable decision.priority ∧
      entryOf useCase region tenant item =
        ⟨item.incidentId, true, decision.priority, some decision.riskBand, none⟩ ∧
      evaluateItem useCase region tenant now progress item = {
        store := storeAfter useCase decision now progress.store
        succeeded := progress.succeeded + 1
        failed := progress.failed
        priorityDistribution :=
          countKey (decision.priority.orElse (.str "Unknown")) progress.priorityDistribution
        riskBandDistribution := progress.riskBandDistribution.set decision.riskBand
          ((progress.riskBandDistribution.get? decision.riskBand).getD 0 + 1)
        results := progress.results ++ [entryOf useCase region tenant item] }) ∨
    ∃ decision e, decisionOn useCase region tenant item = .ok decision ∧
      ¬Countable decision.priority ∧ (entryOf useCase region tenant item).success = false ∧
      evaluateItem useCase region tenant now progress item = fail item e { progress with
        store := storeAfter useCase decision now progress.store
        succeeded := progress.succeeded + 1 } := by
  rw [evaluateItem_eq, entryOf_eq]
  cases decisionOn useCase region tenant item with
  | error e => exact Or.inl ⟨e, rfl, rfl, rfl⟩
  | ok decision =>
    by_cases hcountable : Countable decision.priority
    · obtain ⟨counted, hcounted⟩ := countPriority_ok_iff.mpr hcountable
      refine Or.inr (Or.inl ⟨decision, rfl, hcountable, ?_, ?_⟩)
      · simp only [hcounted]
      · have hcount : countPriority decision.priority progress.priorityDistribution =
            .ok (countKey (decision.priority.orElse (.str "Unknown"))
              progress.priorityDistribution) := if_pos hcountable
        simp only [record, hcount, hcounted]
    · obtain ⟨e, he⟩ := countPriority_error hcountable []
      obtain ⟨e', he'⟩ := countPriority_error hcountable progress.priorityDistribution
      refine Or.inr (Or.inr ⟨decision, e', rfl, hcountable, ?_, ?_⟩)
      · simp only [he]
      · simp only [record, he']

/-! ## A batch -/

/-- What some items add to the counters. -/
structure Tally (useCase : EvaluateIncidentUseCase) (region tenant : PyVal)
    (items : List IncidentEvaluateRequest) (progress progress' : Progress) : Prop where
  succeeded : progress'.succeeded = progress.succeeded +
    items.countP fun item => (decisionOn useCase region tenant item).isOk
  failed : progress'.failed = progress.failed +
    items.countP fun item => !(entryOf useCase region tenant item).success
  priorities : (progress'.priorityDistribution.map Prod.snd).sum =
    (progress.priorityDistribution.map Prod.snd).sum +
      items.countP fun item => (entryOf useCase region tenant item).success
  riskBands : progress'.riskBandDistribution.values.sum =
    progress.riskBandDistribution.values.sum +
      items.countP fun item => (entryOf useCase region tenant item).success

theorem tally_evaluateItem (progress : Progress) (item : IncidentEvaluateRequest) :
    Tally useCase region tenant [item] progress
      (evaluateItem useCase region tenant now progress item) := by
  rcases evaluateItem_cases progress item with ⟨e, hdecision, hentry, hitem⟩ |
    ⟨decision, hdecision, -, hentry, hitem⟩ | ⟨decision, e, hdecision, -, hentry, hitem⟩
  · rw [hitem]
    constructor <;> simp [fail, hdecision, hentry, Except.isOk, Except.toBool]
  · rw [hitem]
    constructor
    · simp [hdecision, Except.isOk, Except.toBool]
    · simp [hentry]
    · simp [sum_countKey, hentry]
    · simp [Dict.sum_values_set, hentry]
  · rw [hitem]
    constructor <;> simp [fail, hdecision, hentry, Except.isOk, Except.toBool]

theorem Tally.trans {items items' : List IncidentEvaluateRequest}
    {progress₁ progress₂ progress₃ : Progress}
    (h : Tally useCase region tenant items progress₁ progress₂)
    (h' : Tally useCase region tenant items' progress₂ progress₃) :
    Tally useCase region tenant (items ++ items') progress₁ progress₃ where
  succeeded := by rw [h'.succeeded, h.succeeded, List.countP_append, Nat.add_assoc]
  failed := by rw [h'.failed, h.failed, List.countP_append, Nat.add_assoc]
  priorities := by rw [h'.priorities, h.priorities, List.countP_append, Nat.add_assoc]
  riskBands := by rw [h'.riskBands, h.riskBands, List.countP_append, Nat.add_assoc]

theorem tally_foldl (items : List IncidentEvaluateRequest) (progress : Progress) :
    Tally useCase region tenant items progress
      (items.foldl (evaluateItem useCase region tenant now) progress) := by
  induction items generalizing progress with
  | nil => constructor <;> rfl
  | cons item rest ih => exact (tally_evaluateItem progress item).trans (ih _)

/-! ## The decisions stored -/

/-- A decision is one on its item. -/
theorem incidentId_decisionOn {item : IncidentEvaluateRequest} {decision : Decision}
    (h : decisionOn useCase region tenant item = .ok decision) :
    decision.incidentId = item.incidentId := by
  unfold decisionOn at h
  split at h
  · cases h
  · exact (EvaluateIncidentUseCase.incidentId_decide h).trans (useCase.incidentId_enrich _)

/-- What the evaluation of an item stores under an incident. -/
def storedUnder (useCase : EvaluateIncidentUseCase) (region tenant : PyVal) (now : Int)
    (incidentId : String) (item : IncidentEvaluateRequest) : Option DecisionRecord :=
  if useCase.persists && item.incidentId == incidentId then
    (decisionOn useCase region tenant item).toOption.map (stored · now)
  else none

theorem store_evaluateItem (progress : Progress) (item : IncidentEvaluateRequest) :
    (evaluateItem useCase region tenant now progress item).store =
      match decisionOn useCase region tenant item with
      | .error _ => progress.store
      | .ok decision => storeAfter useCase decision now progress.store := by
  rw [evaluateItem_eq]
  cases decisionOn useCase region tenant item with
  | error e => rfl
  | ok decision => exact store_record item decision _

theorem history_evaluateItem {progress : Progress} (h : StoreInv progress.store)
    (item : IncidentEvaluateRequest) (incidentId : String) :
    history incidentId (evaluateItem useCase region tenant now progress item).store =
      history incidentId progress.store ++
        (storedUnder useCase region tenant now incidentId item).toList := by
  rw [store_evaluateItem]
  unfold storedUnder
  cases hdecision : decisionOn useCase region tenant item with
  | error e => simp [Except.toOption]
  | ok decision =>
    simp only [storeAfter]
    cases useCase.persists with
    | false => simp
    | true =>
      have hid : (stored decision now).incidentId = item.incidentId :=
        incidentId_decisionOn hdecision
      simp only [if_true, Bool.true_and, beq_iff_eq]
      rw [history_save h, hid]
      by_cases heq : incidentId = item.incidentId
      · rw [if_pos heq, if_pos heq.symm]
        rfl
      · rw [if_neg heq, if_neg (Ne.symm heq)]
        exact (List.append_nil _).symm

theorem history_foldl (items : List IncidentEvaluateRequest) {progress : Progress}
    (h : StoreInv progress.store) (incidentId : String) :
    history incidentId (items.foldl (evaluateItem useCase region tenant now) progress).store =
      history incidentId progress.store ++
        items.filterMap (storedUnder useCase region tenant now incidentId) := by
  induction items generalizing progress with
  | nil => simp
  | cons item rest ih =>
    rw [List.foldl_cons, ih (evaluateItem_extends useCase region tenant now item h).1,
      history_evaluateItem h, List.append_assoc]
    congr 1
    cases hstored : storedUnder useCase region tenant now incidentId item <;>
      simp [hstored]

/-! ## The accounts -/

theorem success_iff {item : IncidentEvaluateRequest} :
    (entryOf useCase region tenant item).success = true ↔
      ∃ decision, decisionOn useCase region tenant item = .ok decision ∧
        Countable decision.priority := by
  rw [entryOf_eq]
  cases decisionOn useCase region tenant item with
  | error e => simp
  | ok decision =>
    by_cases hcountable : Countable decision.priority
    · obtain ⟨counted, hcounted⟩ := countPriority_ok_iff.mpr hcountable
      simp [hcounted, hcountable]
    · obtain ⟨e, he⟩ := countPriority_error hcountable []
      simp [he, hcountable]

/-- What the results of a batch say of it: an entry for each item in order, counters that count
    the entries, distributions of the successes, and a stored decision for each success. -/
structure Accounts (useCase : EvaluateIncidentUseCase) (items : List IncidentEvaluateRequest)
    (store : DecisionStore) (result : Result) : Prop where
  entries : result.results.map (·.incidentId) = items.map (·.incidentId)
  succeeded : result.succeeded = result.results.countP (·.success)
  failed : result.failed = result.results.countP (!·.success)
  total : result.succeeded + result.failed = result.total
  length : result.total = items.length
  priorities : (result.priorityDistribution.map Prod.snd).sum = result.succeeded
  riskBands : result.riskBandDistribution.values.sum = result.succeeded
  stored : useCase.persists = true → ∀ incidentId, ∃ new,
    history incidentId result.store = history incidentId store ++ new ∧
      new.map (fun decision => (decision.priority, some decision.riskBand)) =
        (result.results.filter fun entry => entry.success && entry.incidentId == incidentId).map
          fun entry => (entry.priority, entry.riskBand)
  dryRun : useCase.persists = false → result.store = store

theorem execute_ok_iff {bulk : BulkEvaluateUseCase} {items : List IncidentEvaluateRequest}
    {store : DecisionStore} {result : Result} (hlength : items.length ≤ bulk.maxItems) :
    bulk.execute items region tenant now store = .ok result ↔
      result = {
        items.foldl (evaluateItem bulk.useCase region tenant now) (start store) with
        total := items.length } := by
  unfold execute
  rw [if_neg (Nat.not_lt.mpr hlength), Except.ok.injEq]
  exact eq_comm

theorem results_start_foldl (items : List IncidentEvaluateRequest) (store : DecisionStore) :
    (items.foldl (evaluateItem useCase region tenant now) (start store)).results =
      items.map (entryOf useCase region tenant) :=
  (results_foldl useCase region tenant now items (start store)).trans (List.nil_append _)

theorem store_foldl_dryRun (h : useCase.persists = false) (items : List IncidentEvaluateRequest)
    (progress : Progress) :
    (items.foldl (evaluateItem useCase region tenant now) progress).store = progress.store := by
  induction items generalizing progress with
  | nil => rfl
  | cons item rest ih =>
    rw [List.foldl_cons, ih, store_evaluateItem]
    cases decisionOn useCase region tenant item with
    | error e => rfl
    | ok decision => simp [storeAfter, h]

/-- What is stored for an item is what its entry reports, when its decision counts. -/
theorem map_storedUnder (hpersists : useCase.persists = true) (incidentId : String)
    {item : IncidentEvaluateRequest}
    (hcountable : ∀ decision, decisionOn useCase region tenant item = .ok decision →
      Countable decision.priority) :
    (storedUnder useCase region tenant now incidentId item).map
        (fun decision => (decision.priority, some decision.riskBand)) =
      if (entryOf useCase region tenant item).success && item.incidentId == incidentId then
        some ((entryOf useCase region tenant item).priority,
          (entryOf useCase region tenant item).riskBand)
      else none := by
  unfold storedUnder
  rw [entryOf_eq, hpersists, Bool.true_and]
  cases hdecision : decisionOn useCase region tenant item with
  | error e =>
    cases item.incidentId == incidentId <;> rfl
  | ok decision =>
    obtain ⟨counted, hcounted⟩ := countPriority_ok_iff.mpr (hcountable decision hdecision)
    simp only [hcounted, Bool.true_and]
    cases item.incidentId == incidentId <;> rfl

/-- What is stored under an incident is what the successes report, when all decisions count. -/
theorem map_filterMap_storedUnder (hpersists : useCase.persists = true) (incidentId : String)
    {items : List IncidentEvaluateRequest}
    (hcountable : ∀ item ∈ items, ∀ decision, decisionOn useCase region tenant item = .ok decision →
      Countable decision.priority) :
    (items.filterMap (storedUnder useCase region tenant now incidentId)).map
        (fun decision => (decision.priority, some decision.riskBand)) =
      ((items.map (entryOf useCase region tenant)).filter
        fun entry => entry.success && entry.incidentId == incidentId).map
          fun entry => (entry.priority, entry.riskBand) := by
  rw [List.map_filterMap, List.filter_map, List.map_map, ← List.filterMap_eq_map,
    List.filterMap_filter]
  refine List.filterMap_congr fun item hitem => ?_
  rw [map_storedUnder hpersists incidentId (hcountable item hitem)]
  simp only [Function.comp, entryOf_incidentId]

/-- Every decision is counted when as many are reported as are made. -/
theorem countP_success_iff {items : List IncidentEvaluateRequest} :
    (items.countP fun item => (decisionOn useCase region tenant item).isOk) =
      items.countP (fun item => (entryOf useCase region tenant item).success) ↔
      ∀ item ∈ items, ∀ decision, decisionOn useCase region tenant item = .ok decision →
        Countable decision.priority := by
  have himp : ∀ item ∈ items, (entryOf useCase region tenant item).success = true →
      (decisionOn useCase region tenant item).isOk = true := by
    intro item _ hsuccess
    obtain ⟨decision, hdecision, -⟩ := success_iff.mp hsuccess
    exact Except.isOk_iff.mpr ⟨decision, hdecision⟩
  rw [PyList.countP_eq_countP_iff himp]
  refine forall_congr' fun item => forall_congr' fun _ => ?_
  rw [success_iff, Except.isOk_iff]
  constructor
  · intro h decision hdecision
    obtain ⟨decision', hdecision', hcountable⟩ := h ⟨decision, hdecision⟩
    rw [hdecision, Except.ok.injEq] at hdecision'
    rw [hdecision']
    exact hcountable
  · intro h h
    obtain ⟨decision, hdecision⟩ := h
    exact ⟨decision, hdecision, h decision hdecision⟩

/-- A batch whose decisions all count is accounted for. -/
theorem accounts_of_countable {items : List IncidentEvaluateRequest} {store : DecisionStore}
    (hstore : StoreInv store)
    (hcountable : ∀ item ∈ items, ∀ decision, decisionOn useCase region tenant item = .ok decision →
      Countable decision.priority) :
    Accounts useCase items store {
      items.foldl (evaluateItem useCase region tenant now) (start store) with
      total := items.length } := by
  have htally : Tally useCase region tenant items (start store)
      (items.foldl (evaluateItem useCase region tenant now) (start store)) :=
    tally_foldl items (start store)
  have hresults : (items.foldl (evaluateItem useCase region tenant now) (start store)).results =
      items.map (entryOf useCase region tenant) := results_start_foldl items store
  have hhistory : ∀ incidentId, history incidentId
      (items.foldl (evaluateItem useCase region tenant now) (start store)).store =
        history incidentId store ++
          items.filterMap (storedUnder useCase region tenant now incidentId) :=
    history_foldl items hstore
  have hdry : useCase.persists = false →
      (items.foldl (evaluateItem useCase region tenant now) (start store)).store = store :=
    fun h => store_foldl_dryRun h items (start store)
  -- the counters, the results and the store are read off these four facts
  generalize items.foldl (evaluateItem useCase region tenant now) (start store) = after at *
  have hsucceeded : after.succeeded = after.results.countP (·.success) := by
    rw [htally.succeeded, countP_success_iff.mpr hcountable, hresults, List.countP_map]
    exact Nat.zero_add _
  have hfailed : after.failed = after.results.countP (!·.success) := by
    rw [htally.failed, hresults, List.countP_map]
    exact Nat.zero_add _
  constructor
  · show after.results.map _ = _
    rw [hresults, List.map_map]
    exact List.map_congr_left fun item _ => entryOf_incidentId item
  · exact hsucceeded
  · exact hfailed
  · have hboth := List.length_eq_countP_add_countP (·.success) (l := after.results)
    rw [hresults, List.length_map, ← hresults] at hboth
    show after.succeeded + after.failed = items.length
    rw [hsucceeded, hfailed, hboth]
    simp
  · rfl
  · show (after.priorityDistribution.map Prod.snd).sum = after.succeeded
    rw [htally.priorities, htally.succeeded, countP_success_iff.mpr hcountable]
    rfl
  · show after.riskBandDistribution.values.sum = after.succeeded
    rw [htally.riskBands, htally.succeeded, countP_success_iff.mpr hcountable]
    rfl
  · intro hpersists incidentId
    refine ⟨_, hhistory incidentId, ?_⟩
    show _ = (after.results.filter _).map _
    rw [hresults]
    exact map_filterMap_storedUnder hpersists incidentId hcountable
  · exact hdry

/-- The decisions of a batch count when the active rules write no list or dictionary as the
    priority. -/
theorem countable_decisionOn
    (hrules : ∀ region tenant pack, useCase.ruleRepository.getActive region tenant = .ok pack →
      ∀ rule ∈ pack.rules, rule.isActive = true →
        ∀ v, rule.actions.get? "priority" = some v → Countable v)
    {item : IncidentEvaluateRequest} {decision : Decision}
    (h : decisionOn useCase region tenant item = .ok decision) : Countable decision.priority := by
  unfold decisionOn at h
  split at h
  · cases h
  · obtain ⟨pack, hpack, hrun⟩ := Except.bind_ok_iff.mp h
    exact countable_run (hrules _ _ pack hpack) hrun

/-- The accounts of a batch agree exactly when the priority of every decision it comes to can be
    counted, in a batch that stores and in a dry run. -/
theorem bulk_accounts_iff (bulk : BulkEvaluateUseCase) (items : List IncidentEvaluateRequest)
    (region tenant : PyVal) (now : Int) (store : DecisionStore) (hstore : StoreInv store)
    (hlength : items.length ≤ bulk.maxItems) :
    (∃ result, bulk.execute items region tenant now store = .ok result ∧
      Accounts bulk.useCase items store result) ↔
      ∀ item ∈ items, ∀ decision, decisionOn bulk.useCase region tenant item = .ok decision →
        Countable decision.priority := by
  constructor
  · intro h
    obtain ⟨result, hresult, haccounts⟩ := h
    have heq := haccounts.succeeded
    rw [(execute_ok_iff hlength).mp hresult] at heq
    simp only at heq
    rw [results_start_foldl, (tally_foldl items (start store)).succeeded, List.countP_map,
      show (start store).succeeded = 0 from rfl, Nat.zero_add] at heq
    exact countP_success_iff.mp heq
  · intro hcountable
    exact ⟨_, (execute_ok_iff hlength).mpr rfl, accounts_of_countable hstore hcountable⟩

/-- Two items and one rule, which writes a text as the priority. -/
theorem bulk_accounts_text :
    ∃ result, (wired (evaluateBy [readingRule "severity"]) true 2000).execute
        [severeRequest, regionalRequest] .none .none 0 InMemoryDecisionRepository.init = .ok result ∧
      Accounts (wired (evaluateBy [readingRule "severity"]) true 2000).useCase
        [severeRequest, regionalRequest] InMemoryDecisionRepository.init result := by
  refine (bulk_accounts_iff (wired (evaluateBy [readingRule "severity"]) true 2000)
    [severeRequest, regionalRequest] .none .none 0 _ storeInv_init (by decide)).mpr ?_
  intro item _ decision hdecision
  refine countable_decisionOn ?_ hdecision
  intro region tenant pack hpack rule hrule _ v hv
  cases hpack
  obtain rfl := List.mem_singleton.mp hrule
  cases hv
  rfl

/-- A rule that writes a list as the priority. -/
def listPriorityRule : Rule :=
  PipelineOrchestrator.fieldRule "R1" "priority" (.list [.str "High"])

/-- One item is counted as a success and as a failure, and its decision is stored. -/
theorem bulk_counts_twice :
    ¬∀ (production : EvaluateIncidentUseCase) (items : List IncidentEvaluateRequest)
      (result : Result), (wired production true 2000).execute items .none .none 0
        InMemoryDecisionRepository.init = .ok result →
      result.succeeded + result.failed = result.total := by
  intro h
  have hresult : ∃ result, (wired (evaluateBy [listPriorityRule]) true 2000).execute [severeRequest]
      .none .none 0 InMemoryDecisionRepository.init = .ok result ∧
        result.succeeded = 1 ∧ result.failed = 1 ∧ result.total = 1 := by
    refine ⟨_, rfl, ?_, ?_, rfl⟩
    · decide +kernel
    · decide +kernel
  obtain ⟨result, hresult, hsucceeded, hfailed, htotal⟩ := hresult
  have htwice := h (evaluateBy [listPriorityRule]) [severeRequest] result hresult
  omega

end BulkEvaluateUseCase

end PulseGuard
