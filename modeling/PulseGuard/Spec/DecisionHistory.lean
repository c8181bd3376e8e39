import PulseGuard.Native.BulkEvaluate
import PulseGuard.Spec.ExportImport
import PulseGuard.Spec.SweepOnce

/-!
# Decision history is append-only

What the calls that evaluate, sweep, replay and read do to the stored decisions. An evaluation
adds a decision at the end of its incident's history, a replay and a read change nothing. The
repository hands out the stored objects, and a sweep changes the decisions it raises in place;
so the histories only grow at their ends exactly when no sweep comes to a stored open decision
that is due (`append_only_iff`).
-/

namespace PulseGuard

open InMemoryDecisionRepository SlaBreachSweep

variable {σ ρ : Type}

/-- The calls that evaluate incidents, and those that are handed stored decisions. A sweep is
    over the stored open decisions. -/
inductive HistoryCall (σ ρ : Type) where
  | evaluate (useCase : EvaluateIncidentUseCase) (incident : IncidentRecord)
      (region tenant : PyVal) (now : Int)
  | createIncident (useCase : EvaluateIncidentUseCase) (incidentId : String)
      (payload : Dict String PyVal) (region tenantId : PyVal)
      (enrichedContext : Option (Dict String PyVal)) (evaluates : Bool) (now : Int)
  | bulkEvaluate (bulk : BulkEvaluateUseCase) (items : List IncidentEvaluateRequest)
      (region tenant : PyVal) (now : Int)
  | sweep (job : SlaBreachSweep) (now : Int)
  | replay (useCase : ReplaySimulationUseCase σ ρ) (incidentId : String)
      (reference : PackReference) (region tenant : PyVal) (packs : σ)
  | get (incidentId : String)
  | listByIncident (incidentId : String)
  | all
  | listAll (limit offset : Nat)

/-- What such a call returns. -/
inductive HistoryResult where
  | decision (result : Except PyError DecisionRecord)
  | incident (result : Except PyError (IncidentRecord × Option DecisionRecord))
  | bulk (result : Except PyError BulkEvaluateUseCase.Result)
  | bumped (result : Except PyError (List String))
  | replayed (result : Except PyError ReplayResult)
  | refs (decisions : List DecisionRef)

/-- The stored decisions that are not resolved. -/
def openDecisions (store : DecisionStore) : List DecisionRef :=
  (all store).filter fun ref => !(store.objects ref).resolved

namespace HistoryCall

/-- What a call returns, and the state it leaves. -/
def exec : HistoryCall σ ρ → IncidentApp → HistoryResult × IncidentApp
  | evaluate useCase incident region tenant now, app =>
    let (decision, _, decisions) := useCase.execute incident region tenant now app.decisions
    (.decision decision, { app with decisions })
  | createIncident useCase incidentId payload region tenantId enrichedContext evaluates now, app =>
    let (result, app) := CreateIncidentUseCase.execute useCase incidentId payload region tenantId
      enrichedContext evaluates now app
    (.incident result, app)
  | bulkEvaluate bulk items region tenant now, app =>
    match bulk.execute items region tenant now app.decisions with
    | .error e => (.bulk (.error e), app)
    | .ok result => (.bulk (.ok result), { app with decisions := result.store })
  | sweep job now, app =>
    let (bumped, objects) := job.run now (openDecisions app.decisions) app.decisions.objects
    (.bumped bumped, { app with decisions := { app.decisions with objects } })
  | replay useCase incidentId reference region tenant packs, app =>
    (.replayed (useCase.execute incidentId reference region tenant app packs), app)
  | get incidentId, app =>
    (.refs (InMemoryDecisionRepository.get incidentId app.decisions).toList, app)
  | listByIncident incidentId, app =>
    (.refs (InMemoryDecisionRepository.listByIncident incidentId app.decisions), app)
  | all, app => (.refs (InMemoryDecisionRepository.all app.decisions), app)
  | listAll limit offset, app =>
    (.refs (InMemoryDecisionRepository.listAll limit offset app.decisions), app)

/-- The state after a list of calls. -/
def run (calls : List (HistoryCall σ ρ)) (app : IncidentApp) : IncidentApp :=
  calls.foldl (fun app call => (call.exec app).2) app

theorem run_append (calls more : List (HistoryCall σ ρ)) (app : IncidentApp) :
    run (calls ++ more) app = run more (run calls app) :=
  List.foldl_append ..

end HistoryCall

/-- Empty repositories. -/
def incidentStart : IncidentApp where
  incidents := Dict.empty
  decisions := InMemoryDecisionRepository.init

/-- The decisions stored for an incident, as they stand. -/
def history (incidentId : String) (store : DecisionStore) : List DecisionRecord :=
  (listByIncident incidentId store).map store.objects

/-! ## The store -/

/-- Every decision object is under one incident, once, and was constructed. -/
structure StoreInv (store : DecisionStore) : Prop where
  constructed : ∀ incidentId, ∀ ref ∈ refs incidentId store, ref < store.nextRef
  once : ∀ incidentId, (refs incidentId store).Nodup
  apart : ∀ incidentId incidentId' ref, ref ∈ refs incidentId store →
    ref ∈ refs incidentId' store → incidentId = incidentId'

/-- The histories of one store are those of the other, with more at their ends. -/
def Extends (store store' : DecisionStore) : Prop :=
  ∀ incidentId, history incidentId store <+: history incidentId store'

theorem Extends.refl (store : DecisionStore) : Extends store store :=
  fun _ => List.prefix_refl _

theorem Extends.trans {store₁ store₂ store₃ : DecisionStore} (h : Extends store₁ store₂)
    (h' : Extends store₂ store₃) : Extends store₁ store₃ :=
  fun incidentId => (h incidentId).trans (h' incidentId)

theorem storeInv_init : StoreInv InMemoryDecisionRepository.init where
  constructed := by
    intro incidentId ref href
    cases href
  once := fun _ => List.nodup_nil
  apart := by
    intro incidentId incidentId' ref href
    cases href

/-- A decision is among all the decisions when it is under some incident. -/
theorem mem_all_iff {store : DecisionStore} {ref : DecisionRef} :
    ref ∈ all store ↔ ∃ incidentId, ref ∈ refs incidentId store := by
  unfold all
  rw [List.mem_flatten]
  constructor
  · intro h
    obtain ⟨history, hmem, href⟩ := h
    obtain ⟨incidentId, hget⟩ := (Dict.mem_values_iff _).mp hmem
    refine ⟨incidentId, ?_⟩
    rw [refs, hget]
    exact href
  · intro h
    obtain ⟨incidentId, href⟩ := h
    unfold refs at href
    cases hget : store.byIncident.get? incidentId with
    | none =>
      rw [hget] at href
      cases href
    | some history =>
      rw [hget] at href
      exact ⟨history, (Dict.mem_values_iff _).mpr ⟨incidentId, hget⟩, href⟩

theorem StoreInv.nodup_all {store : DecisionStore} (h : StoreInv store) : (all store).Nodup := by
  have hrefs : ∀ entry ∈ store.byIncident.entries, refs entry.1 store = entry.2 := by
    rintro ⟨incidentId, history⟩ hmem
    rw [refs, (Dict.get?_eq_some_iff _).mpr hmem]
    rfl
  unfold all
  rw [List.nodup_flatten]
  constructor
  · intro history hmem
    obtain ⟨entry, hentry, rfl⟩ := List.mem_map.mp hmem
    rw [← hrefs entry hentry]
    exact h.once entry.1
  · have hkeys := List.pairwise_map.mp store.byIncident.nodup
    refine List.pairwise_map.mpr (hkeys.imp_of_mem ?_)
    intro a b ha hb hne ref hrefa hrefb
    rw [← hrefs a ha] at hrefa
    rw [← hrefs b hb] at hrefb
    exact hne (h.apart a.1 b.1 ref hrefa hrefb)

theorem refs_save (decision : DecisionRecord) (store : DecisionStore) (incidentId : String) :
    refs incidentId (save decision store) =
      if incidentId = decision.incidentId then refs incidentId store ++ [store.nextRef]
      else refs incidentId store := by
  unfold refs save
  simp only
  by_cases hid : incidentId = decision.incidentId
  · subst hid
    rw [if_pos rfl, Dict.get?_set_self]
    rfl
  · rw [if_neg hid, Dict.get?_set_of_ne _ _ (Ne.symm hid)]

/-- A saved decision comes in under a new reference. -/
theorem mem_refs_save {decision : DecisionRecord} {store : DecisionStore} {incidentId : String}
    {ref : DecisionRef} (h : ref ∈ refs incidentId (save decision store)) :
    ref ∈ refs incidentId store ∨ ref = store.nextRef ∧ incidentId = decision.incidentId := by
  rw [refs_save] at h
  split at h
  · rename_i hid
    rcases List.mem_append.mp h with hold | hnew
    · exact Or.inl hold
    · exact Or.inr ⟨List.mem_singleton.mp hnew, hid⟩
  · exact Or.inl h

theorem StoreInv.nextRef_not_mem {store : DecisionStore} (h : StoreInv store)
    (incidentId : String) : store.nextRef ∉ refs incidentId store := by
  intro href
  exact Nat.lt_irrefl _ (h.constructed incidentId _ href)

/-- A save adds a decision at the end of its incident's history. -/
theorem history_save {store : DecisionStore} (h : StoreInv store) (decision : DecisionRecord)
    (incidentId : String) : history incidentId (save decision store) =
      if incidentId = decision.incidentId then history incidentId store ++ [decision]
      else history incidentId store := by
  have hobjects : ∀ ref ∈ refs incidentId store,
      (save decision store).objects ref = store.objects ref := by
    intro ref href
    have hne : ref ≠ store.nextRef := by
      rintro rfl
      exact h.nextRef_not_mem incidentId href
    exact Function.update_of_ne hne ..
  have hmap : (refs incidentId store).map (save decision store).objects =
      history incidentId store := List.map_congr_left hobjects
  show (refs incidentId (save decision store)).map (save decision store).objects = _
  rw [refs_save]
  split
  · rw [List.map_append, hmap, List.map_singleton]
    congr 2
    exact Function.update_self ..
  · exact hmap

/-- A save keeps the invariant, and adds to the history of one incident. -/
theorem save_extends {store : DecisionStore} (h : StoreInv store) (decision : DecisionRecord) :
    StoreInv (save decision store) ∧ Extends store (save decision store) := by
  refine ⟨⟨?_, ?_, ?_⟩, ?_⟩
  · intro incidentId ref href
    show ref < store.nextRef + 1
    rcases mem_refs_save href with hold | ⟨rfl, -⟩
    · exact Nat.lt_succ_of_lt (h.constructed incidentId ref hold)
    · exact Nat.lt_succ_self _
  · intro incidentId
    rw [refs_save]
    split
    · rw [List.nodup_append]
      refine ⟨h.once incidentId, List.nodup_singleton _, ?_⟩
      rintro a ha b hb rfl
      rw [List.mem_singleton.mp hb] at ha
      exact h.nextRef_not_mem incidentId ha
    · exact h.once incidentId
  · intro incidentId incidentId' ref href href'
    rcases mem_refs_save href with hold | ⟨rfl, rfl⟩
    · rcases mem_refs_save href' with hold' | ⟨rfl, -⟩
      · exact h.apart incidentId incidentId' ref hold hold'
      · exact absurd hold (h.nextRef_not_mem incidentId)
    · rcases mem_refs_save href' with hold' | ⟨-, rfl⟩
      · exact absurd hold' (h.nextRef_not_mem incidentId')
      · rfl
  · intro incidentId
    rw [history_save h]
    split
    · exact List.prefix_append _ _
    · exact List.prefix_refl _

/-! ## The calls -/

/-- An evaluation adds at most one decision to one history. -/
theorem execute_extends (useCase : EvaluateIncidentUseCase) (incident : IncidentRecord)
    (region tenant : PyVal) (now : Int) {store : DecisionStore} (h : StoreInv store) :
    StoreInv (useCase.execute incident region tenant now store).2.2 ∧
      Extends store (useCase.execute incident region tenant now store).2.2 := by
  unfold EvaluateIncidentUseCase.execute
  simp only
  split
  · exact ⟨h, .refl store⟩
  · simp only
    split
    · exact save_extends h _
    · exact ⟨h, .refl store⟩

/-- What is recorded of an item does not touch the decisions. -/
theorem store_record (item : IncidentEvaluateRequest) (decision : Decision)
    (progress : BulkEvaluateUseCase.Progress) :
    (BulkEvaluateUseCase.record item decision progress).store = progress.store := by
  unfold BulkEvaluateUseCase.record
  simp only
  split
  · rfl
  · rfl

theorem evaluateItem_extends (useCase : EvaluateIncidentUseCase) (region tenant : PyVal)
    (now : Int) (item : IncidentEvaluateRequest) {progress : BulkEvaluateUseCase.Progress}
    (h : StoreInv progress.store) :
    StoreInv (BulkEvaluateUseCase.evaluateItem useCase region tenant now progress item).store ∧
      Extends progress.store
        (BulkEvaluateUseCase.evaluateItem useCase region tenant now progress item).store := by
  unfold BulkEvaluateUseCase.evaluateItem
  simp only
  split
  · exact ⟨h, .refl _⟩
  · split
    · exact execute_extends useCase _ _ _ now h
    · rw [store_record]
      exact execute_extends useCase _ _ _ now h

/-- A bulk evaluation adds to the ends of histories. -/
theorem evaluateItems_extends (useCase : EvaluateIncidentUseCase) (region tenant : PyVal)
    (now : Int) (items : List IncidentEvaluateRequest) {progress : BulkEvaluateUseCase.Progress}
    (h : StoreInv progress.store) :
    let after := items.foldl (BulkEvaluateUseCase.evaluateItem useCase region tenant now) progress
    StoreInv after.store ∧ Extends progress.store after.store := by
  induction items generalizing progress with
  | nil => exact ⟨h, .refl _⟩
  | cons item rest ih =>
    obtain ⟨hInv, hextends⟩ := evaluateItem_extends useCase region tenant now item h
    obtain ⟨hInv', hextends'⟩ := ih hInv
    exact ⟨hInv', hextends.trans hextends'⟩

/-- The sweep comes to a stored open decision that is due. -/
def SweepsDue (sweep : SlaBreachSweep) (now : Int) (store : DecisionStore) : Prop :=
  ∃ ref level, ReachesDue sweep now (openDecisions store) store.objects ref level

theorem StoreInv.nodup_openDecisions {store : DecisionStore} (h : StoreInv store) :
    (openDecisions store).Nodup :=
  h.nodup_all.filter _

/-- A sweep that comes to no decision that is due changes nothing. -/
theorem sweep_of_not_due {sweep : SlaBreachSweep} {now : Int} {store : DecisionStore}
    (h : StoreInv store) (hdue : ¬SweepsDue sweep now store) :
    (sweep.run now (openDecisions store) store.objects).2 = store.objects := by
  funext ref
  rcases run_apply sweep now h.nodup_openDecisions store.objects ref with
    ⟨level, hreaches, -⟩ | ⟨-, hsame⟩
  · exact absurd ⟨ref, level, hreaches⟩ hdue
  · exact hsame

/-- No sweep among the calls comes to a stored open decision that is due. -/
def NothingDue (calls : List (HistoryCall σ ρ)) (app : IncidentApp) : Prop :=
  ∀ before sweep now after, calls = before ++ .sweep sweep now :: after →
    ¬SweepsDue sweep now (HistoryCall.run before app).decisions

/-- One call that sweeps nothing due: the histories grow at their ends. -/
theorem exec_extends {call : HistoryCall σ ρ} {app : IncidentApp} (h : StoreInv app.decisions)
    (hquiet : ∀ sweep now, call = .sweep sweep now → ¬SweepsDue sweep now app.decisions) :
    StoreInv (call.exec app).2.decisions ∧ Extends app.decisions (call.exec app).2.decisions := by
  have hstay : StoreInv app.decisions ∧ Extends app.decisions app.decisions := ⟨h, .refl _⟩
  cases call with
  | evaluate useCase incident region tenant now =>
    exact execute_extends useCase incident region tenant now h
  | createIncident useCase incidentId payload region tenantId enrichedContext evaluates now =>
    rw [HistoryCall.exec, CreateIncidentUseCase.execute]
    simp only
    split
    · exact hstay
    · split
      · exact execute_extends useCase _ _ _ now h
      · exact execute_extends useCase _ _ _ now h
  | bulkEvaluate bulk items region tenant now =>
    rw [HistoryCall.exec, BulkEvaluateUseCase.execute]
    split
    · exact hstay
    · rename_i result hresult
      split at hresult
      · cases hresult
      · cases hresult
        exact evaluateItems_extends bulk.useCase region tenant now items h
  | sweep sweep now =>
    have hsame := sweep_of_not_due h (hquiet sweep now rfl)
    simp only [HistoryCall.exec, hsame]
    exact hstay
  | replay | get | listByIncident | all | listAll => exact hstay

/-- What a sweep leaves of the store: other objects under the same references. -/
theorem storeInv_exec {call : HistoryCall σ ρ} {app : IncidentApp} (h : StoreInv app.decisions) :
    StoreInv (call.exec app).2.decisions := by
  cases call with
  | sweep sweep now => exact ⟨h.constructed, h.once, h.apart⟩
  | _ => exact (exec_extends h (by intro sweep now heq; cases heq)).1

theorem storeInv_run (calls : List (HistoryCall σ ρ)) (app : IncidentApp)
    (h : StoreInv app.decisions) : StoreInv (HistoryCall.run calls app).decisions := by
  induction calls generalizing app with
  | nil => exact h
  | cons call calls ih => exact ih (call.exec app).2 (storeInv_exec h)

/-- Calls that sweep nothing due: the histories grow at their ends. -/
theorem run_extends {calls : List (HistoryCall σ ρ)} {app : IncidentApp}
    (h : StoreInv app.decisions) (hquiet : NothingDue calls app) :
    Extends app.decisions (HistoryCall.run calls app).decisions := by
  induction calls generalizing app with
  | nil => exact .refl _
  | cons call calls ih =>
    have hcall : ∀ sweep now, call = .sweep sweep now → ¬SweepsDue sweep now app.decisions := by
      rintro sweep now rfl
      exact hquiet [] sweep now calls rfl
    have hrest : NothingDue calls (call.exec app).2 := by
      rintro before sweep now after rfl
      exact hquiet (call :: before) sweep now after rfl
    obtain ⟨hInv, hextends⟩ := exec_extends h hcall
    exact hextends.trans (ih hInv hrest)

/-- At every point of the calls, the histories are what they were, with more at their ends. -/
def AppendOnly (calls : List (HistoryCall σ ρ)) (app : IncidentApp) : Prop :=
  ∀ before after, calls = before ++ after →
    Extends (HistoryCall.run before app).decisions (HistoryCall.run calls app).decisions

/-- A sweep that comes to a decision that is due changes the history of its incident. -/
theorem not_extends_of_sweepsDue {sweep : SlaBreachSweep} {now : Int} {app : IncidentApp}
    (h : StoreInv app.decisions) (hdue : SweepsDue sweep now app.decisions)
    {later : DecisionStore} (hbefore : Extends app.decisions later) :
    ¬Extends ((HistoryCall.sweep sweep now : HistoryCall σ ρ).exec app).2.decisions later := by
  intro hafter
  obtain ⟨ref, level, hreaches⟩ := hdue
  obtain ⟨incidentId, href⟩ := mem_all_iff.mp (List.mem_of_mem_filter hreaches.1.mem)
  -- the two histories are as long, so they are the same start of the later one
  have hlength : (history incidentId app.decisions).length =
      (history incidentId
        ((HistoryCall.sweep sweep now : HistoryCall σ ρ).exec app).2.decisions).length := by
    simp [history, listByIncident, refs, HistoryCall.exec]
  have heq := (List.prefix_of_prefix_length_le (hbefore incidentId) (hafter incidentId)
    (le_of_eq hlength)).eq_of_length hlength
  have hsame : app.decisions.objects ref =
      (sweep.run now (openDecisions app.decisions) app.decisions.objects).2 ref :=
    List.map_inj_left.mp heq ref href
  rcases run_apply sweep now h.nodup_openDecisions app.decisions.objects ref with
    ⟨level', hreaches', hraised⟩ | ⟨hno, -⟩
  · rw [hraised] at hsame
    exact hreaches'.2.priority_ne (congrArg (fun d : DecisionRecord => d.priority) hsame).symm
  · exact hno level hreaches

/-- Decision history is append-only: in every sequence of evaluations, sweeps over the stored
    open decisions, replays and reads, every stored decision stays as it was saved and the
    histories only grow at their ends, if and only if no sweep comes to a stored open decision
    that is due. -/
theorem append_only_iff (calls : List (HistoryCall σ ρ)) :
    AppendOnly calls incidentStart ↔ NothingDue calls incidentStart := by
  constructor
  · rintro h before sweep now after rfl hdue
    have hInv := storeInv_run before incidentStart storeInv_init
    have hsweep := h (before ++ [.sweep sweep now]) after (by simp)
    rw [HistoryCall.run_append before [.sweep sweep now]] at hsweep
    exact not_extends_of_sweepsDue hInv hdue (h before (.sweep sweep now :: after) rfl) hsweep
  · rintro h before after rfl
    rw [HistoryCall.run_append]
    refine run_extends (storeInv_run before incidentStart storeInv_init) ?_
    rintro middle sweep now last rfl
    rw [← HistoryCall.run_append]
    exact h (before ++ middle) sweep now last (by simp)

/-! ## Examples -/

/-- The use case that evaluates by one list of rules, without context, and stores. -/
def evaluateBy (rules : List Rule) : EvaluateIncidentUseCase where
  ruleRepository := ⟨fun _ _ => .ok { InMemoryRulePackRepository.blank with rules }⟩
  slaMatrix := none
  contextProviders := none
  persists := true

/-- A rule that wants an answer in fifteen minutes. -/
def quarterRule : Rule :=
  { plainRule "R1" with
    actions := (Dict.empty.set "priority" (.str "Medium")).set "targetSLA" (.str "15 minutes") }

/-- The evaluation of one incident. -/
def evaluateSevere : HistoryCall Unit Unit :=
  .evaluate (evaluateBy [quarterRule]) { severeIncident with
    status := "received", region := .none, tenantId := .none } .none .none 0

/-- A decision is stored, and a sweep an hour later raises it. -/
theorem sweep_changes_history :
    ¬∀ calls : List (HistoryCall Unit Unit), AppendOnly calls incidentStart := by
  intro h
  have hextends := h [evaluateSevere, .sweep defaultSweep hour] [evaluateSevere]
    [.sweep defaultSweep hour] rfl "INC-1"
  have hlevels := hextends.map fun decision => severityIndex decision.priority
  have hbefore : (history "INC-1" (HistoryCall.run [evaluateSevere] incidentStart).decisions).map
      (fun decision => severityIndex decision.priority) = [some 1] := by decide +kernel
  have hafter : (history "INC-1"
      (HistoryCall.run [evaluateSevere, .sweep defaultSweep hour] incidentStart).decisions).map
      (fun decision => severityIndex decision.priority) = [some 2] := by decide +kernel
  rw [hbefore, hafter] at hlevels
  revert hlevels
  decide

end PulseGuard
