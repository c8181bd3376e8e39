import PulseGuard.Native.ManageIncidents
import PulseGuard.Spec.DecisionHistory
import PulseGuard.Spec.ReadSet

/-!
# Fields that are null

A field of the payload that is `None` counts as one that is missing, for every rule that reads its
fields by name (`run_dropNone`). So the route that creates incidents in bulk decides as the one that
creates them one by one (`bulk_creates_singly`), though only the latter drops such fields.
-/

/-! ## Payloads -/

theorem Assoc.getD_get?_filter {entries : List (String × PyVal)}
    (hnodup : (entries.map Prod.fst).Nodup) (k : String) :
    (Assoc.get? k (entries.filter fun e => !e.2.isNone)).getD .none =
      (Assoc.get? k entries).getD .none := by
  induction entries with
  | nil => rfl
  | cons entry rest ih =>
    obtain ⟨k', x⟩ := entry
    rw [List.map_cons, List.nodup_cons] at hnodup
    have hrest := ih hnodup.2
    by_cases hx : x = .none
    · -- The entry goes, and no other one has its key.
      subst hx
      rw [List.filter_cons_of_neg (by simp [PyVal.isNone]), Assoc.get?_cons]
      by_cases hk : k' = k
      · subst hk
        rw [hrest, if_pos rfl, Assoc.get?_eq_none_iff.mpr hnodup.1]
        rfl
      · rw [hrest, if_neg hk]
    · have hkept : (!x.isNone) = true := by
        cases x with
        | none => exact absurd rfl hx
        | _ => rfl
      have hfilter : ((k', x) :: rest).filter (fun e => !e.2.isNone) =
          (k', x) :: rest.filter fun e => !e.2.isNone := List.filter_cons_of_pos hkept
      rw [hfilter, Assoc.get?_cons, Assoc.get?_cons]
      split
      · rfl
      · exact hrest

theorem Dict.getD_get?_dropNone (payload : Dict String PyVal) (k : String) :
    (payload.dropNone.get? k).getD .none = (payload.get? k).getD .none :=
  Assoc.getD_get?_filter payload.nodup k

@[simp] theorem Dict.dropNone_dropNone (payload : Dict String PyVal) :
    payload.dropNone.dropNone = payload.dropNone := by
  apply Dict.ext
  simp [Dict.dropNone, List.filter_filter]

namespace PulseGuard

/-- The incident without the fields that are `None`. -/
def Incident.dropNone (incident : Incident) : Incident :=
  { incident with payload := incident.payload.dropNone }

def IncidentRecord.dropNone (incident : IncidentRecord) : IncidentRecord :=
  { incident with payload := incident.payload.dropNone }

@[simp] theorem IncidentRecord.dropNone_dropNone (incident : IncidentRecord) :
    incident.dropNone.dropNone = incident.dropNone := by
  simp [IncidentRecord.dropNone]

/-! ## Decisions -/

/-- A run does not tell `None` from a missing field. -/
theorem run_dropNone (matrix : Option SlaMatrix) (incident : Incident) {pack : RulePack}
    {fields : List String} (hfields : pack.readFields = some fields) :
    PipelineOrchestrator.run matrix incident.dropNone pack =
      PipelineOrchestrator.run matrix incident pack := by
  have hverdicts : SameVerdicts pack.rules incident.dropNone.asEvaluationData
      incident.asEvaluationData := by
    refine sameVerdicts_of_readFields hfields fun f _ => ?_
    rw [Incident.lookupPart_asEvaluationData, Incident.lookupPart_asEvaluationData]
    split
    · rfl
    · exact Dict.getD_get?_dropNone incident.payload f
  exact run_congr_of_verdicts hverdicts
    (.inl (Dict.getD_get?_dropNone incident.payload "customerTier")) rfl rfl rfl rfl

namespace EvaluateIncidentUseCase

/-- The rules read fields by name, and the providers of context do not tell `None` from a missing
    field either. -/
structure ReadsByName (useCase : EvaluateIncidentUseCase) : Prop where
  packs : ∀ {region tenant pack}, useCase.ruleRepository.getActive region tenant = .ok pack →
    ∃ fields, pack.readFields = some fields
  providers : ∀ {providers}, useCase.contextProviders = some providers →
    ∀ provider ∈ providers, ∀ incident : IncidentRecord,
      provider.fetch incident.dropNone = provider.fetch incident

variable {useCase : EvaluateIncidentUseCase}

theorem enrich_dropNone (h : useCase.ReadsByName) (incident : IncidentRecord) :
    useCase.enrich incident.dropNone = (useCase.enrich incident).dropNone := by
  unfold enrich
  cases hproviders : useCase.contextProviders with
  | none => rfl
  | some providers =>
    have haggregate : ContextAggregationService.aggregate providers incident.dropNone =
        ContextAggregationService.aggregate providers incident := by
      unfold ContextAggregationService.aggregate
      apply List.foldl_ext
      intro context provider hprovider
      unfold ContextAggregationService.addSource
      rw [h.providers hproviders provider hprovider]
    simp only [haggregate]
    rfl

theorem decide_dropNone (h : useCase.ReadsByName) (incident : IncidentRecord)
    (region tenant : PyVal) :
    useCase.decide incident.dropNone region tenant = useCase.decide incident region tenant := by
  unfold decide
  cases hpack : useCase.ruleRepository.getActive region tenant with
  | error e => rfl
  | ok pack =>
    obtain ⟨fields, hfields⟩ := h.packs hpack
    exact run_dropNone useCase.slaMatrix incident.toIncident hfields

/-- An evaluation does the same, on an incident that stays without such fields. -/
theorem execute_dropNone (h : useCase.ReadsByName) (incident : IncidentRecord)
    (region tenant : PyVal) (now : Int) (store : DecisionStore) :
    useCase.execute incident.dropNone region tenant now store =
      ((useCase.execute incident region tenant now store).1,
        (useCase.execute incident region tenant now store).2.1.dropNone,
        (useCase.execute incident region tenant now store).2.2) := by
  unfold execute
  simp only [enrich_dropNone h, decide_dropNone h]
  cases useCase.decide (useCase.enrich incident) region tenant with
  | error e => rfl
  | ok decision => rfl

end EvaluateIncidentUseCase

/-! ## Creations -/

/-- What is stored, but for the fields that are `None`. -/
def IncidentApp.withoutNulls (app : IncidentApp) :
    (String → Option IncidentRecord) × DecisionStore :=
  (fun incidentId => (app.incidents.get? incidentId).map IncidentRecord.dropNone, app.decisions)

/-- An incident that was created, without the fields that are `None`, and its decision. -/
def withoutNulls (created : IncidentRecord × Option DecisionRecord) :
    IncidentRecord × Option DecisionRecord :=
  (created.1.dropNone, created.2)

/-- Reading an incident back tells two such states apart by those fields only. -/
theorem GetIncidentUseCase.execute_withoutNulls {app app' : IncidentApp}
    (h : app.withoutNulls = app'.withoutNulls) (incidentId : String) :
    IncidentRecord.dropNone <$> GetIncidentUseCase.execute incidentId app.incidents =
      IncidentRecord.dropNone <$> GetIncidentUseCase.execute incidentId app'.incidents := by
  have hstored : (app.incidents.get? incidentId).map IncidentRecord.dropNone =
      (app'.incidents.get? incidentId).map IncidentRecord.dropNone :=
    congrFun (congrArg Prod.fst h) incidentId
  unfold GetIncidentUseCase.execute
  cases hkept : app.incidents.get? incidentId with
  | none =>
    rw [hkept, Option.map_none] at hstored
    rw [Option.map_eq_none_iff.mp hstored.symm]
  | some incident =>
    rw [hkept, Option.map_some] at hstored
    obtain ⟨incident', hincident', hdropped⟩ := Option.map_eq_some_iff.mp hstored.symm
    rw [hincident']
    exact congrArg Except.ok hdropped.symm

/-- An incident is stored on both sides, on one of them without the fields that are `None`. -/
theorem withoutNulls_set {app app' : IncidentApp} (h : app.withoutNulls = app'.withoutNulls)
    (incidentId : String) (incident : IncidentRecord) (decisions : DecisionStore) :
    IncidentApp.withoutNulls { incidents := app.incidents.set incidentId incident, decisions } =
      IncidentApp.withoutNulls
        { incidents := app'.incidents.set incidentId incident.dropNone, decisions } := by
  have hincidents := congrFun (congrArg Prod.fst h)
  apply Prod.ext
  · funext other
    show Option.map _ ((app.incidents.set incidentId incident).get? other) =
      Option.map _ ((app'.incidents.set incidentId incident.dropNone).get? other)
    rw [Dict.get?_set, Dict.get?_set]
    split
    · simp
    · exact hincidents other
  · rfl

section

variable {useCase : EvaluateIncidentUseCase} {app app' : IncidentApp}

/-- A creation does the same without the fields that are `None`. -/
theorem create_dropNone (hnames : useCase.ReadsByName) (h : app.withoutNulls = app'.withoutNulls)
    (incidentId : String) (payload : Dict String PyVal) (region tenantId : PyVal)
    (context : Option (Dict String PyVal)) (evaluate : Bool) (now : Int) :
    let kept := CreateIncidentUseCase.execute useCase incidentId payload region tenantId context
      evaluate now app
    let dropped := CreateIncidentUseCase.execute useCase incidentId payload.dropNone region
      tenantId context evaluate now app'
    dropped.1 = withoutNulls <$> kept.1 ∧ kept.2.withoutNulls = dropped.2.withoutNulls := by
  have hdecisions : app.decisions = app'.decisions := congrArg Prod.snd h
  unfold CreateIncidentUseCase.execute
  simp only
  generalize hincident : IncidentRecord.mk (Incident.mk incidentId payload
    (context.getD Dict.empty) false 0 0) "received" region tenantId = incident
  generalize hincident' : IncidentRecord.mk (Incident.mk incidentId payload.dropNone
    (context.getD Dict.empty) false 0 0) "received" region tenantId = incident'
  have hdropped : incident' = incident.dropNone := by
    rw [← hincident, ← hincident']
    rfl
  subst hdropped
  cases evaluate with
  | false => exact ⟨rfl, hdecisions ▸ withoutNulls_set h incidentId incident app.decisions⟩
  | true =>
    simp only [EvaluateIncidentUseCase.execute_dropNone hnames, ← hdecisions]
    generalize useCase.execute incident region tenantId now app.decisions = result
    obtain ⟨decision, evaluated, decisions⟩ := result
    cases decision with
    | error e =>
      exact ⟨rfl, withoutNulls_set h incidentId { evaluated with status := "failed" } decisions⟩
    | ok decision =>
      exact ⟨rfl, withoutNulls_set h incidentId { evaluated with status := "evaluated" } decisions⟩

/-- One creation of a bulk does what the creation of its item alone does. -/
theorem createItem_dropNone (hnames : useCase.ReadsByName)
    (h : app.withoutNulls = app'.withoutNulls) (item : IncidentCreateRequest) (now : Int) :
    let kept := createItem useCase item.evaluate item now app
    let dropped := createIncident useCase item now app'
    dropped.1 = withoutNulls <$> kept.1 ∧ kept.2.withoutNulls = dropped.2.withoutNulls :=
  create_dropNone hnames h ..

/-- And so do any number of them, up to the first one that raises. -/
theorem createAll_dropNone (hnames : useCase.ReadsByName)
    {items : List (IncidentCreateRequest × Int)} {evaluate : Bool}
    (hflags : ∀ item ∈ items, item.1.evaluate = evaluate)
    (h : app.withoutNulls = app'.withoutNulls) :
    let bulk := createAll (createItem useCase evaluate) items app
    let singly := createAll (createIncident useCase) items app'
    singly.1 = List.map withoutNulls <$> bulk.1 ∧ bulk.2.withoutNulls = singly.2.withoutNulls := by
  -- By induction on the items, over what the earlier ones left.
  induction items generalizing app app' with
  | nil => exact ⟨rfl, h⟩
  | cons item rest ih =>
    obtain ⟨body, now⟩ := item
    obtain ⟨rfl, hrest⟩ := List.forall_mem_cons.mp hflags
    have hstep := createItem_dropNone hnames h body now
    revert hstep
    simp only [createAll]
    generalize createItem useCase body.evaluate body now app = kept
    generalize createIncident useCase body now app' = dropped
    intro hstep
    obtain ⟨created, after⟩ := kept
    obtain ⟨created', after'⟩ := dropped
    obtain ⟨hcreated, hafter⟩ := hstep
    simp only at hcreated hafter
    subst hcreated
    cases created with
    | error e => exact ⟨rfl, hafter⟩
    | ok created =>
      obtain ⟨hresults, happs⟩ := ih hrest hafter
      refine ⟨?_, happs⟩
      show (withoutNulls created :: ·) <$> (createAll (createIncident useCase) rest after').1 =
        List.map withoutNulls <$>
          ((created :: ·) <$> (createAll (createItem useCase body.evaluate) rest after).1)
      rw [hresults]
      cases (createAll (createItem useCase body.evaluate) rest after).1 <;> rfl

end

/-- A bulk creation does what the creations of its items do one after another, up to the first one
    that raises: the same decisions and exceptions, and the same incidents but for the fields that
    are `None`. -/
theorem bulk_creates_singly {useCase : EvaluateIncidentUseCase} (hnames : useCase.ReadsByName)
    {items : List (IncidentCreateRequest × Int)} {evaluate : Bool}
    (hflags : ∀ item ∈ items, item.1.evaluate = evaluate) (app : IncidentApp) :
    let bulk := BulkCreateIncidentsUseCase.execute useCase items evaluate app
    let singly := createAll (createIncident useCase) items app
    singly.1 = List.map withoutNulls <$> bulk.1 ∧ bulk.2.withoutNulls = singly.2.withoutNulls :=
  createAll_dropNone hnames hflags rfl

/-- An item with a field that is null. -/
def nullItem : IncidentCreateRequest where
  incidentId := "INC-1"
  region := none
  tenantId := none
  context := none
  evaluate := true
  fields := Dict.ofList [("severity", .str "high"), ("note", .none)]

theorem bulk_creates_singly_null :
    let bulk := BulkCreateIncidentsUseCase.execute (evaluateBy [quarterRule]) [(nullItem, 5)] true
      incidentStart
    let singly := createAll (createIncident (evaluateBy [quarterRule])) [(nullItem, 5)] incidentStart
    singly.1 = List.map withoutNulls <$> bulk.1 ∧ bulk.2.withoutNulls = singly.2.withoutNulls := by
  have hfields : RulePack.readFields { InMemoryRulePackRepository.blank with rules := [quarterRule] } =
      some ["severity"] := rfl
  have hnames : (evaluateBy [quarterRule]).ReadsByName := by
    refine ⟨fun hpack => ?_, fun hproviders => ?_⟩
    · cases hpack
      exact ⟨_, hfields⟩
    · cases hproviders
  refine bulk_creates_singly hnames ?_ incidentStart
  intro item hitem
  rw [List.mem_singleton.mp hitem]
  rfl

end PulseGuard
