import PulseGuard.Spec.EngineNodes
import PulseGuard.Spec.Lifecycle
import PulseGuard.Spec.SameVerdicts

/-!
# What a decision depends on

The lookups of a condition tree name the top-level fields it reads. An evaluation depends on
those fields alone (`evaluate_congr`), and so does a run of the pipeline on what the active
rules of its pack read (`run_congr_of_readFields`): two incidents that agree on it get the
same decision, or the same exception.
-/

namespace PulseGuard

namespace RuleEngine

/-! ## One tree -/

mutual

/-- The arguments of the lookups that the evaluation of a tree can make. -/
def lookups : PyVal → List PyVal
  | .dict [(operator, args)] => if operator = "var" then [args] else argLookups args
  | _ => []

def argLookups : PyVal → List PyVal
  | .list xs => itemLookups xs
  | _ => []

def itemLookups : List PyVal → List PyVal
  | [] => []
  | x :: xs => lookups x ++ itemLookups xs

end

/-- The top-level field that a lookup reads, unless it reads all the data. -/
def lookupField (args : PyVal) : Option String :=
  match pathOf? args with
  | none => none
  | some .none => none
  | some (.str "") => none
  | some path => (PyStr.splitOn '.' path.toStr).head?

/-- Only a lookup asks for the data itself. -/
theorem apply_congr {op : Operator} (hop : op ≠ .var) (args data data' : PyVal)
    (results : List Outcome) : apply op args data results = apply op args data' results := by
  cases op with
  | var => exact absurd rfl hop
  | _ => rfl

mutual

/-- The evaluation of a tree depends on what its lookups give. -/
theorem evaluate_congr {data data' : PyVal} : (tree : PyVal) →
    (∀ args ∈ lookups tree, evalVar args data = evalVar args data') →
    evaluate data tree = evaluate data' tree
  | .none, _ => rfl
  | .bool _, _ => rfl
  | .int _, _ => rfl
  | .float _, _ => rfl
  | .str _, _ => rfl
  | .list _, _ => rfl
  | .dict [], _ => rfl
  | .dict (_ :: _ :: _), _ => rfl
  | .dict [(operator, args)], h => by
    unfold evaluate
    cases hget : Operator.get operator with
    | error e => rfl
    | ok op =>
      have hsymbol := Operator.symbol_of_get hget
      show apply op args data _ = apply op args data' _
      unfold lookups at h
      -- Only a `var` looks at the data itself; the others see it through their arguments.
      by_cases hop : op = .var
      · subst hop
        have hvar : operator = "var" := hsymbol
        rw [if_pos hvar] at h
        exact h args List.mem_cons_self
      · have hne : operator ≠ "var" := fun heq =>
          hop (Operator.symbol_injective (hsymbol.symm.trans heq))
        rw [if_neg hne] at h
        rw [evaluateArgs_congr args h]
        exact apply_congr hop args data data' _

theorem evaluateArgs_congr {data data' : PyVal} : (args : PyVal) →
    (∀ p ∈ argLookups args, evalVar p data = evalVar p data') →
    evaluateArgs data args = evaluateArgs data' args
  | .none, _ => rfl
  | .bool _, _ => rfl
  | .int _, _ => rfl
  | .float _, _ => rfl
  | .str _, _ => rfl
  | .dict _, _ => rfl
  | .list xs, h => evaluateItems_congr xs h

theorem evaluateItems_congr {data data' : PyVal} : (xs : List PyVal) →
    (∀ p ∈ itemLookups xs, evalVar p data = evalVar p data') →
    evaluateItems data xs = evaluateItems data' xs
  | [], _ => rfl
  | x :: xs, h => by
    unfold itemLookups at h
    have hx := evaluate_congr x fun p hp => h p (List.mem_append_left _ hp)
    have hxs := evaluateItems_congr xs fun p hp => h p (List.mem_append_right _ hp)
    rw [evaluateItems, evaluateItems, hx, hxs]

end

/-- A path leads on from `None` as from nothing. -/
theorem getD_foldl_lookupPart {current current' : Option PyVal}
    (h : current.getD .none = current'.getD .none) (parts : List String) :
    (parts.foldl lookupPart current).getD .none = (parts.foldl lookupPart current').getD .none := by
  cases parts with
  | nil => exact h
  | cons part rest =>
    have hstep : lookupPart current part = lookupPart current' part := by
      cases current with
      | none =>
        cases current' with
        | none => rfl
        | some value =>
          have hvalue : PyVal.none = value := h
          rw [← hvalue]
          rfl
      | some value =>
        cases current' with
        | none =>
          have hvalue : value = PyVal.none := h
          rw [hvalue]
          rfl
        | some value' =>
          have hvalue : value = value' := h
          rw [hvalue]
    rw [List.foldl_cons, List.foldl_cons, hstep]

/-- A lookup gives the same on data that agree on the field it reads. -/
theorem evalVar_congr {args data data' : PyVal} {field : String} (h : lookupField args = some field)
    (hdata : (lookupPart (some data) field).getD .none =
      (lookupPart (some data') field).getD .none) :
    evalVar args data = evalVar args data' := by
  rw [evalVar_eq, evalVar_eq]
  unfold lookupField at h
  cases hpath : pathOf? args with
  | none => rfl
  | some path =>
    rw [hpath] at h
    have hsame : (lookup? data path).getD .none = (lookup? data' path).getD .none := by
      unfold lookup?
      split at h
      · cases h
      · cases h
      · cases h
      · next hnone hempty heq =>
        cases heq
        split
        · exact absurd rfl hnone
        · exact absurd rfl hempty
        · -- The first part of the path is the field; the rest goes on from its value.
          obtain ⟨rest, hsplit⟩ := List.head?_eq_some_iff.mp h
          rw [hsplit, List.foldl_cons, List.foldl_cons]
          exact getD_foldl_lookupPart hdata rest
    simp only [hsame]

end RuleEngine

/-! ## Rules and packs -/

theorem RuleCondition.isSatisfiedBy_congr {condition : RuleCondition} {data data' : PyVal}
    (h : ∀ args ∈ RuleEngine.lookups condition.tree,
      RuleEngine.evalVar args data = RuleEngine.evalVar args data') :
    condition.isSatisfiedBy data = condition.isSatisfiedBy data' := by
  unfold isSatisfiedBy
  rw [RuleEngine.evaluate_congr condition.tree h]

/-- The lookups of a rule. The exceptions of a compliance rule are never evaluated. -/
def Rule.lookups (rule : Rule) : List PyVal :=
  RuleEngine.lookups rule.conditions.tree ++
    match rule.exceptions with
    | some exceptions =>
      if rule.family == PolicyEngine.complianceFamily then [] else RuleEngine.lookups exceptions.tree
    | none => []

/-- The top-level fields that the active rules of a pack read, unless one reads all the data. -/
def RulePack.readFields (pack : RulePack) : Option (List String) :=
  ((pack.rules.filter Rule.isActive).flatMap Rule.lookups).mapM RuleEngine.lookupField

theorem PolicyEngine.judge_congr {rule : Rule} {data data' : PyVal}
    (h : ∀ args ∈ rule.lookups, RuleEngine.evalVar args data = RuleEngine.evalVar args data') :
    judge data rule = judge data' rule := by
  have hconditions : rule.conditions.isSatisfiedBy data = rule.conditions.isSatisfiedBy data' :=
    RuleCondition.isSatisfiedBy_congr fun args hargs => h args (List.mem_append_left _ hargs)
  unfold judge
  by_cases hfamily : (rule.family == complianceFamily) = true
  · simp only [hfamily, if_true]
  · rw [if_neg hfamily, if_neg hfamily, hconditions]
    cases hexceptions : rule.exceptions with
    | none => rfl
    | some exceptions =>
      have hsame : exceptions.isSatisfiedBy data = exceptions.isSatisfiedBy data' := by
        refine RuleCondition.isSatisfiedBy_congr fun args hargs => h args ?_
        simp only [Rule.lookups, hexceptions, hfamily]
        exact List.mem_append_right _ hargs
      simp only [hsame]

theorem exists_of_mapM {α β : Type} {f : α → Option β} {xs : List α} {ys : List β}
    (h : xs.mapM f = some ys) : ∀ x ∈ xs, ∃ y ∈ ys, f x = some y := by
  induction xs generalizing ys with
  | nil => simp
  | cons x xs ih =>
    rw [List.mapM_cons] at h
    obtain ⟨y, hy, h⟩ := Option.bind_eq_some_iff.mp h
    obtain ⟨ys', hys, h⟩ := Option.bind_eq_some_iff.mp h
    cases h
    intro x' hx'
    cases List.mem_cons.mp hx' with
    | inl heq => exact ⟨y, List.mem_cons_self, heq ▸ hy⟩
    | inr hmem =>
      obtain ⟨y', hy', hf⟩ := ih hys x' hmem
      exact ⟨y', List.mem_cons_of_mem y hy', hf⟩

/-- The rules of a pack judge alike two data that agree on the fields they read. -/
theorem sameVerdicts_of_readFields {pack : RulePack} {fields : List String}
    (hfields : pack.readFields = some fields) {data data' : PyVal}
    (hdata : ∀ f ∈ fields, (RuleEngine.lookupPart (some data) f).getD .none =
      (RuleEngine.lookupPart (some data') f).getD .none) : SameVerdicts pack.rules data data' := by
  have hlookups : ∀ args ∈ (pack.rules.filter Rule.isActive).flatMap Rule.lookups,
      RuleEngine.evalVar args data = RuleEngine.evalVar args data' := by
    intro args hargs
    obtain ⟨f, hf, hread⟩ := exists_of_mapM hfields args hargs
    exact RuleEngine.evalVar_congr hread (hdata f hf)
  intro rule hrule hactive
  have hreads : ∀ args ∈ rule.lookups,
      RuleEngine.evalVar args data = RuleEngine.evalVar args data' := fun args hargs =>
    hlookups args (List.mem_flatMap.mpr ⟨rule, List.mem_filter.mpr ⟨hrule, hactive⟩, hargs⟩)
  refine ⟨PolicyEngine.judge_congr hreads, fun _ => ?_⟩
  exact RuleCondition.isSatisfiedBy_congr fun args hargs =>
    hreads args (List.mem_append_left _ hargs)

/-! ## Runs -/

theorem PolicyEngine.evaluateRules_congr {data data' : PyVal} {rules : List Rule}
    (h : ∀ rule ∈ rules, judge data rule = judge data' rule) :
    evaluateRules data rules = evaluateRules data' rules := by
  induction rules with
  | nil => rfl
  | cons rule rest ih =>
    obtain ⟨hrule, hrest⟩ := List.forall_mem_cons.mp h
    simp only [evaluateRules, hrule, ih hrest]

namespace Incident

/-- A top-level field of the evaluation data. -/
theorem lookupPart_asEvaluationData (incident : Incident) (f : String) :
    RuleEngine.lookupPart (some incident.asEvaluationData) f =
      if "context" = f then some (.dict incident.enrichedContext.entries)
      else incident.payload.get? f := by
  show (incident.payload.set "context" _).get? f = _
  rw [Dict.get?_set]

end Incident

/-- A run looks at the verdicts of the rules, at the tier of the customer and at the sources of the
    context. -/
theorem run_congr_of_verdicts {matrix : Option SlaMatrix} {incident incident' : Incident}
    {pack : RulePack}
    (hverdicts : SameVerdicts pack.rules incident.asEvaluationData incident'.asEvaluationData)
    (htier : (incident.payload.get? "customerTier").getD .none =
      (incident'.payload.get? "customerTier").getD .none ∨ matrix = none)
    (hincidentId : incident.incidentId = incident'.incidentId)
    (hdegraded : incident.degradedContext = incident'.degradedContext)
    (htotalSources : PipelineOrchestrator.totalSources incident =
      PipelineOrchestrator.totalSources incident')
    (hdegradedSources : PipelineOrchestrator.degradedSources incident =
      PipelineOrchestrator.degradedSources incident') :
    PipelineOrchestrator.run matrix incident pack =
      PipelineOrchestrator.run matrix incident' pack := by
  have hevaluate : PolicyEngine.evaluate pack incident = PolicyEngine.evaluate pack incident' := by
    refine PolicyEngine.evaluateRules_congr fun rule hrule => ?_
    obtain ⟨hmem, hactive⟩ := RulePack.mem_activeRules.mp hrule
    exact (hverdicts rule hmem hactive).1
  have hcompliance (actions : Dict String PyVal) :
      ComplianceApplier.apply pack incident actions =
        ComplianceApplier.apply pack incident' actions := by
    refine ComplianceApplier.applyRules_congr (fun rule hrule => ?_) actions []
    obtain ⟨hmem, hactive, hfamily⟩ := RulePack.mem_activeRules_family.mp hrule
    exact (hverdicts rule hmem hactive).2 hfamily
  have hfill (actions : Dict String PyVal) :
      PipelineOrchestrator.fillSla matrix incident actions =
        PipelineOrchestrator.fillSla matrix incident' actions := by
    cases htier with
    | inl hsame => simp only [PipelineOrchestrator.fillSla, hsame]
    | inr hnone =>
      rw [hnone]
      rfl
  unfold PipelineOrchestrator.run
  simp only [hevaluate, hcompliance, hfill, htotalSources, hdegradedSources, hincidentId, hdegraded]

/-- Two incidents agree on the fields that the rules of a pack read, and on what else a run looks
    at. -/
structure AgreeOn (fields : List String) (matrix : Option SlaMatrix) (incident incident' : Incident) :
    Prop where
  incidentId : incident.incidentId = incident'.incidentId
  payload : ∀ f ∈ fields, f ≠ "context" → incident.payload.get? f = incident'.payload.get? f
  enrichedContext : "context" ∈ fields →
    incident.enrichedContext.entries = incident'.enrichedContext.entries
  customerTier : matrix ≠ none →
    incident.payload.get? "customerTier" = incident'.payload.get? "customerTier"
  degradedContext : incident.degradedContext = incident'.degradedContext
  totalSources : PipelineOrchestrator.totalSources incident =
    PipelineOrchestrator.totalSources incident'
  degradedSources : PipelineOrchestrator.degradedSources incident =
    PipelineOrchestrator.degradedSources incident'

/-- **What a decision depends on.** Two incidents that agree on the fields which the active rules
    of a pack read get the same decision, or the same exception. -/
theorem run_congr_of_readFields {matrix : Option SlaMatrix} {incident incident' : Incident}
    {pack : RulePack} {fields : List String} (hfields : pack.readFields = some fields)
    (h : AgreeOn fields matrix incident incident') :
    PipelineOrchestrator.run matrix incident pack =
      PipelineOrchestrator.run matrix incident' pack := by
  -- Every condition has the same outcome on both incidents, and nothing else reads the payload
  -- but the tier of the customer.
  have hverdicts : SameVerdicts pack.rules incident.asEvaluationData
      incident'.asEvaluationData := by
    refine sameVerdicts_of_readFields hfields fun f hf => ?_
    rw [Incident.lookupPart_asEvaluationData, Incident.lookupPart_asEvaluationData]
    by_cases hcontext : "context" = f
    · subst hcontext
      rw [if_pos rfl, if_pos rfl, h.enrichedContext hf]
    · rw [if_neg hcontext, if_neg hcontext, h.payload f hf (Ne.symm hcontext)]
  have htier : (incident.payload.get? "customerTier").getD .none =
      (incident'.payload.get? "customerTier").getD .none ∨ matrix = none := by
    cases matrix with
    | none => exact .inr rfl
    | some m => exact .inl (by rw [h.customerTier (by simp)])
  exact run_congr_of_verdicts hverdicts htier h.incidentId h.degradedContext h.totalSources
    h.degradedSources

/-- A pack whose only rule reads the severity. -/
def severityPack : RulePack :=
  { InMemoryRulePackRepository.blank with rules := [plainRule "R1"] }

/-- An incident with a note. -/
def notedIncident (note : String) : Incident where
  incidentId := "INC-1"
  payload := Dict.ofList [("severity", .str "critical"), ("note", .str note)]
  enrichedContext := Dict.ofList [("note", .str note)]
  degradedContext := false
  contextSourcesTotal := 0
  contextSourcesDegraded := 0

theorem run_congr_of_readFields_note :
    PipelineOrchestrator.run none (notedIncident "seen") severityPack =
      PipelineOrchestrator.run none (notedIncident "not seen") severityPack := by
  have hfields : severityPack.readFields = some ["severity"] := rfl
  refine run_congr_of_readFields hfields ⟨rfl, ?_, ?_, fun h => absurd rfl h, rfl, rfl, rfl⟩
  · intro f hf _
    rw [List.mem_singleton.mp hf]
    rfl
  · simp

/-- A field that no active rule reads can have any value. -/
theorem run_set_unread {matrix : Option SlaMatrix} (incident : Incident) {pack : RulePack}
    {fields : List String} (hfields : pack.readFields = some fields) {field : String}
    (hunread : field ∉ fields) (htier : matrix ≠ none → field ≠ "customerTier") (v : PyVal) :
    PipelineOrchestrator.run matrix { incident with payload := incident.payload.set field v } pack =
      PipelineOrchestrator.run matrix incident pack := by
  refine run_congr_of_readFields hfields ⟨rfl, ?_, fun _ => rfl, ?_, rfl, rfl, rfl⟩
  · intro f hf _
    exact Dict.get?_set_of_ne _ v fun heq => hunread (heq ▸ hf)
  · intro hmatrix
    exact Dict.get?_set_of_ne _ v (htier hmatrix)

end PulseGuard
