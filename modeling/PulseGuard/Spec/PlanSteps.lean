import PulseGuard.Spec.AddOnPacks

/-!
# The steps of an execution plan

A plan is the steps of the sequencing hints, two for each matched rule that has one, and then the
base steps, one for each base field that is true and that no hint names (`build_ok_iff`). The
orders count the steps, the base steps keep their precedence, and no base step repeats the type of
another step. Nothing keeps two hints from inserting one type: `plan_wellFormed_iff` says when a
plan has each type once, and `plan_carries_out` what a plan promises of a field that is true.
-/

namespace PulseGuard

/-- `v == s` of a value and a string. -/
theorem PyVal.beq_str_iff {v : PyVal} {s : String} : v.beq (.str s) = true ↔ v = .str s := by
  cases v with
  | str t => simp [PyVal.beq]
  | _ => simp [PyVal.beq, PyVal.num?]

namespace ExecutionPlanBuilder

/-! ## The hints -/

/-- The retry and fallback hint of a rule, when it has one. -/
def hint? (rule : Rule) : Option (Dict String PyVal) := rule.sequencing.filter (!·.isEmpty)

/-- The step that a hint tries first. -/
def tryFirst (hint : Dict String PyVal) : PyVal := (hint.get? "tryFirst").getD .none

/-- The step that a hint falls back to. -/
def fallbackTo (hint : Dict String PyVal) : PyVal := (hint.get? "fallbackTo").getD .none

/-- When the fallback is due. -/
def fallbackCondition (hint : Dict String PyVal) : String :=
  "if " ++ (tryFirst hint).toStr ++ " fails within " ++
    ((hint.get? "fallbackAfterMinutes").getD (.str "?")).toStr ++ " minutes"

/-- The hint names both of its steps, by values that a set can hold. -/
def Usable (hint : Dict String PyVal) : Prop :=
  ∀ key ∈ ["tryFirst", "fallbackTo"], ∃ v, hint.get? key = some v ∧ v.hashable = true

/-- The types of the steps that the hints insert, in order. -/
def hintTypes (matched : List Rule) : List PyVal :=
  matched.flatMap fun rule =>
    match hint? rule with
    | none => []
    | some hint => [tryFirst hint, fallbackTo hint]

/-- The two steps of a hint. -/
def hintSteps (order : Nat) (ruleCode : String) (hint : Dict String PyVal) : List PlanStep :=
  [⟨order, tryFirst hint, tryFirst hint, none, some ruleCode⟩,
    ⟨order + 1, fallbackTo hint, fallbackTo hint, some (fallbackCondition hint), some ruleCode⟩]

/-- The steps of the hints of some rules. -/
def hintedPlan (order : Nat) : List Rule → List PlanStep
  | [] => []
  | rule :: rest =>
    match hint? rule with
    | none => hintedPlan order rest
    | some hint => hintSteps order rule.ruleCode hint ++ hintedPlan (order + 2) rest

theorem addType_ok_iff {types types' : List PyVal} {v : PyVal} :
    addType types v = .ok types' ↔ v.hashable = true ∧ types' = types ++ [v] := by
  unfold addType
  split
  · rename_i h
    simp [h, eq_comm]
  · rename_i h
    simp [h]

theorem required_ok_iff {hint : Dict String PyVal} {key : String} {v : PyVal} :
    required hint key = .ok v ↔ hint.get? key = some v := by
  unfold required
  cases hint.get? key <;> simp

/-- One hint goes through when it is usable, and gives its two steps. -/
theorem sequencedSteps_ok_iff {order : Nat} {rule : Rule} {hint : Dict String PyVal}
    {result : List PlanStep × List PyVal} :
    sequencedSteps order rule hint = .ok result ↔
      Usable hint ∧
        result = (hintSteps order rule.ruleCode hint, [tryFirst hint, fallbackTo hint]) := by
  unfold sequencedSteps
  constructor
  · -- both lookups find a value, and the set takes both
    intro h
    obtain ⟨first, hfirst, h⟩ := Except.bind_ok_iff.mp h
    obtain ⟨fallback, hfallback, h⟩ := Except.bind_ok_iff.mp h
    obtain ⟨types, htypes, h⟩ := Except.bind_ok_iff.mp h
    obtain ⟨types', htypes', h⟩ := Except.bind_ok_iff.mp h
    rw [required_ok_iff] at hfirst hfallback
    obtain ⟨hhash, rfl⟩ := addType_ok_iff.mp htypes
    obtain ⟨hhash', rfl⟩ := addType_ok_iff.mp htypes'
    have hfirst' : tryFirst hint = first := by rw [tryFirst, hfirst, Option.getD_some]
    have hfallback' : fallbackTo hint = fallback := by rw [fallbackTo, hfallback, Option.getD_some]
    constructor
    · intro key hkey
      cases List.mem_pair.mp hkey with
      | inl hkey => exact ⟨first, hkey ▸ hfirst, hhash⟩
      | inr hkey => exact ⟨fallback, hkey ▸ hfallback, hhash'⟩
    · rw [← Except.pure_ok_iff.mp h, hintSteps, fallbackCondition, hfirst', hfallback']
      rfl
  · intro h
    obtain ⟨husable, rfl⟩ := h
    obtain ⟨first, hfirst, hhash⟩ := husable "tryFirst" (by simp)
    obtain ⟨fallback, hfallback, hhash'⟩ := husable "fallbackTo" (by simp)
    have hfirst' : tryFirst hint = first := by rw [tryFirst, hfirst, Option.getD_some]
    have hfallback' : fallbackTo hint = fallback := by rw [fallbackTo, hfallback, Option.getD_some]
    apply Except.bind_ok_iff.mpr
    refine ⟨first, required_ok_iff.mpr hfirst, ?_⟩
    apply Except.bind_ok_iff.mpr
    refine ⟨fallback, required_ok_iff.mpr hfallback, ?_⟩
    apply Except.bind_ok_iff.mpr
    refine ⟨[first], addType_ok_iff.mpr ⟨hhash, rfl⟩, ?_⟩
    apply Except.bind_ok_iff.mpr
    refine ⟨[first, fallback], addType_ok_iff.mpr ⟨hhash', rfl⟩, ?_⟩
    rw [hintSteps, fallbackCondition, hfirst', hfallback']
    rfl

/-- The loop over the hints goes through when they are all usable, and appends their steps. -/
theorem sequencedPlan_appends_iff {plan : List PlanStep} {types : List PyVal} {rules : List Rule}
    {result : List PlanStep × List PyVal} :
    sequencedPlan plan types rules = .ok result ↔
      (∀ rule ∈ rules, ∀ hint, hint? rule = some hint → Usable hint) ∧
        result = (plan ++ hintedPlan (plan.length + 1) rules, types ++ hintTypes rules) := by
  induction rules generalizing plan types with
  | nil => simp [sequencedPlan, hintedPlan, hintTypes, eq_comm]
  | cons rule rest ih =>
    rw [List.forall_mem_cons, sequencedPlan, hintedPlan, hintTypes, List.flatMap_cons, ← hintTypes]
    unfold hint?
    cases hhint : rule.sequencing.filter (!·.isEmpty) with
    | none =>
      have hrest := @ih plan types
      unfold hint? at hrest
      simp only [hrest, List.nil_append]
      simp
    | some hint =>
      have hrest := @ih (plan ++ hintSteps (plan.length + 1) rule.ruleCode hint)
        (types ++ [tryFirst hint, fallbackTo hint])
      unfold hint? at hrest
      -- the next hint counts on from the two steps of this one
      have hlength : (plan ++ hintSteps (plan.length + 1) rule.ruleCode hint).length =
          plan.length + 2 := by
        simp [hintSteps]
      rw [hlength] at hrest
      simp only [Except.bind_ok_iff, sequencedSteps_ok_iff]
      constructor
      · intro h
        obtain ⟨_, ⟨husable, rfl⟩, h⟩ := h
        obtain ⟨hall, rfl⟩ := hrest.mp h
        refine ⟨⟨?_, hall⟩, ?_⟩
        · intro hint' heq
          cases heq
          exact husable
        · simp [List.append_assoc, Nat.add_right_comm]
      · intro h
        obtain ⟨⟨husable, hall⟩, rfl⟩ := h
        refine ⟨_, ⟨husable hint rfl, rfl⟩, ?_⟩
        apply hrest.mpr
        refine ⟨hall, ?_⟩
        simp [List.append_assoc, Nat.add_right_comm]

/-! ## The base steps -/

/-- The base steps of some fields. -/
def baseSteps (order : Nat) : List (String × String) → List PlanStep
  | [] => []
  | (field, label) :: rest => ⟨order, .str label, .str field, none, none⟩ :: baseSteps (order + 1) rest

/-- The field is true, and no hint names it. -/
def wanted (actions : Dict String PyVal) (types : List PyVal) (entry : String × String) : Bool :=
  ((actions.get? entry.1).getD .none).truthy && !types.any fun t => t.beq (.str entry.1)

theorem foldl_addBase (actions : Dict String PyVal) (types : List PyVal)
    (entries : List (String × String)) (plan : List PlanStep) :
    entries.foldl (addBase actions types) plan =
      plan ++ baseSteps (plan.length + 1) (entries.filter (wanted actions types)) := by
  induction entries generalizing plan with
  | nil => simp [baseSteps]
  | cons entry rest ih =>
    obtain ⟨field, label⟩ := entry
    rw [List.foldl_cons, ih, List.filter_cons]
    unfold addBase
    by_cases hwanted : wanted actions types (field, label) = true
    · have hcond : (((actions.get? field).getD .none).truthy &&
          !types.any fun t => t.beq (.str field)) = true := hwanted
      simp only [hcond, hwanted, if_true, baseSteps]
      simp
    · have hcond : ¬(((actions.get? field).getD .none).truthy &&
          !types.any fun t => t.beq (.str field)) = true := hwanted
      simp only [hcond, hwanted]
      simp

/-- A plan is built when the hints are usable: the steps of the hints, then the base steps of the
    fields that are true and that no hint names. -/
theorem build_ok_iff {actions : Dict String PyVal} {matched : List Rule} {plan : List PlanStep} :
    build actions matched = .ok plan ↔
      (∀ rule ∈ matched, ∀ hint, hint? rule = some hint → Usable hint) ∧
        plan = hintedPlan 1 matched ++
          baseSteps ((hintedPlan 1 matched).length + 1)
            (basePrecedence.filter (wanted actions (hintTypes matched))) := by
  unfold build
  simp only [Except.bind_ok_iff, sequencedPlan_appends_iff, Except.pure_ok_iff]
  constructor
  · intro h
    obtain ⟨_, ⟨husable, rfl⟩, rfl⟩ := h
    refine ⟨husable, ?_⟩
    rw [foldl_addBase]
    simp
  · intro h
    obtain ⟨husable, rfl⟩ := h
    refine ⟨_, ⟨husable, rfl⟩, ?_⟩
    rw [foldl_addBase]
    simp

/-! ## What every plan has -/

theorem map_order_hintedPlan (order : Nat) (rules : List Rule) :
    (hintedPlan order rules).map PlanStep.order =
      List.range' order (hintedPlan order rules).length := by
  induction rules generalizing order with
  | nil => rfl
  | cons rule rest ih =>
    rw [hintedPlan]
    cases hint? rule with
    | none => exact ih order
    | some hint =>
      simp only [List.map_append, List.length_append, ih]
      simp [hintSteps, Nat.add_comm 2, List.range'_succ]

theorem map_type_hintedPlan (order : Nat) (rules : List Rule) :
    (hintedPlan order rules).map PlanStep.type = hintTypes rules := by
  induction rules generalizing order with
  | nil => rfl
  | cons rule rest ih =>
    rw [hintedPlan, hintTypes, List.flatMap_cons, ← hintTypes]
    cases hint? rule with
    | none => exact ih order
    | some hint =>
      simp only [List.map_append, ih]
      simp [hintSteps]

theorem mem_hintTypes {matched : List Rule} {t : PyVal} :
    t ∈ hintTypes matched ↔ ∃ rule ∈ matched, ∃ hint, hint? rule = some hint ∧
      (t = tryFirst hint ∨ t = fallbackTo hint) := by
  unfold hintTypes
  rw [List.mem_flatMap]
  constructor
  · intro h
    obtain ⟨rule, hrule, ht⟩ := h
    cases hhint : hint? rule with
    | none => rw [hhint] at ht; cases ht
    | some hint =>
      rw [hhint] at ht
      exact ⟨rule, hrule, hint, hhint, List.mem_pair.mp ht⟩
  · intro h
    obtain ⟨rule, hrule, hint, hhint, ht⟩ := h
    refine ⟨rule, hrule, ?_⟩
    rw [hhint]
    exact List.mem_pair.mpr ht

/-- Each step comes from a hint. -/
theorem exists_hint_of_mem {order : Nat} {rules : List Rule} {step : PlanStep}
    (h : step ∈ hintedPlan order rules) : ∃ rule ∈ rules, ∃ hint, hint? rule = some hint ∧
      ∃ n, step ∈ hintSteps n rule.ruleCode hint := by
  induction rules generalizing order with
  | nil => cases h
  | cons rule rest ih =>
    rw [hintedPlan] at h
    cases hhint : hint? rule with
    | none =>
      rw [hhint] at h
      obtain ⟨r, hr, hrest⟩ := ih h
      exact ⟨r, List.mem_cons_of_mem _ hr, hrest⟩
    | some hint =>
      rw [hhint] at h
      cases List.mem_append.mp h with
      | inl hown => exact ⟨rule, List.mem_cons_self, hint, hhint, order, hown⟩
      | inr hrest =>
        obtain ⟨r, hr, hrest⟩ := ih hrest
        exact ⟨r, List.mem_cons_of_mem _ hr, hrest⟩

/-- Each hint gives its two steps. -/
theorem hintSteps_subset {order : Nat} {rules : List Rule} {rule : Rule} {hint : Dict String PyVal}
    (hrule : rule ∈ rules) (hhint : hint? rule = some hint) :
    ∃ n, hintSteps n rule.ruleCode hint ⊆ hintedPlan order rules := by
  induction rules generalizing order with
  | nil => cases hrule
  | cons r rest ih =>
    rw [hintedPlan]
    cases List.mem_cons.mp hrule with
    | inl hhead =>
      rw [← hhead, hhint]
      exact ⟨order, List.subset_append_left _ _⟩
    | inr hrest =>
      cases hint? r with
      | none => exact ih hrest
      | some hint' =>
        obtain ⟨n, hn⟩ := @ih (order + 2) hrest
        exact ⟨n, List.Subset.trans hn (List.subset_append_right _ _)⟩

theorem map_order_baseSteps (order : Nat) (entries : List (String × String)) :
    (baseSteps order entries).map PlanStep.order =
      List.range' order (baseSteps order entries).length := by
  induction entries generalizing order with
  | nil => rfl
  | cons entry rest ih => simp [baseSteps, ih, List.range'_succ]

theorem map_type_baseSteps (order : Nat) (entries : List (String × String)) :
    (baseSteps order entries).map PlanStep.type = entries.map fun e => .str e.1 := by
  induction entries generalizing order with
  | nil => rfl
  | cons entry rest ih => simp [baseSteps, ih]

theorem base_baseSteps (order : Nat) (entries : List (String × String)) :
    ∀ step ∈ baseSteps order entries, step.source = none ∧ step.condition = none := by
  induction entries generalizing order with
  | nil => simp [baseSteps]
  | cons entry rest ih =>
    intro step hstep
    cases List.mem_cons.mp hstep with
    | inl hhead => rw [hhead]; exact ⟨rfl, rfl⟩
    | inr hrest => exact ih (order + 1) step hrest

/-- What is asked of a plan: its orders count the steps, it has each type once, it has a step for
    each base field that is true, and the steps without a hint keep the base precedence. -/
structure WellFormedPlan (actions : Dict String PyVal) (plan : List PlanStep) : Prop where
  orders : plan.map PlanStep.order = List.range' 1 plan.length
  once : (plan.map PlanStep.type).Pairwise fun t t' => t.beq t' = false
  covers : ∀ f ∈ basePrecedence.map Prod.fst, ((actions.get? f).getD .none).truthy = true →
    ∃ step ∈ plan, step.type = .str f
  precedence : ((plan.filter fun step => step.source.isNone).map PlanStep.type).Sublist
    (basePrecedence.map fun e => .str e.1)

theorem orders_of_build {actions : Dict String PyVal} {matched : List Rule} {plan : List PlanStep}
    (h : build actions matched = .ok plan) :
    plan.map PlanStep.order = List.range' 1 plan.length := by
  obtain ⟨-, rfl⟩ := build_ok_iff.mp h
  rw [List.map_append, map_order_hintedPlan, map_order_baseSteps, List.length_append,
    Nat.add_comm _ 1, ← List.range'_append_1]

theorem map_type_of_build {actions : Dict String PyVal} {matched : List Rule}
    {plan : List PlanStep} (h : build actions matched = .ok plan) :
    plan.map PlanStep.type = hintTypes matched ++
      (basePrecedence.filter (wanted actions (hintTypes matched))).map fun e => .str e.1 := by
  obtain ⟨-, rfl⟩ := build_ok_iff.mp h
  rw [List.map_append, map_type_hintedPlan, map_type_baseSteps]

theorem mem_type_of_build {actions : Dict String PyVal} {matched : List Rule}
    {plan : List PlanStep} (h : build actions matched = .ok plan) {t : PyVal} :
    (∃ step ∈ plan, step.type = t) ↔ t ∈ hintTypes matched ∨
      ∃ e ∈ basePrecedence, wanted actions (hintTypes matched) e = true ∧ t = .str e.1 := by
  rw [← List.mem_map, map_type_of_build h, List.mem_append, List.mem_map]
  simp only [List.mem_filter, and_assoc, eq_comm]

/-- A base field that is true has a step, of a hint or of its own. -/
theorem covers_of_build {actions : Dict String PyVal} {matched : List Rule} {plan : List PlanStep}
    (h : build actions matched = .ok plan) {f : String} (hbase : f ∈ basePrecedence.map Prod.fst)
    (htrue : ((actions.get? f).getD .none).truthy = true) : ∃ step ∈ plan, step.type = .str f := by
  apply (mem_type_of_build h).mpr
  obtain ⟨e, he, rfl⟩ := List.mem_map.mp hbase
  by_cases hnamed : PyVal.str e.1 ∈ hintTypes matched
  · exact Or.inl hnamed
  · right
    refine ⟨e, he, ?_, rfl⟩
    have hfree : (hintTypes matched).any (fun t => t.beq (.str e.1)) = false := by
      rw [List.any_eq_false]
      intro t ht hbeq
      rw [PyVal.beq_str_iff.mp hbeq] at ht
      exact hnamed ht
    rw [wanted, htrue, hfree]
    rfl

theorem precedence_of_build {actions : Dict String PyVal} {matched : List Rule}
    {plan : List PlanStep} (h : build actions matched = .ok plan) :
    ((plan.filter fun step => step.source.isNone).map PlanStep.type).Sublist
      (basePrecedence.map fun e => .str e.1) := by
  obtain ⟨-, rfl⟩ := build_ok_iff.mp h
  have hhinted : (hintedPlan 1 matched).filter (fun step => step.source.isNone) = [] := by
    rw [List.filter_eq_nil_iff]
    intro step hstep
    obtain ⟨rule, -, hint, -, n, hown⟩ := exists_hint_of_mem hstep
    cases List.mem_pair.mp hown with
    | inl hfirst => simp [hfirst]
    | inr hfallback => simp [hfallback]
  have hbase : ∀ order entries,
      (baseSteps order entries).filter (fun step => step.source.isNone) = baseSteps order entries := by
    intro order entries
    rw [List.filter_eq_self]
    intro step hstep
    rw [(base_baseSteps order entries step hstep).1]
    rfl
  rw [List.filter_append, hhinted, hbase, List.nil_append, map_type_baseSteps]
  exact List.filter_sublist.map _

/-- No two steps of a plan have one type exactly when no two hints do. -/
theorem once_iff_of_build {actions : Dict String PyVal} {matched : List Rule}
    {plan : List PlanStep} (h : build actions matched = .ok plan) :
    (plan.map PlanStep.type).Pairwise (fun t t' => t.beq t' = false) ↔
      (hintTypes matched).Pairwise fun t t' => t.beq t' = false := by
  rw [map_type_of_build h, List.pairwise_append]
  constructor
  · intro hall
    exact hall.1
  · intro hhints
    refine ⟨hhints, ?_, ?_⟩
    · -- the base fields have names of their own
      rw [List.pairwise_map]
      have hbase : basePrecedence.Pairwise fun e e' => (PyVal.str e.1).beq (.str e'.1) = false := by
        decide
      exact hbase.sublist List.filter_sublist
    · -- a base step is there for a field that no hint names
      intro t ht t' ht'
      obtain ⟨e, he, rfl⟩ := List.mem_map.mp ht'
      have hfree := (List.mem_filter.mp he).2
      rw [wanted, Bool.and_eq_true, Bool.not_eq_true', List.any_eq_false] at hfree
      simpa using hfree.2 t ht

/-- With usable hints a plan is built, and it is well formed exactly when the hints name each type
    once. -/
theorem plan_wellFormed_iff (actions : Dict String PyVal) (matched : List Rule)
    (husable : ∀ rule ∈ matched, ∀ hint, hint? rule = some hint → Usable hint) :
    ∃ plan, build actions matched = .ok plan ∧
      (WellFormedPlan actions plan ↔
        (hintTypes matched).Pairwise fun t t' => t.beq t' = false) := by
  have hbuild := (@build_ok_iff actions matched _).mpr ⟨husable, rfl⟩
  refine ⟨_, hbuild, ?_⟩
  rw [← once_iff_of_build hbuild]
  constructor
  · intro hplan
    exact hplan.once
  · intro honce
    exact ⟨orders_of_build hbuild, honce, fun f hbase htrue => covers_of_build hbuild hbase htrue,
      precedence_of_build hbuild⟩

/-! ## What a plan promises of a field -/

/-- The hints name the field as a step to fall back to, and none tries it first. -/
def FallbackOnly (f : String) (matched : List Rule) : Prop :=
  (∃ rule ∈ matched, ∃ hint, hint? rule = some hint ∧ fallbackTo hint = .str f) ∧
    ∀ rule ∈ matched, ∀ hint, hint? rule = some hint → tryFirst hint ≠ .str f

/-- A field that is true has a step that waits for no other, unless the hints only fall back to
    it. -/
theorem unconditional_iff {actions : Dict String PyVal} {matched : List Rule} {plan : List PlanStep}
    (h : build actions matched = .ok plan) {f : String} (hbase : f ∈ basePrecedence.map Prod.fst)
    (htrue : ((actions.get? f).getD .none).truthy = true) :
    (∃ step ∈ plan, step.type = .str f ∧ step.condition = none) ↔ ¬FallbackOnly f matched := by
  obtain ⟨-, rfl⟩ := build_ok_iff.mp h
  constructor
  · -- the step of a hint is a first one or has a condition
    intro hstep hfallback
    obtain ⟨step, hstep, htype, hcondition⟩ := hstep
    obtain ⟨⟨rule, hrule, hint, hhint, hnamed⟩, hfirst⟩ := hfallback
    cases List.mem_append.mp hstep with
    | inl hhinted =>
      obtain ⟨rule', hrule', hint', hhint', n, hown⟩ := exists_hint_of_mem hhinted
      cases List.mem_pair.mp hown with
      | inl hhead => exact hfirst rule' hrule' hint' hhint' (by rw [← htype, hhead])
      | inr hlast => rw [hlast] at hcondition; cases hcondition
    | inr hown =>
      -- a base step is there for a field that no hint names
      have hmem := List.mem_map_of_mem (f := PlanStep.type) hown
      rw [map_type_baseSteps, htype] at hmem
      obtain ⟨e, he, heq⟩ := List.mem_map.mp hmem
      have hfree := (List.mem_filter.mp he).2
      rw [wanted, Bool.and_eq_true, Bool.not_eq_true', List.any_eq_false] at hfree
      have hmember : PyVal.str f ∈ hintTypes matched :=
        mem_hintTypes.mpr ⟨rule, hrule, hint, hhint, Or.inr hnamed.symm⟩
      exact hfree.2 _ hmember (PyVal.beq_str_iff.mpr heq.symm)
  · intro hnot
    by_cases hnamed : PyVal.str f ∈ hintTypes matched
    · -- a hint that names the field tries it first
      obtain ⟨rule, hrule, hint, hhint, hfirst⟩ : ∃ rule ∈ matched, ∃ hint,
          hint? rule = some hint ∧ tryFirst hint = .str f := by
        by_contra hnone
        push Not at hnone
        obtain ⟨rule, hrule, hint, hhint, hname⟩ := mem_hintTypes.mp hnamed
        cases hname with
        | inl hfirst => exact hnone rule hrule hint hhint hfirst.symm
        | inr hlast => exact hnot ⟨⟨rule, hrule, hint, hhint, hlast.symm⟩, hnone⟩
      obtain ⟨n, hsub⟩ := @hintSteps_subset 1 _ _ _ hrule hhint
      exact ⟨_, List.mem_append_left _ (hsub List.mem_cons_self), hfirst, rfl⟩
    · obtain ⟨step, hstep, htype⟩ := covers_of_build h hbase htrue
      refine ⟨step, hstep, htype, ?_⟩
      cases List.mem_append.mp hstep with
      | inl hhinted =>
        have hmem := List.mem_map_of_mem (f := PlanStep.type) hhinted
        rw [map_type_hintedPlan, htype] at hmem
        exact absurd hmem hnamed
      | inr hown => exact (base_baseSteps _ _ step hown).2

/-- What a plan promises: a step for each base field that is true, one that waits for no other
    unless the hints only fall back to it, and both steps of every hint of a matched rule, whatever
    became of what the rule wrote. -/
theorem plan_carries_out (actions : Dict String PyVal) (matched : List Rule) (plan : List PlanStep)
    (h : build actions matched = .ok plan) :
    (∀ f ∈ basePrecedence.map Prod.fst, ((actions.get? f).getD .none).truthy = true →
      (∃ step ∈ plan, step.type = .str f) ∧
        ((∃ step ∈ plan, step.type = .str f ∧ step.condition = none) ↔ ¬FallbackOnly f matched)) ∧
    ∀ rule ∈ matched, ∀ hint, hint? rule = some hint →
      ∃ n, hintSteps n rule.ruleCode hint ⊆ plan := by
  constructor
  · intro f hbase htrue
    exact ⟨covers_of_build h hbase htrue, unconditional_iff h hbase htrue⟩
  · intro rule hrule hint hhint
    obtain ⟨-, rfl⟩ := build_ok_iff.mp h
    obtain ⟨n, hsub⟩ := @hintSteps_subset 1 _ _ _ hrule hhint
    exact ⟨n, List.Subset.trans hsub (List.subset_append_left _ _)⟩

/-! ## Examples -/

open PipelineOrchestrator (fieldRule)

/-- A rule that would rather restart than dispatch, as R033 does. -/
def restartRule (ruleCode : String) : Rule :=
  { fieldRule ruleCode "dispatchEngineer" (.bool false) with
    isSuppressor := true
    sequencing := some ((Dict.empty.set "tryFirst" (.str "remoteRestart")).set "fallbackTo"
      (.str "dispatchEngineer")) }

/-- A safety rule that dispatches an engineer. -/
def dispatchRule : Rule :=
  { fieldRule "R008" "dispatchEngineer" (.bool true) with nonSuppressible := true }

theorem usable_restartRule (ruleCode : String) {hint : Dict String PyVal}
    (h : hint? (restartRule ruleCode) = some hint) : Usable hint := by
  cases h
  intro key hkey
  cases List.mem_pair.mp hkey with
  | inl hfirst =>
    rw [hfirst]
    exact ⟨.str "remoteRestart", rfl, rfl⟩
  | inr hfallback =>
    rw [hfallback]
    exact ⟨.str "dispatchEngineer", rfl, rfl⟩

theorem plan_wellFormed_restart :
    ∃ plan, build (Dict.empty.set "notifyNOC" (.bool true)) [restartRule "R033"] = .ok plan ∧
      WellFormedPlan (Dict.empty.set "notifyNOC" (.bool true)) plan := by
  obtain ⟨plan, hbuild, hiff⟩ := plan_wellFormed_iff (Dict.empty.set "notifyNOC" (.bool true))
    [restartRule "R033"] (by
      intro rule hrule hint hhint
      rw [List.mem_singleton.mp hrule] at hhint
      exact usable_restartRule "R033" hhint)
  exact ⟨plan, hbuild, hiff.mpr (by decide)⟩

/-- Two hints that share their steps insert them twice. -/
theorem hints_repeat_types :
    ¬∀ (actions : Dict String PyVal) (matched : List Rule),
      (∀ rule ∈ matched, ∀ hint, hint? rule = some hint → Usable hint) →
      ∃ plan, build actions matched = .ok plan ∧ WellFormedPlan actions plan := by
  intro h
  have husable : ∀ rule ∈ [restartRule "R033", restartRule "R038"], ∀ hint,
      hint? rule = some hint → Usable hint := by
    intro rule hrule hint hhint
    cases List.mem_pair.mp hrule with
    | inl hfirst => exact usable_restartRule "R033" (hfirst ▸ hhint)
    | inr hsecond => exact usable_restartRule "R038" (hsecond ▸ hhint)
  obtain ⟨plan, hbuild, hplan⟩ := h Dict.empty _ husable
  obtain ⟨plan', hbuild', hiff⟩ := plan_wellFormed_iff Dict.empty _ husable
  rw [hbuild] at hbuild'
  cases hbuild'
  exact absurd (hiff.mp hplan) (by decide)

theorem plan_carries_out_dispatch :
    ∃ plan, build (Dict.empty.set "dispatchEngineer" (.bool true)) [dispatchRule] = .ok plan ∧
      ∃ step ∈ plan, step.type = .str "dispatchEngineer" ∧ step.condition = none := by
  have hbuild : (build (Dict.empty.set "dispatchEngineer" (.bool true)) [dispatchRule]).isOk = true :=
    by decide +kernel
  obtain ⟨plan, hplan⟩ := Except.isOk_iff.mp hbuild
  have hpromise := (plan_carries_out _ _ plan hplan).1 "dispatchEngineer" (by decide) rfl
  refine ⟨plan, hplan, hpromise.2.mpr ?_⟩
  intro hfallback
  obtain ⟨⟨rule, hrule, hint, hhint, -⟩, -⟩ := hfallback
  rw [List.mem_singleton.mp hrule] at hhint
  cases hhint

/-- The dispatch that a safety rule decides waits for the restart that an overridden rule hints
    at, and the overridden rule gives both steps. -/
theorem dispatch_waits_for_restart :
    (¬∀ (matched : List Rule) (resolution : ConflictResolver.Resolution) (plan : List PlanStep),
      ConflictResolver.resolve matched = .ok resolution →
      build resolution.actions matched = .ok plan →
      ∀ f ∈ basePrecedence.map Prod.fst, resolution.actions.get? f = some (.bool true) →
        (∃ r ∈ matched, r.nonSuppressible = true ∧ r.actions.get? f = some (.bool true)) →
        ∃ step ∈ plan, step.type = .str f ∧ step.condition = none) ∧
    ¬∀ (matched : List Rule) (resolution : ConflictResolver.Resolution) (plan : List PlanStep),
      ConflictResolver.resolve matched = .ok resolution →
      build resolution.actions matched = .ok plan →
      ∀ entry ∈ resolution.suppressed, entry.field ∈ basePrecedence.map Prod.fst →
        ∀ step ∈ plan, step.source = some entry.ruleCode → step.type ≠ .str entry.field := by
  have hresolve : ConflictResolver.resolve [dispatchRule, restartRule "R033"] =
      .ok ⟨Dict.empty.set "dispatchEngineer" (.bool true), Dict.empty,
        [⟨"R033", "dispatchEngineer",
          "attempted suppression overridden by non-suppressible rule"⟩]⟩ := rfl
  have hbuild : build (Dict.empty.set "dispatchEngineer" (.bool true))
      [dispatchRule, restartRule "R033"] =
        .ok [⟨1, .str "remoteRestart", .str "remoteRestart", none, some "R033"⟩,
          ⟨2, .str "dispatchEngineer", .str "dispatchEngineer",
            some "if remoteRestart fails within ? minutes", some "R033"⟩] := rfl
  constructor
  · -- the only dispatch has a condition
    intro h
    obtain ⟨step, hstep, htype, hcondition⟩ := h _ _ _ hresolve hbuild "dispatchEngineer" (by decide)
      rfl ⟨dispatchRule, List.mem_cons_self, rfl, rfl⟩
    cases List.mem_pair.mp hstep with
    | inl hfirst =>
      rw [hfirst] at htype
      exact absurd (PyVal.str.inj htype) (by decide)
    | inr hfallback =>
      rw [hfallback] at hcondition
      cases hcondition
  · -- its source is the overridden rule
    intro h
    exact h _ _ _ hresolve hbuild _ List.mem_cons_self (by decide) _
      (List.mem_cons_of_mem _ List.mem_cons_self) rfl rfl

end ExecutionPlanBuilder

end PulseGuard
