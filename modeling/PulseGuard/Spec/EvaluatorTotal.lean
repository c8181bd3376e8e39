import PulseGuard.Spec.EngineNodes
import PulseGuard.Spec.SelfVeto

/-!
# Where the evaluator is total

A condition of registered operators with their arguments comes to a truth value on all data,
but for its products: `*` passes on what Python raises on operands that it cannot multiply. So
the evaluation returns exactly when the products that it reaches have operands that can be
multiplied (`isSatisfiedBy_returns_iff`).
-/

namespace PulseGuard

namespace RuleEngine

/-! ## Products -/

/-- An integer that is no larger than the doubles. -/
def FitsFloat (n : Int) : Prop := ∃ q, PyFloat.ofRat n = .fin q

/-- An integer of 64 bits. -/
def FitsIndex (n : Int) : Prop := -2 ^ 63 ≤ n ∧ n < 2 ^ 63

/-- A value that Python repeats. -/
def Repeatable : PyVal → Prop
  | .str _ | .list _ => True
  | _ => False

/-- Two values whose product is defined: one is missing, both are numbers, or one is repeated. -/
inductive Multipliable : PyVal → PyVal → Prop where
  | missingLeft (w : PyVal) : Multipliable .none w
  | missingRight (v : PyVal) : Multipliable v .none
  | floats (x y : PyFloat) : Multipliable (.float x) (.float y)
  | floatInt (x : PyFloat) {w : PyVal} {n : Int} (hw : w.int? = some n) (hn : FitsFloat n) :
      Multipliable (.float x) w
  | intFloat (y : PyFloat) {v : PyVal} {n : Int} (hv : v.int? = some n) (hn : FitsFloat n) :
      Multipliable v (.float y)
  | ints {v w : PyVal} {m n : Int} (hv : v.int? = some m) (hw : w.int? = some n) :
      Multipliable v w
  | repeatLeft {v w : PyVal} {n : Int} (hv : Repeatable v) (hw : w.int? = some n)
      (hn : FitsIndex n) : Multipliable v w
  | repeatRight {v w : PyVal} {n : Int} (hw : Repeatable w) (hv : v.int? = some n)
      (hn : FitsIndex n) : Multipliable v w

theorem floatOfInt_ok_iff {n : Int} : (∃ x, PyVal.floatOfInt n = .ok x) ↔ FitsFloat n := by
  unfold PyVal.floatOfInt FitsFloat
  cases PyFloat.ofRat n with
  | fin q => simp
  | _ => simp

theorem indexSized_ok_iff {n : Int} : (∃ m, PyVal.indexSized n = .ok m) ↔ FitsIndex n := by
  unfold PyVal.indexSized FitsIndex
  split
  · rename_i h
    exact iff_of_true ⟨n, rfl⟩ h
  · rename_i h
    refine iff_of_false ?_ h
    intro h
    obtain ⟨m, hm⟩ := h
    cases hm

theorem int?_eq_some_iff {v : PyVal} {n : Int} :
    v.int? = some n ↔ (∃ b : Bool, v = .bool b ∧ n = if b then 1 else 0) ∨ v = .int n := by
  cases v <;> simp [PyVal.int?, eq_comm]

/-- A product of numbers and of what is repeated is defined. -/
private theorem multiplyValues_returns {v w : PyVal} (h : Multipliable v w) :
    ∃ r, multiplyValues v w = .ok r := by
  cases h with
  | missingLeft => exact ⟨.none, rfl⟩
  | missingRight => exact ⟨.none, by cases v <;> rfl⟩
  | floats x y => exact ⟨_, rfl⟩
  | floatInt x hw hn =>
    obtain ⟨y, hy⟩ := floatOfInt_ok_iff.mpr hn
    rcases int?_eq_some_iff.mp hw with ⟨b, rfl, rfl⟩ | rfl
    · exact ⟨.float (x.mul y), by simp [multiplyValues, PyVal.mul, PyVal.int?, hy]⟩
    · exact ⟨.float (x.mul y), by simp [multiplyValues, PyVal.mul, PyVal.int?, hy]⟩
  | intFloat y hv hn =>
    obtain ⟨x, hx⟩ := floatOfInt_ok_iff.mpr hn
    rcases int?_eq_some_iff.mp hv with ⟨b, rfl, rfl⟩ | rfl
    · exact ⟨.float (x.mul y), by simp [multiplyValues, PyVal.mul, PyVal.int?, hx]⟩
    · exact ⟨.float (x.mul y), by simp [multiplyValues, PyVal.mul, PyVal.int?, hx]⟩
  | ints hv hw =>
    rcases int?_eq_some_iff.mp hv with ⟨b, rfl, rfl⟩ | rfl <;>
      rcases int?_eq_some_iff.mp hw with ⟨c, rfl, rfl⟩ | rfl <;> exact ⟨_, rfl⟩
  | repeatLeft hv hw hn =>
    obtain ⟨m, hm⟩ := indexSized_ok_iff.mpr hn
    cases v with
    | str s =>
      rcases int?_eq_some_iff.mp hw with ⟨b, rfl, rfl⟩ | rfl <;>
        simp [multiplyValues, PyVal.mul, PyVal.int?, hm]
    | list xs =>
      rcases int?_eq_some_iff.mp hw with ⟨b, rfl, rfl⟩ | rfl <;>
        simp [multiplyValues, PyVal.mul, PyVal.int?, hm]
    | _ => cases hv
  | repeatRight hw hv hn =>
    obtain ⟨m, hm⟩ := indexSized_ok_iff.mpr hn
    cases w with
    | str s =>
      rcases int?_eq_some_iff.mp hv with ⟨b, rfl, rfl⟩ | rfl <;>
        simp [multiplyValues, PyVal.mul, PyVal.int?, hm]
    | list xs =>
      rcases int?_eq_some_iff.mp hv with ⟨b, rfl, rfl⟩ | rfl <;>
        simp [multiplyValues, PyVal.mul, PyVal.int?, hm]
    | _ => cases hw

theorem multiplyValues_returns_iff {v w : PyVal} :
    (∃ r, multiplyValues v w = .ok r) ↔ Multipliable v w := by
  refine ⟨?_, multiplyValues_returns⟩
  intro h
  obtain ⟨r, h⟩ := h
  have hfloat : ∀ {n : Int} {f : PyFloat → PyVal},
      (PyVal.floatOfInt n >>= fun x => pure (f x)) = .ok r → FitsFloat n := by
    intro n f hbind
    obtain ⟨x, hx, -⟩ := Except.bind_ok_iff.mp hbind
    exact floatOfInt_ok_iff.mp ⟨x, hx⟩
  have hindex : ∀ {n : Int} {f : Int → PyVal},
      (PyVal.indexSized n >>= fun m => pure (f m)) = .ok r → FitsIndex n := by
    intro n f hbind
    obtain ⟨m, hm, -⟩ := Except.bind_ok_iff.mp hbind
    exact indexSized_ok_iff.mp ⟨m, hm⟩
  -- by the types of the two operands
  cases v with
  | none => exact .missingLeft w
  | bool b =>
    cases w with
    | none => exact .missingRight _
    | bool c => exact .ints rfl rfl
    | int n => exact .ints rfl rfl
    | float y => exact .intFloat y rfl (hfloat h)
    | str t => exact .repeatRight trivial rfl (hindex h)
    | list ys => exact .repeatRight trivial rfl (hindex h)
    | dict e => cases h
  | int m =>
    cases w with
    | none => exact .missingRight _
    | bool c => exact .ints rfl rfl
    | int n => exact .ints rfl rfl
    | float y => exact .intFloat y rfl (hfloat h)
    | str t => exact .repeatRight trivial rfl (hindex h)
    | list ys => exact .repeatRight trivial rfl (hindex h)
    | dict e => cases h
  | float x =>
    cases w with
    | none => exact .missingRight _
    | bool c => exact .floatInt x rfl (hfloat h)
    | int n => exact .floatInt x rfl (hfloat h)
    | float y => exact .floats x y
    | _ => cases h
  | str s =>
    cases w with
    | none => exact .missingRight _
    | bool c => exact .repeatLeft trivial rfl (hindex h)
    | int n => exact .repeatLeft trivial rfl (hindex h)
    | _ => cases h
  | list xs =>
    cases w with
    | none => exact .missingRight _
    | bool c => exact .repeatLeft trivial rfl (hindex h)
    | int n => exact .repeatLeft trivial rfl (hindex h)
    | _ => cases h
  | dict d =>
    cases w with
    | none => exact .missingRight _
    | _ => cases h

/-! ## The products an evaluation comes to -/

/-- The nodes that the evaluation of a tree comes to: the children of a conjunction or a
    disjunction up to the one that decides it, and the operands of every other operator. -/
inductive Reached (data : PyVal) : PyVal → PyVal → Prop where
  | here (tree : PyVal) : Reached data tree tree
  | child {op : Operator} {decisive : Bool} {before rest : List PyVal} {x node : PyVal}
      (hop : op.decisive? = some decisive)
      (hbefore : ∀ y ∈ before, Passes decisive (evaluate data y)) (h : Reached data x node) :
      Reached data (opNode op (before ++ x :: rest)) node
  | first {op : Operator} {rest : List PyVal} {x node : PyVal} (hop : op.decisive? = none)
      (hvar : op ≠ .var) (h : Reached data x node) : Reached data (opNode op (x :: rest)) node
  | second {op : Operator} {rest : List PyVal} {x y v node : PyVal} (hop : op.arity = 2)
      (hx : evaluate data x = .ok v) (h : Reached data y node) :
      Reached data (opNode op (x :: y :: rest)) node

/-- Every product that the evaluation comes to has operands that can be multiplied. -/
def ProductsDefined (data tree : PyVal) : Prop :=
  ∀ x y rest v w, Reached data tree (opNode .mul (x :: y :: rest)) →
    evaluate data x = .ok v → evaluate data y = .ok w → Multipliable v w

variable {data : PyVal}

/-- What is reached from a node is the node or is reached from a child. -/
theorem Reached.cases {op : Operator} {xs : List PyVal} {node : PyVal}
    (h : Reached data (opNode op xs) node) : node = opNode op xs ∨
      (∃ decisive before x rest, op.decisive? = some decisive ∧ xs = before ++ x :: rest ∧
        (∀ y ∈ before, Passes decisive (evaluate data y)) ∧ Reached data x node) ∨
      (op.decisive? = none ∧ op ≠ .var ∧ ∃ x rest, xs = x :: rest ∧ Reached data x node) ∨
      (op.arity = 2 ∧ ∃ x y v rest, xs = x :: y :: rest ∧ evaluate data x = .ok v ∧
        Reached data y node) := by
  generalize htree : opNode op xs = tree at h
  cases h with
  | here => exact Or.inl rfl
  | child hop hbefore hx =>
    obtain ⟨rfl, rfl⟩ := opNode_inj.mp htree
    exact Or.inr (Or.inl ⟨_, _, _, _, hop, rfl, hbefore, hx⟩)
  | first hop hvar hx =>
    obtain ⟨rfl, rfl⟩ := opNode_inj.mp htree
    exact Or.inr (Or.inr (Or.inl ⟨hop, hvar, _, _, rfl, hx⟩))
  | second hop hv hy =>
    obtain ⟨rfl, rfl⟩ := opNode_inj.mp htree
    exact Or.inr (Or.inr (Or.inr ⟨hop, _, _, _, _, rfl, hv, hy⟩))

/-- A literal or a lookup comes to no product. -/
theorem productsDefined_of_leaf {tree : PyVal}
    (h : ∀ op xs, tree = opNode op xs → op = .var) : ProductsDefined data tree := by
  intro x y rest v w hreach _ _
  generalize hnode : opNode .mul (x :: y :: rest) = node at hreach
  cases hreach with
  | here =>
    have hmul : Operator.mul = .var := h _ _ hnode.symm
    cases hmul
  | child hop _ _ =>
    rw [h _ _ rfl] at hop
    cases hop
  | first _ hvar _ => exact absurd (h _ _ rfl) hvar
  | second hop _ _ =>
    rw [h _ _ rfl] at hop
    cases hop

theorem productsDefined_junction {op : Operator} {decisive : Bool}
    (hop : op.decisive? = some decisive) {xs : List PyVal} :
    ProductsDefined data (opNode op xs) ↔ ∀ before x rest, xs = before ++ x :: rest →
      (∀ y ∈ before, Passes decisive (evaluate data y)) → ProductsDefined data x := by
  constructor
  · intro h before x rest hxs hbefore y z rest' v w hreach
    subst hxs
    exact h y z rest' v w (.child hop hbefore hreach)
  · intro h y z rest' v w hreach
    rcases hreach.cases with heq | ⟨d, before, x, rest, hd, hxs, hbefore, hx⟩ |
      ⟨hnone, _⟩ | ⟨harity, _⟩
    · obtain ⟨rfl, -⟩ := opNode_inj.mp heq
      cases hop
    · obtain rfl : decisive = d := Option.some.inj (hop.symm.trans hd)
      exact h before x rest hxs hbefore y z rest' v w hx
    · rw [hop] at hnone
      cases hnone
    · cases op with
      | and | or => cases harity
      | _ => cases hop

theorem productsDefined_unary {x : PyVal} {rest : List PyVal} :
    ProductsDefined data (opNode .inHolidayPeriod (x :: rest)) ↔ ProductsDefined data x := by
  constructor
  · intro h y z rest' v w hreach
    exact h y z rest' v w (.first rfl (by decide) hreach)
  · intro h y z rest' v w hreach
    rcases hreach.cases with heq | ⟨_, _, _, _, hd, _⟩ | ⟨_, _, x', rest'', heq, hx⟩ | ⟨harity, _⟩
    · obtain ⟨hop, -⟩ := opNode_inj.mp heq
      cases hop
    · cases hd
    · obtain ⟨rfl, -⟩ := List.cons.inj heq
      exact h y z rest' v w hx
    · cases harity

theorem productsDefined_binary {op : Operator} (hop : op.arity = 2) {x y : PyVal}
    {rest : List PyVal} : ProductsDefined data (opNode op (x :: y :: rest)) ↔
      ProductsDefined data x ∧ (∀ v, evaluate data x = .ok v → ProductsDefined data y) ∧
        (op = .mul → ∀ v w, evaluate data x = .ok v → evaluate data y = .ok w →
          Multipliable v w) := by
  have hdecisive : op.decisive? = none := by
    cases op with
    | and | or => cases hop
    | _ => rfl
  have hvar : op ≠ .var := by
    rintro rfl
    cases hop
  constructor
  · intro h
    refine ⟨?_, ?_, ?_⟩
    · intro x' y' rest' v w hreach
      exact h x' y' rest' v w (.first hdecisive hvar hreach)
    · intro v₀ hv₀ x' y' rest' v w hreach
      exact h x' y' rest' v w (.second hop hv₀ hreach)
    · intro hmul v w hx hy
      subst hmul
      exact h x y rest v w (.here _) hx hy
  · rintro ⟨hfirst, hsecond, hproduct⟩ x' y' rest' v w hreach hx' hy'
    rcases hreach.cases with heq | ⟨_, _, _, _, hd, _⟩ | ⟨_, _, x₀, rest₀, heq, hx⟩ |
      ⟨_, x₀, y₀, v₀, rest₀, heq, hv₀, hy⟩
    · obtain ⟨rfl, hargs⟩ := opNode_inj.mp heq
      obtain ⟨rfl, htail⟩ := List.cons.inj hargs
      obtain ⟨rfl, -⟩ := List.cons.inj htail
      exact hproduct rfl v w hx' hy'
    · rw [hdecisive] at hd
      cases hd
    · obtain ⟨rfl, -⟩ := List.cons.inj heq
      exact hfirst x' y' rest' v w hx hx' hy'
    · obtain ⟨rfl, htail⟩ := List.cons.inj heq
      obtain ⟨rfl, -⟩ := List.cons.inj htail
      exact hsecond v₀ hv₀ x' y' rest' v w hy hx' hy'

/-! ## Where the evaluation returns -/

/-- The loop of a conjunction or a disjunction returns when every outcome it comes to does. -/
theorem settle_returns_iff {decisive : Bool} {rs : List Outcome} :
    (∃ b, settle decisive rs = .ok b) ↔ ∀ before r rest, rs = before ++ r :: rest →
      (∀ r' ∈ before, Passes decisive r') → ∃ v, r = .ok v := by
  constructor
  · rintro ⟨b, hb⟩ before r rest rfl hbefore
    rw [settle_append_of_passes hbefore] at hb
    cases r with
    | ok v => exact ⟨v, rfl⟩
    | error e => cases hb
  · intro h
    rcases settle_cases decisive rs with ⟨_, hend⟩ | ⟨before, r, rest, hrs, hbefore, hend⟩
    · exact ⟨_, hend⟩
    · obtain ⟨v, rfl⟩ := h before r rest hrs hbefore
      rcases hend with ⟨_, hend⟩ | ⟨e, he, _⟩
      · exact ⟨_, hend⟩
      · cases he

theorem junction_returns_iff {op : Operator} {decisive : Bool}
    (hop : op.decisive? = some decisive) {xs : List PyVal} :
    (∃ v, evaluate data (opNode op xs) = .ok v) ↔ ∀ before x rest, xs = before ++ x :: rest →
      (∀ y ∈ before, Passes decisive (evaluate data y)) → ∃ v, evaluate data x = .ok v := by
  have hsettle : (∃ v, evaluate data (opNode op xs) = .ok v) ↔
      ∃ b, settle decisive (xs.map (evaluate data)) = .ok b := by
    rw [evaluate_junction hop]
    cases settle decisive (xs.map (evaluate data)) with
    | ok b => exact iff_of_true ⟨_, rfl⟩ ⟨b, rfl⟩
    | error e => exact iff_of_false (fun ⟨v, hv⟩ => by cases hv) (fun ⟨b, hb⟩ => by cases hb)
  rw [hsettle, settle_returns_iff]
  constructor
  · intro h before x rest hxs hbefore
    refine h (before.map (evaluate data)) _ (rest.map (evaluate data)) ?_ ?_
    · rw [hxs, List.map_append, List.map_cons]
    · exact List.forall_mem_map.mpr hbefore
  · intro h before r rest hrs hbefore
    obtain ⟨ys, zs, rfl, hys, hzs⟩ := List.map_eq_append_iff.mp hrs
    obtain ⟨z, zs, rfl, rfl, -⟩ := List.map_eq_cons_iff.mp hzs
    subst hys
    exact h ys z zs rfl (List.forall_mem_map.mp hbefore)

theorem onValues_returns_iff {op : Operator} {v w : PyVal} :
    (∃ r, onValues op v w = .ok r) ↔ (op = .mul → Multipliable v w) := by
  cases op with
  | mul => exact multiplyValues_returns_iff.trans ⟨fun h _ => h, fun h => h rfl⟩
  | _ => exact iff_of_true ⟨_, rfl⟩ (fun h => by cases h)

theorem binary_returns_iff {op : Operator} (hop : op.arity = 2) {x y : PyVal}
    {rest : List PyVal} : (∃ r, evaluate data (opNode op (x :: y :: rest)) = .ok r) ↔
      (∃ v, evaluate data x = .ok v) ∧
        (∀ v, evaluate data x = .ok v → ∃ w, evaluate data y = .ok w) ∧
        (op = .mul → ∀ v w, evaluate data x = .ok v → evaluate data y = .ok w →
          Multipliable v w) := by
  rw [evaluate_binary hop]
  cases hx : evaluate data x with
  | error e =>
    refine iff_of_false ?_ ?_
    · intro h
      obtain ⟨r, hr⟩ := h
      cases hr
    · intro h
      obtain ⟨⟨v, hv⟩, _⟩ := h
      cases hv
  | ok v =>
    cases hy : evaluate data y with
    | error e =>
      refine iff_of_false ?_ ?_
      · intro h
        obtain ⟨r, hr⟩ := h
        cases hr
      · intro h
        obtain ⟨_, hw, _⟩ := h
        obtain ⟨w, hw⟩ := hw v rfl
        cases hw
    | ok w =>
      show (∃ r, onValues op v w = .ok r) ↔ _
      rw [onValues_returns_iff]
      constructor
      · intro h
        refine ⟨⟨v, rfl⟩, fun _ _ => ⟨w, rfl⟩, ?_⟩
        intro hmul v' w' hv' hw'
        cases hv'
        cases hw'
        exact h hmul
      · rintro ⟨_, _, h⟩ hmul
        exact h hmul v w rfl rfl

theorem Operator.arity_cases {op : Operator} (hvar : op ≠ .var) :
    (∃ decisive, op.decisive? = some decisive) ∨ op = .inHolidayPeriod ∨ op.arity = 2 := by
  cases op with
  | var => exact absurd rfl hvar
  | and => exact Or.inl ⟨false, rfl⟩
  | or => exact Or.inl ⟨true, rfl⟩
  | inHolidayPeriod => exact Or.inr (Or.inl rfl)
  | _ => exact Or.inr (Or.inr rfl)

/-- A tree of registered operators with their arguments comes to a value exactly when every
    product it comes to has operands that can be multiplied. -/
theorem evaluate_returns_iff {tree : PyVal} (h : RightlyBuilt tree) :
    (∃ v, evaluate data tree = .ok v) ↔ ProductsDefined data tree := by
  induction h with
  | literal v hv =>
    refine iff_of_true ⟨v, evaluate_literal data hv⟩ (productsDefined_of_leaf ?_)
    intro op xs heq
    exact absurd heq (hv _)
  | lookup args hargs =>
    refine iff_of_true ?_ (productsDefined_of_leaf ?_)
    · rw [evaluate_node]
      show ∃ v, evalVar args data = .ok v
      rw [evalVar_eq]
      cases hpath : pathOf? args with
      | some path => exact ⟨_, rfl⟩
      | none => exact absurd (pathOf?_eq_none_iff.mp hpath) hargs
    · intro op xs heq
      simp only [PyVal.dict.injEq, List.cons.injEq, Prod.mk.injEq] at heq
      exact (Operator.symbol_injective heq.1.1).symm
  | node op args hop harity _ ih =>
    show (∃ v, evaluate data (opNode op args) = .ok v) ↔ ProductsDefined data (opNode op args)
    rcases Operator.arity_cases hop with ⟨decisive, hdecisive⟩ | rfl | htwo
    · rw [junction_returns_iff hdecisive, productsDefined_junction hdecisive]
      refine forall_congr' fun before => forall_congr' fun x => forall_congr' fun rest =>
        forall_congr' fun hargs => forall_congr' fun _ => ih x ?_
      rw [hargs]
      exact List.mem_append_right _ List.mem_cons_self
    · match args, harity with
      | x :: rest, _ =>
        rw [productsDefined_unary, ← ih x List.mem_cons_self, evaluate_unary]
        cases evaluate data x with
        | ok v => exact iff_of_true ⟨_, rfl⟩ ⟨v, rfl⟩
        | error e => exact iff_of_false (fun ⟨_, h⟩ => by cases h) (fun ⟨_, h⟩ => by cases h)
    · rw [htwo] at harity
      match args, harity with
      | x :: y :: rest, _ =>
        rw [binary_returns_iff htwo, productsDefined_binary htwo, ← ih x List.mem_cons_self,
          ← ih y (List.mem_cons_of_mem _ List.mem_cons_self)]

end RuleEngine

/-! ## Conditions and packs -/

open RuleEngine

/-- A condition returns exactly when its tree comes to a value: the `ValueError` that counts as
    "not satisfied" is never raised. -/
theorem RuleCondition.isSatisfiedBy_returns_iff {condition : RuleCondition}
    (h : RightlyBuilt condition.tree) {data : PyVal} :
    (∃ b, condition.isSatisfiedBy data = .ok b) ↔ ProductsDefined data condition.tree := by
  rw [← evaluate_returns_iff h]
  unfold isSatisfiedBy
  cases heval : evaluate data condition.tree with
  | ok v => exact iff_of_true ⟨_, rfl⟩ ⟨v, rfl⟩
  | error e =>
    have hescapes : e.isValueError = false := (evaluate_benign h data).not_valueError heval
    refine iff_of_false ?_ ?_
    · intro h
      obtain ⟨b, hb⟩ := h
      simp [hescapes] at hb
    · intro h
      obtain ⟨v, hv⟩ := h
      cases hv

namespace Rule

/-- A rule whose trees are built from registered operators with their arguments. -/
structure IsRightlyBuilt (rule : Rule) : Prop where
  conditions : RightlyBuilt rule.conditions.tree
  exceptions : ∀ clause, rule.exceptions = some clause → RightlyBuilt clause.tree

/-- The products that a judgement of the rule comes to can be multiplied. The conditions of a
    vetoed rule are not looked at. -/
structure ProductsDefined (data : PyVal) (rule : Rule) : Prop where
  exceptions : ∀ clause, rule.exceptions = some clause →
    RuleEngine.ProductsDefined data clause.tree
  conditions : ¬rule.Vetoed data → RuleEngine.ProductsDefined data rule.conditions.tree

end Rule

namespace PolicyEngine

theorem judge_returns_iff_vetoes {data : PyVal} {rule : Rule}
    (hfamily : rule.family ≠ complianceFamily) :
    (∃ verdict, judge data rule = .ok verdict) ↔ (∃ b, vetoes data rule.exceptions = .ok b) ∧
      (vetoes data rule.exceptions = .ok false →
        ∃ b, rule.conditions.isSatisfiedBy data = .ok b) := by
  rw [judge_eq, if_neg (by simpa using hfamily)]
  cases vetoes data rule.exceptions with
  | error e =>
    refine iff_of_false ?_ ?_
    · intro h
      obtain ⟨verdict, h⟩ := h
      cases h
    · intro h
      obtain ⟨⟨b, hb⟩, -⟩ := h
      cases hb
  | ok vetoed =>
    cases vetoed with
    | true => exact iff_of_true ⟨_, rfl⟩ ⟨⟨true, rfl⟩, fun h => by cases h⟩
    | false =>
      cases rule.conditions.isSatisfiedBy data with
      | error e =>
        refine iff_of_false ?_ ?_
        · intro h
          obtain ⟨verdict, h⟩ := h
          cases h
        · intro h
          obtain ⟨-, h⟩ := h
          obtain ⟨b, hb⟩ := h rfl
          cases hb
      | ok satisfied =>
        refine iff_of_true ?_ ⟨⟨false, rfl⟩, fun _ => ⟨satisfied, rfl⟩⟩
        cases satisfied with
        | true => exact ⟨.matched, rfl⟩
        | false => exact ⟨.rejected "conditions not satisfied", rfl⟩

/-- A rule is judged exactly when the products that its judgement comes to can be multiplied. -/
theorem judge_returns_iff {data : PyVal} {rule : Rule} (h : rule.IsRightlyBuilt)
    (hfamily : rule.family ≠ complianceFamily) :
    (∃ verdict, judge data rule = .ok verdict) ↔ rule.ProductsDefined data := by
  rw [judge_returns_iff_vetoes hfamily, RuleCondition.isSatisfiedBy_returns_iff h.conditions]
  cases hexceptions : rule.exceptions with
  | none =>
    have hveto : ¬rule.Vetoed data := by
      intro h
      obtain ⟨clause, hclause, -⟩ := h
      rw [hexceptions] at hclause
      cases hclause
    constructor
    · intro h
      obtain ⟨-, hconditions⟩ := h
      refine ⟨?_, fun _ => hconditions rfl⟩
      intro clause hclause
      rw [hexceptions] at hclause
      cases hclause
    · intro hdefined
      exact ⟨⟨false, rfl⟩, fun _ => hdefined.conditions hveto⟩
  | some clause =>
    have hclause : (∃ b, clause.isSatisfiedBy data = .ok b) ↔
        RuleEngine.ProductsDefined data clause.tree :=
      RuleCondition.isSatisfiedBy_returns_iff (h.exceptions clause hexceptions)
    have hveto : rule.Vetoed data ↔ clause.isSatisfiedBy data = .ok true := by
      simp [Rule.Vetoed, hexceptions]
    show (∃ b, clause.isSatisfiedBy data = .ok b) ∧
      (clause.isSatisfiedBy data = .ok false → _) ↔ _
    constructor
    · intro h
      obtain ⟨⟨vetoed, hvetoed⟩, hconditions⟩ := h
      constructor
      · intro other hother
        rw [hexceptions] at hother
        cases hother
        exact hclause.mp ⟨vetoed, hvetoed⟩
      · intro hnot
        rw [hveto, hvetoed] at hnot
        cases vetoed with
        | true => exact absurd rfl hnot
        | false => exact hconditions hvetoed
    · intro hdefined
      refine ⟨hclause.mpr (hdefined.exceptions clause hexceptions), fun hfalse => ?_⟩
      apply hdefined.conditions
      rw [hveto, hfalse]
      intro hcontra
      cases hcontra

/-- A pack is evaluated exactly when each of its active rules is judged. -/
theorem evaluate_returns_iff {pack : RulePack} {incident : Incident}
    (h : ∀ rule ∈ pack.rules, rule.IsRightlyBuilt) :
    (∃ result, evaluate pack incident = .ok result) ↔
      ∀ rule ∈ pack.rules, rule.isActive = true → rule.family ≠ complianceFamily →
        rule.ProductsDefined incident.asEvaluationData := by
  have hjudged : (∃ result, evaluate pack incident = .ok result) ↔ ∀ rule ∈ pack.rules,
      rule.isActive = true → ∃ verdict, judge incident.asEvaluationData rule = .ok verdict := by
    constructor
    · intro h
      obtain ⟨⟨matched, rejected⟩, hresult⟩ := h
      exact (evaluate_ok_iff.mp ⟨rejected, hresult⟩).1
    · intro hall
      obtain ⟨rejected, hresult⟩ := evaluate_ok_iff.mpr ⟨hall, rfl⟩
      exact ⟨_, hresult⟩
  rw [hjudged]
  refine forall_congr' fun rule => forall_congr' fun hrule => forall_congr' fun _ => ?_
  by_cases hfamily : rule.family = complianceFamily
  · refine iff_of_true ⟨.skipped, ?_⟩ (absurd hfamily)
    rw [judge_eq, hfamily]
    rfl
  · rw [judge_returns_iff (h rule hrule) hfamily]
    exact ⟨fun hdefined _ => hdefined, fun hdefined => hdefined hfamily⟩

end PolicyEngine

end PulseGuard
