import PulseGuard.Spec.WellFormedTree

/-!
# One node of a condition tree

What the engine comes to at a node, from what it comes to at the children: `and` and `or` stop at
the first child that decides them (`evaluate_junction`), every other operator but a lookup asks
for its operands in order (`evaluate_binary`, `evaluate_unary`).
-/

namespace PulseGuard

namespace Operator

theorem symbol_injective : Function.Injective symbol := by
  intro op op' h
  have hget := get_symbol op
  rw [h, get_symbol op'] at hget
  exact (Except.ok.inj hget).symm

/-- The truth value of a child that decides a conjunction or a disjunction. -/
def decisive? : Operator → Option Bool
  | and => some false
  | or => some true
  | _ => none

end Operator

namespace RuleEngine

/-- The node of an operator with a list of arguments. -/
abbrev opNode (op : Operator) (args : List PyVal) : PyVal := .dict [(op.symbol, .list args)]

theorem opNode_inj {op op' : Operator} {xs ys : List PyVal} :
    opNode op xs = opNode op' ys ↔ op = op' ∧ xs = ys := by
  constructor
  · intro h
    simp only [opNode, PyVal.dict.injEq, List.cons.injEq, Prod.mk.injEq, PyVal.list.injEq,
      and_true] at h
    exact ⟨Operator.symbol_injective h.1, h.2⟩
  · intro h
    obtain ⟨rfl, rfl⟩ := h
    rfl

theorem evaluate_opNode (data : PyVal) (op : Operator) (xs : List PyVal) :
    evaluate data (opNode op xs) = apply op (.list xs) data (xs.map (evaluate data)) := by
  rw [opNode, evaluate_node, ← evaluateItems_eq_map]
  rfl

/-! ## Conjunction and disjunction -/

/-- The loop of `all` (decided by a false item) and of `any` (decided by a true one). -/
def settle (decisive : Bool) : List Outcome → Except PyError Bool
  | [] => .ok (!decisive)
  | r :: rs => do
    if (← r).truthy = decisive then return decisive else settle decisive rs

theorem allTruthy_eq_settle (rs : List Outcome) : allTruthy rs = settle false rs := by
  induction rs with
  | nil => rfl
  | cons r rs ih =>
    cases r with
    | error e => rfl
    | ok v =>
      simp only [allTruthy, settle, bind, Except.bind, ih]
      cases v.truthy <;> rfl

theorem anyTruthy_eq_settle (rs : List Outcome) : anyTruthy rs = settle true rs := by
  induction rs with
  | nil => rfl
  | cons r rs ih =>
    cases r with
    | error e => rfl
    | ok v =>
      simp only [anyTruthy, settle, bind, Except.bind, ih]

theorem evaluate_junction {op : Operator} {decisive : Bool} (hop : op.decisive? = some decisive)
    (data : PyVal) (xs : List PyVal) :
    evaluate data (opNode op xs) =
      PyVal.bool <$> settle decisive (xs.map (evaluate data)) := by
  rw [evaluate_opNode]
  cases op with
  | and =>
    cases hop
    rw [← allTruthy_eq_settle]
    rfl
  | or =>
    cases hop
    rw [← anyTruthy_eq_settle]
    rfl
  | _ => cases hop

/-- An outcome that leaves a conjunction or a disjunction undecided. -/
def Passes (decisive : Bool) (r : Outcome) : Prop := ∃ v, r = .ok v ∧ v.truthy = !decisive

variable {decisive : Bool} {rs : List Outcome}

theorem settle_cons_of_passes {r : Outcome} (h : Passes decisive r) :
    settle decisive (r :: rs) = settle decisive rs := by
  obtain ⟨v, rfl, hv⟩ := h
  simp only [settle, bind, Except.bind]
  rw [if_neg]
  rw [hv]
  cases decisive <;> decide

theorem settle_append_of_passes {before : List Outcome} (h : ∀ r ∈ before, Passes decisive r) :
    settle decisive (before ++ rs) = settle decisive rs := by
  induction before with
  | nil => rfl
  | cons r before ih =>
    rw [List.cons_append, settle_cons_of_passes (h r List.mem_cons_self)]
    exact ih fun r' hr' => h r' (List.mem_cons_of_mem _ hr')

theorem settle_of_passes (h : ∀ r ∈ rs, Passes decisive r) : settle decisive rs = .ok (!decisive) := by
  have hall : settle decisive (rs ++ []) = settle decisive [] := settle_append_of_passes h
  rwa [List.append_nil] at hall

theorem settle_cons_ok_of_decisive {v : PyVal} (hv : v.truthy = decisive) :
    settle decisive (.ok v :: rs) = .ok decisive := by
  simp only [settle, bind, Except.bind]
  rw [if_pos hv]
  rfl

/-- An outcome leaves the loop undecided, decides it, or is an exception. -/
theorem passes_or (decisive : Bool) (r : Outcome) :
    Passes decisive r ∨ (∃ v, r = .ok v ∧ v.truthy = decisive) ∨ ∃ e, r = .error e := by
  cases r with
  | error e => exact Or.inr (Or.inr ⟨e, rfl⟩)
  | ok v =>
    by_cases hv : v.truthy = decisive
    · exact Or.inr (Or.inl ⟨v, rfl, hv⟩)
    · refine Or.inl ⟨v, rfl, ?_⟩
      revert hv
      cases v.truthy <;> cases decisive <;> simp

/-- Where the loop ends: past all items, at the first one that decides it, or at the first
    exception. -/
theorem settle_cases (decisive : Bool) (rs : List Outcome) :
    (∀ r ∈ rs, Passes decisive r) ∧ settle decisive rs = .ok (!decisive) ∨
      ∃ before r rest, rs = before ++ r :: rest ∧ (∀ r' ∈ before, Passes decisive r') ∧
        ((∃ v, r = .ok v ∧ v.truthy = decisive) ∧ settle decisive rs = .ok decisive ∨
          ∃ e, r = .error e ∧ settle decisive rs = .error e) := by
  induction rs with
  | nil => exact Or.inl ⟨fun r hr => (by cases hr), rfl⟩
  | cons r rs ih =>
    rcases passes_or decisive r with hpass | ⟨v, rfl, hv⟩ | ⟨e, rfl⟩
    · rw [settle_cons_of_passes hpass]
      rcases ih with ⟨hall, hend⟩ | ⟨before, r', rest, rfl, hbefore, hend⟩
      · exact Or.inl ⟨List.forall_mem_cons.mpr ⟨hpass, hall⟩, hend⟩
      · exact Or.inr ⟨r :: before, r', rest, rfl, List.forall_mem_cons.mpr ⟨hpass, hbefore⟩, hend⟩
    · exact Or.inr ⟨[], .ok v, rs, rfl, fun r hr => (by cases hr),
        Or.inl ⟨⟨v, rfl, hv⟩, settle_cons_ok_of_decisive hv⟩⟩
    · exact Or.inr ⟨[], .error e, rs, rfl, fun r hr => (by cases hr), Or.inr ⟨e, rfl, rfl⟩⟩

/-! ## Operators on values -/

/-- A comparison of two values. -/
def compareValues (op : PyVal.CmpOp) (left right : PyVal) : PyVal :=
  if left matches .none || right matches .none then .bool false
  else match PyVal.cmp op left right with
    | .ok b => .bool b
    | .error _ => .bool false

/-- A product of two values. -/
def multiplyValues (left right : PyVal) : Outcome :=
  if left matches .none || right matches .none then .ok .none else PyVal.mul left right

/-- What an operator with two operands makes of their values. -/
def onValues : Operator → PyVal → PyVal → Outcome
  | .gt, left, right => .ok (compareValues .gt left right)
  | .lt, left, right => .ok (compareValues .lt left right)
  | .ge, left, right => .ok (compareValues .ge left right)
  | .le, left, right => .ok (compareValues .le left right)
  | .eq, left, right => .ok (.bool (left.beq right))
  | .ne, left, right => .ok (.bool (!left.beq right))
  | .isIn, left, right => .ok (membership left right)
  | .contains, left, right => .ok (membership right left)
  | .mul, left, right => multiplyValues left right
  | _, _, _ => .ok .none

theorem evalComparison_eq (op : PyVal.CmpOp) (xs : List PyVal) (results : List Outcome) :
    evalComparison op (.list xs) results = (do
      let left ← operand (.list xs) results 0
      let right ← operand (.list xs) results 1
      return compareValues op left right) := by
  refine bind_congr fun left => bind_congr fun right => ?_
  -- whether an operand is `None` is decided before or inside the `return`
  have hreturn : ∀ c : Bool, (if c = true then (pure (.bool false) : Outcome)
      else match PyVal.cmp op left right with
        | .ok b => pure (.bool b)
        | .error _ => pure (.bool false)) =
      pure (if c = true then PyVal.bool false
        else match PyVal.cmp op left right with
          | .ok b => .bool b
          | .error _ => .bool false) := by
    intro c
    cases c with
    | true => rfl
    | false => cases PyVal.cmp op left right <;> rfl
  exact hreturn _

/-- A product asks for its operands before it looks at them. -/
theorem evalMultiply_eq (xs : List PyVal) (results : List Outcome) :
    evalMultiply (.list xs) results = (do
      let left ← operand (.list xs) results 0
      let right ← operand (.list xs) results 1
      multiplyValues left right) := by
  unfold evalMultiply multiplyValues
  refine bind_congr fun left => bind_congr fun right => ?_
  rfl

theorem evaluate_binary {op : Operator} (hop : op.arity = 2) (data x y : PyVal)
    (rest : List PyVal) : evaluate data (opNode op (x :: y :: rest)) = (do
      let left ← evaluate data x
      let right ← evaluate data y
      onValues op left right) := by
  rw [evaluate_opNode]
  cases op with
  | var | and | or | inHolidayPeriod => cases hop
  | gt => exact evalComparison_eq .gt _ _
  | lt => exact evalComparison_eq .lt _ _
  | ge => exact evalComparison_eq .ge _ _
  | le => exact evalComparison_eq .le _ _
  | mul => exact evalMultiply_eq _ _
  | eq =>
    refine bind_congr fun left => bind_congr fun right => ?_
    show (.ok (PyVal.bool (xor false (left.beq right))) : Outcome) = _
    rw [Bool.false_xor]
    rfl
  | ne =>
    refine bind_congr fun left => bind_congr fun right => ?_
    show (.ok (PyVal.bool (xor true (left.beq right))) : Outcome) = _
    rw [Bool.true_xor]
    rfl
  | isIn | contains => rfl

theorem evaluate_unary (data x : PyVal) (rest : List PyVal) :
    evaluate data (opNode .inHolidayPeriod (x :: rest)) =
      (fun v => PyVal.bool v.truthy) <$> evaluate data x := by
  rw [evaluate_opNode]
  show (evaluate data x >>= fun v => pure (PyVal.bool v.truthy)) = _
  cases evaluate data x <;> rfl

end RuleEngine

end PulseGuard
