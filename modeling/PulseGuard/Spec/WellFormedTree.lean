import PulseGuard.ForStd.Except
import PulseGuard.Native.Rule

/-!
# Well-formed condition trees

`WellFormed` says that a condition tree is one the engine can walk: every dictionary in
an evaluated position has exactly one key, the key is a registered operator, and the
arguments have the arity and the shape that the operator's evaluator consumes. The
engine raises no `ValueError` on such a tree (`evaluate_wellFormed`), so it never meets
an unknown operator or a malformed node, whatever the data. `RightlyBuilt` asks less of the
path of a lookup: the operators are registered and have enough arguments.

`treeDefects` computes what is wrong with a tree; a tree without defects is a well-formed
one (`treeDefects_eq_nil_iff`).
-/

namespace PulseGuard

namespace Operator

theorem get_symbol (op : Operator) : get op.symbol = .ok op := by
  cases op <;> decide

theorem symbol_of_get {s : String} {op : Operator} (h : get s = .ok op) : s = op.symbol := by
  unfold get at h
  split at h
  · rename_i op' hfind
    cases h
    have hsymbol := List.find?_some hfind
    exact (beq_iff_eq.mp hsymbol).symm
  · cases h

/-- How many arguments the evaluator of an operator consumes. -/
def arity : Operator → Nat
  | var | inHolidayPeriod => 1
  | and | or => 0
  | _ => 2

end Operator

/-- A tree the engine can walk. `var` takes a path, bare or at the head of a list; every
    other operator takes a list with at least the arguments it consumes. -/
inductive WellFormed : PyVal → Prop where
  | literal (v : PyVal) (hv : ∀ entries, v ≠ .dict entries) : WellFormed v
  | path (p : String) : WellFormed (.dict [(Operator.var.symbol, .str p)])
  | node (op : Operator) (args : List PyVal) (harity : op.arity ≤ args.length)
      (hpath : op = .var → ∃ p rest, args = .str p :: rest)
      (hargs : ∀ x ∈ args, WellFormed x) : WellFormed (.dict [(op.symbol, .list args)])

/-- A tree of registered operators with at least the arguments they consume. -/
inductive RightlyBuilt : PyVal → Prop where
  | literal (v : PyVal) (hv : ∀ entries, v ≠ .dict entries) : RightlyBuilt v
  | lookup (args : PyVal) (hargs : args ≠ .list []) :
      RightlyBuilt (.dict [(Operator.var.symbol, args)])
  | node (op : Operator) (args : List PyVal) (hop : op ≠ .var) (harity : op.arity ≤ args.length)
      (hargs : ∀ x ∈ args, RightlyBuilt x) : RightlyBuilt (.dict [(op.symbol, .list args)])

theorem WellFormed.rightlyBuilt {tree : PyVal} (h : WellFormed tree) : RightlyBuilt tree := by
  induction h with
  | literal v hv => exact .literal v hv
  | path p => exact .lookup _ (by simp)
  | node op args harity hpath _ ih =>
    by_cases hop : op = .var
    · subst hop
      obtain ⟨p, rest, rfl⟩ := hpath rfl
      exact .lookup _ (by simp)
    · exact .node op args hop harity ih

/-! ## Evaluation of a tree of registered operators -/

/-- An outcome that is a value, or one of the two exceptions a product can raise. -/
def Benign (outcome : Except PyError α) : Prop :=
  ∀ e, outcome = .error e → ∃ message, e = .typeError message ∨ e = .overflowError message

namespace Benign

theorem ok (a : α) : Benign (.ok a : Except PyError α) := by
  intro e he
  cases he

theorem typeError (message : String) : Benign (.error (.typeError message) : Except PyError α) := by
  intro e he
  cases he
  exact ⟨message, Or.inl rfl⟩

theorem overflowError (message : String) :
    Benign (.error (.overflowError message) : Except PyError α) := by
  intro e he
  cases he
  exact ⟨message, Or.inr rfl⟩

theorem bind {x : Except PyError α} {f : α → Except PyError β} (hx : Benign x)
    (hf : ∀ a, Benign (f a)) : Benign (x >>= f) := by
  cases x with
  | error e =>
    intro e' he'
    cases he'
    exact hx e rfl
  | ok a => exact hf a

theorem ite {c : Prop} [Decidable c] {x y : Except PyError α} (hx : Benign x) (hy : Benign y) :
    Benign (if c then x else y) := by
  split
  · exact hx
  · exact hy

theorem not_valueError {x : Except PyError α} (hx : Benign x) {e : PyError}
    (he : x = .error e) : e.isValueError = false := by
  obtain ⟨message, rfl | rfl⟩ := hx e he
  · rfl
  · rfl

end Benign

namespace RuleEngine

theorem evaluateItems_eq_map (data : PyVal) (xs : List PyVal) :
    evaluateItems data xs = xs.map (evaluate data) := by
  induction xs with
  | nil => rfl
  | cons x xs ih => rw [evaluateItems, ih, List.map_cons]

theorem evaluate_node (data : PyVal) (op : Operator) (args : PyVal) :
    evaluate data (.dict [(op.symbol, args)]) = apply op args data (evaluateArgs data args) := by
  rw [evaluate, Operator.get_symbol]
  rfl

theorem evaluate_literal (data : PyVal) {v : PyVal} (hv : ∀ entries, v ≠ .dict entries) :
    evaluate data v = .ok v := by
  cases v with
  | dict entries => exact absurd rfl (hv entries)
  | _ => rfl

private theorem operand_benign {xs : List PyVal} {results : List Outcome} {i : Nat}
    (hi : i < results.length) (hall : ∀ r ∈ results, Benign r) :
    Benign (operand (.list xs) results i) := by
  show Benign (results[i]?.getD (.error .indexError))
  rw [List.getElem?_eq_getElem hi, Option.getD_some]
  exact hall _ (List.getElem_mem hi)

private theorem allTruthy_benign {rs : List Outcome} (hall : ∀ r ∈ rs, Benign r) :
    Benign (allTruthy rs) := by
  induction rs with
  | nil => exact Benign.ok true
  | cons r rs ih =>
    refine Benign.bind (hall r List.mem_cons_self) fun v => ?_
    split
    · exact ih fun r' hr' => hall r' (List.mem_cons_of_mem _ hr')
    · exact Benign.ok false

private theorem anyTruthy_benign {rs : List Outcome} (hall : ∀ r ∈ rs, Benign r) :
    Benign (anyTruthy rs) := by
  induction rs with
  | nil => exact Benign.ok false
  | cons r rs ih =>
    refine Benign.bind (hall r List.mem_cons_self) fun v => ?_
    split
    · exact Benign.ok true
    · exact ih fun r' hr' => hall r' (List.mem_cons_of_mem _ hr')

private theorem floatOfInt_benign (n : Int) : Benign (PyVal.floatOfInt n) := by
  unfold PyVal.floatOfInt
  split
  · exact Benign.ok _
  · exact Benign.overflowError _

private theorem indexSized_benign (n : Int) : Benign (PyVal.indexSized n) :=
  Benign.ite (Benign.ok _) (Benign.overflowError _)

private theorem notMultipliable_benign (v w : PyVal) :
    Benign (.error (PyVal.notMultipliable v w) : Outcome) := by
  unfold PyVal.notMultipliable
  split <;> exact Benign.typeError _

private theorem mul_benign (v w : PyVal) : Benign (PyVal.mul v w) := by
  unfold PyVal.mul
  split
  · exact Benign.ok _
  · split
    · exact Benign.bind (floatOfInt_benign _) fun _ => Benign.ok _
    · exact notMultipliable_benign _ _
  · split
    · exact Benign.bind (floatOfInt_benign _) fun _ => Benign.ok _
    · exact notMultipliable_benign _ _
  iterate 4
    split
    · exact Benign.bind (indexSized_benign _) fun _ => Benign.ok _
    · exact notMultipliable_benign _ _
  · split
    · exact Benign.ok _
    · exact notMultipliable_benign _ _

private theorem evalComparison_benign (op : PyVal.CmpOp) {xs : List PyVal}
    {results : List Outcome} (hlen : 2 ≤ results.length) (hall : ∀ r ∈ results, Benign r) :
    Benign (evalComparison op (.list xs) results) := by
  refine Benign.bind (operand_benign (by omega) hall) fun left => ?_
  refine Benign.bind (operand_benign (by omega) hall) fun right => ?_
  refine Benign.ite (Benign.ok _) ?_
  split
  · exact Benign.ok _
  · exact Benign.ok _

/-- The path of a lookup, bare or at the head of a list. -/
def pathOf? : PyVal → Option PyVal
  | .list xs => xs.head?
  | path => some path

/-- The value that a dotted path leads to, if there is one. -/
def lookup? (data path : PyVal) : Option PyVal :=
  match path with
  | .none => some data
  | .str "" => some data
  | path => (PyStr.splitOn '.' path.toStr).foldl lookupPart (some data)

/-- A lookup without a path raises, any other gives `None` for what is missing. -/
theorem evalVar_eq (args data : PyVal) : evalVar args data =
    match pathOf? args with
    | some path => .ok ((lookup? data path).getD .none)
    | none => .error .indexError := by
  have hpath : ∀ path : PyVal, (match path with
      | .none => pure data
      | .str "" => pure data
      | p => pure ((List.foldl lookupPart (some data) (PyStr.splitOn '.' p.toStr)).getD .none) :
      Outcome) = .ok ((lookup? data path).getD .none) := by
    intro path
    unfold lookup?
    split
    · rfl
    · rfl
    · rfl
  unfold evalVar pathOf?
  cases args with
  | list xs =>
    cases xs with
    | nil => rfl
    | cons p rest => exact hpath p
  | none => exact hpath .none
  | bool b => exact hpath (.bool b)
  | int n => exact hpath (.int n)
  | float x => exact hpath (.float x)
  | str s => exact hpath (.str s)
  | dict entries => exact hpath (.dict entries)

theorem pathOf?_eq_none_iff {args : PyVal} : pathOf? args = none ↔ args = .list [] := by
  cases args with
  | list xs => simp [pathOf?]
  | _ => simp [pathOf?]

theorem evalVar_benign {args : PyVal} (hargs : args ≠ .list []) (data : PyVal) :
    Benign (evalVar args data) := by
  rw [evalVar_eq]
  cases hpath : pathOf? args with
  | some path => exact Benign.ok _
  | none => exact absurd (pathOf?_eq_none_iff.mp hpath) hargs

/-- Each operator only passes on what its operands raise, and a product may raise itself. -/
private theorem apply_benign (op : Operator) (hop : op ≠ .var) (data : PyVal) {xs : List PyVal}
    {results : List Outcome} (harity : op.arity ≤ results.length)
    (hall : ∀ r ∈ results, Benign r) : Benign (apply op (.list xs) data results) := by
  cases op with
  | var => exact absurd rfl hop
  | and =>
    show Benign (allTruthy results >>= fun b => .ok (PyVal.bool b))
    exact Benign.bind (allTruthy_benign hall) fun b => Benign.ok _
  | or =>
    show Benign (anyTruthy results >>= fun b => .ok (PyVal.bool b))
    exact Benign.bind (anyTruthy_benign hall) fun b => Benign.ok _
  | gt => exact evalComparison_benign .gt harity hall
  | lt => exact evalComparison_benign .lt harity hall
  | ge => exact evalComparison_benign .ge harity hall
  | le => exact evalComparison_benign .le harity hall
  | eq | ne | isIn | contains =>
    have hlen : 2 ≤ results.length := harity
    refine Benign.bind (operand_benign (by omega) hall) fun left => ?_
    exact Benign.bind (operand_benign (by omega) hall) fun right => Benign.ok _
  | mul =>
    have hlen : 2 ≤ results.length := harity
    refine Benign.bind (operand_benign (by omega) hall) fun left => ?_
    refine Benign.bind (operand_benign (by omega) hall) fun right => ?_
    exact Benign.ite (Benign.ok _) (mul_benign left right)
  | inHolidayPeriod =>
    have hlen : 1 ≤ results.length := harity
    exact Benign.bind (operand_benign (by omega) hall) fun v => Benign.ok _

/-- On a tree of registered operators nothing is raised but what a product raises. -/
theorem evaluate_benign {tree : PyVal} (h : RightlyBuilt tree) (data : PyVal) :
    Benign (evaluate data tree) := by
  induction h with
  | literal v hv =>
    rw [evaluate_literal data hv]
    exact Benign.ok v
  | lookup args hargs =>
    rw [evaluate_node]
    exact evalVar_benign hargs data
  | node op args hop harity _ ih =>
    rw [evaluate_node]
    show Benign (apply op (.list args) data (evaluateItems data args))
    rw [evaluateItems_eq_map]
    refine apply_benign op hop data (by rwa [List.length_map]) ?_
    intro r hr
    obtain ⟨x, hx, rfl⟩ := List.mem_map.mp hr
    exact ih x hx

/-- The engine meets no unknown operator and no malformed node in a well-formed tree: it
    raises no `ValueError`, whatever the data. -/
theorem evaluate_wellFormed {tree : PyVal} (h : WellFormed tree) {data : PyVal} {e : PyError}
    (he : evaluate data tree = .error e) : e.isValueError = false :=
  (evaluate_benign h.rightlyBuilt data).not_valueError he

end RuleEngine

/-! ## Defects -/

/-- What can be wrong with a condition tree or with the actions of a rule. -/
inductive Defect where
  | malformedNode (node : PyVal)
  | unknownOperator (operator : String)
  | arguments (op : Operator)
  | priority (value : PyVal)
  | duration (field : String) (value : PyVal)
  | sequencing (key : String)

namespace RuleCondition

/-- What is wrong with the arguments of an operator, its operands apart. -/
def argumentDefects (op : Operator) (args : PyVal) : List Defect :=
  match op, args with
  | .var, .str _ => []
  | .var, .list (.str _ :: _) => []
  | .var, _ => [.arguments .var]
  | op, .list xs => if op.arity ≤ xs.length then [] else [.arguments op]
  | op, _ => [.arguments op]

mutual

/-- The defects of a condition tree, from the root down. -/
def treeDefects : PyVal → List Defect
  | .dict [(operator, args)] =>
    match Operator.get operator with
    | .error _ => [.unknownOperator operator]
    | .ok op => argumentDefects op args ++ argsDefects args
  | .dict entries => [.malformedNode (.dict entries)]
  | _ => []

def argsDefects : PyVal → List Defect
  | .list xs => itemsDefects xs
  | _ => []

def itemsDefects : List PyVal → List Defect
  | [] => []
  | x :: xs => treeDefects x ++ itemsDefects xs

end

theorem itemsDefects_eq_nil_iff (xs : List PyVal) :
    itemsDefects xs = [] ↔ ∀ x ∈ xs, treeDefects x = [] := by
  induction xs with
  | nil => simp [itemsDefects]
  | cons x xs ih => rw [itemsDefects, List.append_eq_nil_iff, ih, List.forall_mem_cons]

private theorem argumentDefects_list {op : Operator} {xs : List PyVal} :
    argumentDefects op (.list xs) = [] ↔
      op.arity ≤ xs.length ∧ (op = .var → ∃ p rest, xs = .str p :: rest) := by
  cases op with
  | var =>
    constructor
    · intro h
      match xs, h with
      | .str p :: rest, _ => exact ⟨by simp [Operator.arity], fun _ => ⟨p, rest, rfl⟩⟩
    · intro ⟨_, hpath⟩
      obtain ⟨p, rest, rfl⟩ := hpath rfl
      rfl
  | _ =>
    unfold argumentDefects
    simp

private theorem node_of_no_defects {operator : String} {args : PyVal}
    (h : treeDefects (.dict [(operator, args)]) = []) :
    ∃ op : Operator, operator = op.symbol ∧ argumentDefects op args = [] ∧
      argsDefects args = [] := by
  unfold treeDefects at h
  cases hop : Operator.get operator with
  | error e =>
    rw [hop] at h
    cases h
  | ok op =>
    rw [hop] at h
    obtain ⟨hshape, hargs⟩ := List.append_eq_nil_iff.mp h
    exact ⟨op, Operator.symbol_of_get hop, hshape, hargs⟩

mutual

private theorem wellFormed_of_no_defects (tree : PyVal) (h : treeDefects tree = []) :
    WellFormed tree := by
  match tree, h with
  | .none, _ | .bool _, _ | .int _, _ | .float _, _ | .str _, _ | .list _, _ =>
    exact .literal _ (by intro entries heq; cases heq)
  | .dict [], h => cases h
  | .dict (_ :: _ :: _), h => cases h
  | .dict [(operator, .list xs)], h =>
    obtain ⟨op, rfl, hshape, hargs⟩ := node_of_no_defects h
    obtain ⟨harity, hpath⟩ := argumentDefects_list.mp hshape
    exact .node op xs harity hpath (wellFormed_of_no_items_defects xs hargs)
  | .dict [(operator, .str p)], h =>
    obtain ⟨op, rfl, hshape, -⟩ := node_of_no_defects h
    cases op with
    | var => exact .path p
    | _ => cases hshape
  | .dict [(operator, .none)], h | .dict [(operator, .bool _)], h | .dict [(operator, .int _)], h
  | .dict [(operator, .float _)], h | .dict [(operator, .dict _)], h =>
    obtain ⟨op, rfl, hshape, -⟩ := node_of_no_defects h
    cases op <;> cases hshape

private theorem wellFormed_of_no_items_defects (xs : List PyVal) (h : itemsDefects xs = []) :
    ∀ x ∈ xs, WellFormed x := by
  match xs, h with
  | [], _ =>
    intro x hx
    cases hx
  | y :: ys, h =>
    rw [itemsDefects, List.append_eq_nil_iff] at h
    intro x hx
    rcases List.mem_cons.mp hx with heq | hx
    · rw [heq]
      exact wellFormed_of_no_defects y h.1
    · exact wellFormed_of_no_items_defects ys h.2 x hx

end

/-- The well-formed trees are those without defects. -/
theorem treeDefects_eq_nil_iff (tree : PyVal) : treeDefects tree = [] ↔ WellFormed tree := by
  constructor
  · exact wellFormed_of_no_defects tree
  · intro h
    induction h with
    | literal v hv =>
      cases v with
      | dict entries => exact absurd rfl (hv entries)
      | _ => rfl
    | path p =>
      unfold treeDefects
      rw [Operator.get_symbol]
      rfl
    | node op args harity hpath _ ih =>
      unfold treeDefects
      rw [Operator.get_symbol]
      show argumentDefects op (.list args) ++ itemsDefects args = []
      rw [List.append_eq_nil_iff]
      exact ⟨argumentDefects_list.mpr ⟨harity, hpath⟩, (itemsDefects_eq_nil_iff args).mpr ih⟩

end RuleCondition

end PulseGuard
