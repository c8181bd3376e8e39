import PulseGuard.ForStd.PyVal

/-!
# The condition engine

`RuleEngine.evaluate` walks a JsonLogic-style tree: a value that is no dictionary
stands for itself, a one-key dictionary applies the operator registered under its
key, anything else is malformed (`app/engine/`).

The engine evaluates an operand when the operator asks for it. Evaluation has no
effect, so the model evaluates the items of a list of arguments up front
(`evaluateItems`) and the operator looks at the results in the source's order, which
keeps which exception escapes and which never arises.
-/

namespace PulseGuard

/-- The operators of `default_registry`. -/
inductive Operator where
  | var | and | or | gt | lt | ge | le | eq | ne | isIn | mul | contains | inHolidayPeriod
deriving DecidableEq

namespace Operator

/-- The key an operator is registered under. -/
def symbol : Operator → String
  | var => "var"
  | and => "and"
  | or => "or"
  | gt => ">"
  | lt => "<"
  | ge => ">="
  | le => "<="
  | eq => "=="
  | ne => "!="
  | isIn => "in"
  | mul => "*"
  | contains => "contains"
  | inHolidayPeriod => "in_holiday_period"

/-- `default_registry`, in registration order. -/
def defaultRegistry : List Operator :=
  [var, and, or, gt, lt, ge, le, eq, ne, isIn, mul, contains, inHolidayPeriod]

/-- `PluginRegistry.get` on the default registry. -/
def get (operator : String) : Except PyError Operator :=
  match defaultRegistry.find? fun op => op.symbol == operator with
  | some op => .ok op
  | none => .error (.valueError ("No evaluator registered for operator '" ++ operator ++ "'"))

end Operator

/-- The outcome of evaluating one node. -/
abbrev Outcome := Except PyError PyVal

namespace RuleEngine

/-- `engine.evaluate(args[i], data)`, where `results` are the outcomes of the items of a
    list of arguments. The characters of a string are strings, which stand for themselves. -/
def operand (args : PyVal) (results : List Outcome) (i : Nat) : Outcome :=
  match args with
  | .list _ => results[i]?.getD (.error .indexError)
  | .str s => match s.toList[i]? with
    | some c => .ok (.str (String.singleton c))
    | none => .error .indexError
  | .dict _ => .error (.keyError (toString i))
  | v => .error v.notSubscriptable

/-- The outcomes `for node in args` goes through. A dictionary yields its keys. -/
def outcomes (args : PyVal) (results : List Outcome) : Except PyError (List Outcome) :=
  match args with
  | .list _ => .ok results
  | .str s => .ok (s.toList.map fun c => .ok (.str (String.singleton c)))
  | .dict entries => .ok (entries.map fun e => .ok (.str e.1))
  | v => .error v.notIterable

/-- `all(bool(r) for r in outcomes)`: stops at the first false one. -/
def allTruthy : List Outcome → Except PyError Bool
  | [] => .ok true
  | r :: rs => do
    if (← r).truthy then allTruthy rs else return false

/-- `any(bool(r) for r in outcomes)`: stops at the first true one. -/
def anyTruthy : List Outcome → Except PyError Bool
  | [] => .ok false
  | r :: rs => do
    if (← r).truthy then return true else anyTruthy rs

/-- One step of a dotted lookup; a missing key gives `None`. -/
def lookupPart (current : Option PyVal) (part : String) : Option PyVal :=
  match current with
  | some (.dict entries) => Assoc.get? part entries
  | _ => none

/-- `VarEvaluator.evaluate` -/
def evalVar (args data : PyVal) : Outcome := do
  let path ← match args with
    | .list xs => match xs.head? with
      | some p => .ok p
      | none => .error .indexError
    | p => .ok p
  match path with
  | .none => return data
  | .str "" => return data
  | p =>
    return ((PyStr.splitOn '.' p.toStr).foldl lookupPart (some data)).getD .none

/-- `_Comparison.evaluate`: `None` on either side and a `TypeError` both give `False`. -/
def evalComparison (op : PyVal.CmpOp) (args : PyVal) (results : List Outcome) : Outcome := do
  let left ← operand args results 0
  let right ← operand args results 1
  if left matches .none || right matches .none then return .bool false
  match PyVal.cmp op left right with
  | .ok b => return .bool b
  | .error _ => return .bool false

/-- `EqualsEvaluator.evaluate`, and `NotEqualsEvaluator.evaluate` with `negate`. -/
def evalEquals (negate : Bool) (args : PyVal) (results : List Outcome) : Outcome := do
  let left ← operand args results 0
  let right ← operand args results 1
  return .bool (xor negate (left.beq right))

/-- `needle in haystack`, with `None` on either side and a `TypeError` giving `False`. -/
def membership (needle haystack : PyVal) : PyVal :=
  if needle matches .none || haystack matches .none then .bool false
  else match PyVal.contains haystack needle with
    | .ok b => .bool b
    | .error _ => .bool false

/-- `InEvaluator.evaluate`: `[needle, haystack]`. -/
def evalIn (args : PyVal) (results : List Outcome) : Outcome := do
  let needle ← operand args results 0
  let haystack ← operand args results 1
  return membership needle haystack

/-- `ContainsEvaluator.evaluate`: `[haystack, needle]`. -/
def evalContains (args : PyVal) (results : List Outcome) : Outcome := do
  let haystack ← operand args results 0
  let needle ← operand args results 1
  return membership needle haystack

/-- `MultiplyEvaluator.evaluate`: `None` when either side is; a `TypeError` is not caught. -/
def evalMultiply (args : PyVal) (results : List Outcome) : Outcome := do
  let left ← operand args results 0
  let right ← operand args results 1
  if left matches .none || right matches .none then return .none
  PyVal.mul left right

/-- `InHolidayPeriodEvaluator.evaluate`: the truth value of the first operand. -/
def evalInHolidayPeriod (args : PyVal) (results : List Outcome) : Outcome := do
  return .bool (← operand args results 0).truthy

/-- The evaluator registered for an operator. -/
def apply (op : Operator) (args data : PyVal) (results : List Outcome) : Outcome :=
  match op with
  | .var => evalVar args data
  | .and => do return .bool (← allTruthy (← outcomes args results))
  | .or => do return .bool (← anyTruthy (← outcomes args results))
  | .gt => evalComparison .gt args results
  | .lt => evalComparison .lt args results
  | .ge => evalComparison .ge args results
  | .le => evalComparison .le args results
  | .eq => evalEquals false args results
  | .ne => evalEquals true args results
  | .isIn => evalIn args results
  | .mul => evalMultiply args results
  | .contains => evalContains args results
  | .inHolidayPeriod => evalInHolidayPeriod args results

/-- What `RuleEngine.evaluate` raises on a dictionary without exactly one key. -/
def malformedNode (node : PyVal) : PyError := .valueError ("Malformed condition node: " ++ node.repr)

mutual

/-- `RuleEngine.evaluate` -/
def evaluate (data : PyVal) : PyVal → Outcome
  | .dict [(operator, args)] => do
    let op ← Operator.get operator
    apply op args data (evaluateArgs data args)
  | .dict entries => .error (malformedNode (.dict entries))
  | node => .ok node

/-- The outcomes of the items of a list of arguments; an operator reads every other
    kind of argument itself. -/
def evaluateArgs (data : PyVal) : PyVal → List Outcome
  | .list xs => evaluateItems data xs
  | _ => []

def evaluateItems (data : PyVal) : List PyVal → List Outcome
  | [] => []
  | x :: xs => evaluate data x :: evaluateItems data xs

end

end RuleEngine

end PulseGuard
