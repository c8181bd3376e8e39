import PulseGuard.ForStd.Dict
import PulseGuard.ForStd.PyFloat
import PulseGuard.ForStd.PyStr

/-!
# Python values built from JSON data

`PyVal` is what `json.loads` produces: `None`, booleans, integers, floats, strings,
lists and dictionaries with string keys. The operators are Python's own on these
types: truth value, `==`, the orderings, `in`, `*`, `str()` and `repr()`.

A `bool` is an `int`, so `True == 1 == 1.0`. Dictionaries compare without regard to
order. Containers compare their items by `==`; CPython looks at object identity
first, which differs only for a `nan` compared with itself (`sameItem` and `sameDict` do so
too).
-/

inductive PyVal where
  | none
  | bool (b : Bool)
  | int (n : Int)
  | float (x : PyFloat)
  | str (s : String)
  | list (xs : List PyVal)
  | dict (entries : List (String × PyVal))
deriving Inhabited

/-- Exceptions: the built-in classes by name, with their text where a program shows it,
    and `userError` for a class a program defines or imports. -/
inductive PyError where
  | valueError (message : String)
  | typeError (message : String)
  | keyError (key : String)
  | indexError
  | attributeError
  | overflowError (message : String)
  | userError (cls message : String)
deriving DecidableEq

namespace PyError

/-- Caught by `except ValueError`. -/
def isValueError : PyError → Bool
  | valueError _ => true
  | _ => false

end PyError

namespace PyVal

/-- `bool(v)` -/
def truthy : PyVal → Bool
  | none => false
  | bool b => b
  | int n => n != 0
  | float x => !x.beq (.fin 0)
  | str s => s != ""
  | list xs => !xs.isEmpty
  | dict entries => !entries.isEmpty

/-- `v or w` -/
def orElse (v w : PyVal) : PyVal := if v.truthy then v else w

/-- The string, of a value that is one. -/
def str? : PyVal → Option String
  | str s => some s
  | _ => Option.none

/-- The number a value stands for in a comparison; `bool` is a subtype of `int`. -/
def num? : PyVal → Option PyFloat
  | bool b => some (.fin (if b then 1 else 0))
  | int n => some (.fin n)
  | float x => some x
  | _ => Option.none

/-- The integer a value stands for where Python wants one. -/
def int? : PyVal → Option Int
  | bool b => some (if b then 1 else 0)
  | int n => some n
  | _ => Option.none

/-- `isinstance(v, bool)` -/
def isBool : PyVal → Bool
  | bool _ => true
  | _ => false

/-- `type(v).__name__` -/
def typeName : PyVal → String
  | none => "NoneType"
  | bool _ => "bool"
  | int _ => "int"
  | float _ => "float"
  | str _ => "str"
  | list _ => "list"
  | dict _ => "dict"

/-- What `for _ in v` raises when `v` has no items. -/
def notIterable (v : PyVal) : PyError := .typeError ("'" ++ v.typeName ++ "' object is not iterable")

/-- What `v[i]` raises when `v` has no items. -/
def notSubscriptable (v : PyVal) : PyError :=
  .typeError ("'" ++ v.typeName ++ "' object is not subscriptable")

/-- What an operator raises on two types it is not defined for. -/
def unsupported (symbol : String) (v w : PyVal) : PyError :=
  .typeError ("unsupported operand type(s) for " ++ symbol ++ ": '" ++ v.typeName ++ "' and '" ++
    w.typeName ++ "'")

/-- Lists and dictionaries have no hash, so they can be no key and no set member. -/
def hashable : PyVal → Bool
  | list _ | dict _ => false
  | _ => true

mutual

/-- `v == w` -/
def beq : PyVal → PyVal → Bool
  | none, w => match w with
    | none => true
    | _ => false
  | str s, w => match w with
    | str t => s == t
    | _ => false
  | list xs, w => match w with
    | list ys => beqList xs ys
    | _ => false
  | dict d, w => match w with
    | dict e => d.length == e.length && beqEntries d e
    | _ => false
  | bool b, w => match w.num? with
    | some y => PyFloat.beq (.fin (if b then 1 else 0)) y
    | Option.none => false
  | int n, w => match w.num? with
    | some y => PyFloat.beq (.fin n) y
    | Option.none => false
  | float x, w => match w.num? with
    | some y => x.beq y
    | Option.none => false

/-- Equal lengths and equal items. -/
def beqList : List PyVal → List PyVal → Bool
  | [], ys => ys.isEmpty
  | x :: xs, ys => match ys with
    | [] => false
    | y :: ys' => beq x y && beqList xs ys'

/-- Every entry of the first dictionary is, up to `==`, one of the second. -/
def beqEntries : List (String × PyVal) → List (String × PyVal) → Bool
  | [], _ => true
  | (k, v) :: rest, e =>
    (match Assoc.get? k e with
      | some w => beq v w
      | Option.none => false) && beqEntries rest e

end

mutual

/-- Values of one structure. Where equal parts are one object, that is what `is` finds. -/
def identical : PyVal → PyVal → Bool
  | none, none => true
  | bool b, bool c => b == c
  | int m, int n => m == n
  | float x, float y => decide (x = y)
  | str s, str t => s == t
  | list xs, list ys => identicalList xs ys
  | dict d, dict e => identicalEntries d e
  | _, _ => false

def identicalList : List PyVal → List PyVal → Bool
  | [], [] => true
  | x :: xs, y :: ys => identical x y && identicalList xs ys
  | _, _ => false

def identicalEntries : List (String × PyVal) → List (String × PyVal) → Bool
  | [], [] => true
  | (k, v) :: d, (l, w) :: e => k == l && identical v w && identicalEntries d e
  | _, _ => false

end

mutual

@[simp] theorem identical_self : (v : PyVal) → identical v v = true
  | none => rfl
  | bool b => by simp [identical]
  | int n => by simp [identical]
  | float x => by simp [identical]
  | str s => by simp [identical]
  | list xs => identicalList_self xs
  | dict d => identicalEntries_self d

theorem identicalList_self : (xs : List PyVal) → identicalList xs xs = true
  | [] => rfl
  | x :: xs => by simp [identicalList, identical_self x, identicalList_self xs]

theorem identicalEntries_self : (d : List (String × PyVal)) → identicalEntries d d = true
  | [] => rfl
  | (k, v) :: d => by simp [identicalEntries, identical_self v, identicalEntries_self d]

end

/-- How a container compares two items: `v is w or v == w`. -/
def sameItem (v w : PyVal) : Bool := v.identical w || v.beq w

@[simp] theorem sameItem_self (v : PyVal) : v.sameItem v = true := by simp [sameItem]

/-- `v == w` of values that may be one object: only a float is compared with itself. -/
def sameValue (v w : PyVal) : Bool :=
  match v with
  | float _ => v.beq w
  | _ => v.sameItem w

theorem sameValue_self_iff {v : PyVal} : v.sameValue v = true ↔ v ≠ float .nan := by
  cases v with
  | float x =>
    rw [Ne, float.injEq]
    exact PyFloat.beq_self_iff
  | _ => simp [sameValue]

/-- `d == e` of dictionaries, whose equal values may be one object. -/
def sameDict (d e : Dict String PyVal) : Bool :=
  d.entries.length == e.entries.length &&
    d.entries.all fun entry => (e.get? entry.1).any entry.2.sameItem

@[simp] theorem sameDict_self (d : Dict String PyVal) : sameDict d d = true := by
  rw [sameDict, Bool.and_eq_true, beq_iff_eq, List.all_eq_true]
  refine ⟨rfl, ?_⟩
  rintro ⟨k, v⟩ hmem
  rw [(d.get?_eq_some_iff).mpr hmem]
  exact sameItem_self v

/-- The four ordering operators. -/
inductive CmpOp where
  | lt | le | gt | ge
deriving DecidableEq

namespace CmpOp

/-- The operator on anything ordered by `lt` and compared by `eq`. -/
def apply (op : CmpOp) (lt eq gt : Bool) : Bool :=
  match op with
  | .lt => lt
  | .le => lt || eq
  | .gt => gt
  | .ge => gt || eq

/-- Numbers, exactly; every ordering with `nan` is false. -/
def onNum (op : CmpOp) (x y : PyFloat) : Bool := op.apply (x.blt y) (x.beq y) (y.blt x)

/-- Strings, by code points. -/
def onStr (op : CmpOp) (s t : String) : Bool :=
  op.apply (decide (s < t)) (s == t) (decide (t < s))

/-- What the operator raises on two types it does not order. -/
def unsupported (op : CmpOp) (v w : PyVal) : PyError :=
  let symbol := match op with
    | .lt => "<"
    | .le => "<="
    | .gt => ">"
    | .ge => ">="
  .typeError ("'" ++ symbol ++ "' not supported between instances of '" ++ v.typeName ++
    "' and '" ++ w.typeName ++ "'")

/-- Lengths, once one list has run out. -/
def onLength (op : CmpOp) (m n : Nat) : Bool := op.apply (decide (m < n)) (m == n) (decide (n < m))

end CmpOp

mutual

/-- `v < w`, `v <= w`, `v > w`, `v >= w`: numbers with numbers, strings with strings,
    lists with lists; anything else raises `TypeError`. -/
def cmp (op : CmpOp) : PyVal → PyVal → Except PyError Bool
  | str s, w => match w with
    | str t => .ok (op.onStr s t)
    | _ => .error (op.unsupported (str s) w)
  | list xs, w => match w with
    | list ys => cmpList op xs ys
    | _ => .error (op.unsupported (list xs) w)
  | none, w => .error (op.unsupported none w)
  | dict d, w => .error (op.unsupported (dict d) w)
  | bool b, w => match w.num? with
    | some y => .ok (op.onNum (.fin (if b then 1 else 0)) y)
    | Option.none => .error (op.unsupported (bool b) w)
  | int n, w => match w.num? with
    | some y => .ok (op.onNum (.fin n) y)
    | Option.none => .error (op.unsupported (int n) w)
  | float x, w => match w.num? with
    | some y => .ok (op.onNum x y)
    | Option.none => .error (op.unsupported (float x) w)

/-- Lists are ordered by their first unequal items, else by length. -/
def cmpList (op : CmpOp) : List PyVal → List PyVal → Except PyError Bool
  | [], ys => .ok (op.onLength 0 ys.length)
  | x :: xs, ys => match ys with
    | [] => .ok (op.onLength (xs.length + 1) 0)
    | y :: ys' => if beq x y then cmpList op xs ys' else cmp op x y

end

/-- `needle in haystack` -/
def contains (haystack needle : PyVal) : Except PyError Bool :=
  match haystack with
  | str s => match needle with
    | str t => .ok (PyStr.contains s t)
    | v => .error (.typeError ("'in <string>' requires string as left operand, not " ++ v.typeName))
  | list xs => .ok (xs.any fun x => beq x needle)
  | dict entries =>
    if needle.hashable then .ok (entries.any fun e => beq (str e.1) needle)
    else .error (.typeError ("unhashable type: '" ++ needle.typeName ++ "'"))
  | v => .error v.notIterable

/-- `float(n)`; integers past the largest double raise. -/
def floatOfInt (n : Int) : Except PyError PyFloat :=
  match PyFloat.ofRat n with
  | .fin q => .ok (.fin q)
  | _ => .error (.overflowError "int too large to convert to float")

/-- An integer where Python wants a count: one that has no 64 bits raises. -/
def indexSized (n : Int) : Except PyError Int :=
  if -2 ^ 63 ≤ n ∧ n < 2 ^ 63 then .ok n
  else .error (.overflowError "cannot fit 'int' into an index-sized integer")

/-- `s * n` for a string or a list, where there is memory for it. -/
def replicate (n : Int) (xs : List α) : List α := (List.replicate n.toNat xs).flatten

/-- What `v * w` raises on two types it is not defined for. -/
def notMultipliable (v w : PyVal) : PyError :=
  match v, w with
  | str _, _ | list _, _ =>
    .typeError ("can't multiply sequence by non-int of type '" ++ w.typeName ++ "'")
  | _, str _ | _, list _ =>
    .typeError ("can't multiply sequence by non-int of type '" ++ v.typeName ++ "'")
  | _, _ => unsupported "*" v w

/-- `v * w`: numbers multiply, a string or list repeats, anything else raises. -/
def mul (v w : PyVal) : Except PyError PyVal :=
  match v, w with
  | float x, float y => .ok (float (x.mul y))
  | float x, _ => match w.int? with
    | some n => do return float (x.mul (← floatOfInt n))
    | Option.none => .error (notMultipliable v w)
  | _, float y => match v.int? with
    | some n => do return float ((← floatOfInt n).mul y)
    | Option.none => .error (notMultipliable v w)
  | str s, _ => match w.int? with
    | some n => do return str (String.ofList (replicate (← indexSized n) s.toList))
    | Option.none => .error (notMultipliable v w)
  | list xs, _ => match w.int? with
    | some n => do return list (replicate (← indexSized n) xs)
    | Option.none => .error (notMultipliable v w)
  | _, str s => match v.int? with
    | some n => do return str (String.ofList (replicate (← indexSized n) s.toList))
    | Option.none => .error (notMultipliable v w)
  | _, list xs => match v.int? with
    | some n => do return list (replicate (← indexSized n) xs)
    | Option.none => .error (notMultipliable v w)
  | _, _ => match v.int?, w.int? with
    | some m, some n => .ok (int (m * n))
    | _, _ => .error (notMultipliable v w)

/-- `repr(s)` of a string. Characters outside ASCII are taken as printable. -/
def reprStr (s : String) : String :=
  let single := Char.ofNat 39
  let double := Char.ofNat 34
  let quote := if s.toList.contains single && !s.toList.contains double then double else single
  let hex (n : Nat) := "\\x" ++ String.ofList ((Nat.toDigits 16 (n / 16)) ++ Nat.toDigits 16 (n % 16))
  let escape (c : Char) : String :=
    if c == quote || c.toNat == 92 then "\\" ++ String.singleton c
    else if c.toNat == 10 then "\\n"
    else if c.toNat == 13 then "\\r"
    else if c.toNat == 9 then "\\t"
    else if c.toNat < 32 || c.toNat == 127 then hex c.toNat
    else String.singleton c
  String.singleton quote ++ String.join (s.toList.map escape) ++ String.singleton quote

mutual

/-- `repr(v)` -/
def repr : PyVal → String
  | none => "None"
  | bool b => if b then "True" else "False"
  | int n => toString n
  | float x => x.repr
  | str s => reprStr s
  | list xs => "[" ++ String.intercalate ", " (reprList xs) ++ "]"
  | dict entries => "\x7b" ++ String.intercalate ", " (reprEntries entries) ++ "\x7d"

def reprList : List PyVal → List String
  | [] => []
  | x :: xs => repr x :: reprList xs

def reprEntries : List (String × PyVal) → List String
  | [] => []
  | (k, v) :: rest => (reprStr k ++ ": " ++ repr v) :: reprEntries rest

end

/-- `str(v)` -/
def toStr : PyVal → String
  | str s => s
  | v => repr v

end PyVal

/-- `str(exc)` -/
def PyError.text : PyError → String
  | .valueError message => message
  | .typeError message => message
  | .keyError key => PyVal.reprStr key
  | .indexError => "list index out of range"
  | .attributeError => "object has no attribute"
  | .overflowError message => message
  | .userError _ message => message
