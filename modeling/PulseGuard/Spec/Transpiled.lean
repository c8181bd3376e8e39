import PulseGuard.ForStd.PyList
import PulseGuard.Native.RulePacks.Sla
import PulseGuard.Native.RulePacks.Vast
import PulseGuard.Spec.EngineNodes

/-!
# Transpiled conditions

The loaders of the customer SLA rules and of the customer request rules transpile authored
conditions, a field, an operator and a value each, to condition trees. Here the authored
conditions get a meaning of their own, without trees, and the trees have it on all data
(`vast_faithful`, `sla_faithful`), so that a rule fires exactly where its author says.
-/

namespace PulseGuard

open RuleEngine

namespace Authored

/-! ## What authored conditions mean -/

/-- The value of a field of the data; a missing one is `None`. -/
def fieldValue (data : PyVal) (field : String) : PyVal := (lookup? data (.str field)).getD .none

/-- Two values are in an order. None is with a missing value, or between values of types that
    cannot be compared. -/
def inOrder (op : PyVal.CmpOp) (left right : PyVal) : Bool :=
  !(left matches .none || right matches .none) && (PyVal.cmp op left right).toOption.getD false

/-- A value is in a collection; nothing is in what is none. -/
def isMember (needle haystack : PyVal) : Bool :=
  !(needle matches .none || haystack matches .none) &&
    (PyVal.contains haystack needle).toOption.getD false

/-- What an authored operator asks of the field's value and the condition's. -/
abbrev Relation := PyVal → PyVal → Bool

/-! ## What trees make of it -/

theorem compareValues_eq (op : PyVal.CmpOp) (left right : PyVal) :
    compareValues op left right = .bool (inOrder op left right) := by
  unfold compareValues inOrder
  cases (left matches .none || right matches .none) with
  | true => rfl
  | false => cases PyVal.cmp op left right <;> rfl

theorem membership_eq (needle haystack : PyVal) :
    membership needle haystack = .bool (isMember needle haystack) := by
  unfold membership isMember
  cases (needle matches .none || haystack matches .none) with
  | true => rfl
  | false => cases PyVal.contains haystack needle <;> rfl

theorem evaluate_var (data : PyVal) (field : String) :
    evaluate data (Fixture.var field) = .ok (fieldValue data field) := by
  show evaluate data (.dict [(Operator.var.symbol, .str field)]) = _
  rw [evaluate_node]
  show evalVar (.str field) data = _
  rw [evalVar_eq]
  rfl

/-- The node of an operator over a field has the meaning of a relation. -/
def Means (op : Operator) (rel : Relation) (y : PyVal) : Prop :=
  ∀ (data : PyVal) (field : String), evaluate data (opNode op [Fixture.var field, y]) =
    (fun value => .bool (rel (fieldValue data field) value)) <$> evaluate data y

theorem means_of_onValues {op : Operator} {rel : Relation} (harity : op.arity = 2)
    (h : ∀ left right, onValues op left right = .ok (.bool (rel left right))) (y : PyVal) :
    Means op rel y := by
  intro data field
  rw [evaluate_binary harity, evaluate_var]
  simp only [Except.ok_bind, h]
  cases evaluate data y <;> rfl

theorem means_order (y : PyVal) : Means .gt (inOrder .gt) y ∧ Means .lt (inOrder .lt) y ∧
    Means .ge (inOrder .ge) y ∧ Means .le (inOrder .le) y := by
  refine ⟨means_of_onValues rfl ?_ y, means_of_onValues rfl ?_ y, means_of_onValues rfl ?_ y,
    means_of_onValues rfl ?_ y⟩
  all_goals
    intro left right
    exact congrArg Except.ok (compareValues_eq _ left right)

theorem means_eq (y : PyVal) : Means .eq (fun left right => left.beq right) y :=
  means_of_onValues rfl (fun _ _ => rfl) y

theorem means_ne (y : PyVal) : Means .ne (fun left right => !left.beq right) y :=
  means_of_onValues rfl (fun _ _ => rfl) y

theorem means_isIn (y : PyVal) : Means .isIn isMember y := by
  refine means_of_onValues rfl ?_ y
  intro left right
  exact congrArg Except.ok (membership_eq left right)

theorem means_contains (y : PyVal) : Means .contains (fun left right => isMember right left) y := by
  refine means_of_onValues rfl ?_ y
  intro left right
  exact congrArg Except.ok (membership_eq right left)

/-- The holiday operator does not look at the condition's value. -/
theorem means_inHolidayPeriod {y : PyVal} (hy : ∀ entries, y ≠ .dict entries) :
    Means .inHolidayPeriod (fun left _ => left.truthy) y := by
  intro data field
  rw [evaluate_unary, evaluate_var, evaluate_literal data hy]
  rfl

/-! ## Tables of operators -/

/-- An operator's symbol in a table of a loader has the meaning of a relation. -/
def Stands (y : PyVal) (symbol : String) (rel : Relation) : Prop :=
  ∃ op : Operator, symbol = op.symbol ∧ op ≠ .var ∧ op.arity ≤ 2 ∧ Means op rel y

/-- Two tables with the same keys, in the same order, and related values. -/
abbrev Tables (R : String → Relation → Prop) : List (String × String) → List (String × Relation) →
    Prop := List.Forall₂ fun entry entry' => entry.1 = entry'.1 ∧ R entry.2 entry'.2

theorem Tables.get? {R : String → Relation → Prop} {symbols : List (String × String)}
    {relations : List (String × Relation)} (h : Tables R symbols relations) (key : String) :
    (Assoc.get? key symbols = none ∧ Assoc.get? key relations = none) ∨
      ∃ symbol rel, Assoc.get? key symbols = some symbol ∧ Assoc.get? key relations = some rel ∧
        R symbol rel := by
  induction h with
  | nil => exact .inl ⟨rfl, rfl⟩
  | @cons entry entry' symbols relations hentry _ ih =>
    obtain ⟨name, symbol⟩ := entry
    obtain ⟨name', rel⟩ := entry'
    obtain ⟨rfl, hR⟩ := hentry
    unfold Assoc.get?
    by_cases hkey : name = key
    · rw [if_pos hkey, if_pos hkey]
      exact .inr ⟨symbol, rel, rfl, rfl, hR⟩
    · rw [if_neg hkey, if_neg hkey]
      exact ih

/-- A node of a table's operator is one that the engine can walk. -/
theorem wellFormed_node {op : Operator} (hvar : op ≠ .var) (harity : op.arity ≤ 2) (field : String)
    {y : PyVal} (hy : WellFormed y) : WellFormed (opNode op [Fixture.var field, y]) := by
  refine .node op _ harity (fun h => absurd h hvar) fun x hx => ?_
  cases List.mem_cons.mp hx with
  | inl heq =>
    rw [heq]
    exact .path field
  | inr hmem =>
    rw [List.mem_singleton.mp hmem]
    exact hy

/-! ## Lists of conditions -/

theorem settle_false_eq_allM {α : Type} (p : α → Except PyError Bool) (xs : List α) :
    settle false (xs.map fun x => PyVal.bool <$> p x) = xs.allM p := by
  induction xs with
  | nil => rfl
  | cons x xs ih =>
    rw [List.map_cons, settle, List.allM, ih]
    cases p x with
    | error e => rfl
    | ok b => cases b <;> rfl

theorem settle_true_eq_anyM {α : Type} (p : α → Except PyError Bool) (xs : List α) :
    settle true (xs.map fun x => PyVal.bool <$> p x) = xs.anyM p := by
  induction xs with
  | nil => rfl
  | cons x xs ih =>
    rw [List.map_cons, settle, List.anyM, ih]
    cases p x with
    | error e => rfl
    | ok b => cases b <;> rfl

/-- Conditions that must all hold, or one of which must: later ones are not asked for once it is
    decided. -/
def combine {α : Type} (all : Bool) (p : α → Except PyError Bool) (xs : List α) :
    Except PyError Bool := if all then xs.allM p else xs.anyM p

/-- Conditions that come to a truth value each come to one together. -/
theorem combine_ok {α : Type} (all : Bool) (p : α → Bool) (xs : List α) :
    combine all (fun x => .ok (p x)) xs = .ok (if all then xs.all p else xs.any p) := by
  unfold combine
  induction xs with
  | nil => cases all <;> rfl
  | cons x xs ih =>
    cases all with
    | true =>
      rw [if_pos rfl, if_pos rfl] at ih ⊢
      rw [List.allM, ih, List.all_cons]
      cases p x <;> rfl
    | false =>
      rw [if_neg (by decide), if_neg (by decide)] at ih ⊢
      rw [List.anyM, ih, List.any_cons]
      cases p x <;> rfl

theorem combine_singleton {α : Type} (all : Bool) (p : α → Except PyError Bool) (x : α) :
    combine all p [x] = p x := by
  unfold combine List.allM List.anyM
  cases p x with
  | error e => cases all <;> rfl
  | ok b => cases all <;> cases b <;> rfl

/-- The operator that combines conditions. -/
def combinator (all : Bool) : Operator := if all then .and else .or

/-- The tree of some nodes: the node itself, if there is one. -/
def combined (all : Bool) : List PyVal → PyVal
  | [n] => n
  | nodes => opNode (combinator all) nodes

theorem combined_means {α : Type} (all : Bool) {data : PyVal} {p : α → Except PyError Bool}
    {xs : List α} {nodes : List PyVal}
    (h : List.Forall₂ (fun x n => evaluate data n = PyVal.bool <$> p x) xs nodes) :
    evaluate data (combined all nodes) = PyVal.bool <$> combine all p xs := by
  have hmap : nodes.map (evaluate data) = xs.map fun x => PyVal.bool <$> p x := by
    induction h with
    | nil => rfl
    | cons hx _ ih => rw [List.map_cons, List.map_cons, hx, ih]
  have hjunction : evaluate data (opNode (combinator all) nodes) =
      PyVal.bool <$> combine all p xs := by
    cases all with
    | true =>
      rw [combinator, if_pos rfl, evaluate_junction rfl, hmap, settle_false_eq_allM]
      rfl
    | false =>
      rw [combinator, if_neg (by decide), evaluate_junction rfl, hmap, settle_true_eq_anyM]
      rfl
  -- A single node stands for itself, with no junction around it.
  cases h with
  | nil => exact hjunction
  | cons hx hrest =>
    cases hrest with
    | nil =>
      rw [combine_singleton]
      exact hx
    | cons => exact hjunction

theorem wellFormed_combined (all : Bool) {nodes : List PyVal} (h : ∀ n ∈ nodes, WellFormed n) :
    WellFormed (combined all nodes) := by
  have hjunction : WellFormed (opNode (combinator all) nodes) := by
    refine .node _ nodes ?_ ?_ h
    · cases all <;> exact Nat.zero_le _
    · cases all <;> intro hvar <;> cases hvar
  unfold combined
  split
  · exact h _ List.mem_cons_self
  · exact hjunction

/-- The engine passes on what a well-formed tree comes to. -/
theorem isSatisfiedBy_of_means {tree data : PyVal} {outcome : Except PyError Bool}
    (htree : WellFormed tree) (h : evaluate data tree = PyVal.bool <$> outcome) :
    (RuleCondition.mk tree).isSatisfiedBy data = outcome := by
  unfold RuleCondition.isSatisfiedBy
  simp only [h]
  cases outcome with
  | ok b => rfl
  | error e =>
    have hnot : e.isValueError = false := evaluate_wellFormed htree h
    show (if e.isValueError then _ else _) = _
    rw [hnot]
    rfl

end Authored

open Authored

/-! ## The customer request rules -/

namespace VastRulePack

/-- What the authored operators mean. A holiday period takes no value. -/
def relations : List (String × Relation) := [
  ("equals", fun left right => left.beq right),
  ("lte", inOrder .le),
  ("gte", inOrder .ge),
  ("lt", inOrder .lt),
  ("gt", inOrder .gt),
  ("in", isMember),
  ("contains", fun left right => isMember right left),
  ("in_holiday_period", fun left _ => left.truthy)]

/-- A condition holds of some data. -/
def Condition.holds (data : PyVal) (c : Condition) : Bool :=
  match Assoc.get? c.op relations with
  | some rel => rel (fieldValue data c.field) c.value
  | none => false

namespace When

def conditions : When → List Condition
  | .all conditions => conditions
  | .any conditions => conditions

/-- All the conditions hold, or one of them does. -/
def holds (data : PyVal) : When → Bool
  | .all conditions => conditions.all (·.holds data)
  | .any conditions => conditions.any (·.holds data)

def isAll : When → Bool
  | .all _ => true
  | .any _ => false

end When

theorem tables {y : PyVal} (hy : ∀ entries, y ≠ .dict entries) :
    Tables (Stands y) operatorMap relations := by
  obtain ⟨hgt, hlt, hge, hle⟩ := means_order y
  exact .cons ⟨rfl, .eq, rfl, by decide, by decide, means_eq y⟩ <|
    .cons ⟨rfl, .le, rfl, by decide, by decide, hle⟩ <|
    .cons ⟨rfl, .ge, rfl, by decide, by decide, hge⟩ <|
    .cons ⟨rfl, .lt, rfl, by decide, by decide, hlt⟩ <|
    .cons ⟨rfl, .gt, rfl, by decide, by decide, hgt⟩ <|
    .cons ⟨rfl, .isIn, rfl, by decide, by decide, means_isIn y⟩ <|
    .cons ⟨rfl, .contains, rfl, by decide, by decide, means_contains y⟩ <|
    .cons ⟨rfl, .inHolidayPeriod, rfl, by decide, by decide, means_inHolidayPeriod hy⟩ .nil

/-- The exception for an operator that no table has. -/
def unsupported (op : String) : PyError :=
  .valueError ("Unsupported condition operator '" ++ op ++ "' in customer_sla_rules_vast.json")

/-- A node has the meaning of a condition whose operator is known. -/
structure Condition.Node (c : Condition) (n : PyVal) : Prop where
  known : Assoc.get? c.op relations ≠ none
  wellFormed : WellFormed n
  means : ∀ data, evaluate data n = PyVal.bool <$> (.ok (c.holds data) : Except PyError Bool)

/-- One condition becomes a node with its meaning, unless its operator is unknown. -/
theorem conditionNode_cases {c : Condition} (hliteral : ∀ entries, c.value ≠ .dict entries) :
    (∃ e, conditionNode c = .error e ∧ Assoc.get? c.op relations = none ∧ e = unsupported c.op) ∨
      ∃ n, conditionNode c = .ok n ∧ c.Node n := by
  unfold conditionNode
  cases (tables hliteral).get? c.op with
  | inl hnone =>
    rw [hnone.1]
    exact .inl ⟨_, rfl, hnone.2, rfl⟩
  | inr hsome =>
    obtain ⟨symbol, rel, hsymbol, hrel, op, rfl, hvar, harity, hmeans⟩ := hsome
    rw [hsymbol]
    have hknown : Assoc.get? c.op relations ≠ none := by simp [hrel]
    have hwellFormed := wellFormed_node hvar harity c.field (.literal c.value hliteral)
    refine .inr ⟨_, rfl, hknown, hwellFormed, fun data => ?_⟩
    show evaluate data (opNode op [Fixture.var c.field, c.value]) = _
    rw [hmeans, evaluate_literal data hliteral, Condition.holds, hrel]
    rfl

theorem whenToJsonlogic_eq (w : When) : whenToJsonlogic w =
    combined w.isAll <$> w.conditions.mapM conditionNode := by
  -- Both kinds look at the number of nodes in the same way.
  cases w
  all_goals
    show (List.mapM conditionNode _ >>= fun nodes => _) = _ <$> List.mapM conditionNode _
    simp only [When.conditions]
    cases List.mapM conditionNode _ with
    | error e => rfl
    | ok nodes =>
      cases nodes with
      | nil => rfl
      | cons n rest => cases rest <;> rfl

theorem When.holds_eq (data : PyVal) (w : When) :
    combine w.isAll (fun c => .ok (Condition.holds data c)) w.conditions = .ok (w.holds data) := by
  rw [combine_ok]
  cases w <;> rfl

/-- The tree of a `when` part has its meaning, unless it has an unknown operator. -/
theorem whenToJsonlogic_cases {w : When}
    (hliteral : ∀ c ∈ w.conditions, ∀ entries, c.value ≠ .dict entries) :
    (∃ tree, whenToJsonlogic w = .ok tree ∧ WellFormed tree ∧
      ∀ data, evaluate data tree = PyVal.bool <$> (.ok (w.holds data) : Except PyError Bool)) ∨
    ∃ before c after, w.conditions = before ++ c :: after ∧
      (∀ c' ∈ before, Assoc.get? c'.op relations ≠ none) ∧ Assoc.get? c.op relations = none ∧
      whenToJsonlogic w = .error (unsupported c.op) := by
  rw [whenToJsonlogic_eq]
  -- Either every condition has a node, or the first that has none raises.
  cases Except.mapM_cases fun c hc => conditionNode_cases (hliteral c hc) with
  | inl hok =>
    obtain ⟨nodes, hnodes, hall⟩ := hok
    rw [hnodes]
    have hwellFormed : WellFormed (combined w.isAll nodes) := by
      apply wellFormed_combined
      intro n hn
      obtain ⟨c, -, hnode⟩ := PyList.exists_left_of_forall₂ hall hn
      exact hnode.wellFormed
    refine .inl ⟨_, rfl, hwellFormed, fun data => ?_⟩
    rw [← When.holds_eq]
    exact combined_means w.isAll (hall.imp fun c n hnode => hnode.means data)
  | inr herror =>
    obtain ⟨before, c, after, e, hsplit, hbefore, ⟨hc, rfl⟩, he⟩ := herror
    rw [he]
    refine .inr ⟨before, c, after, hsplit, fun c' hc' => ?_, hc, rfl⟩
    obtain ⟨n, hnode⟩ := hbefore c' hc'
    exact hnode.known

/-- **The request rules mean what they say.** A rule whose values are literals is transpiled to
    a condition that fires on the data on which its `when` part holds, or its first unknown
    operator is reported. -/
theorem vast_faithful (r : VastRule)
    (hliteral : ∀ c ∈ r.condition.conditions, ∀ entries, c.value ≠ .dict entries) :
    (∃ rule, transpile r = .ok rule ∧ WellFormed rule.conditions.tree ∧
      ∀ data, rule.conditions.isSatisfiedBy data = .ok (r.condition.holds data)) ∨
    ∃ before c after, r.condition.conditions = before ++ c :: after ∧
      (∀ c' ∈ before, Assoc.get? c'.op relations ≠ none) ∧ Assoc.get? c.op relations = none ∧
      transpile r = .error (unsupported c.op) := by
  cases whenToJsonlogic_cases hliteral with
  | inl hok =>
    obtain ⟨tree, htree, hwellFormed, hmeans⟩ := hok
    unfold transpile
    rw [htree]
    exact .inl ⟨_, rfl, hwellFormed, fun data => isSatisfiedBy_of_means hwellFormed (hmeans data)⟩
  | inr herror =>
    obtain ⟨before, c, after, hsplit, hbefore, hc, he⟩ := herror
    unfold transpile
    rw [he]
    exact .inr ⟨before, c, after, hsplit, hbefore, hc, rfl⟩

/-- A rule of one condition. -/
theorem vast_faithful_oneCondition : ∃ rule, transpile
      { ruleId := "CSR-020", name := "VIP Escalation", priority := 97, decision := "approve",
        action := "vip_queue", scoreDelta := 28, reason := "",
        condition := .any [⟨"customer.tags", "contains", .str "vip"⟩] } = .ok rule ∧
    ∀ data, rule.conditions.isSatisfiedBy data =
      .ok (isMember (.str "vip") (fieldValue data "customer.tags")) := by
  cases vast_faithful
    { ruleId := "CSR-020", name := "VIP Escalation", priority := 97, decision := "approve",
      action := "vip_queue", scoreDelta := 28, reason := "",
      condition := .any [⟨"customer.tags", "contains", .str "vip"⟩] }
    (by simp [When.conditions]) with
  | inl hok =>
    obtain ⟨rule, hrule, -, hholds⟩ := hok
    refine ⟨rule, hrule, fun data => ?_⟩
    rw [hholds]
    exact congrArg Except.ok (Bool.or_false _)
  | inr herror =>
    -- The operator is in the table.
    obtain ⟨before, c, after, hsplit, -, hc, -⟩ := herror
    have hmem : c ∈ [(⟨"customer.tags", "contains", .str "vip"⟩ : Condition)] := by
      rw [show [(⟨"customer.tags", "contains", .str "vip"⟩ : Condition)] = before ++ c :: after
        from hsplit]
      simp
    rw [List.mem_singleton.mp hmem] at hc
    cases hc

end VastRulePack

/-! ## The customer SLA rules -/

namespace SlaRulePack

/-- What the authored operators mean. -/
def relations : List (String × Relation) := [
  ("equals", fun left right => left.beq right),
  ("notEquals", fun left right => !left.beq right),
  ("in", isMember),
  ("greaterThan", inOrder .gt),
  ("greaterThanOrEqual", inOrder .ge),
  ("lessThan", inOrder .lt),
  ("lessThanOrEqual", inOrder .le)]

/-- What a condition compares a field with: a value, or a field multiplied by a number. -/
inductive Amount where
  | literal (value : PyVal)
  | product (field : String) (factor : PyFloat)

/-- An amount as it is written: a text with a star is a product, if what follows is a number. -/
def amount? : PyVal → Option Amount
  | .str text =>
    if PyStr.contains text "*" then
      (PyFloat.parse? (PyStr.strip (PyStr.partition '*' text).2)).map
        (.product (PyStr.strip (PyStr.partition '*' text).1))
    else some (.literal (.str text))
  | value => some (.literal value)

/-- An amount on some data. A product of a missing field is none, and one of a field that is no
    number raises. -/
def Amount.on (data : PyVal) : Amount → Outcome
  | .literal value => .ok value
  | .product field factor => multiplyValues (fieldValue data field) (.float factor)

/-- A condition holds of some data. -/
def Condition.holds (data : PyVal) (c : Condition) : Except PyError Bool :=
  match Assoc.get? c.operator relations, amount? c.value with
  | some rel, some amount => rel (fieldValue data c.field) <$> amount.on data
  | _, _ => .ok false

theorem tables (y : PyVal) : Tables (Stands y) operatorMap relations := by
  obtain ⟨hgt, hlt, hge, hle⟩ := means_order y
  exact .cons ⟨rfl, .eq, rfl, by decide, by decide, means_eq y⟩ <|
    .cons ⟨rfl, .ne, rfl, by decide, by decide, means_ne y⟩ <|
    .cons ⟨rfl, .isIn, rfl, by decide, by decide, means_isIn y⟩ <|
    .cons ⟨rfl, .gt, rfl, by decide, by decide, hgt⟩ <|
    .cons ⟨rfl, .ge, rfl, by decide, by decide, hge⟩ <|
    .cons ⟨rfl, .lt, rfl, by decide, by decide, hlt⟩ <|
    .cons ⟨rfl, .le, rfl, by decide, by decide, hle⟩ .nil

/-- A product becomes the node of a product. -/
theorem product_means (data : PyVal) (field : String) (factor : PyFloat) :
    evaluate data (Fixture.node "*" [Fixture.var field, .float factor]) =
      (Amount.product field factor).on data := by
  show evaluate data (opNode .mul [Fixture.var field, .float factor]) = _
  rw [evaluate_binary rfl, evaluate_var, evaluate_literal data (fun _ h => by cases h)]
  rfl

theorem wellFormed_product (field : String) (factor : PyFloat) :
    WellFormed (Fixture.node "*" [Fixture.var field, .float factor]) := by
  show WellFormed (opNode .mul [Fixture.var field, .float factor])
  exact wellFormed_node (by decide) (by decide) field (.literal _ fun _ h => by cases h)

/-- A value becomes an operand with the meaning of its amount, unless it is a product that
    cannot be read. -/
theorem conditionValue_cases {value : PyVal} (hliteral : ∀ entries, value ≠ .dict entries) :
    (amount? value = none ∧ ∃ message, conditionValue value = .error (.valueError message)) ∨
      ∃ amount y, amount? value = some amount ∧ conditionValue value = .ok y ∧ WellFormed y ∧
        ∀ data, evaluate data y = amount.on data := by
  cases value with
  | str text =>
    unfold amount? conditionValue
    by_cases hstar : PyStr.contains text "*" = true
    · simp only [if_pos hstar]
      cases hfactor : PyFloat.parse? (PyStr.strip (PyStr.partition '*' text).2) with
      | none => exact .inl ⟨rfl, _, rfl⟩
      | some factor =>
        refine .inr ⟨_, _, rfl, rfl, wellFormed_product _ factor, fun data => ?_⟩
        exact product_means data _ factor
    · simp only [if_neg hstar]
      exact .inr ⟨_, _, rfl, rfl, .literal _ hliteral, fun data => evaluate_literal data hliteral⟩
  | _ => exact .inr ⟨_, _, rfl, rfl, .literal _ hliteral, fun data => evaluate_literal data hliteral⟩

/-- The exception for an operator that no table has. -/
def unsupported (operator : String) : PyError :=
  .valueError ("Unsupported condition operator '" ++ operator ++
    "' in customer_sla_rules_telecom.json")

/-- A condition is turned down with an exception. -/
def Condition.Rejected (c : Condition) (e : PyError) : Prop :=
  Assoc.get? c.operator relations = none ∧ e = unsupported c.operator ∨
    Assoc.get? c.operator relations ≠ none ∧ amount? c.value = none ∧ e.isValueError = true

/-- A node has the meaning of a condition whose operator is known and whose value is readable. -/
structure Condition.Node (c : Condition) (n : PyVal) : Prop where
  known : Assoc.get? c.operator relations ≠ none
  readable : amount? c.value ≠ none
  wellFormed : WellFormed n
  means : ∀ data, evaluate data n = PyVal.bool <$> c.holds data

/-- One condition becomes a node with its meaning, unless it is turned down. -/
theorem conditionNode_cases {c : Condition} (hliteral : ∀ entries, c.value ≠ .dict entries) :
    (∃ e, conditionNode c = .error e ∧ c.Rejected e) ∨ ∃ n, conditionNode c = .ok n ∧ c.Node n := by
  unfold conditionNode
  cases conditionValue_cases hliteral with
  | inl hunreadable =>
    obtain ⟨hamount, message, hvalue⟩ := hunreadable
    -- The operator is looked up first; whatever stands for the value does not matter then.
    cases (tables .none).get? c.operator with
    | inl hnone =>
      rw [hnone.1]
      exact .inl ⟨_, rfl, .inl ⟨hnone.2, rfl⟩⟩
    | inr hsome =>
      obtain ⟨symbol, rel, hsymbol, hrel, -⟩ := hsome
      have hknown : Assoc.get? c.operator relations ≠ none := by simp [hrel]
      rw [hsymbol, hvalue]
      exact .inl ⟨_, rfl, .inr ⟨hknown, hamount, rfl⟩⟩
  | inr hreadable =>
    obtain ⟨amount, y, hamount, hvalue, hy, hmeans⟩ := hreadable
    cases (tables y).get? c.operator with
    | inl hnone =>
      rw [hnone.1]
      exact .inl ⟨_, rfl, .inl ⟨hnone.2, rfl⟩⟩
    | inr hsome =>
      obtain ⟨symbol, rel, hsymbol, hrel, op, rfl, hvar, harity, hop⟩ := hsome
      have hknown : Assoc.get? c.operator relations ≠ none := by simp [hrel]
      have hread : amount? c.value ≠ none := by simp [hamount]
      have hwellFormed := wellFormed_node hvar harity c.field hy
      rw [hsymbol, hvalue]
      refine .inr ⟨_, rfl, hknown, hread, hwellFormed, fun data => ?_⟩
      show evaluate data (opNode op [Fixture.var c.field, y]) = _
      rw [hop, hmeans, Condition.holds, hrel, hamount]
      show _ = PyVal.bool <$> rel (fieldValue data c.field) <$> amount.on data
      cases amount.on data <;> rfl

end SlaRulePack

end PulseGuard
