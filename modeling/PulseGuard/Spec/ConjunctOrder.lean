import Mathlib.Data.List.Sections
import PulseGuard.Native.ValidateRulePack
import PulseGuard.Spec.EvaluatorTotal

/-!
# The order of conjuncts

`and` and `or` stop at the first child that decides them, and pass on what the children before it
raise. The order of their children counts for nothing exactly when the outcomes that a tree can
come to are one verdict (`order_irrelevant_iff`). `possible` computes them: a conjunction can be
true when every child can, false when some child can, and can raise what some child can.
-/

namespace PulseGuard

open RuleEngine

/-! ## Reordered trees -/

mutual

/-- The second tree is the first with the children of some `and` and `or` nodes permuted, at any
    depth that the engine evaluates. -/
inductive Reordered : PyVal → PyVal → Prop
  | same (tree : PyVal) : Reordered tree tree
  | node {operator : String} {xs ys : List PyVal} (hvar : operator ≠ Operator.var.symbol)
      (h : ReorderedItems xs ys) :
      Reordered (.dict [(operator, .list xs)]) (.dict [(operator, .list ys)])
  | junction {op : Operator} {xs ys zs : List PyVal} (hop : op.decisive?.isSome)
      (h : ReorderedItems xs ys) (hperm : ys.Perm zs) : Reordered (opNode op xs) (opNode op zs)

inductive ReorderedItems : List PyVal → List PyVal → Prop
  | nil : ReorderedItems [] []
  | cons {x y : PyVal} {xs ys : List PyVal} (hx : Reordered x y) (h : ReorderedItems xs ys) :
      ReorderedItems (x :: xs) (y :: ys)

end

theorem ReorderedItems.refl (xs : List PyVal) : ReorderedItems xs xs := by
  induction xs with
  | nil => exact .nil
  | cons x xs ih => exact .cons (.same x) ih

/-- One child is reordered and the others are left. -/
theorem ReorderedItems.set {x y : PyVal} (h : Reordered x y) (before after : List PyVal) :
    ReorderedItems (before ++ x :: after) (before ++ y :: after) := by
  induction before with
  | nil => exact .cons h (.refl after)
  | cons z before ih => exact .cons (.same z) ih

/-! ## What a tree can come to -/

namespace RuleEngine

def raises : Outcome → Bool
  | .ok _ => false
  | .error _ => true

/-- The outcome is a value of this truth value. -/
def isTruth (b : Bool) : Outcome → Bool
  | .ok v => v.truthy == b
  | .error _ => false

/-- What a conjunction or a disjunction can come to, from what each child can come to. -/
def junctionOutcomes (decisive : Bool) (choices : List (List Outcome)) : List Outcome :=
  (if choices.all (·.any (isTruth !decisive)) then [.ok (.bool !decisive)] else []) ++
  (if choices.any (·.any (isTruth decisive)) then [.ok (.bool decisive)] else []) ++
  choices.flatMap (·.filter raises)

/-- What an operator can come to, from what each argument can come to. -/
def applyPossible (op : Operator) (args data : PyVal) (choices : List (List Outcome)) :
    List Outcome :=
  match op, op.decisive?, args with
  | .var, _, _ => [apply .var args data []]
  | _, some decisive, .list _ => junctionOutcomes decisive choices
  | op, _, _ => choices.sections.map (apply op args data)

mutual

/-- The outcomes that a tree can come to when the children of its `and` and `or` nodes are
    permuted. -/
def possible (data : PyVal) : PyVal → List Outcome
  | .dict [(operator, args)] =>
    match Operator.get operator with
    | .error e => [.error e]
    | .ok op => applyPossible op args data (possibleArgs data args)
  | .dict entries => [.error (malformedNode (.dict entries))]
  | node => [.ok node]

def possibleArgs (data : PyVal) : PyVal → List (List Outcome)
  | .list xs => possibleItems data xs
  | _ => []

def possibleItems (data : PyVal) : List PyVal → List (List Outcome)
  | [] => []
  | x :: xs => possible data x :: possibleItems data xs

end

theorem possibleItems_eq_map (data : PyVal) (xs : List PyVal) :
    possibleItems data xs = xs.map (possible data) := by
  induction xs with
  | nil => rfl
  | cons x xs ih => rw [possibleItems, ih, List.map_cons]

theorem possible_node (data : PyVal) (op : Operator) (args : PyVal) :
    possible data (.dict [(op.symbol, args)]) =
      applyPossible op args data (possibleArgs data args) := by
  rw [possible, Operator.get_symbol]

theorem possible_junction {op : Operator} {decisive : Bool} (hop : op.decisive? = some decisive)
    (data : PyVal) (xs : List PyVal) :
    possible data (opNode op xs) = junctionOutcomes decisive (xs.map (possible data)) := by
  rw [opNode, possible_node, ← possibleItems_eq_map]
  cases op with
  | and =>
    cases hop
    rfl
  | or =>
    cases hop
    rfl
  | _ => cases hop

theorem possible_operator {op : Operator} (hop : op.decisive? = none) (hvar : op ≠ .var)
    (data : PyVal) (xs : List PyVal) :
    possible data (opNode op xs) =
      (xs.map (possible data)).sections.map (apply op (.list xs) data) := by
  rw [opNode, possible_node, ← possibleItems_eq_map]
  cases op with
  | var => exact absurd rfl hvar
  | and | or => cases hop
  | _ => rfl

theorem isTruth_iff {b : Bool} {r : Outcome} :
    isTruth b r = true ↔ ∃ v, r = .ok v ∧ v.truthy = b := by
  cases r <;> simp [isTruth]

theorem raises_iff {r : Outcome} : raises r = true ↔ ∃ e, r = .error e := by
  cases r <;> simp [raises]

theorem mem_junctionOutcomes {decisive : Bool} {choices : List (List Outcome)} {r : Outcome} :
    r ∈ junctionOutcomes decisive choices ↔
      (r = .ok (.bool !decisive) ∧ ∀ c ∈ choices, ∃ r' ∈ c, Passes decisive r') ∨
      (r = .ok (.bool decisive) ∧ ∃ c ∈ choices, ∃ r' ∈ c, ∃ v, r' = .ok v ∧ v.truthy = decisive) ∨
      ∃ e, r = .error e ∧ ∃ c ∈ choices, r ∈ c := by
  have hif : ∀ (c : Bool) (o : Outcome), r ∈ (if c = true then [o] else []) ↔ r = o ∧ c = true := by
    intro c o
    cases c <;> simp
  unfold junctionOutcomes
  rw [List.mem_append, List.mem_append, hif, hif, List.mem_flatMap, or_assoc]
  simp only [List.all_eq_true, List.any_eq_true, isTruth_iff, List.mem_filter, raises_iff]
  refine or_congr Iff.rfl (or_congr Iff.rfl ?_)
  constructor
  · intro h
    obtain ⟨c, hc, hr, e, he⟩ := h
    exact ⟨e, he, c, hc, hr⟩
  · intro h
    obtain ⟨e, he, c, hc, hr⟩ := h
    exact ⟨c, hc, hr, e, he⟩

/-- The arguments of an operator other than a lookup count for their outcomes only. -/
theorem apply_list {op : Operator} (hvar : op ≠ .var) (xs ys : List PyVal) (data : PyVal)
    (results : List Outcome) : apply op (.list xs) data results = apply op (.list ys) data results := by
  cases op with
  | var => exact absurd rfl hvar
  | _ => rfl

variable {data : PyVal}

/-! ## Every reordering comes to something possible -/

theorem settle_mem_junctionOutcomes (decisive : Bool) {rs : List Outcome}
    {choices : List (List Outcome)} (hleft : ∀ r ∈ rs, ∃ c ∈ choices, r ∈ c)
    (hright : ∀ c ∈ choices, ∃ r ∈ rs, r ∈ c) :
    PyVal.bool <$> settle decisive rs ∈ junctionOutcomes decisive choices := by
  rw [mem_junctionOutcomes]
  rcases settle_cases decisive rs with ⟨hall, hend⟩ | ⟨before, r, rest, hrs, _, hend⟩
  · rw [hend]
    refine Or.inl ⟨rfl, ?_⟩
    intro c hc
    obtain ⟨r, hr, hrc⟩ := hright c hc
    exact ⟨r, hrc, hall r hr⟩
  · obtain ⟨c, hc, hrc⟩ := hleft r (by
      rw [hrs]
      exact List.mem_append_right _ List.mem_cons_self)
    rcases hend with ⟨⟨v, hv, htruth⟩, hend⟩ | ⟨e, he, hend⟩
    · rw [hend]
      exact Or.inr (Or.inl ⟨rfl, c, hc, r, hrc, v, hv, htruth⟩)
    · rw [hend]
      rw [he] at hrc
      exact Or.inr (Or.inr ⟨e, rfl, c, hc, hrc⟩)

theorem evaluate_junction_mem_possible {op : Operator} {decisive : Bool}
    (hop : op.decisive? = some decisive) {xs ys zs : List PyVal}
    (h : List.Forall₂ (fun y x => evaluate data y ∈ possible data x) ys xs) (hperm : ys.Perm zs) :
    evaluate data (opNode op zs) ∈ possible data (opNode op xs) := by
  rw [evaluate_junction hop, possible_junction hop]
  apply settle_mem_junctionOutcomes
  · intro r hr
    obtain ⟨z, hz, rfl⟩ := List.mem_map.mp hr
    obtain ⟨x, hx, hmem⟩ := PyList.exists_of_mem_left h (hperm.mem_iff.mpr hz)
    exact ⟨_, List.mem_map_of_mem hx, hmem⟩
  · intro c hc
    obtain ⟨x, hx, rfl⟩ := List.mem_map.mp hc
    obtain ⟨y, hy, hmem⟩ := PyList.exists_of_mem_left h.flip hx
    exact ⟨_, List.mem_map_of_mem (hperm.mem_iff.mp hy), hmem⟩

theorem evaluate_node_mem_possible {operator : String} (hvar : operator ≠ Operator.var.symbol)
    {xs ys : List PyVal}
    (h : List.Forall₂ (fun y x => evaluate data y ∈ possible data x) ys xs) :
    evaluate data (.dict [(operator, .list ys)]) ∈ possible data (.dict [(operator, .list xs)]) := by
  cases hget : Operator.get operator with
  | error e =>
    rw [evaluate, possible, hget]
    exact List.mem_singleton.mpr rfl
  | ok op =>
    obtain rfl := Operator.symbol_of_get hget
    have hop : op ≠ .var := by
      rintro rfl
      exact hvar rfl
    cases hdecisive : op.decisive? with
    | some decisive => exact evaluate_junction_mem_possible hdecisive h (.refl ys)
    | none =>
      rw [possible_operator hdecisive hop, evaluate_opNode, apply_list hop ys xs]
      refine List.mem_map_of_mem (List.mem_sections.mpr ?_)
      exact List.forall₂_map_left_iff.mpr (List.forall₂_map_right_iff.mpr h)

/-- A node without a list of children comes to one outcome. -/
theorem possible_of_args {operator : String} {args : PyVal}
    (h : ∀ xs, args = .list xs → operator = Operator.var.symbol) :
    possible data (.dict [(operator, args)]) = [evaluate data (.dict [(operator, args)])] := by
  cases hget : Operator.get operator with
  | error e =>
    rw [evaluate, possible, hget]
    rfl
  | ok op =>
    obtain rfl := Operator.symbol_of_get hget
    rw [evaluate_node, possible_node]
    by_cases hvar : op = .var
    · subst hvar
      rfl
    · cases args with
      | list xs => exact absurd (Operator.symbol_injective (h xs rfl)) hvar
      | _ => cases op <;> first | exact absurd rfl hvar | rfl

mutual

/-- A reordered tree comes to one of the possible outcomes. -/
theorem evaluate_mem_possible (tree : PyVal) {tree' : PyVal} (h : Reordered tree tree') :
    evaluate data tree' ∈ possible data tree := by
  match tree, h with
  | .none, .same _ | .bool _, .same _ | .int _, .same _ | .float _, .same _ | .str _, .same _
  | .list _, .same _ | .dict [], .same _ | .dict (_ :: _ :: _), .same _ =>
    exact List.mem_singleton.mpr rfl
  | .dict [(operator, .list xs)], .same _ =>
    by_cases hvar : operator = Operator.var.symbol
    · rw [possible_of_args fun _ _ => hvar]
      exact List.mem_singleton.mpr rfl
    · exact evaluate_node_mem_possible hvar (evaluate_mem_possible_items xs (.refl xs))
  | .dict [(operator, .none)], .same _ | .dict [(operator, .bool _)], .same _
  | .dict [(operator, .int _)], .same _ | .dict [(operator, .float _)], .same _
  | .dict [(operator, .str _)], .same _ | .dict [(operator, .dict _)], .same _ =>
    rw [possible_of_args fun _ heq => by cases heq]
    exact List.mem_singleton.mpr rfl
  | .dict [(_, .list xs)], .node hvar hitems =>
    exact evaluate_node_mem_possible hvar (evaluate_mem_possible_items xs hitems)
  | .dict [(_, .list xs)], .junction hop hitems hperm =>
    obtain ⟨decisive, hdecisive⟩ := Option.isSome_iff_exists.mp hop
    exact evaluate_junction_mem_possible hdecisive (evaluate_mem_possible_items xs hitems) hperm

theorem evaluate_mem_possible_items (xs : List PyVal) {ys : List PyVal} (h : ReorderedItems xs ys) :
    List.Forall₂ (fun y x => evaluate data y ∈ possible data x) ys xs := by
  match xs, h with
  | [], .nil => exact .nil
  | x :: xs, .cons hx hitems =>
    exact .cons (evaluate_mem_possible x hx) (evaluate_mem_possible_items xs hitems)

end

/-! ## Everything possible is what some reordering comes to -/

/-- A reordering that comes to an outcome. -/
def ComesTo (data tree : PyVal) (r : Outcome) : Prop :=
  ∃ tree', Reordered tree tree' ∧ evaluate data tree' = r

theorem comesTo_self (tree : PyVal) : ComesTo data tree (evaluate data tree) :=
  ⟨tree, .same tree, rfl⟩

theorem exists_items {xs : List PyVal} {rs : List Outcome}
    (h : List.Forall₂ (fun r x => ComesTo data x r) rs xs) :
    ∃ ys, ReorderedItems xs ys ∧ ys.map (evaluate data) = rs := by
  induction h with
  | nil => exact ⟨[], .nil, rfl⟩
  | cons hr _ ih =>
    obtain ⟨y, hy, rfl⟩ := hr
    obtain ⟨ys, hys, rfl⟩ := ih
    exact ⟨y :: ys, .cons hy hys, rfl⟩

/-- A child can be taken first, in any of its orders. -/
theorem comesTo_first {op : Operator} {decisive : Bool} (hop : op.decisive? = some decisive)
    {xs : List PyVal} {x : PyVal} (hx : x ∈ xs) {r : Outcome} (hr : ComesTo data x r) :
    ∃ rest, ComesTo data (opNode op xs) (PyVal.bool <$> settle decisive (r :: rest)) := by
  obtain ⟨before, after, rfl⟩ := List.append_of_mem hx
  obtain ⟨y, hy, rfl⟩ := hr
  refine ⟨(before ++ after).map (evaluate data), opNode op (y :: (before ++ after)), ?_, ?_⟩
  · exact .junction (by rw [hop]; rfl) (.set hy before after) List.perm_middle
  · rw [evaluate_junction hop, List.map_cons]

theorem comesTo_junction {op : Operator} {decisive : Bool} (hop : op.decisive? = some decisive)
    {xs : List PyVal} (hitems : ∀ x ∈ xs, ∀ r ∈ possible data x, ComesTo data x r) {r : Outcome}
    (hr : r ∈ junctionOutcomes decisive (xs.map (possible data))) :
    ComesTo data (opNode op xs) r := by
  rcases mem_junctionOutcomes.mp hr with ⟨rfl, hall⟩ | ⟨rfl, c, hc, r', hr', v, rfl, hv⟩ |
    ⟨e, rfl, c, hc, hr'⟩
  · -- every child in an order that passes
    obtain ⟨ys, hys, hpasses⟩ : ∃ ys, ReorderedItems xs ys ∧
        ∀ y ∈ ys, Passes decisive (evaluate data y) := by
      clear hr
      induction xs with
      | nil => exact ⟨[], .nil, fun y hy => (by cases hy)⟩
      | cons x xs ih =>
        rw [List.map_cons, List.forall_mem_cons] at hall
        obtain ⟨⟨r, hr, hpass⟩, hrest⟩ := hall
        obtain ⟨y, hy, rfl⟩ := hitems x List.mem_cons_self r hr
        obtain ⟨ys, hys, hall⟩ := ih (fun z hz => hitems z (List.mem_cons_of_mem _ hz)) hrest
        exact ⟨y :: ys, .cons hy hys, List.forall_mem_cons.mpr ⟨hpass, hall⟩⟩
    refine ⟨opNode op ys, .junction (by rw [hop]; rfl) hys (.refl ys), ?_⟩
    rw [evaluate_junction hop, settle_of_passes (List.forall_mem_map.mpr hpasses)]
    rfl
  · obtain ⟨x, hx, rfl⟩ := List.mem_map.mp hc
    obtain ⟨rest, hfirst⟩ := comesTo_first hop hx (hitems x hx _ hr')
    rw [settle_cons_ok_of_decisive hv] at hfirst
    exact hfirst
  · obtain ⟨x, hx, rfl⟩ := List.mem_map.mp hc
    obtain ⟨rest, hfirst⟩ := comesTo_first hop hx (hitems x hx _ hr')
    exact hfirst

theorem comesTo_node {operator : String} {xs : List PyVal}
    (hitems : ∀ x ∈ xs, ∀ r ∈ possible data x, ComesTo data x r) {r : Outcome}
    (hr : r ∈ possible data (.dict [(operator, .list xs)])) :
    ComesTo data (.dict [(operator, .list xs)]) r := by
  cases hget : Operator.get operator with
  | error e =>
    rw [possible, hget] at hr
    rw [List.mem_singleton.mp hr]
    refine ⟨_, .same _, ?_⟩
    rw [evaluate, hget]
    rfl
  | ok op =>
    obtain rfl := Operator.symbol_of_get hget
    by_cases hvar : op = .var
    · subst hvar
      rw [possible_node] at hr
      rw [List.mem_singleton.mp hr]
      exact ⟨_, .same _, evaluate_node data .var _⟩
    cases hdecisive : op.decisive? with
    | some decisive =>
      rw [← opNode, possible_junction hdecisive] at hr
      exact comesTo_junction hdecisive hitems hr
    | none =>
      rw [← opNode, possible_operator hdecisive hvar] at hr
      obtain ⟨rs, hrs, rfl⟩ := List.mem_map.mp hr
      rw [List.mem_sections, List.forall₂_map_right_iff] at hrs
      obtain ⟨ys, hys, rfl⟩ : ∃ ys, ReorderedItems xs ys ∧ ys.map (evaluate data) = rs := by
        apply exists_items
        clear hr
        induction hrs with
        | nil => exact .nil
        | cons hr _ ih =>
          exact .cons (hitems _ List.mem_cons_self _ hr)
            (ih fun z hz => hitems z (List.mem_cons_of_mem _ hz))
      refine ⟨opNode op ys, .node ?_ hys, ?_⟩
      · intro hsymbol
        exact hvar (Operator.symbol_injective hsymbol)
      · rw [evaluate_opNode, apply_list hvar ys xs]

mutual

/-- Every possible outcome is what the tree comes to in some order. -/
theorem comesTo_of_mem_possible (tree : PyVal) {r : Outcome} (h : r ∈ possible data tree) :
    ComesTo data tree r := by
  match tree, h with
  | .none, h | .bool _, h | .int _, h | .float _, h | .str _, h | .list _, h | .dict [], h
  | .dict (_ :: _ :: _), h =>
    rw [List.mem_singleton.mp h]
    exact comesTo_self _
  | .dict [(operator, .list xs)], h =>
    exact comesTo_node (comesTo_of_mem_possible_items xs) h
  | .dict [(operator, .none)], h | .dict [(operator, .bool _)], h | .dict [(operator, .int _)], h
  | .dict [(operator, .float _)], h | .dict [(operator, .str _)], h
  | .dict [(operator, .dict _)], h =>
    rw [possible_of_args (fun _ heq => by cases heq), List.mem_singleton] at h
    rw [h]
    exact comesTo_self _

theorem comesTo_of_mem_possible_items (xs : List PyVal) :
    ∀ x ∈ xs, ∀ r ∈ possible data x, ComesTo data x r := by
  match xs with
  | [] =>
    intro x hx
    cases hx
  | y :: ys =>
    intro x hx r hr
    rcases List.mem_cons.mp hx with heq | hx
    · rw [heq] at hr ⊢
      exact comesTo_of_mem_possible y hr
    · exact comesTo_of_mem_possible_items ys x hx r hr

end

/-! ## Trees that do not raise -/

/-- No order of the tree raises. -/
def Quiet (rs : List Outcome) : Prop := ∀ r ∈ rs, ∃ v, r = .ok v

theorem junctionOutcomes_unique {decisive : Bool} {choices : List (List Outcome)}
    (hquiet : Quiet (junctionOutcomes decisive choices))
    (hunique : ∀ c ∈ choices, Quiet c → ∀ r ∈ c, ∀ r' ∈ c, r = r') {r r' : Outcome}
    (hr : r ∈ junctionOutcomes decisive choices) (hr' : r' ∈ junctionOutcomes decisive choices) :
    r = r' := by
  have hchoice : ∀ c ∈ choices, Quiet c := by
    intro c hc o ho
    cases o with
    | ok v => exact ⟨v, rfl⟩
    | error e => exact hquiet _ (mem_junctionOutcomes.mpr (Or.inr (Or.inr ⟨e, rfl, c, hc, ho⟩)))
  -- a child that passes in one order decides in none
  have hexclusive : (∀ c ∈ choices, ∃ o ∈ c, Passes decisive o) →
      ¬∃ c ∈ choices, ∃ o ∈ c, ∃ v, o = .ok v ∧ v.truthy = decisive := by
    intro hall h
    obtain ⟨c, hc, o, ho, v, hv, htruth⟩ := h
    obtain ⟨o', ho', w, hw, hpass⟩ := hall c hc
    have heq := hunique c hc (hchoice c hc) o ho o' ho'
    rw [hv, hw, Except.ok.injEq] at heq
    subst heq
    rw [htruth] at hpass
    cases decisive <;> cases hpass
  rcases mem_junctionOutcomes.mp hr with ⟨rfl, h⟩ | ⟨rfl, h⟩ | ⟨e, rfl, -⟩ <;>
    rcases mem_junctionOutcomes.mp hr' with ⟨rfl, h'⟩ | ⟨rfl, h'⟩ | ⟨e', rfl, -⟩
  · rfl
  · exact absurd h' (hexclusive h)
  · obtain ⟨v, hv⟩ := hquiet _ hr'
    cases hv
  · exact absurd h (hexclusive h')
  · rfl
  · obtain ⟨v, hv⟩ := hquiet _ hr'
    cases hv
  all_goals
    obtain ⟨v, hv⟩ := hquiet _ hr
    cases hv

theorem apply_error_cons {op : Operator} (hop : op.decisive? = none) (hvar : op ≠ .var)
    (xs : List PyVal) (data : PyVal) (e : PyError) (rest : List Outcome) :
    apply op (.list xs) data (.error e :: rest) = .error e := by
  cases op with
  | var => exact absurd rfl hvar
  | and | or => cases hop
  | _ => rfl

theorem apply_cons_error_cons {op : Operator} (hop : op.arity = 2) (xs : List PyVal)
    (data v : PyVal) (e : PyError) (rest : List Outcome) :
    apply op (.list xs) data (.ok v :: .error e :: rest) = .error e := by
  cases op with
  | var | and | or | inHolidayPeriod => cases hop
  | _ => rfl

theorem apply_cons_cons {op : Operator} (hop : op.arity = 2) (xs : List PyVal) (data : PyVal)
    (r r' : Outcome) (rest rest' : List Outcome) :
    apply op (.list xs) data (r :: r' :: rest) = apply op (.list xs) data (r :: r' :: rest') := by
  cases op with
  | var | and | or | inHolidayPeriod => cases hop
  | _ => rfl

theorem applyPossible_unique {op : Operator} (hop : op.decisive? = none) (hvar : op ≠ .var)
    {xs : List PyVal} {choices : List (List Outcome)}
    (hquiet : Quiet (choices.sections.map (apply op (.list xs) data)))
    (hunique : ∀ c ∈ choices, Quiet c → ∀ r ∈ c, ∀ r' ∈ c, r = r') {r r' : Outcome}
    (hr : r ∈ choices.sections.map (apply op (.list xs) data))
    (hr' : r' ∈ choices.sections.map (apply op (.list xs) data)) : r = r' := by
  obtain ⟨rs, hrs, rfl⟩ := List.mem_map.mp hr
  obtain ⟨rs', hrs', rfl⟩ := List.mem_map.mp hr'
  rw [List.mem_sections] at hrs hrs'
  cases hrs with
  | nil =>
    cases hrs'
    rfl
  | @cons o c rest choices ho hrest =>
    obtain ⟨o', rest', ho', hrest', rfl⟩ := List.forall₂_cons_right_iff.mp hrs'
    -- what the first operand raises, the operator raises
    have hfirst : Quiet c := by
      intro o₀ ho₀
      cases o₀ with
      | ok v => exact ⟨v, rfl⟩
      | error e =>
        obtain ⟨v, hv⟩ := hquiet _ (List.mem_map_of_mem
          (List.mem_sections.mpr (List.Forall₂.cons ho₀ hrest)))
        rw [apply_error_cons hop hvar] at hv
        cases hv
    obtain rfl := hunique c List.mem_cons_self hfirst o ho o' ho'
    obtain ⟨v, rfl⟩ := hfirst o ho
    rcases Operator.arity_cases hvar with ⟨decisive, hdecisive⟩ | rfl | htwo
    · rw [hop] at hdecisive
      cases hdecisive
    · rfl
    cases hrest with
    | nil =>
      cases hrest'
      rfl
    | @cons p c' rest₂ choices ho₂ hrest₂ =>
      obtain ⟨p', rest₂', ho₂', hrest₂', rfl⟩ := List.forall₂_cons_right_iff.mp hrest'
      have hsecond : Quiet c' := by
        intro o₀ ho₀
        cases o₀ with
        | ok w => exact ⟨w, rfl⟩
        | error e =>
          obtain ⟨w, hw⟩ := hquiet _ (List.mem_map_of_mem
            (List.mem_sections.mpr (List.Forall₂.cons ho (List.Forall₂.cons ho₀ hrest₂))))
          rw [apply_cons_error_cons htwo] at hw
          cases hw
      obtain rfl := hunique c' (List.mem_cons_of_mem _ List.mem_cons_self) hsecond p ho₂ p' ho₂'
      exact apply_cons_cons htwo xs data (.ok v) p rest₂ rest₂'

mutual

/-- A tree that raises in no order comes to one value. -/
theorem possible_unique (tree : PyVal) (hquiet : Quiet (possible data tree)) :
    ∀ r ∈ possible data tree, ∀ r' ∈ possible data tree, r = r' := by
  have hsingle : (∃ o, possible data tree = [o]) →
      ∀ r ∈ possible data tree, ∀ r' ∈ possible data tree, r = r' := by
    rintro ⟨o, ho⟩ r hr r' hr'
    rw [ho, List.mem_singleton] at hr hr'
    rw [hr, hr']
  match tree, hquiet, hsingle with
  | .none, _, h | .bool _, _, h | .int _, _, h | .float _, _, h | .str _, _, h | .list _, _, h
  | .dict [], _, h | .dict (_ :: _ :: _), _, h => exact h ⟨_, rfl⟩
  | .dict [(operator, .none)], _, h | .dict [(operator, .bool _)], _, h
  | .dict [(operator, .int _)], _, h | .dict [(operator, .float _)], _, h
  | .dict [(operator, .str _)], _, h | .dict [(operator, .dict _)], _, h =>
    exact h ⟨_, possible_of_args fun _ heq => by cases heq⟩
  | .dict [(operator, .list xs)], hquiet, h =>
    by_cases hvar : operator = Operator.var.symbol
    · exact h ⟨_, possible_of_args fun _ _ => hvar⟩
    cases hget : Operator.get operator with
    | error e => exact h ⟨.error e, by rw [possible, hget]⟩
    | ok op =>
      obtain rfl := Operator.symbol_of_get hget
      have hop : op ≠ .var := by
        rintro rfl
        exact hvar rfl
      have hitems : ∀ c ∈ xs.map (possible data), Quiet c → ∀ r ∈ c, ∀ r' ∈ c, r = r' :=
        List.forall_mem_map.mpr (possible_unique_items xs)
      intro r hr r' hr'
      cases hdecisive : op.decisive? with
      | some decisive =>
        rw [← opNode, possible_junction hdecisive] at hquiet hr hr'
        exact junctionOutcomes_unique hquiet hitems hr hr'
      | none =>
        rw [← opNode, possible_operator hdecisive hop] at hquiet hr hr'
        exact applyPossible_unique hdecisive hop hquiet hitems hr hr'

theorem possible_unique_items (xs : List PyVal) :
    ∀ x ∈ xs, Quiet (possible data x) →
      ∀ r ∈ possible data x, ∀ r' ∈ possible data x, r = r' := by
  match xs with
  | [] =>
    intro x hx
    cases hx
  | y :: ys =>
    intro x hx
    rcases List.mem_cons.mp hx with heq | hx
    · rw [heq]
      exact possible_unique y
    · exact possible_unique_items ys x hx

end

end RuleEngine

/-! ## Verdicts -/

/-- What `is_satisfied_by` makes of what the engine comes to. -/
def RuleCondition.verdict : Outcome → Except PyError Bool
  | .ok result => .ok result.truthy
  | .error e => if e.isValueError then .ok false else .error e

theorem RuleCondition.isSatisfiedBy_eq (condition : RuleCondition) (data : PyVal) :
    condition.isSatisfiedBy data = verdict (evaluate data condition.tree) := rfl

/-- The same boolean, or an exception in both. -/
inductive SameVerdict : Except PyError Bool → Except PyError Bool → Prop where
  | returned (b : Bool) : SameVerdict (.ok b) (.ok b)
  | raised (e e' : PyError) : SameVerdict (.error e) (.error e')

/-- All outcomes satisfy a condition, none does (a `ValueError` counting so), or all escape. -/
def OneVerdict (rs : List Outcome) : Prop :=
  (∀ r ∈ rs, RuleCondition.verdict r = .ok true) ∨
    (∀ r ∈ rs, RuleCondition.verdict r = .ok false) ∨
      ∀ r ∈ rs, ∃ e, RuleCondition.verdict r = .error e

theorem oneVerdict_iff {rs : List Outcome} {r : Outcome} (hr : r ∈ rs) :
    OneVerdict rs ↔
      ∀ r' ∈ rs, SameVerdict (RuleCondition.verdict r) (RuleCondition.verdict r') := by
  constructor
  · rintro (hall | hall | hall) r' hr'
    · rw [hall r hr, hall r' hr']
      exact .returned true
    · rw [hall r hr, hall r' hr']
      exact .returned false
    · obtain ⟨e, he⟩ := hall r hr
      obtain ⟨e', he'⟩ := hall r' hr'
      rw [he, he']
      exact .raised e e'
  · intro hall
    cases hverdict : RuleCondition.verdict r with
    | ok b =>
      have hsame : ∀ r' ∈ rs, RuleCondition.verdict r' = .ok b := by
        intro r' hr'
        have hsame := hall r' hr'
        rw [hverdict] at hsame
        generalize RuleCondition.verdict r' = verdict' at hsame
        cases hsame
        rfl
      cases b with
      | true => exact Or.inl hsame
      | false => exact Or.inr (Or.inl hsame)
    | error e =>
      refine Or.inr (Or.inr fun r' hr' => ?_)
      have hsame := hall r' hr'
      rw [hverdict] at hsame
      generalize RuleCondition.verdict r' = verdict' at hsame
      cases hsame with
      | raised _ e' => exact ⟨e', rfl⟩

/-- Where no order raises, the verdict is one. -/
theorem oneVerdict_of_quiet {tree data : PyVal} (hquiet : Quiet (possible data tree)) :
    OneVerdict (possible data tree) := by
  have hmem : evaluate data tree ∈ possible data tree := evaluate_mem_possible tree (.same tree)
  rw [oneVerdict_iff hmem]
  intro r hr
  rw [possible_unique tree hquiet _ hmem r hr]
  obtain ⟨v, rfl⟩ := hquiet r hr
  exact .returned v.truthy

/-- The order of conjuncts and disjuncts counts for nothing, in a condition of an accepted pack or
    of any other, exactly when all that the tree can come to is one verdict. -/
theorem order_irrelevant_iff (condition : RuleCondition) (data : PyVal) :
    (∀ tree', Reordered condition.tree tree' →
      SameVerdict (condition.isSatisfiedBy data) ((RuleCondition.mk tree').isSatisfiedBy data)) ↔
        OneVerdict (possible data condition.tree) := by
  rw [oneVerdict_iff (evaluate_mem_possible condition.tree (.same _))]
  constructor
  · intro h r hr
    obtain ⟨tree', hreordered, rfl⟩ := comesTo_of_mem_possible condition.tree hr
    exact h tree' hreordered
  · intro h tree' hreordered
    exact h _ (evaluate_mem_possible condition.tree hreordered)

/-- `1 == 1`, and an operator that is not registered. -/
def unknownChildren : List PyVal := [opNode .eq [.int 1, .int 1], .dict [("like", .list [])]]

/-- A pack with a rule on either of them, which the validation accepts. -/
def unknownPack : RulePack :=
  { plainVersion 1 none .draft 0 3 with
    rules := [{ plainRule "R1" with conditions := ⟨opNode .or unknownChildren⟩ }] }

theorem unknownPack_isValid : (ValidateRulePackUseCase.execute unknownPack).isValid = true := by
  decide +kernel

/-- An unknown operator counts for nothing after the disjunct that holds, and before it makes the
    whole condition false. -/
theorem order_matters :
    ¬∀ pack : RulePack, (ValidateRulePackUseCase.execute pack).isValid = true →
      ∀ rule ∈ pack.rules, ∀ tree', Reordered rule.conditions.tree tree' →
        ∀ data : Dict String PyVal, SameVerdict (rule.conditions.isSatisfiedBy (.dict data.entries))
          ((RuleCondition.mk tree').isSatisfiedBy (.dict data.entries)) := by
  intro h
  have hsame := h unknownPack unknownPack_isValid _ (List.mem_singleton.mpr rfl)
    (opNode .or unknownChildren.reverse)
    (.junction rfl (.refl unknownChildren) (List.reverse_perm unknownChildren).symm) .empty
  have hfirst : (RuleCondition.mk (opNode .or unknownChildren)).isSatisfiedBy (.dict []) =
      .ok true := rfl
  have hsecond : (RuleCondition.mk (opNode .or unknownChildren.reverse)).isSatisfiedBy (.dict []) =
      .ok false := rfl
  change SameVerdict ((RuleCondition.mk (opNode .or unknownChildren)).isSatisfiedBy (.dict []))
    ((RuleCondition.mk (opNode .or unknownChildren.reverse)).isSatisfiedBy (.dict [])) at hsame
  rw [hfirst, hsecond] at hsame
  cases hsame

end PulseGuard
