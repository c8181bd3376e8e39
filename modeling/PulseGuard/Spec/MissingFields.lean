import PulseGuard.Spec.EvaluatorTotal

/-!
# Missing fields

A missing field is `None` to the operators, and the design wants it to fire nothing. Deleting
fields from the data makes a condition fire exactly where `None` is compared as a value, where
what is left of a container or of a nested truth value turns a leaf true, or where a product is
no longer raised (`missing_never_fires_iff`).
-/

namespace PulseGuard

open RuleEngine

/-! ## Deleted fields -/

mutual

/-- The first value is what is left of the second when fields are deleted at any depth. -/
inductive Pruned : PyVal → PyVal → Prop
  | same (v : PyVal) : Pruned v v
  | list {xs' xs : List PyVal} (h : PrunedItems xs' xs) : Pruned (.list xs') (.list xs)
  | dict {d' d : List (String × PyVal)} (h : PrunedEntries d' d) : Pruned (.dict d') (.dict d)

inductive PrunedItems : List PyVal → List PyVal → Prop
  | nil : PrunedItems [] []
  | cons {x' x : PyVal} {xs' xs : List PyVal} (hx : Pruned x' x) (h : PrunedItems xs' xs) :
      PrunedItems (x' :: xs') (x :: xs)

inductive PrunedEntries : List (String × PyVal) → List (String × PyVal) → Prop
  | nil : PrunedEntries [] []
  | keep {k : String} {v' v : PyVal} {d' d : List (String × PyVal)} (hv : Pruned v' v)
      (h : PrunedEntries d' d) : PrunedEntries ((k, v') :: d') ((k, v) :: d)
  | delete {k : String} (v : PyVal) {d' d : List (String × PyVal)} (hk : Assoc.get? k d = none)
      (h : PrunedEntries d' d) : PrunedEntries d' ((k, v) :: d)

end

/-- What an entry that is left was before. -/
theorem PrunedEntries.get? {d' d : List (String × PyVal)} (h : PrunedEntries d' d) {k : String}
    {v' : PyVal} (hget : Assoc.get? k d' = some v') :
    ∃ v, Assoc.get? k d = some v ∧ Pruned v' v := by
  cases h with
  | nil => cases hget
  | @keep k₀ v₀' v₀ rest' rest hv hrest =>
    rw [Assoc.get?_cons] at hget
    split at hget
    · cases hget
      exact ⟨v₀, by rw [Assoc.get?_cons, if_pos (by assumption)], hv⟩
    · obtain ⟨v, hv, hpruned⟩ := hrest.get? hget
      exact ⟨v, by rw [Assoc.get?_cons, if_neg (by assumption), hv], hpruned⟩
  | @delete k₀ v₀ _ rest hk hrest =>
    obtain ⟨v, hv, hpruned⟩ := hrest.get? hget
    have hne : k₀ ≠ k := by
      rintro rfl
      rw [hk] at hv
      cases hv
    exact ⟨v, by rw [Assoc.get?_cons, if_neg (by simpa using hne), hv], hpruned⟩

theorem RuleEngine.foldl_lookupPart_none (parts : List String) :
    parts.foldl lookupPart none = none := by
  induction parts with
  | nil => rfl
  | cons part parts ih => exact ih

namespace Pruned

/-- An entry that is left in what is left of a value was there before. -/
theorem lookupPart {v' v w' : PyVal} (h : Pruned v' v) {part : String}
    (hget : RuleEngine.lookupPart (some v') part = some w') :
    ∃ w, RuleEngine.lookupPart (some v) part = some w ∧ Pruned w' w := by
  cases h with
  | same => exact ⟨w', hget, .same w'⟩
  | list => cases hget
  | dict hentries => exact hentries.get? hget

theorem foldl_lookupPart {parts : List String} {v' v w' : PyVal} (h : Pruned v' v)
    (hget : parts.foldl RuleEngine.lookupPart (some v') = some w') :
    ∃ w, parts.foldl RuleEngine.lookupPart (some v) = some w ∧ Pruned w' w := by
  induction parts generalizing v' v with
  | nil =>
    cases hget
    exact ⟨v, rfl, h⟩
  | cons part parts ih =>
    rw [List.foldl_cons] at hget
    cases hpart : RuleEngine.lookupPart (some v') part with
    | none =>
      rw [hpart, foldl_lookupPart_none] at hget
      cases hget
    | some u' =>
      obtain ⟨u, hu, hpruned⟩ := h.lookupPart hpart
      rw [hpart] at hget
      rw [List.foldl_cons, hu]
      exact ih hpruned hget

theorem lookup? {d' d path v' : PyVal} (h : Pruned d' d)
    (hlookup : RuleEngine.lookup? d' path = some v') :
    ∃ v, RuleEngine.lookup? d path = some v ∧ Pruned v' v := by
  unfold RuleEngine.lookup? at hlookup ⊢
  split at hlookup
  · cases hlookup
    exact ⟨d, rfl, h⟩
  · cases hlookup
    exact ⟨d, rfl, h⟩
  · exact h.foldl_lookupPart hlookup

theorem truthy {v' v : PyVal} (h : Pruned v' v) (htrue : v'.truthy = true) : v.truthy = true := by
  cases h with
  | same => exact htrue
  | list hitems => cases hitems with
    | nil => exact htrue
    | cons => rfl
  | dict hentries => cases hentries with
    | nil => exact htrue
    | keep => rfl
    | delete => rfl

end Pruned

/-! ## Trees and their parts -/

/-- A tree of `and`, `or` and the comparison, equality, membership and arithmetic operators with
    their arguments, in which no literal is `null`. -/
inductive FieldTree : PyVal → Prop where
  | literal (v : PyVal) (hv : ∀ entries, v ≠ .dict entries) (hnull : v ≠ .none) : FieldTree v
  | lookup (args : PyVal) (hargs : args ≠ .list []) :
      FieldTree (.dict [(Operator.var.symbol, args)])
  | node (op : Operator) (args : List PyVal) (hop : op ≠ .var) (hholiday : op ≠ .inHolidayPeriod)
      (harity : op.arity ≤ args.length) (hargs : ∀ x ∈ args, FieldTree x) :
      FieldTree (opNode op args)

theorem FieldTree.rightlyBuilt {tree : PyVal} (h : FieldTree tree) : RightlyBuilt tree := by
  induction h with
  | literal v hv _ => exact .literal v hv
  | lookup args hargs => exact .lookup args hargs
  | node op args hop _ harity _ ih => exact .node op args hop harity ih

/-- A node of a tree that is below operators of one kind only. -/
inductive Within (descends : Operator → Prop) : PyVal → PyVal → Prop where
  | here (tree : PyVal) : Within descends tree tree
  | child {op : Operator} {xs : List PyVal} {x node : PyVal} (hop : descends op) (hx : x ∈ xs)
      (h : Within descends x node) : Within descends (opNode op xs) node

/-- A node anywhere in a tree. -/
abbrev NodeOf : PyVal → PyVal → Prop := Within (· ≠ .var)

/-- A node of a tree that only conjunctions and disjunctions lead to. -/
abbrev PartOf : PyVal → PyVal → Prop := Within fun op => op.decisive?.isSome

namespace Within

variable {descends descends' : Operator → Prop} {tree node inner : PyVal}

theorem trans (h : Within descends tree node) (h' : Within descends node inner) :
    Within descends tree inner := by
  induction h with
  | here => exact h'
  | child hop hx _ ih => exact .child hop hx (ih h')

theorem mono (himp : ∀ op, descends op → descends' op) (h : Within descends tree node) :
    Within descends' tree node := by
  induction h with
  | here => exact .here _
  | child hop hx _ ih => exact .child (himp _ hop) hx ih

theorem nodeOf (h : PartOf tree node) : NodeOf tree node := by
  refine h.mono ?_
  rintro op hop rfl
  cases hop

theorem fieldTree (h : NodeOf tree node) (htree : FieldTree tree) : FieldTree node := by
  induction h with
  | here => exact htree
  | @child op xs x _ hop hx _ ih =>
    generalize hnode : opNode op xs = parent at htree
    cases htree with
    | literal v hv _ => exact absurd hnode.symm (hv _)
    | lookup args _ =>
      simp only [opNode, PyVal.dict.injEq, List.cons.injEq, Prod.mk.injEq] at hnode
      exact absurd (Operator.symbol_injective hnode.1.1) hop
    | node op' args _ _ _ hargs =>
      obtain ⟨rfl, rfl⟩ := opNode_inj.mp hnode
      exact ih (hargs x hx)

end Within

/-! ## Missing operands -/

/-- The value of the tree is missing: a lookup of an absent field, or a product with a factor
    that is missing. -/
inductive Missing (data : PyVal) : PyVal → Prop where
  | lookup {args path : PyVal} (hpath : pathOf? args = some path)
      (habsent : lookup? data path = none) : Missing data (.dict [(Operator.var.symbol, args)])
  | left {x y : PyVal} {rest : List PyVal} (h : Missing data x) :
      Missing data (opNode .mul (x :: y :: rest))
  | right {x y : PyVal} {rest : List PyVal} (h : Missing data y) :
      Missing data (opNode .mul (x :: y :: rest))

theorem evaluate_lookup {data args path : PyVal} (hpath : pathOf? args = some path) :
    evaluate data (.dict [(Operator.var.symbol, args)]) =
      .ok ((lookup? data path).getD .none) := by
  rw [evaluate_node]
  show evalVar args data = _
  rw [evalVar_eq, hpath]

/-- The values of an operator's operands, where it has one itself. -/
theorem evaluate_binary_ok_iff {op : Operator} (hop : op.arity = 2) {data x y r : PyVal}
    {rest : List PyVal} : evaluate data (opNode op (x :: y :: rest)) = .ok r ↔
      ∃ v w, evaluate data x = .ok v ∧ evaluate data y = .ok w ∧ onValues op v w = .ok r := by
  rw [evaluate_binary hop]
  constructor
  · intro h
    obtain ⟨v, hv, h⟩ := Except.bind_ok_iff.mp h
    obtain ⟨w, hw, h⟩ := Except.bind_ok_iff.mp h
    exact ⟨v, w, hv, hw, h⟩
  · intro h
    obtain ⟨v, w, hv, hw, h⟩ := h
    rw [hv, hw]
    exact h

theorem multiplyValues_none_left (w : PyVal) : multiplyValues .none w = .ok .none := rfl

theorem multiplyValues_none_right (v : PyVal) : multiplyValues v .none = .ok .none := by
  cases v <;> rfl

/-- What is missing is `None` to every operator. -/
theorem Missing.eq_none {data x v : PyVal} (h : Missing data x) (hv : evaluate data x = .ok v) :
    v = .none := by
  induction h generalizing v with
  | lookup hpath habsent =>
    rw [evaluate_lookup hpath, habsent] at hv
    exact (Except.ok.inj hv).symm
  | left _ ih =>
    obtain ⟨a, b, ha, _, hab⟩ := (evaluate_binary_ok_iff rfl).mp hv
    rw [ih ha] at hab
    exact (Except.ok.inj hab).symm
  | right _ ih =>
    obtain ⟨a, b, _, hb, hab⟩ := (evaluate_binary_ok_iff rfl).mp hv
    rw [ih hb] at hab
    rw [show onValues .mul a .none = multiplyValues a .none from rfl,
      multiplyValues_none_right] at hab
    exact (Except.ok.inj hab).symm

/-! ## Operands that are left -/

/-- An operand without a nested truth value. -/
inductive Plain : PyVal → Prop where
  | literal (v : PyVal) (hv : ∀ entries, v ≠ .dict entries) : Plain v
  | lookup {args path : PyVal} (hpath : pathOf? args = some path) :
      Plain (.dict [(Operator.var.symbol, args)])
  | product {x y : PyVal} {rest : List PyVal} (hx : Plain x) (hy : Plain y) :
      Plain (opNode .mul (x :: y :: rest))

theorem PrunedItems.append {xs' xs ys' ys : List PyVal} (hx : PrunedItems xs' xs)
    (hy : PrunedItems ys' ys) : PrunedItems (xs' ++ ys') (xs ++ ys) := by
  cases hx with
  | nil => exact hy
  | cons h hrest => exact .cons h (hrest.append hy)

theorem PrunedItems.replicate {xs' xs : List PyVal} (h : PrunedItems xs' xs) (n : Int) :
    PrunedItems (PyVal.replicate n xs') (PyVal.replicate n xs) := by
  unfold PyVal.replicate
  induction n.toNat with
  | zero => exact .nil
  | succ n ih =>
    simp only [List.replicate_succ, List.flatten_cons]
    exact h.append ih

theorem Pruned.int? {v' v : PyVal} (h : Pruned v' v) : v'.int? = v.int? := by
  cases h <;> rfl

theorem multiplyValues_list_left {xs : List PyVal} {w r : PyVal}
    (h : multiplyValues (.list xs) w = .ok r) : w = .none ∧ r = .none ∨
      ∃ n m, w.int? = some n ∧ PyVal.indexSized n = .ok m ∧ r = .list (PyVal.replicate m xs) := by
  cases w with
  | none =>
    cases h
    exact Or.inl ⟨rfl, rfl⟩
  | bool b =>
    obtain ⟨m, hm, hr⟩ := Except.bind_ok_iff.mp h
    cases hr
    exact Or.inr ⟨_, m, rfl, hm, rfl⟩
  | int n =>
    obtain ⟨m, hm, hr⟩ := Except.bind_ok_iff.mp h
    cases hr
    exact Or.inr ⟨_, m, rfl, hm, rfl⟩
  | _ => cases h

theorem multiplyValues_list_right {xs : List PyVal} {v r : PyVal}
    (h : multiplyValues v (.list xs) = .ok r) : v = .none ∧ r = .none ∨
      ∃ n m, v.int? = some n ∧ PyVal.indexSized n = .ok m ∧ r = .list (PyVal.replicate m xs) := by
  cases v with
  | none =>
    cases h
    exact Or.inl ⟨rfl, rfl⟩
  | bool b =>
    obtain ⟨m, hm, hr⟩ := Except.bind_ok_iff.mp h
    cases hr
    exact Or.inr ⟨_, m, rfl, hm, rfl⟩
  | int n =>
    obtain ⟨m, hm, hr⟩ := Except.bind_ok_iff.mp h
    cases hr
    exact Or.inr ⟨_, m, rfl, hm, rfl⟩
  | _ => cases h

theorem multiplyValues_dict_left {d : List (String × PyVal)} {w r : PyVal}
    (h : multiplyValues (.dict d) w = .ok r) : r = .none := by
  cases w with
  | none => exact (Except.ok.inj h).symm
  | _ => cases h

theorem multiplyValues_dict_right {d : List (String × PyVal)} {v r : PyVal}
    (h : multiplyValues v (.dict d) = .ok r) : r = .none := by
  cases v with
  | none => exact (Except.ok.inj h).symm
  | _ => cases h

/-- A product of what is left is what is left of the product. -/
theorem Pruned.multiply {v' v w' w r' r : PyVal} (hv : Pruned v' v) (hw : Pruned w' w)
    (hr' : multiplyValues v' w' = .ok r') (hr : multiplyValues v w = .ok r) : Pruned r' r := by
  -- the products of the two repeated lists, when the factor is the same
  have hlists : ∀ {xs' xs : List PyVal} {u' u : PyVal}, PrunedItems xs' xs → u'.int? = u.int? →
      (u' = .none ∧ r' = .none ∨ ∃ n m, u'.int? = some n ∧ PyVal.indexSized n = .ok m ∧
        r' = .list (PyVal.replicate m xs')) →
      (u = .none ∧ r = .none ∨ ∃ n m, u.int? = some n ∧ PyVal.indexSized n = .ok m ∧
        r = .list (PyVal.replicate m xs)) → Pruned r' r := by
    intro xs' xs u' u hitems hint hleft hfull
    rcases hleft with ⟨rfl, rfl⟩ | ⟨n, m, hn, hm, rfl⟩ <;>
      rcases hfull with ⟨rfl, rfl⟩ | ⟨n', m', hn', hm', rfl⟩
    · exact .same _
    · rw [hn'] at hint
      cases hint
    · rw [hn] at hint
      cases hint
    · rw [hn, hn', Option.some.injEq] at hint
      subst hint
      rw [hm, Except.ok.injEq] at hm'
      subst hm'
      exact .list (hitems.replicate m)
  cases hv with
  | list hitems =>
    exact hlists hitems hw.int? (multiplyValues_list_left hr') (multiplyValues_list_left hr)
  | dict =>
    rw [multiplyValues_dict_left hr', multiplyValues_dict_left hr]
    exact .same _
  | same =>
    cases hw with
    | same =>
      rw [hr'] at hr
      cases hr
      exact .same _
    | list hitems =>
      exact hlists hitems rfl (multiplyValues_list_right hr') (multiplyValues_list_right hr)
    | dict =>
      rw [multiplyValues_dict_right hr', multiplyValues_dict_right hr]
      exact .same _

/-- A plain operand that is there comes to what is left of its value. -/
theorem Plain.pruned {d' d x v' v : PyVal} (h : Plain x) (hpruned : Pruned d' d)
    (hthere : ¬Missing d' x) (hv' : evaluate d' x = .ok v') (hv : evaluate d x = .ok v) :
    Pruned v' v := by
  induction h generalizing v' v with
  | literal u hu =>
    rw [evaluate_literal _ hu] at hv' hv
    cases hv'
    cases hv
    exact .same _
  | @lookup args path hpath =>
    rw [evaluate_lookup hpath] at hv' hv
    cases hlookup : lookup? d' path with
    | none => exact absurd (.lookup hpath hlookup) hthere
    | some u' =>
      obtain ⟨u, hu, hleft⟩ := hpruned.lookup? hlookup
      rw [hlookup] at hv'
      rw [hu] at hv
      cases hv'
      cases hv
      exact hleft
  | product _ _ ihx ihy =>
    obtain ⟨a', b', ha', hb', hab'⟩ := (evaluate_binary_ok_iff rfl).mp hv'
    obtain ⟨a, b, ha, hb, hab⟩ := (evaluate_binary_ok_iff rfl).mp hv
    have hleft := ihx (fun hm => hthere (.left hm)) ha' ha
    have hright := ihy (fun hm => hthere (.right hm)) hb' hb
    exact hleft.multiply hright hab' hab

/-- A plain operand that is there has changed only when its value is a container. -/
theorem Plain.unchanged {d' d x v' v : PyVal} (h : Plain x) (hpruned : Pruned d' d)
    (hthere : ¬Missing d' x) (hv' : evaluate d' x = .ok v') (hv : evaluate d x = .ok v)
    (hlist : ∀ xs, v ≠ .list xs) (hdict : ∀ entries, v ≠ .dict entries) : v' = v := by
  cases h.pruned hpruned hthere hv' hv with
  | same => rfl
  | list => exact absurd rfl (hlist _)
  | dict => exact absurd rfl (hdict _)

/-- A leaf that reads an absent field. -/
inductive ReadsMissing (data : PyVal) : PyVal → Prop where
  | lookup {args path : PyVal} (hpath : pathOf? args = some path)
      (habsent : lookup? data path = none) :
      ReadsMissing data (.dict [(Operator.var.symbol, args)])
  | operator {op : Operator} {x y : PyVal} {rest : List PyVal} (hop : op.arity = 2)
      (h : Missing data x ∨ Missing data y) : ReadsMissing data (opNode op (x :: y :: rest))

/-! ## The law -/

/-- The tree is satisfied by the data. -/
def Fires (data tree : PyVal) : Prop := (RuleCondition.mk tree).isSatisfiedBy data = .ok true

theorem fires_iff {data tree : PyVal} : Fires data tree ↔ Passes false (evaluate data tree) := by
  unfold Fires RuleCondition.isSatisfiedBy Passes
  cases evaluate data tree with
  | ok v => simp
  | error e => cases he : e.isValueError <;> simp [he]

/-- Deleting fields makes neither the tree fire nor a part of its conjunctions and disjunctions,
    and every leaf that reads an absent field is false. -/
structure MissingNeverFires (d' d tree : PyVal) : Prop where
  parts : ∀ node, PartOf tree node → Fires d' node → Fires d node
  leaves : ∀ node, NodeOf tree node → ReadsMissing d' node →
    (RuleCondition.mk node).isSatisfiedBy d' = .ok false

/-- An operand that comes to `None`. -/
def ComesToNone (data x : PyVal) : Prop := evaluate data x = .ok .none

/-- What an operator makes of a missing operand, of an operand that has lost fields, and what is
    raised on the full data. -/
structure AbsenceHandled (d' d tree : PyVal) : Prop where
  /-- Next to a missing operand `==` finds a value and `!=` finds `None`. -/
  missing : ∀ op x y rest, NodeOf tree (opNode op (x :: y :: rest)) → op.arity = 2 →
    Missing d' x ∨ Missing d' y → ProductsDefined d' (opNode op (x :: y :: rest)) ∧
      (op = .eq → ¬(ComesToNone d' x ∧ ComesToNone d' y)) ∧
      (op = .ne → ComesToNone d' x ∧ ComesToNone d' y)
  /-- Operands that are there and are no longer the same turn no leaf true. -/
  changed : ∀ op x y rest v' w' v w, PartOf tree (opNode op (x :: y :: rest)) → op.arity = 2 →
    ¬Missing d' x → ¬Missing d' y → evaluate d' x = .ok v' → evaluate d' y = .ok w' →
    evaluate d x = .ok v → evaluate d y = .ok w → ¬(v' = v ∧ w' = w) →
    Passes false (onValues op v' w') → Passes false (onValues op v w)
  /-- What fires without the fields comes to no undefined product with them. -/
  products : ∀ node, PartOf tree node → Fires d' node → ProductsDefined d node

namespace AbsenceHandled

variable {d' d tree node : PyVal}

theorem part (h : AbsenceHandled d' d tree) (hpart : PartOf tree node) :
    AbsenceHandled d' d node where
  missing op x y rest hnode := h.missing op x y rest (hpart.nodeOf.trans hnode)
  changed op x y rest v' w' v w hnode := h.changed op x y rest v' w' v w (hpart.trans hnode)
  products inner hinner := h.products inner (hpart.trans hinner)

end AbsenceHandled

theorem fires_iff_settle {op : Operator} {decisive : Bool} (hop : op.decisive? = some decisive)
    {data : PyVal} {xs : List PyVal} :
    Fires data (opNode op xs) ↔ settle decisive (xs.map (evaluate data)) = .ok true := by
  rw [fires_iff, evaluate_junction hop]
  cases settle decisive (xs.map (evaluate data)) with
  | error e => exact iff_of_false (fun ⟨v, hv, _⟩ => by cases hv) (fun h => by cases h)
  | ok b => cases b <;> simp [Passes, Functor.map, Except.map, PyVal.truthy]

theorem not_passes_not {decisive : Bool} {r : Outcome} (h : Passes decisive r) :
    ¬Passes (!decisive) r := by
  intro h
  obtain ⟨v, rfl, hv⟩ := h
  obtain ⟨w, hw, hw'⟩ := h
  cases hw
  rw [hv] at hw'
  cases decisive <;> cases hw'

/-- A conjunction fires when every child does. -/
theorem fires_and_iff {data : PyVal} {xs : List PyVal} :
    Fires data (opNode .and xs) ↔ ∀ x ∈ xs, Fires data x := by
  have hand : Operator.and.decisive? = some false := rfl
  simp only [fires_iff_settle hand, fires_iff]
  rcases settle_cases false (xs.map (evaluate data)) with ⟨hall, hend⟩ |
    ⟨before, r, rest, hrs, hbefore, hend⟩
  · exact iff_of_true hend (List.forall_mem_map.mp hall)
  · have hmem : r ∈ xs.map (evaluate data) := by
      rw [hrs]
      exact List.mem_append_right _ List.mem_cons_self
    refine iff_of_false ?_ ?_
    · intro htrue
      rcases hend with ⟨-, hend⟩ | ⟨e, -, hend⟩
      · rw [htrue] at hend
        cases hend
      · rw [htrue] at hend
        cases hend
    · intro hall
      obtain ⟨v, hv, htrue⟩ := List.forall_mem_map.mpr hall r hmem
      rcases hend with ⟨⟨w, hw, hfalse⟩, -⟩ | ⟨e, he, -⟩
      · rw [hv] at hw
        cases hw
        rw [htrue] at hfalse
        cases hfalse
      · rw [hv] at he
        cases he

/-- A disjunction that returns fires when some child does. -/
theorem fires_or_iff {data : PyVal} {xs : List PyVal}
    (hreturns : ∃ v, evaluate data (opNode .or xs) = .ok v) :
    Fires data (opNode .or xs) ↔ ∃ x ∈ xs, Fires data x := by
  have hor : Operator.or.decisive? = some true := rfl
  rw [fires_iff_settle hor]
  simp only [fires_iff]
  rcases settle_cases true (xs.map (evaluate data)) with ⟨hall, hend⟩ |
    ⟨before, r, rest, hrs, _, ⟨⟨v, hv, htrue⟩, hend⟩ | ⟨e, -, hend⟩⟩
  · refine iff_of_false ?_ ?_
    · intro htrue
      rw [htrue] at hend
      cases hend
    · intro h
      obtain ⟨x, hx, hpasses⟩ := h
      exact not_passes_not (hall _ (List.mem_map_of_mem hx)) hpasses
  · obtain ⟨x, hx, hxr⟩ : ∃ x ∈ xs, evaluate data x = r := by
      rw [← List.mem_map, hrs]
      exact List.mem_append_right _ List.mem_cons_self
    exact iff_of_true hend ⟨x, hx, v, hxr.trans hv, htrue⟩
  · obtain ⟨v, hv⟩ := hreturns
    rw [evaluate_junction hor, hend] at hv
    cases hv

theorem PyVal.beq_none_iff {v w : PyVal} (hnone : v = .none ∨ w = .none) :
    v.beq w = true ↔ v = .none ∧ w = .none := by
  rcases hnone with rfl | rfl
  · cases w <;> simp [PyVal.beq]
  · cases v <;> simp [PyVal.beq, PyVal.num?]

/-- Next to `None` an operator is true where it compares `None` as a value, and only there. -/
theorem onValues_none {op : Operator} (hop : op.arity = 2) {v w : PyVal}
    (hnone : v = .none ∨ w = .none) : ∃ r, onValues op v w = .ok r ∧
      (r.truthy = true ↔ op = .eq ∧ v = .none ∧ w = .none ∨
        op = .ne ∧ ¬(v = .none ∧ w = .none)) := by
  have hcompare : ∀ cmp, compareValues cmp v w = .bool false := by
    intro cmp
    rcases hnone with rfl | rfl
    · rfl
    · cases v <;> rfl
  have hmembership : membership v w = .bool false ∧ membership w v = .bool false := by
    rcases hnone with rfl | rfl
    · exact ⟨rfl, by cases w <;> rfl⟩
    · exact ⟨by cases v <;> rfl, rfl⟩
  cases op with
  | var | and | or | inHolidayPeriod => cases hop
  | gt | lt | ge | le => exact ⟨_, rfl, by simp [hcompare, PyVal.truthy]⟩
  | isIn => exact ⟨_, rfl, by simp [hmembership.1, PyVal.truthy]⟩
  | contains => exact ⟨_, rfl, by simp [hmembership.2, PyVal.truthy]⟩
  | mul =>
    refine ⟨.none, ?_, by simp [PyVal.truthy]⟩
    rcases hnone with rfl | rfl
    · exact multiplyValues_none_left w
    · exact multiplyValues_none_right v
  | eq =>
    refine ⟨_, rfl, ?_⟩
    rw [← PyVal.beq_none_iff hnone]
    simp [PyVal.truthy]
  | ne =>
    refine ⟨_, rfl, ?_⟩
    rw [← PyVal.beq_none_iff hnone]
    simp [PyVal.truthy]

/-- What a leaf with a missing operand comes to. -/
theorem fires_of_missing_iff {op : Operator} (hop : op.arity = 2) {data x y v w : PyVal}
    (rest : List PyVal) (hmissing : Missing data x ∨ Missing data y)
    (hx : evaluate data x = .ok v) (hy : evaluate data y = .ok w) :
    ∃ r, evaluate data (opNode op (x :: y :: rest)) = .ok r ∧
      (r.truthy = true ↔ op = .eq ∧ v = .none ∧ w = .none ∨
        op = .ne ∧ ¬(v = .none ∧ w = .none)) := by
  have hnone : v = .none ∨ w = .none := hmissing.imp (·.eq_none hx) (·.eq_none hy)
  obtain ⟨r, hr, htruthy⟩ := onValues_none hop hnone
  exact ⟨r, (evaluate_binary_ok_iff hop).mpr ⟨v, w, hx, hy, hr⟩, htruthy⟩

theorem isSatisfiedBy_of_ok {data node r : PyVal} (h : evaluate data node = .ok r) :
    (RuleCondition.mk node).isSatisfiedBy data = .ok r.truthy := by
  unfold RuleCondition.isSatisfiedBy
  simp only [h]

/-- Where `None` is handled, a leaf that reads an absent field is false. -/
theorem AbsenceHandled.leaf_false {d' d tree node : PyVal} (h : AbsenceHandled d' d tree)
    (htree : FieldTree tree) (hnode : NodeOf tree node) (hreads : ReadsMissing d' node) :
    (RuleCondition.mk node).isSatisfiedBy d' = .ok false := by
  cases hreads with
  | lookup hpath habsent =>
    rw [isSatisfiedBy_of_ok (evaluate_lookup hpath), habsent]
    rfl
  | @operator op x y rest hop hmissing =>
    obtain ⟨hdefined, heq, hne⟩ := h.missing op x y rest hnode hop hmissing
    have hbuilt := (hnode.fieldTree htree).rightlyBuilt
    obtain ⟨r, hr⟩ := (evaluate_returns_iff hbuilt).mpr hdefined
    obtain ⟨v, w, hv, hw, -⟩ := (evaluate_binary_ok_iff hop).mp hr
    obtain ⟨r, hr, htruthy⟩ := fires_of_missing_iff hop rest hmissing hv hw
    rw [isSatisfiedBy_of_ok hr]
    congr 1
    rw [Bool.eq_false_iff, Ne, htruthy]
    rintro (⟨hop', rfl, rfl⟩ | ⟨hop', hvalues⟩)
    · exact heq hop' ⟨hv, hw⟩
    · obtain ⟨hvnone, hwnone⟩ := hne hop'
      apply hvalues
      unfold ComesToNone at hvnone hwnone
      rw [hv] at hvnone
      rw [hw] at hwnone
      exact ⟨Except.ok.inj hvnone, Except.ok.inj hwnone⟩

theorem Fires.returns {data tree : PyVal} (h : Fires data tree) :
    ∃ v, evaluate data tree = .ok v := by
  obtain ⟨v, hv, -⟩ := fires_iff.mp h
  exact ⟨v, hv⟩

/-- Where `None` is handled, a tree that fires without the fields fires with them. -/
theorem AbsenceHandled.fires {d' d tree : PyVal} (h : AbsenceHandled d' d tree)
    (hpruned : Pruned d' d) (htree : FieldTree tree) (hfires : Fires d' tree) : Fires d tree := by
  induction htree with
  | literal v hv _ =>
    rw [fires_iff, evaluate_literal _ hv] at hfires ⊢
    exact hfires
  | lookup args hargs =>
    cases hpath : pathOf? args with
    | none => exact absurd (pathOf?_eq_none_iff.mp hpath) hargs
    | some path =>
      rw [fires_iff, evaluate_lookup hpath] at hfires ⊢
      obtain ⟨v', hv', htrue⟩ := hfires
      cases hlookup : lookup? d' path with
      | none =>
        rw [hlookup] at hv'
        cases hv'
        cases htrue
      | some u' =>
        rw [hlookup] at hv'
        cases hv'
        obtain ⟨u, hu, hleft⟩ := hpruned.lookup? hlookup
        exact ⟨u, by rw [hu]; rfl, hleft.truthy htrue⟩
  | node op args hop hholiday harity hargs ih =>
    have hnode : FieldTree (opNode op args) := .node op args hop hholiday harity hargs
    obtain ⟨r, hr⟩ := (evaluate_returns_iff hnode.rightlyBuilt).mpr (h.products _ (.here _) hfires)
    -- a child of a conjunction or a disjunction is a part
    have hchild : op.decisive?.isSome → ∀ x ∈ args, Fires d' x → Fires d x := by
      intro hjunction x hx
      exact ih x hx (h.part (.child hjunction hx (.here x)))
    rcases Operator.arity_cases hop with ⟨decisive, hdecisive⟩ | hunary | htwo
    · cases op with
      | and =>
        rw [fires_and_iff] at hfires ⊢
        intro x hx
        exact hchild rfl x hx (hfires x hx)
      | or =>
        obtain ⟨x, hx, hfires⟩ := (fires_or_iff hfires.returns).mp hfires
        exact (fires_or_iff ⟨r, hr⟩).mpr ⟨x, hx, hchild rfl x hx hfires⟩
      | _ => cases hdecisive
    · exact absurd hunary hholiday
    · rw [htwo] at harity
      match args, harity with
      | x :: y :: rest, _ =>
        obtain ⟨r', hr', htrue⟩ := fires_iff.mp hfires
        obtain ⟨v', w', hv', hw', hvalues'⟩ := (evaluate_binary_ok_iff htwo).mp hr'
        obtain ⟨v, w, hv, hw, hvalues⟩ := (evaluate_binary_ok_iff htwo).mp hr
        by_cases hmissing : Missing d' x ∨ Missing d' y
        · have hfalse := h.leaf_false hnode (.here _) (.operator htwo hmissing)
          rw [isSatisfiedBy_of_ok hr', Except.ok.injEq] at hfalse
          rw [htrue] at hfalse
          cases hfalse
        · obtain ⟨hx, hy⟩ := not_or.mp hmissing
          have hpasses : Passes false (onValues op v w) := by
            by_cases hsame : v' = v ∧ w' = w
            · obtain ⟨rfl, rfl⟩ := hsame
              exact ⟨r', hvalues', htrue⟩
            · exact h.changed op x y rest v' w' v w (.here _) htwo hx hy hv' hw' hv hw hsame
                ⟨r', hvalues', htrue⟩
          rw [fires_iff, evaluate_binary htwo, hv, hw]
          exact hpasses

theorem MissingNeverFires.absenceHandled {d' d tree : PyVal} (h : MissingNeverFires d' d tree)
    (htree : FieldTree tree) : AbsenceHandled d' d tree where
  missing op x y rest hnode hop hmissing := by
    have hfalse := h.leaves _ hnode (.operator hop hmissing)
    have hbuilt := (hnode.fieldTree htree).rightlyBuilt
    have hdefined := (RuleCondition.isSatisfiedBy_returns_iff hbuilt).mp ⟨false, hfalse⟩
    obtain ⟨r, hr⟩ := (evaluate_returns_iff hbuilt).mpr hdefined
    obtain ⟨v, w, hv, hw, -⟩ := (evaluate_binary_ok_iff hop).mp hr
    obtain ⟨r, hr, htruthy⟩ := fires_of_missing_iff hop rest hmissing hv hw
    rw [isSatisfiedBy_of_ok hr, Except.ok.injEq] at hfalse
    have hnot : ¬r.truthy = true := by simp [hfalse]
    rw [htruthy, not_or] at hnot
    refine ⟨hdefined, ?_, ?_⟩
    · intro hop' h
      obtain ⟨hvnone, hwnone⟩ := h
      cases hv.symm.trans hvnone
      cases hw.symm.trans hwnone
      exact hnot.1 ⟨hop', rfl, rfl⟩
    · intro hop'
      obtain ⟨rfl, rfl⟩ : v = .none ∧ w = .none := by
        by_contra hvalues
        exact hnot.2 ⟨hop', hvalues⟩
      exact ⟨hv, hw⟩
  changed op x y rest v' w' v w hpart hop _ _ hv' hw' hv hw _ hpasses := by
    have hfires := h.parts _ hpart (by
      rw [fires_iff, evaluate_binary hop, hv', hw']
      exact hpasses)
    rw [fires_iff, evaluate_binary hop, hv, hw] at hfires
    exact hfires
  products node hpart hfires := by
    have hbuilt := (hpart.nodeOf.fieldTree htree).rightlyBuilt
    exact (evaluate_returns_iff hbuilt).mp (h.parts node hpart hfires).returns

/-- Deleted fields fire nothing exactly where `None` is not compared as a value, what is left of an
    operand turns no leaf true, and no product is undefined with the fields. -/
theorem missing_never_fires_iff (d' d tree : PyVal) (hpruned : Pruned d' d)
    (htree : FieldTree tree) :
    MissingNeverFires d' d tree ↔ AbsenceHandled d' d tree := by
  constructor
  · intro h
    exact h.absenceHandled htree
  · intro h
    refine ⟨?_, fun node hnode hreads => h.leaf_false htree hnode hreads⟩
    intro node hpart hfires
    exact (h.part hpart).fires hpruned (hpart.nodeOf.fieldTree htree) hfires

/-- `tier != "Platinum"` -/
def notPlatinum : PyVal := opNode .ne [.dict [("var", .str "tier")], .str "Platinum"]

/-- The data of a platinum customer. -/
def platinumData : PyVal := .dict [("tier", .str "Platinum")]

theorem notPlatinum_fieldTree : FieldTree notPlatinum := by
  refine .node .ne _ (by decide) (by decide) (by decide) ?_
  intro x hx
  rcases List.mem_cons.mp hx with rfl | hx
  · exact .lookup _ (by simp)
  · rw [List.mem_singleton.mp hx]
    exact .literal _ (by simp) (by simp)

theorem pruned_platinumData : Pruned (.dict []) platinumData := .dict (.delete _ rfl .nil)

/-- An exclusion takes a missing tier for another tier. -/
theorem notPlatinum_unhandled : ¬AbsenceHandled (.dict []) platinumData notPlatinum := by
  intro h
  have hnever := (missing_never_fires_iff (.dict []) platinumData notPlatinum pruned_platinumData
    notPlatinum_fieldTree).mpr h
  have hfires : Fires platinumData notPlatinum := hnever.parts _ (.here _) (by
    show (RuleCondition.mk notPlatinum).isSatisfiedBy (.dict []) = .ok true
    rfl)
  cases hfires

/-- A rule that excludes platinum customers fires when the tier is missing. -/
theorem missing_tier_fires :
    ¬∀ d' d tree : PyVal, Pruned d' d → FieldTree tree →
      (RuleCondition.mk tree).isSatisfiedBy d' = .ok true →
      (RuleCondition.mk tree).isSatisfiedBy d = .ok true := by
  intro h
  have hfires := h (.dict []) platinumData notPlatinum pruned_platinumData notPlatinum_fieldTree rfl
  cases hfires

end PulseGuard
