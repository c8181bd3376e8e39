import PulseGuard.Native.RulePacks.HistoricalPattern
import PulseGuard.Native.RulePacks.NetInf
import PulseGuard.Spec.WellFormedTree

/-!
# Stripping the prefix of the paths

Three loaders strip the prefix `incident.` from the paths of their source files, whose conditions
read the incident under a key of its own, so that they read it at the top of the data. The engine
gives the stripped tree, on the flat data, the meaning of the source tree (`evaluate_strip`), as it
does for every condition of the three files (`sourceConditions_sameMeaning`). Only bare paths are
stripped, literals are too, and a field that the incident has not is looked up in the other data:
`misread` are trees that change their meaning.
-/

namespace PulseGuard

open RuleEngine

namespace IncidentPrefix

/-! ## Paths -/

/-- What is left of a path behind the prefix. -/
def behindPrefix? (path : String) : Option String :=
  if incidentPrefix.toList.isPrefixOf path.toList then
    some (String.ofList (path.toList.drop incidentPrefix.length))
  else none

/-- The key that a dotted path looks up first. -/
def firstKey (path : String) : String := (PyStr.splitOn '.' path).headD ""

theorem strip_var (path : String) : stripIncidentPrefix (.dict [("var", .str path)]) =
    .dict [("var", .str ((behindPrefix? path).getD path))] := by
  rw [stripIncidentPrefix, behindPrefix?]
  split
  · rfl
  · rfl

theorem splitOn_eq_cons (path : String) :
    ∃ parts, PyStr.splitOn '.' path = firstKey path :: parts := by
  unfold firstKey
  cases hsplit : PyStr.splitOn '.' path with
  | nil =>
    unfold PyStr.splitOn at hsplit
    rw [List.map_eq_nil_iff] at hsplit
    exact absurd hsplit (List.splitOnP_ne_nil _ _)
  | cons key parts => exact ⟨parts, rfl⟩

/-- A path with the prefix looks up the incident first. -/
theorem splitOn_of_behindPrefix {path rest : String} (h : behindPrefix? path = some rest) :
    PyStr.splitOn '.' path = "incident" :: PyStr.splitOn '.' rest := by
  unfold behindPrefix? at h
  split at h
  · rename_i hprefix
    obtain ⟨tail, htail⟩ := List.isPrefixOf_iff_prefix.mp hprefix
    rw [← htail, ← String.length_toList, List.drop_left] at h
    have hpath : path.toList = "incident".toList ++ '.' :: tail := by
      rw [← htail]
      rfl
    have hdots : ∀ c ∈ "incident".toList, (c == '.') = false := by simp
    unfold PyStr.splitOn
    rw [← Option.some.inj h, String.toList_ofList, hpath,
      List.splitOnP_append_cons_of_forall_mem hdots '.' rfl, List.map_cons]
    rfl
  · cases h

theorem path_ne_empty_of_behindPrefix {path rest : String} (h : behindPrefix? path = some rest) :
    path ≠ "" := by
  intro hempty
  rw [hempty] at h
  cases h

/-! ## Trees -/

mutual

/-- A tree of registered operators whose lookups and literals meet two conditions. -/
def treeOf (lookup literal : PyVal → Bool) : PyVal → Bool
  | .dict [(operator, args)] =>
    if operator = "var" then lookup args
    else Operator.defaultRegistry.any (·.symbol == operator) && operandsOf lookup literal args
  | .dict _ => false
  | v => literal v

/-- The items of a list of arguments are such trees. -/
def operandsOf (lookup literal : PyVal → Bool) : PyVal → Bool
  | .list xs => itemsOf lookup literal xs
  | _ => true

def itemsOf (lookup literal : PyVal → Bool) : List PyVal → Bool
  | [] => true
  | x :: xs => treeOf lookup literal x && itemsOf lookup literal xs

end

mutual

/-- No dictionary inside a value is a lookup with the prefix. -/
def untouched : PyVal → Bool
  | .dict [("var", .str path)] => (behindPrefix? path).isNone
  | .dict entries => untouchedEntries entries
  | .list xs => untouchedItems xs
  | _ => true

def untouchedItems : List PyVal → Bool
  | [] => true
  | x :: xs => untouched x && untouchedItems xs

def untouchedEntries : List (String × PyVal) → Bool
  | [] => true
  | (_, v) :: rest => untouched v && untouchedEntries rest

end

/-- A lookup that reads the same once it is stripped: a path with the prefix, bare, goes on with a
    key of the incident, any other path, bare or at the head of a list, starts with another key. -/
def readsAlike (own other : String → Bool) : PyVal → Bool
  | .str path => match behindPrefix? path with
    | some rest => rest != "" && own (firstKey rest)
    | none => path != "" && other (firstKey path)
  | .list (.str path :: _) => path != "" && other (firstKey path)
  | _ => false

/-- Two data agree on the keys of the incident, which the second keeps under `incident`, and on
    the other keys. -/
structure Agree (own other : String → Bool) (flat nested : PyVal) : Prop where
  own : ∀ k, own k = true →
    lookupPart (some flat) k = lookupPart (lookupPart (some nested) "incident") k
  other : ∀ k, other k = true → lookupPart (some flat) k = lookupPart (some nested) k

/-! ## What is stripped, and what is not -/

theorem strip_dict {entries : List (String × PyVal)}
    (h : ∀ path, entries ≠ [("var", .str path)]) :
    stripIncidentPrefix (.dict entries) = .dict (stripEntries entries) := by
  rw [stripIncidentPrefix]
  exact h

theorem untouched_dict {entries : List (String × PyVal)}
    (h : ∀ path, entries ≠ [("var", .str path)]) :
    untouched (.dict entries) = untouchedEntries entries := by
  rw [untouched]
  exact h

mutual

theorem strip_of_untouched (v : PyVal) (h : untouched v = true) : stripIncidentPrefix v = v := by
  match v, h with
  | .none, _ | .bool _, _ | .int _, _ | .float _, _ | .str _, _ => rfl
  | .list xs, h =>
    rw [stripIncidentPrefix, stripItems_of_untouched xs h]
  | .dict entries, h =>
    by_cases hvar : ∃ path, entries = [("var", .str path)]
    · obtain ⟨path, rfl⟩ := hvar
      rw [untouched, Option.isNone_iff_eq_none] at h
      rw [strip_var, h, Option.getD_none]
    · have hvar : ∀ path, entries ≠ [("var", .str path)] := fun path heq => hvar ⟨path, heq⟩
      rw [untouched_dict hvar] at h
      rw [strip_dict hvar, stripEntries_of_untouched entries h]

theorem stripItems_of_untouched (xs : List PyVal) (h : untouchedItems xs = true) :
    stripItems xs = xs := by
  match xs, h with
  | [], _ => rfl
  | x :: xs, h =>
    rw [untouchedItems, Bool.and_eq_true] at h
    rw [stripItems, strip_of_untouched x h.1, stripItems_of_untouched xs h.2]

theorem stripEntries_of_untouched (entries : List (String × PyVal))
    (h : untouchedEntries entries = true) : stripEntries entries = entries := by
  match entries, h with
  | [], _ => rfl
  | (k, v) :: rest, h =>
    rw [untouchedEntries, Bool.and_eq_true] at h
    rw [stripEntries, strip_of_untouched v h.1, stripEntries_of_untouched rest h.2]

end

theorem map_fst_stripEntries (entries : List (String × PyVal)) :
    (stripEntries entries).map Prod.fst = entries.map Prod.fst := by
  induction entries with
  | nil => rfl
  | cons entry rest ih =>
    obtain ⟨k, v⟩ := entry
    rw [stripEntries, List.map_cons, List.map_cons, ih]

/-- A dictionary stays one, with its keys. -/
theorem strip_dict_keys (entries : List (String × PyVal)) :
    ∃ entries', stripIncidentPrefix (.dict entries) = .dict entries' ∧
      entries'.map Prod.fst = entries.map Prod.fst := by
  by_cases hvar : ∃ path, entries = [("var", .str path)]
  · obtain ⟨path, rfl⟩ := hvar
    exact ⟨_, strip_var path, rfl⟩
  · exact ⟨_, strip_dict fun path heq => hvar ⟨path, heq⟩, map_fst_stripEntries entries⟩

/-- The node of another operator, and a lookup in another spelling, keep their shape. -/
theorem strip_node {operator : String} {args : PyVal}
    (h : operator = "var" → ∀ path, args ≠ .str path) :
    stripIncidentPrefix (.dict [(operator, args)]) =
      .dict [(operator, stripIncidentPrefix args)] := by
  rw [strip_dict]
  · rfl
  · intro path heq
    cases heq
    exact h rfl path rfl

/-! ## Operators -/

/-- An operator finds the same operands. -/
theorem operand_strip (args : PyVal) (results : List Outcome) (i : Nat) :
    operand (stripIncidentPrefix args) results i = operand args results i := by
  cases args with
  | dict entries =>
    obtain ⟨entries', hstrip, -⟩ := strip_dict_keys entries
    rw [hstrip]
    rfl
  | _ => rfl

/-- A loop goes through the same outcomes. -/
theorem outcomes_strip (args : PyVal) (results : List Outcome) :
    outcomes (stripIncidentPrefix args) results = outcomes args results := by
  cases args with
  | dict entries =>
    obtain ⟨entries', hstrip, hkeys⟩ := strip_dict_keys entries
    have houtcomes : ∀ es : List (String × PyVal), outcomes (.dict es) results =
        .ok ((es.map Prod.fst).map fun k => .ok (.str k)) := by
      intro es
      rw [List.map_map]
      rfl
    rw [hstrip, houtcomes, houtcomes, hkeys]
  | _ => rfl

/-- Every operator but the lookup sees its arguments only. -/
theorem apply_strip {op : Operator} (hop : op ≠ .var) (args flat nested : PyVal)
    (results : List Outcome) :
    apply op (stripIncidentPrefix args) flat results = apply op args nested results := by
  cases op with
  | var => exact absurd rfl hop
  | and | or => simp only [apply, outcomes_strip]
  | gt | lt | ge | le => simp only [apply, evalComparison, operand_strip]
  | eq | ne => simp only [apply, evalEquals, operand_strip]
  | isIn => simp only [apply, evalIn, operand_strip]
  | contains => simp only [apply, evalContains, operand_strip]
  | mul => simp only [apply, evalMultiply, operand_strip]
  | inHolidayPeriod => simp only [apply, evalInHolidayPeriod, operand_strip]

/-! ## Lookups -/

theorem evalVar_str {path : String} (h : path ≠ "") (data : PyVal) : evalVar (.str path) data =
    .ok (((PyStr.splitOn '.' path).foldl lookupPart (some data)).getD .none) := by
  rw [evalVar_eq]
  simp only [pathOf?, lookup?]
  split
  · rename_i heq
    cases heq
  · rename_i heq
    exact absurd (PyVal.str.inj heq) h
  · rfl

section

variable {own other : String → Bool} {flat nested : PyVal} (hagree : Agree own other flat nested)

include hagree

/-- A path without the prefix reads another key. -/
theorem evalVar_of_other {path : String} (hpath : path ≠ "")
    (hother : other (firstKey path) = true) :
    evalVar (.str path) flat = evalVar (.str path) nested := by
  obtain ⟨parts, hparts⟩ := splitOn_eq_cons path
  rw [evalVar_str hpath, evalVar_str hpath, hparts, List.foldl_cons, List.foldl_cons,
    hagree.other _ hother]

/-- A path with the prefix reads a key of the incident, one level further up. -/
theorem evalVar_of_own {path rest : String} (h : behindPrefix? path = some rest)
    (hrest : rest ≠ "") (hown : own (firstKey rest) = true) :
    evalVar (.str rest) flat = evalVar (.str path) nested := by
  obtain ⟨parts, hparts⟩ := splitOn_eq_cons rest
  rw [evalVar_str hrest, evalVar_str (path_ne_empty_of_behindPrefix h), splitOn_of_behindPrefix h,
    hparts, List.foldl_cons, List.foldl_cons, List.foldl_cons, hagree.own _ hown]

/-- A lookup reads the same once it is stripped. -/
theorem evaluate_strip_var {args : PyVal} (h : readsAlike own other args = true) :
    evaluate flat (stripIncidentPrefix (.dict [("var", args)])) =
      evaluate nested (.dict [("var", args)]) := by
  have hnode : ∀ data args, evaluate data (.dict [("var", args)]) = evalVar args data :=
    fun data args => evaluate_node data .var args
  unfold readsAlike at h
  split at h
  · rename_i path
    rw [strip_var, hnode, hnode]
    split at h
    · rename_i rest hbehind
      simp only [Bool.and_eq_true, bne_iff_ne] at h
      rw [hbehind, Option.getD_some]
      exact evalVar_of_own hagree hbehind h.1 h.2
    · rename_i hbehind
      simp only [Bool.and_eq_true, bne_iff_ne] at h
      rw [hbehind, Option.getD_none]
      exact evalVar_of_other hagree h.1 h.2
  · -- the path at the head of a list is left as it is
    rename_i path xs
    simp only [Bool.and_eq_true, bne_iff_ne] at h
    rw [strip_node fun _ path' heq => (by cases heq), hnode, hnode]
    exact evalVar_of_other hagree h.1 h.2
  · cases h

end

/-! ## The engine -/

mutual

/-- A tree comes to the same on the flat data, stripped, as on the nested data. -/
theorem evaluate_strip {own other : String → Bool} {flat nested : PyVal}
    (hagree : Agree own other flat nested) (tree : PyVal)
    (h : treeOf (readsAlike own other) untouched tree = true) :
    evaluate flat (stripIncidentPrefix tree) = evaluate nested tree := by
  match tree, h with
  | .none, _ | .bool _, _ | .int _, _ | .float _, _ | .str _, _ => rfl
  | .list xs, h =>
    rw [strip_of_untouched (.list xs) h]
    rfl
  | .dict [], h => cases h
  | .dict (_ :: _ :: _), h => cases h
  | .dict [(operator, args)], h =>
    rw [treeOf] at h
    split at h
    · rename_i hvar
      subst hvar
      exact evaluate_strip_var hagree h
    · rename_i hvar
      rw [Bool.and_eq_true, List.any_eq_true] at h
      obtain ⟨⟨op, -, hop⟩, hargs⟩ := h
      rw [beq_iff_eq] at hop
      subst hop
      have hne : op ≠ .var := by
        intro heq
        rw [heq] at hvar
        exact hvar rfl
      rw [strip_node fun heq => absurd heq hvar, evaluate_node, evaluate_node,
        evaluateArgs_strip hagree args hargs, apply_strip hne]

theorem evaluateArgs_strip {own other : String → Bool} {flat nested : PyVal}
    (hagree : Agree own other flat nested) (args : PyVal)
    (h : operandsOf (readsAlike own other) untouched args = true) :
    evaluateArgs flat (stripIncidentPrefix args) = evaluateArgs nested args := by
  match args, h with
  | .none, _ | .bool _, _ | .int _, _ | .float _, _ | .str _, _ => rfl
  | .dict entries, _ =>
    obtain ⟨entries', hstrip, -⟩ := strip_dict_keys entries
    rw [hstrip]
    rfl
  | .list xs, h => exact evaluateItems_strip hagree xs h

theorem evaluateItems_strip {own other : String → Bool} {flat nested : PyVal}
    (hagree : Agree own other flat nested) (xs : List PyVal)
    (h : itemsOf (readsAlike own other) untouched xs = true) :
    evaluateItems flat (stripItems xs) = evaluateItems nested xs := by
  match xs, h with
  | [], _ => rfl
  | x :: xs, h =>
    rw [itemsOf, Bool.and_eq_true] at h
    rw [stripItems, evaluateItems, evaluateItems, evaluate_strip hagree x h.1,
      evaluateItems_strip hagree xs h.2]

end

/-! ## The data -/

/-- The data of the source format: the incident under a key of its own, beside other data. -/
def nestedData (incident other : Dict String PyVal) : PyVal :=
  .dict ((Dict.empty.set "incident" (.dict incident.entries)).update other).entries

/-- The data of the engine: the fields of the incident beside the other data. -/
def flatData (incident other : Dict String PyVal) : PyVal := .dict (incident.update other).entries

theorem agree {incident other : Dict String PyVal} (hother : "incident" ∉ other.keys) :
    Agree (fun k => !other.contains k) (fun k => k != "incident" && !incident.contains k)
      (flatData incident other) (nestedData incident other) where
  own := by
    intro k hk
    have hk : other.get? k = none := by simpa [Dict.contains] using hk
    show (incident.update other).get? k = lookupPart
      (((Dict.empty.set "incident" (.dict incident.entries)).update other).get? "incident") k
    rw [Dict.get?_update, Dict.get?_update, hk, other.get?_eq_none_iff.mpr hother,
      Dict.get?_set_self]
    rfl
  other := by
    intro k hk
    rw [Bool.and_eq_true, bne_iff_ne] at hk
    have hincident : incident.get? k = none := by simpa [Dict.contains] using hk.2
    show (incident.update other).get? k =
      ((Dict.empty.set "incident" (.dict incident.entries)).update other).get? k
    rw [Dict.get?_update, Dict.get?_update, hincident, Dict.get?_set_of_ne _ _ hk.1.symm]
    rfl

/-- The tree means on the flat data, stripped, what it means on the nested data. -/
def SameMeaning (incident other : Dict String PyVal) (tree : PyVal) : Prop :=
  evaluate (flatData incident other) (stripIncidentPrefix tree) =
    evaluate (nestedData incident other) tree

/-! ## The three files -/

mutual

theorem treeOf_mono {lookup lookup' literal : PyVal → Bool}
    (hlookup : ∀ v, lookup v = true → lookup' v = true) (tree : PyVal)
    (h : treeOf lookup literal tree = true) : treeOf lookup' literal tree = true := by
  match tree, h with
  | .none, h | .bool _, h | .int _, h | .float _, h | .str _, h | .list _, h => exact h
  | .dict [], h => cases h
  | .dict (_ :: _ :: _), h => cases h
  | .dict [(operator, args)], h =>
    rw [treeOf] at h ⊢
    split at h
    · rename_i hvar
      rw [if_pos hvar]
      exact hlookup args h
    · rename_i hvar
      rw [Bool.and_eq_true] at h
      rw [if_neg hvar, Bool.and_eq_true]
      exact ⟨h.1, operandsOf_mono hlookup args h.2⟩

theorem operandsOf_mono {lookup lookup' literal : PyVal → Bool}
    (hlookup : ∀ v, lookup v = true → lookup' v = true) (args : PyVal)
    (h : operandsOf lookup literal args = true) : operandsOf lookup' literal args = true := by
  match args, h with
  | .none, _ | .bool _, _ | .int _, _ | .float _, _ | .str _, _ | .dict _, _ => rfl
  | .list xs, h => exact itemsOf_mono hlookup xs h

theorem itemsOf_mono {lookup lookup' literal : PyVal → Bool}
    (hlookup : ∀ v, lookup v = true → lookup' v = true) (xs : List PyVal)
    (h : itemsOf lookup literal xs = true) : itemsOf lookup' literal xs = true := by
  match xs, h with
  | [], _ => rfl
  | x :: xs, h =>
    rw [itemsOf, Bool.and_eq_true] at h ⊢
    exact ⟨treeOf_mono hlookup x h.1, itemsOf_mono hlookup xs h.2⟩

end

theorem readsAlike_mono {own own' other other' : String → Bool}
    (hown : ∀ k, own k = true → own' k = true) (hother : ∀ k, other k = true → other' k = true)
    (args : PyVal) (h : readsAlike own other args = true) : readsAlike own' other' args = true := by
  unfold readsAlike at h ⊢
  split at h
  · split at h
    · rw [Bool.and_eq_true] at h ⊢
      exact ⟨h.1, hown _ h.2⟩
    · rw [Bool.and_eq_true] at h ⊢
      exact ⟨h.1, hother _ h.2⟩
  · rw [Bool.and_eq_true] at h ⊢
    exact ⟨h.1, hother _ h.2⟩
  · cases h

/-- The namespaces that the source files read beside the incident. -/
def namespaces : List String := ["asset", "metrics", "customer", "change", "context"]

/-- The conditions of the three source files. -/
def sourceConditions : List PyVal :=
  CsrSlaRulePack.csrSlaRules.map RoutingRule.condition ++
    NetInfRulePack.netInfRules.map RoutingRule.condition ++
    HistoricalPatternRulePack.historicalPatternRules.map HistoricalPatternRulePack.HistoricalRule.conditions

/-- The conditions that the three loaders strip keep their meaning, whatever the incident, next to
    data in the namespaces. -/
theorem sourceConditions_sameMeaning {incident other : Dict String PyVal}
    (hincident : ∀ k ∈ incident.keys, k ∉ namespaces) (hother : ∀ k ∈ other.keys, k ∈ namespaces)
    {tree : PyVal} (htree : tree ∈ sourceConditions) : SameMeaning incident other tree := by
  have hall : sourceConditions.all (treeOf (readsAlike (fun k => !namespaces.contains k)
      namespaces.contains) untouched) = true := by
    decide +kernel
  have hkeys : "incident" ∉ other.keys := fun hmem => absurd (hother _ hmem) (by decide)
  refine evaluate_strip (agree hkeys) tree (treeOf_mono (readsAlike_mono ?_ ?_) tree
    (List.all_eq_true.mp hall tree htree))
  · intro k hk
    have hk : k ∉ namespaces := by simpa using hk
    have hfree : ¬other.contains k = true := fun hmem => hk (hother k (other.contains_iff.mp hmem))
    simpa using hfree
  · intro k hk
    have hk : k ∈ namespaces := by simpa using hk
    have hne : k ≠ "incident" := by
      intro heq
      rw [heq] at hk
      exact absurd hk (by decide)
    have hfree : ¬incident.contains k = true :=
      fun hmem => hincident k (incident.contains_iff.mp hmem) hk
    simpa [hne] using hfree

end IncidentPrefix

open IncidentPrefix Fixture

/-- Whatever the incident and the other data, which has no key `incident`: a tree means the same
    once it is stripped where its literals hold no lookup with the prefix, a bare path with the
    prefix goes on with a key that the other data has not, and every other path starts with a key
    that the incident has not. -/
theorem strip_preserves_meaning (incident other : Dict String PyVal) (tree : PyVal)
    (hother : "incident" ∉ other.keys)
    (htree : treeOf (readsAlike (fun k => !other.contains k)
      fun k => k != "incident" && !incident.contains k) untouched tree = true) :
    SameMeaning incident other tree :=
  evaluate_strip (agree hother) tree htree

/-- The incident of a gold customer. -/
def goldIncident : Dict String PyVal :=
  Dict.ofList [("customerTier", .str "gold"), ("severity", .str "major")]

/-- Data beside the incident. -/
def besideIncident : Dict String PyVal :=
  Dict.ofList [("context", .dict [("sites", .int 3)]), ("region", .str "north"),
    ("lookup", .dict [("var", .str "incident.severity")])]

/-- A conjunction over a field of the incident, a literal list, and other data in both spellings. -/
theorem strip_preserves_meaning_gold : SameMeaning goldIncident besideIncident
    (node "and" [node "==" [var "incident.customerTier", .str "gold"],
      node "in" [var "incident.severity", .list [.str "major", .str "critical"]],
      node ">=" [node "var" [.str "context.sites"], .int 2]]) :=
  strip_preserves_meaning _ _ _ (by decide) (by decide)

/-- A path, in either spelling, that starts with the prefix or names another key. -/
def eitherSpelling (other : Dict String PyVal) : PyVal → Bool
  | .str path | .list (.str path :: _) =>
    (behindPrefix? path).isSome || other.contains (firstKey path)
  | _ => false

/-- Four trees: a path with the prefix at the head of a list, a lookup as an item of a literal
    list, a field that the incident has not but the other data has, and the prefix alone. -/
def misread : List PyVal := [
  node "==" [node "var" [.str "incident.customerTier"], .str "gold"],
  node "in" [var "lookup", .list [var "incident.severity"]],
  node "==" [var "incident.region", .str "north"],
  node "==" [var "incident.", .none]]

/-- Each of them means something else once it is stripped. -/
theorem strip_changes_meaning :
    (∀ k ∈ besideIncident.keys, k ≠ "incident" ∧ k ∉ goldIncident.keys) ∧
      ∀ tree ∈ misread, treeOf (eitherSpelling besideIncident) (fun _ => true) tree = true ∧
        ¬SameMeaning goldIncident besideIncident tree := by
  refine ⟨by decide, fun tree htree => ?_⟩
  simp only [misread, List.mem_cons, List.not_mem_nil, or_false] at htree
  rcases htree with rfl | rfl | rfl | rfl
  · refine ⟨by decide, fun h => ?_⟩
    cases (show (.ok (.bool false) : Outcome) = .ok (.bool true) from h)
  · refine ⟨by decide, fun h => ?_⟩
    cases (show (.ok (.bool false) : Outcome) = .ok (.bool true) from h)
  · refine ⟨by decide, fun h => ?_⟩
    cases (show (.ok (.bool true) : Outcome) = .ok (.bool false) from h)
  · refine ⟨by decide, fun h => ?_⟩
    cases (show (.ok (.bool false) : Outcome) = .ok (.bool true) from h)

end PulseGuard
