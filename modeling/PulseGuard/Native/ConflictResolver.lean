import Mathlib.Data.String.Basic
import PulseGuard.ForStd.PyList
import PulseGuard.Native.Rule

/-!
# Conflict resolution

`ConflictResolver.resolve`: the matched rules write action fields; suppression, agreement,
conflict groups and a merge by field decide each field's value, then the priority floor and
bumps are applied and the mitigations are merged
(`app/domain/services/conflict_resolver.py`).

The source tells rules apart by object identity (`r is not winner`). The winner is always
the first rule of the list with some property, so the others are the list with that rule
erased (`List.eraseP`).
-/

namespace PulseGuard

/-- One entry of the `suppressed` list. -/
structure SuppressedEntry where
  ruleCode : String
  field : String
  reason : String
deriving DecidableEq

namespace ConflictResolver

/-- `_MODIFIER_FIELDS` -/
def modifierFields : List String := ["priorityFloor", "priorityBumpOneLevel"]

/-- `order`, and the keys of `_SEVERITY_ORDER`. -/
def order : List String := ["Low", "Medium", "High", "Critical"]

/-- `field_writers.setdefault(field_name, []).append(rule)` -/
def addWriter (rule : Rule) (writers : Dict String (List Rule)) (field : String) :
    Dict String (List Rule) :=
  if modifierFields.contains field then writers
  else writers.set field ((writers.get? field).getD [] ++ [rule])

/-- `field_writers`: for each action field the rules that write it, in order. -/
def fieldWriters (matched : List Rule) : Dict String (List Rule) :=
  matched.foldl (fun writers rule => rule.actions.keys.foldl (addWriter rule) writers) Dict.empty

/-- `rule.actions[field_name]`, of a rule that writes the field. -/
def written (field : String) (rule : Rule) : PyVal := (rule.actions.get? field).getD .none

/-- `_apply_suppression`: the effective writers, and the entries it appends. -/
def applySuppression (field : String) (writers : List Rule) :
    List Rule × List SuppressedEntry :=
  match writers.filter Rule.isSuppressor with
  | [] => (writers, [])
  | s :: ss =>
    if writers.any Rule.nonSuppressible then
      (writers.filter (!·.isSuppressor),
        (s :: ss).map fun r =>
          ⟨r.ruleCode, field, "attempted suppression overridden by non-suppressible rule"⟩)
    else
      let winner := PyList.maxBy Rule.priorityWeight s ss
      -- The winner is the first suppressor with the greatest weight.
      let others := writers.eraseP fun r =>
        r.isSuppressor && r.priorityWeight == winner.priorityWeight
      ([winner], others.map fun r => ⟨r.ruleCode, field, "suppressed by " ++ winner.ruleCode⟩)

/-- `r.conditions.specificity() == n`, once no specificity raises. -/
def hasSpecificity (n : Nat) (rule : Rule) : Bool :=
  match rule.conditions.specificity with
  | .ok k => k == n
  | .error _ => false

/-- The candidates left after the weight, and after the specificity when several are. -/
def inTop (c : Rule) (cs : List Rule) : Except PyError (Rule → Bool) := do
  let maxWeight := (PyList.maxBy Rule.priorityWeight c cs).priorityWeight
  let heaviest := (c :: cs).filter fun r => r.priorityWeight == maxWeight
  if heaviest.length > 1 then
    let specificities ← heaviest.mapM fun r => r.conditions.specificity
    let maxSpec := specificities.foldl max 0
    return fun r => r.priorityWeight == maxWeight && hasSpecificity maxSpec r
  else return fun r => r.priorityWeight == maxWeight

/-- `_resolve_conflict_group` on the candidates `c :: cs`: the first code among the top. -/
def resolveConflictGroup (field : String) (c : Rule) (cs : List Rule) :
    Except PyError (Rule × List SuppressedEntry) := do
  let top ← inTop c cs
  match (c :: cs).filter top with
  | [] => .error .indexError
  | t :: ts =>
    let winner := PyList.minBy Rule.ruleCode t ts
    let others := (c :: cs).eraseP fun r => top r && r.ruleCode == winner.ruleCode
    return (winner,
      others.map fun r => ⟨r.ruleCode, field, "lost conflict group to " ++ winner.ruleCode⟩)

/-- `_SEVERITY_ORDER.get(v, -1)`; a value without a hash raises. -/
def severityRank (v : PyVal) : Except PyError Int :=
  match v with
  | .str s => .ok (if order.contains s then order.idxOf s else -1)
  | v =>
    if v.hashable then .ok (-1)
    else .error (.typeError ("unhashable type: '" ++ v.typeName ++ "'"))

/-- `_parse_duration_minutes` -/
def parseDurationMinutes (v : PyVal) : Except PyError Int :=
  match v with
  | .str value =>
    match PyStr.split (PyStr.lower value) with
    | [] => .error .indexError
    | part :: _ => match PyStr.int? part with
      | some n => .ok (if PyStr.contains (PyStr.lower value) "hour" then n * 60 else n)
      | none => .error (.valueError ("invalid literal for int() with base 10: " ++ PyVal.reprStr part))
  | _ => .error .attributeError

/-- `max(values, key=key)` or `min(values, key=key)` with a key that can raise. -/
def selectBy (select : (Int × PyVal → Int) → Int × PyVal → List (Int × PyVal) → Int × PyVal)
    (key : PyVal → Except PyError Int) (v : PyVal) (vs : List PyVal) : Except PyError PyVal := do
  let k ← key v
  let ks ← vs.mapM key
  return (select Prod.fst (k, v) (ks.zip vs)).2

/-- `_merge_field` on the candidates `c :: cs`. -/
def mergeField (field : String) (c : Rule) (cs : List Rule) : Except PyError PyVal :=
  let v := written field c
  let vs := cs.map (written field)
  if field == "priority" then selectBy PyList.maxBy severityRank v vs
  else if field == "targetSLA" || field == "slaTarget" then
    selectBy PyList.minBy parseDurationMinutes v vs
  else if (v :: vs).all PyVal.isBool then .ok (.bool ((v :: vs).any PyVal.truthy))
  else .ok (written field (PyList.maxBy Rule.priorityWeight c cs))

/-- `len(groups) == 1 and None not in groups` for the conflict groups of `c :: cs`. -/
def sameGroup (c : Rule) (cs : List Rule) : Bool :=
  c.conflictGroup.isSome && cs.all fun r => r.conflictGroup == c.conflictGroup

/-- One round of the loop over `field_writers`: the field's value, if it gets one, and the
    entries the round appends to `suppressed`. -/
def resolveField (field : String) (writers : List Rule) :
    Except PyError (Option PyVal × List SuppressedEntry) := do
  let (effective, entries) := applySuppression field writers
  match effective with
  | [] => return (none, entries)
  | [c] => return (some (written field c), entries)
  | c :: cs =>
    let v := written field c
    if (c :: cs).all fun r => (written field r).beq v then return (some v, entries)
    else if sameGroup c cs then
      let (winner, lost) ← resolveConflictGroup field c cs
      return (some (written field winner), entries ++ lost)
    else return (some (← mergeField field c cs), entries)

/-- The loop over `field_writers`, from the actions and entries gathered so far. -/
def resolveFields (actions : Dict String PyVal) (suppressed : List SuppressedEntry) :
    List (String × List Rule) → Except PyError (Dict String PyVal × List SuppressedEntry)
  | [] => .ok (actions, suppressed)
  | (field, writers) :: rest => do
    let (value, entries) ← resolveField field writers
    let actions := match value with
      | some v => actions.set field v
      | none => actions
    resolveFields actions (suppressed ++ entries) rest

/-- `order.index(v)` -/
def orderIndex (v : PyVal) : Except PyError Nat :=
  match v with
  | .str s =>
    if order.contains s then .ok (order.idxOf s)
    else .error (.valueError (PyVal.reprStr s ++ " is not in list"))
  | v => .error (.valueError (v.repr ++ " is not in list"))

/-- The priority at an index of `order`. -/
def orderAt (i : Nat) : PyVal := .str (order[i]?.getD "Critical")

/-- The `priorityFloor` values of the matched rules. -/
def floors (matched : List Rule) : List PyVal :=
  matched.filterMap fun r => r.actions.get? "priorityFloor"

/-- The number of matched rules with a true `priorityBumpOneLevel`. -/
def bumps (matched : List Rule) : Nat :=
  matched.countP fun r => ((r.actions.get? "priorityBumpOneLevel").getD .none).truthy

/-- `max(order.index(f) for f in floors if f in order)` -/
def floorIndex (floors : List PyVal) : Except PyError Nat :=
  match floors.filterMap fun f => (orderIndex f).toOption with
  | [] => .error (.valueError "max() iterable argument is empty")
  | i :: is => .ok (is.foldl max i)

/-- The priority raised to the floor, when a rule sets one. -/
def applyFloors (floors : List PyVal) (current : PyVal) : Except PyError PyVal := do
  if floors.isEmpty then return current
  let floorIdx ← floorIndex floors
  return if (← orderIndex current) < floorIdx then orderAt floorIdx else current

/-- The priority raised by one level for each bump. -/
def applyBumps (bumps : Nat) (current : PyVal) : Except PyError PyVal := do
  if bumps == 0 then return current
  return orderAt (min ((← orderIndex current) + bumps) (order.length - 1))

/-- `_apply_priority_postprocessing` -/
def applyPriorityPostprocessing (actions : Dict String PyVal) (matched : List Rule) :
    Except PyError (Dict String PyVal) := do
  let current := (actions.get? "priority").getD .none
  let current := if current matches .none && !(floors matched).isEmpty then .str "Low" else current
  if current matches .none then return actions
  let current ← applyFloors (floors matched) current
  let current ← applyBumps (bumps matched) current
  return actions.set "priority" current

/-- One entry of a rule's mitigations: `get(k, False) or v` for a boolean, `setdefault`
    for any other value. -/
def addMitigation (mitigations : Dict String PyVal) (entry : String × PyVal) :
    Dict String PyVal :=
  let (k, v) := entry
  if v.isBool then
    let old := (mitigations.get? k).getD (.bool false)
    mitigations.set k (if old.truthy then old else v)
  else if mitigations.contains k then mitigations
  else mitigations.set k v

/-- `_merge_mitigations` -/
def mergeMitigations (matched : List Rule) : Dict String PyVal :=
  matched.foldl (fun mitigations rule => rule.mitigations.entries.foldl addMitigation mitigations)
    Dict.empty

/-- What `resolve` returns. -/
structure Resolution where
  actions : Dict String PyVal
  mitigations : Dict String PyVal
  suppressed : List SuppressedEntry

/-- `ConflictResolver.resolve` -/
def resolve (matched : List Rule) : Except PyError Resolution := do
  let (actions, suppressed) ← resolveFields Dict.empty [] (fieldWriters matched).entries
  let actions ← applyPriorityPostprocessing actions matched
  return { actions, mitigations := mergeMitigations matched, suppressed }

end ConflictResolver

end PulseGuard
