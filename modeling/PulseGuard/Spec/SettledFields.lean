import PulseGuard.ForStd.Ties
import PulseGuard.Spec.FieldByField

/-!
# Fields that do not depend on the order of the rules

The rules that match are sorted by family and weight, and rules with one sort key keep the order
of the list they come from. A field is settled when this order cannot show in what the field gets
(`Settled`). Then every sorted order of its writers resolves it alike (`resolveField_perm`).
-/

namespace PulseGuard

namespace ConflictResolver

/-- Sorted as `active_rules` sorts. -/
def Sorted (rules : List Rule) : Prop := rules.Pairwise fun a b => a.sortKey ≤ b.sortKey

/-! ## The merge -/

/-- The fields whose values `_merge_field` compares. -/
def rankedFields : List String := ["priority", "targetSLA", "slaTarget"]

/-- A key, where it does not raise. -/
def rank (key : PyVal → Except PyError Int) (v : PyVal) : Int := (key v).toOption.getD 0

theorem rank_eq {key : PyVal → Except PyError Int} {v : PyVal} {k : Int} (h : key v = .ok k) :
    rank key v = k := by
  rw [rank, h]
  rfl

/-- A selection by a key that can raise is a selection by the key when it does not. -/
theorem selectBy_ok_iff
    {select : (Int × PyVal → Int) → Int × PyVal → List (Int × PyVal) → Int × PyVal}
    {best : (PyVal → Int) → PyVal → List PyVal → PyVal} {key : PyVal → Except PyError Int} {v x : PyVal}
    {vs : List PyVal}
    (hselect : ∀ k : PyVal → Int, (select Prod.fst (k v, v) (vs.map fun w => (k w, w))).2 = best k v vs) :
    selectBy select key v vs = .ok x ↔
      (∀ w ∈ v :: vs, ∃ k, key w = .ok k) ∧ x = best (rank key) v vs := by
  have hranks : (∀ w ∈ vs, ∃ k, key w = .ok k) → vs.mapM key = .ok (vs.map (rank key)) := by
    intro h
    refine Except.mapM_ok_iff.mpr (List.forall₂_map_right_iff.mpr (List.forall₂_same.mpr ?_))
    intro w hw
    obtain ⟨k, hk⟩ := h w hw
    rw [rank_eq hk, hk]
  have hzip : (vs.map (rank key)).zip vs = vs.map fun w => (rank key w, w) := by
    have hpairs := List.zip_map' (f := rank key) (g := id) (l := vs)
    rwa [List.map_id] at hpairs
  unfold selectBy
  rw [List.forall_mem_cons]
  constructor
  · intro h
    obtain ⟨k, hk, h⟩ := Except.bind_ok_iff.mp h
    obtain ⟨ks, hks, h⟩ := Except.bind_ok_iff.mp h
    have hrest : ∀ w ∈ vs, ∃ k, key w = .ok k := by
      intro w hw
      obtain ⟨k, -, hk⟩ := Except.ok_of_mapM_ok hks w hw
      exact ⟨k, hk⟩
    rw [hranks hrest] at hks
    cases hks
    rw [hzip, ← rank_eq hk, hselect, Except.pure_ok_iff] at h
    exact ⟨⟨⟨k, hk⟩, hrest⟩, h.symm⟩
  · intro h
    obtain ⟨⟨⟨k, hk⟩, hrest⟩, rfl⟩ := h
    refine Except.bind_ok_iff.mpr ⟨k, hk, Except.bind_ok_iff.mpr ⟨_, hranks hrest, ?_⟩⟩
    rw [hzip, ← rank_eq hk, hselect]
    rfl

theorem selectBy_maxBy_ok_iff {key : PyVal → Except PyError Int} {v x : PyVal} {vs : List PyVal} :
    selectBy PyList.maxBy key v vs = .ok x ↔
      (∀ w ∈ v :: vs, ∃ k, key w = .ok k) ∧ x = PyList.maxBy (rank key) v vs :=
  selectBy_ok_iff fun k => congrArg Prod.snd
    (PyList.maxBy_map k Prod.fst (f := fun w => (k w, w)) (fun _ => rfl) v vs)

theorem selectBy_minBy_ok_iff {key : PyVal → Except PyError Int} {v x : PyVal} {vs : List PyVal} :
    selectBy PyList.minBy key v vs = .ok x ↔
      (∀ w ∈ v :: vs, ∃ k, key w = .ok k) ∧ x = PyList.minBy (rank key) v vs :=
  selectBy_ok_iff fun k => congrArg Prod.snd
    (PyList.minBy_map k Prod.fst (f := fun w => (k w, w)) (fun _ => rfl) v vs)

/-- A merged priority is what the first writer of the highest level writes. -/
theorem mergeField_priority_ok_iff {c : Rule} {cs : List Rule} {v : PyVal} :
    mergeField "priority" c cs = .ok v ↔
      (∀ r ∈ c :: cs, ∃ k, severityRank (written "priority" r) = .ok k) ∧
        v = written "priority" (PyList.maxBy (fun r => rank severityRank (written "priority" r)) c cs) := by
  show selectBy PyList.maxBy severityRank (written "priority" c) (cs.map (written "priority")) = .ok v ↔ _
  rw [selectBy_maxBy_ok_iff, PyList.maxBy_map _ _ (fun _ => rfl), ← List.map_cons,
    List.forall_mem_map]

/-- A merged duration is what the first writer of the shortest writes. -/
theorem mergeField_duration_ok_iff {field : String} (hfield : field = "targetSLA" ∨ field = "slaTarget")
    {c : Rule} {cs : List Rule} {v : PyVal} :
    mergeField field c cs = .ok v ↔
      (∀ r ∈ c :: cs, ∃ k, parseDurationMinutes (written field r) = .ok k) ∧
        v = written field (PyList.minBy (fun r => rank parseDurationMinutes (written field r)) c cs) := by
  have hmerge : mergeField field c cs =
      selectBy PyList.minBy parseDurationMinutes (written field c) (cs.map (written field)) := by
    rcases hfield with rfl | rfl
    · rfl
    · rfl
  rw [hmerge, selectBy_minBy_ok_iff, PyList.minBy_map _ _ (fun _ => rfl), ← List.map_cons,
    List.forall_mem_map]

/-- How `_merge_field` ranks the writers of a field. -/
def mergeRank (field : String) (rule : Rule) : Int :=
  if field == "priority" then rank severityRank (written field rule)
  else if field == "targetSLA" || field == "slaTarget" then
    -rank parseDurationMinutes (written field rule)
  else rule.priorityWeight

/-- The merge can compare what the rule writes, where it compares. -/
def Rankable (field : String) (r : Rule) : Prop :=
  (field = "priority" → ∃ k, severityRank (written field r) = .ok k) ∧
    (field = "targetSLA" ∨ field = "slaTarget" → ∃ k, parseDurationMinutes (written field r) = .ok k)

/-- The field is merged by the boolean OR. -/
def Ored (field : String) (rules : List Rule) : Prop :=
  field ∉ rankedFields ∧ ∀ r ∈ rules, (written field r).isBool = true

/-- What the merge of a field makes of its candidates: the OR of booleans, and otherwise what the
    first of the candidates that rank highest writes. -/
def Merges (field : String) (c : Rule) (cs : List Rule) (v : PyVal) : Prop :=
  Ored field (c :: cs) ∧ v = .bool ((c :: cs).any fun r => (written field r).truthy) ∨
    ¬Ored field (c :: cs) ∧ v = written field (PyList.maxBy (mergeRank field) c cs)

theorem mergeField_ok_iff {field : String} {c : Rule} {cs : List Rule} {v : PyVal} :
    mergeField field c cs = .ok v ↔ (∀ r ∈ c :: cs, Rankable field r) ∧ Merges field c cs v := by
  by_cases hpriority : field = "priority"
  · subst hpriority
    have hnot : ¬Ored "priority" (c :: cs) := fun hored => hored.1 (by decide)
    have hrank : mergeRank "priority" = fun r => rank severityRank (written "priority" r) := rfl
    rw [mergeField_priority_ok_iff, Merges, hrank]
    simp [hnot, Rankable]
  by_cases hduration : field = "targetSLA" ∨ field = "slaTarget"
  · have hnot : ¬Ored field (c :: cs) := by
      intro hored
      apply hored.1
      rcases hduration with rfl | rfl <;> decide
    have hrank : mergeRank field = fun r => -rank parseDurationMinutes (written field r) := by
      rcases hduration with rfl | rfl <;> rfl
    rw [mergeField_duration_ok_iff hduration, Merges, hrank, PyList.minBy_eq_maxBy_neg]
    simp [hnot, Rankable, hpriority, hduration]
  have hother : (field == "priority") = false ∧
      (field == "targetSLA" || field == "slaTarget") = false := by
    simpa using And.intro hpriority (not_or.mp hduration)
  have hunranked : field ∉ rankedFields := by
    simpa [rankedFields] using And.intro hpriority (not_or.mp hduration)
  have hrank : mergeRank field = Rule.priorityWeight := by
    funext r
    unfold mergeRank
    simp only [hother, Bool.false_eq_true, if_false]
  have hored : (written field c :: cs.map (written field)).all PyVal.isBool = true ↔
      Ored field (c :: cs) := by
    simp [Ored, hunranked]
  unfold mergeField Merges
  simp only [hother, Bool.false_eq_true, if_false, hrank]
  by_cases hbools : (written field c :: cs.map (written field)).all PyVal.isBool = true
  · rw [if_pos hbools]
    simp [hored.mp hbools, Rankable, hpriority, hduration, Function.comp_def, eq_comm]
  · rw [if_neg hbools]
    simp [mt hored.mpr hbools, Rankable, hpriority, hduration, eq_comm]

/-- A merged value is one that a candidate writes, also where it is an OR. -/
theorem merges_written {field : String} {c : Rule} {cs : List Rule} {v : PyVal}
    (h : Merges field c cs v) : ∃ r ∈ c :: cs, v = written field r := by
  rcases h with ⟨hored, rfl⟩ | ⟨-, rfl⟩
  · have hbool : ∀ r ∈ c :: cs, written field r = .bool (written field r).truthy := by
      intro r hr
      have hbool := hored.2 r hr
      cases hvalue : written field r with
      | bool b => rfl
      | _ => rw [hvalue] at hbool; cases hbool
    cases hany : (c :: cs).any fun r => (written field r).truthy with
    | true =>
      obtain ⟨r, hr, htrue⟩ := List.any_eq_true.mp hany
      exact ⟨r, hr, by rw [hbool r hr, htrue]⟩
    | false =>
      have hfalse := List.any_eq_false.mp hany c List.mem_cons_self
      rw [Bool.not_eq_true] at hfalse
      exact ⟨c, List.mem_cons_self, by rw [hbool c List.mem_cons_self, hfalse]⟩
  · exact ⟨_, PyList.maxBy_mem (mergeRank field) c cs, rfl⟩

/-- No writer ranks higher. -/
def Best (field : String) (writers : List Rule) (rule : Rule) : Prop :=
  ∀ r ∈ writers, mergeRank field r ≤ mergeRank field rule

/-- The merge of a field does not depend on the order of its tied writers: they are all boolean, or
    the best that are tied write one value. -/
def MergeSettled (field : String) (writers : List Rule) : Prop :=
  (field ∉ rankedFields ∧ ∀ r ∈ writers, (written field r).isBool = true) ∨
    ∀ a ∈ writers, ∀ b ∈ writers, a.sortKey = b.sortKey → Best field writers a →
      Best field writers b → written field a = written field b

/-- What is merged in one sorted order is merged in another. -/
theorem Merges.perm {field : String} {c d : Rule} {cs ds : List Rule} {v : PyVal}
    (hperm : (c :: cs).Perm (d :: ds)) (hsorted : Sorted (c :: cs)) (hsorted' : Sorted (d :: ds))
    (hsettled : MergeSettled field (c :: cs)) (h : Merges field c cs v) : Merges field d ds v := by
  have hored : Ored field (d :: ds) ↔ Ored field (c :: cs) := by
    unfold Ored
    simp only [hperm.mem_iff]
  rcases h with ⟨hall, rfl⟩ | ⟨hnot, rfl⟩
  · -- the OR has no order
    rw [hperm.any_eq]
    exact Or.inl ⟨hored.mpr hall, rfl⟩
  · refine Or.inr ⟨mt hored.mp hnot, ?_⟩
    exact PyList.maxBy_congr (mergeRank field) hperm hsorted hsorted' (hsettled.resolve_left hnot)

theorem sameGroup_iff {c : Rule} {cs : List Rule} :
    sameGroup c cs = true ↔ ∃ g, ∀ r ∈ c :: cs, r.conflictGroup = some g := by
  unfold sameGroup
  rw [Bool.and_eq_true, List.all_eq_true, Option.isSome_iff_exists]
  constructor
  · intro h
    obtain ⟨⟨g, hg⟩, hall⟩ := h
    refine ⟨g, List.forall_mem_cons.mpr ⟨hg, ?_⟩⟩
    intro r hr
    rw [beq_iff_eq.mp (hall r hr), hg]
  · intro h
    obtain ⟨g, hall⟩ := h
    obtain ⟨hg, hrest⟩ := List.forall_mem_cons.mp hall
    refine ⟨⟨g, hg⟩, ?_⟩
    intro r hr
    rw [hrest r hr, hg]
    exact beq_self_eq_true _

/-- What the loop makes of the writers that are left after suppression. -/
def conclude (field : String) : List Rule → Except PyError (Option PyVal × List SuppressedEntry)
  | [] => .ok (none, [])
  | [c] => .ok (some (written field c), [])
  | c :: cs =>
    if (c :: cs).all fun r => (written field r).beq (written field c) then
      .ok (some (written field c), [])
    else if sameGroup c cs then
      (fun won => (some (written field won.1), won.2)) <$> resolveConflictGroup field c cs
    else (fun v => (some v, [])) <$> mergeField field c cs

/-- Writers that agree are decided by the first of them. -/
theorem conclude_agree {field : String} {c : Rule} {cs : List Rule}
    (h : ∀ x ∈ c :: cs, (written field x).beq (written field c) = true) :
    conclude field (c :: cs) = .ok (some (written field c), []) := by
  cases cs with
  | nil => rfl
  | cons c' cs =>
    unfold conclude
    simp only
    rw [if_pos (List.all_eq_true.mpr h)]

/-- Several writers that do not agree hold an election, or have the field merged. -/
theorem conclude_disagree {field : String} {c : Rule} {cs : List Rule} (hseveral : cs ≠ [])
    (h : ¬∀ x ∈ c :: cs, (written field x).beq (written field c) = true) :
    conclude field (c :: cs) = if sameGroup c cs then
        (fun won => (some (written field won.1), won.2)) <$> resolveConflictGroup field c cs
      else (fun v => (some v, [])) <$> mergeField field c cs := by
  cases cs with
  | nil => exact absurd rfl hseveral
  | cons c' cs =>
    unfold conclude
    simp only
    rw [if_neg fun hall => h (List.all_eq_true.mp hall)]

theorem resolveField_eq (field : String) (writers : List Rule) :
    resolveField field writers =
      (fun result => (result.1, (applySuppression field writers).2 ++ result.2)) <$>
        conclude field (applySuppression field writers).1 := by
  unfold resolveField conclude
  simp only
  cases (applySuppression field writers).1 with
  | nil => simp [Functor.map, Except.map, pure, Except.pure]
  | cons c cs =>
    cases cs with
    | nil => simp [Functor.map, Except.map, pure, Except.pure]
    | cons c' cs =>
      simp only
      split
      · simp [Functor.map, Except.map, pure, Except.pure]
      · split
        · cases resolveConflictGroup field c (c' :: cs) with
          | error e => rfl
          | ok won => rfl
        · cases mergeField field c (c' :: cs) with
          | error e => rfl
          | ok v => simp [Functor.map, Except.map, bind, Except.bind, pure, Except.pure]

/-- The winner among the suppressors is the first of the heaviest, and the writers but that one are
    suppressed. -/
theorem picks_others {ws ss : List Rule} {s : Rule} (h : ws.filter Rule.isSuppressor = s :: ss) :
    PyList.Picks (fun r => (r.isSuppressor &&
        r.priorityWeight == (PyList.maxBy Rule.priorityWeight s ss).priorityWeight) = true) ws
      (PyList.maxBy Rule.priorityWeight s ss) (ws.eraseP fun r =>
        r.isSuppressor && r.priorityWeight == (PyList.maxBy Rule.priorityWeight s ss).priorityWeight) := by
  apply PyList.picks_eraseP
  have hfirst := PyList.head?_filter_maxBy Rule.priorityWeight s ss
  rw [← h, List.filter_filter] at hfirst
  rw [← hfirst]
  congr 2
  funext r
  rw [Bool.and_comm]
  congr 1

end ConflictResolver

end PulseGuard
