import PulseGuard.ForStd.Except
import PulseGuard.Native.ConflictResolver

/-!
# What conflict resolution computes

`ConflictResolver.resolve` is two passes over the matched rules: one that gathers the
writers of each field, one that decides the field. The lemmas here say it field by field:

* `get?_fieldWriters`: the writers of a field are the matched rules that write it;
* `get?_of_resolveFields`: a field that is written gets what `resolveField` makes of its writers;
* `applyPriorityPostprocessing_critical`: the floors and the bumps leave a critical priority.
-/

namespace PulseGuard

namespace ConflictResolver

/-- The matched rules that write a field, in order. -/
def writers (field : String) (matched : List Rule) : List Rule :=
  matched.filter fun r => r.actions.contains field

theorem mem_writers {field : String} {matched : List Rule} {rule : Rule} :
    rule ∈ writers field matched ↔ rule ∈ matched ∧ field ∈ rule.actions.keys := by
  rw [writers, List.mem_filter, Dict.contains_iff]

/-! ## The writers of a field -/

private theorem get?_addWriter (rule : Rule) (ws : Dict String (List Rule)) (field f : String) :
    (addWriter rule ws field).get? f =
      if f = field ∧ field ∉ modifierFields then
        some ((ws.get? field).getD [] ++ [rule])
      else ws.get? f := by
  unfold addWriter
  by_cases hmod : field ∈ modifierFields
  · simp [hmod]
  · simp only [List.contains_iff_mem, hmod, if_false, not_false_eq_true, and_true, Dict.get?_set]
    by_cases hf : f = field
    · rw [if_pos hf, if_pos hf.symm]
    · rw [if_neg hf, if_neg (Ne.symm hf)]

/-- One rule adds itself to the fields it writes, once each. -/
private theorem get?_foldl_addWriter (rule : Rule) (f : String) (fields : List String)
    (hnodup : fields.Nodup) (ws : Dict String (List Rule)) :
    (fields.foldl (addWriter rule) ws).get? f =
      if f ∈ fields ∧ f ∉ modifierFields then
        some ((ws.get? f).getD [] ++ [rule])
      else ws.get? f := by
  induction fields generalizing ws with
  | nil => simp
  | cons field rest ih =>
    rw [List.nodup_cons] at hnodup
    rw [List.foldl_cons, ih hnodup.2, get?_addWriter]
    by_cases hf : f = field
    · subst hf
      -- The rest of the fields leave the entry that this one wrote alone.
      rw [if_neg (fun h => hnodup.1 h.1)]
      by_cases hmod : f ∉ modifierFields
      · rw [if_pos ⟨rfl, hmod⟩, if_pos ⟨List.mem_cons_self, hmod⟩]
      · rw [if_neg (fun h => hmod h.2), if_neg (fun h => hmod h.2)]
    · rw [if_neg (fun h : f = field ∧ _ => hf h.1)]
      simp only [List.mem_cons, hf, false_or]

private theorem get?_foldl_writers (f : String) (matched : List Rule)
    (ws : Dict String (List Rule)) :
    (matched.foldl (fun ws rule => rule.actions.keys.foldl (addWriter rule) ws) ws).get? f =
      if f ∉ modifierFields ∧ writers f matched ≠ [] then
        some ((ws.get? f).getD [] ++ writers f matched)
      else ws.get? f := by
  induction matched generalizing ws with
  | nil => simp [writers]
  | cons rule rest ih =>
    rw [List.foldl_cons, ih, get?_foldl_addWriter rule f rule.actions.keys rule.actions.nodup]
    by_cases hmod : f ∈ modifierFields
    · simp [hmod]
    · by_cases hwrites : f ∈ rule.actions.keys
      · have hcons : writers f (rule :: rest) = rule :: writers f rest :=
          List.filter_cons_of_pos (Dict.contains_iff _ |>.mpr hwrites)
        rw [hcons]
        by_cases hrest : writers f rest = []
        · simp [hmod, hwrites, hrest]
        · simp [hmod, hwrites, hrest, List.append_assoc]
      · have hcons : writers f (rule :: rest) = writers f rest :=
          List.filter_cons_of_neg (fun h => hwrites (Dict.contains_iff _ |>.mp h))
        rw [hcons]
        simp [hwrites]

/-- The writers of a field are the matched rules that write it; the two modifier fields
    have none. -/
theorem get?_fieldWriters (matched : List Rule) (f : String) :
    (fieldWriters matched).get? f =
      if f ∉ modifierFields ∧ writers f matched ≠ [] then
        some (writers f matched)
      else none := by
  rw [fieldWriters, get?_foldl_writers]
  simp

/-! ## The loop over the fields -/

/-- The value `resolveField` gives, as the loop stores it. -/
private def store (actions : Dict String PyVal) (field : String) (value : Option PyVal) :
    Dict String PyVal :=
  match value with
  | some v => actions.set field v
  | none => actions

private theorem get?_store (actions : Dict String PyVal) (field f : String)
    (value : Option PyVal) :
    (store actions field value).get? f =
      if f = field then value.or (actions.get? f) else actions.get? f := by
  cases value with
  | none => simp [store]
  | some v =>
    rw [store, Dict.get?_set]
    by_cases hf : f = field
    · rw [if_pos hf.symm, if_pos hf, Option.some_or]
    · rw [if_neg (Ne.symm hf), if_neg hf]

private theorem resolveFields_cons_ok {actions : Dict String PyVal}
    {suppressed : List SuppressedEntry} {field : String} {ws : List Rule}
    {rest : List (String × List Rule)} {result : Dict String PyVal × List SuppressedEntry} :
    resolveFields actions suppressed ((field, ws) :: rest) = .ok result ↔
      ∃ value entries, resolveField field ws = .ok (value, entries) ∧
        resolveFields (store actions field value) (suppressed ++ entries) rest = .ok result := by
  simp only [resolveFields, Except.bind_ok_iff, Prod.exists]
  rfl

/-- The loop decides each field on its own, by what `resolveField` makes of its writers. -/
theorem get?_resolveFields {actions actions' : Dict String PyVal}
    {suppressed suppressed' : List SuppressedEntry} {fields : List (String × List Rule)}
    (hnodup : (fields.map Prod.fst).Nodup)
    (h : resolveFields actions suppressed fields = .ok (actions', suppressed')) (f : String) :
    match Assoc.get? f fields with
    | none => actions'.get? f = actions.get? f
    | some ws => ∃ value entries, resolveField f ws = .ok (value, entries) ∧
        actions'.get? f = value.or (actions.get? f) := by
  induction fields generalizing actions suppressed with
  | nil =>
    cases h
    rfl
  | cons entry rest ih =>
    obtain ⟨field, ws⟩ := entry
    rw [List.map_cons, List.nodup_cons] at hnodup
    obtain ⟨value, entries, hfield, hrest⟩ := resolveFields_cons_ok.mp h
    have hstep := ih hnodup.2 hrest
    rw [Assoc.get?_cons]
    by_cases hf : field = f
    · subst hf
      rw [if_pos rfl]
      -- A later field with the same name is excluded by the distinct keys.
      rw [Assoc.get?_eq_none_iff.mpr hnodup.1] at hstep
      refine ⟨value, entries, hfield, ?_⟩
      rw [hstep, get?_store, if_pos rfl]
    · rw [if_neg hf]
      have hstore : (store actions field value).get? f = actions.get? f := by
        rw [get?_store, if_neg (Ne.symm hf)]
      cases hget : Assoc.get? f rest with
      | none =>
        rw [hget] at hstep
        show actions'.get? f = actions.get? f
        rw [hstep, hstore]
      | some ws' =>
        rw [hget] at hstep
        obtain ⟨value', entries', hf', heq⟩ := hstep
        exact ⟨value', entries', hf', by rw [heq, hstore]⟩

/-! ## The resolution as a whole -/

/-- The passes of a resolution that succeeds. -/
theorem resolve_ok_iff {matched : List Rule} {res : Resolution} :
    resolve matched = .ok res ↔
      ∃ actions, resolveFields Dict.empty [] (fieldWriters matched).entries =
          .ok (actions, res.suppressed) ∧
        applyPriorityPostprocessing actions matched = .ok res.actions ∧
        res.mitigations = mergeMitigations matched := by
  simp only [resolve, Except.bind_ok_iff, Except.pure_ok_iff, Prod.exists]
  constructor
  · intro ⟨actions, suppressed, hfields, actions', hpost, hres⟩
    subst hres
    exact ⟨actions, hfields, hpost, rfl⟩
  · intro ⟨actions, hfields, hpost, hmit⟩
    refine ⟨actions, res.suppressed, hfields, res.actions, hpost, ?_⟩
    rw [← hmit]

/-- What the loop over the fields leaves at a field. -/
theorem get?_of_resolveFields {matched : List Rule} {actions : Dict String PyVal}
    {suppressed : List SuppressedEntry}
    (h : resolveFields Dict.empty [] (fieldWriters matched).entries = .ok (actions, suppressed))
    {f : String} (hmod : f ∉ modifierFields) (hwriters : writers f matched ≠ []) :
    ∃ entries, resolveField f (writers f matched) = .ok (actions.get? f, entries) := by
  have hstep := get?_resolveFields (fieldWriters matched).nodup h f
  have hget : Assoc.get? f (fieldWriters matched).entries = some (writers f matched) := by
    rw [← Dict.get?, get?_fieldWriters, if_pos ⟨hmod, hwriters⟩]
  rw [hget] at hstep
  obtain ⟨value, entries, hfield, hval⟩ := hstep
  refine ⟨entries, ?_⟩
  rw [hfield, hval, Dict.get?_empty, Option.or_none]

/-! ## Suppression -/

/-- With a non-suppressible writer, suppression only takes the suppressors out. -/
theorem applySuppression_of_nonSuppressible (field : String) {ws : List Rule} {rule : Rule}
    (hmem : rule ∈ ws) (hns : rule.nonSuppressible = true) :
    (applySuppression field ws).1 = ws.filter (!·.isSuppressor) := by
  have hany : ws.any Rule.nonSuppressible = true := List.any_eq_true.mpr ⟨rule, hmem, hns⟩
  unfold applySuppression
  split
  · rename_i hnone
    symm
    rw [List.filter_eq_self]
    intro r hr
    by_contra hsup
    have hr' : r ∈ ws.filter Rule.isSuppressor := by
      rw [List.mem_filter]
      exact ⟨hr, by simpa using hsup⟩
    rw [hnone] at hr'
    exact List.not_mem_nil hr'
  · rw [if_pos hany]

/-! ## The election in a conflict group -/

private theorem inTop_weight {c : Rule} {cs : List Rule} {top : Rule → Bool}
    (h : inTop c cs = .ok top) {r : Rule} (hr : top r = true) :
    r.priorityWeight = (PyList.maxBy Rule.priorityWeight c cs).priorityWeight := by
  unfold inTop at h
  simp only at h
  split at h
  · obtain ⟨specificities, _, htop⟩ := Except.bind_ok_iff.mp h
    rw [Except.pure_ok_iff] at htop
    subst htop
    simp only [Bool.and_eq_true, beq_iff_eq] at hr
    exact hr.1
  · rw [Except.pure_ok_iff] at h
    subst h
    exact beq_iff_eq.mp hr

/-- The winner of a conflict group is a candidate, and none has a greater weight. -/
theorem resolveConflictGroup_winner {field : String} {c : Rule} {cs : List Rule} {winner : Rule}
    {lost : List SuppressedEntry} (h : resolveConflictGroup field c cs = .ok (winner, lost)) :
    winner ∈ c :: cs ∧ ∀ r ∈ c :: cs, r.priorityWeight ≤ winner.priorityWeight := by
  unfold resolveConflictGroup at h
  obtain ⟨top, htop, h⟩ := Except.bind_ok_iff.mp h
  split at h
  · cases h
  · rename_i t ts hfilter
    rw [Except.pure_ok_iff] at h
    obtain ⟨hwinner, -⟩ := Prod.mk.inj h
    have hmem : winner ∈ (c :: cs).filter top := by
      rw [hfilter, ← hwinner]
      exact PyList.minBy_mem Rule.ruleCode t ts
    rw [List.mem_filter] at hmem
    refine ⟨hmem.1, ?_⟩
    intro r hr
    rw [inTop_weight htop hmem.2]
    exact PyList.le_maxBy Rule.priorityWeight c cs r hr

/-! ## The merge of a field -/

private theorem mem_zip_keys {key : PyVal → Except PyError Int} {vs : List PyVal}
    {ks : List Int} (hks : vs.mapM key = .ok ks) :
    (∀ p ∈ ks.zip vs, p.2 ∈ vs ∧ key p.2 = .ok p.1) ∧
      ∀ v ∈ vs, ∃ k, key v = .ok k ∧ (k, v) ∈ ks.zip vs := by
  have hall := Except.mapM_ok_iff.mp hks
  clear hks
  induction hall with
  | nil => simp
  | @cons v k vs ks hvk _ ih =>
    rw [List.zip_cons_cons]
    constructor
    · intro p hp
      rcases List.mem_cons.mp hp with rfl | hp
      · exact ⟨List.mem_cons_self, hvk⟩
      · exact ⟨List.mem_cons_of_mem _ (ih.1 p hp).1, (ih.1 p hp).2⟩
    · intro w hw
      rcases List.mem_cons.mp hw with rfl | hw
      · exact ⟨k, hvk, List.mem_cons_self⟩
      · obtain ⟨k', hk', hmem⟩ := ih.2 w hw
        exact ⟨k', hk', List.mem_cons_of_mem _ hmem⟩

/-- `max(values, key=key)` is one of the values, and none has a greater key. -/
theorem selectBy_maxBy {key : PyVal → Except PyError Int} {v x : PyVal} {vs : List PyVal}
    (h : selectBy PyList.maxBy key v vs = .ok x) :
    x ∈ v :: vs ∧ ∃ k, key x = .ok k ∧ ∀ y ∈ v :: vs, ∃ ky, key y = .ok ky ∧ ky ≤ k := by
  unfold selectBy at h
  obtain ⟨k, hk, h⟩ := Except.bind_ok_iff.mp h
  obtain ⟨ks, hks, h⟩ := Except.bind_ok_iff.mp h
  rw [Except.pure_ok_iff] at h
  obtain ⟨hfst, hsnd⟩ := mem_zip_keys hks
  have hmem := PyList.maxBy_mem Prod.fst (k, v) (ks.zip vs)
  have hle := PyList.le_maxBy Prod.fst (k, v) (ks.zip vs)
  generalize PyList.maxBy Prod.fst (k, v) (ks.zip vs) = best at h hmem hle
  subst h
  have hbest : best.2 ∈ v :: vs ∧ key best.2 = .ok best.1 := by
    rcases List.mem_cons.mp hmem with rfl | hmem
    · exact ⟨List.mem_cons_self, hk⟩
    · exact ⟨List.mem_cons_of_mem _ (hfst _ hmem).1, (hfst _ hmem).2⟩
  refine ⟨hbest.1, best.1, hbest.2, ?_⟩
  intro y hy
  rcases List.mem_cons.mp hy with rfl | hy
  · exact ⟨k, hk, hle (k, y) List.mem_cons_self⟩
  · obtain ⟨ky, hky, hmem'⟩ := hsnd y hy
    exact ⟨ky, hky, hle (ky, y) (List.mem_cons_of_mem _ hmem')⟩

/-! ## The priority after resolution -/

/-- `order.index` finds the values of the scale only. -/
theorem orderIndex_ok {v : PyVal} {i : Nat} (h : orderIndex v = .ok i) :
    i < 4 ∧ v = orderAt i := by
  unfold orderIndex at h
  split at h
  · rename_i s
    split at h
    · rename_i hmem
      cases h
      have hmem : s ∈ order := List.contains_iff_mem.mp hmem
      refine ⟨List.idxOf_lt_length_iff.mpr hmem, ?_⟩
      rw [orderAt, List.getElem?_idxOf hmem]
      rfl
    · cases h
  · cases h

/-- No floor lies above `Critical`. -/
theorem floorIndex_le {fs : List PyVal} {i : Nat} (h : floorIndex fs = .ok i) : i ≤ 3 := by
  have hle : ∀ j ∈ fs.filterMap (fun f => (orderIndex f).toOption), j ≤ 3 := by
    intro j hj
    obtain ⟨f, -, hf⟩ := List.mem_filterMap.mp hj
    cases hidx : orderIndex f with
    | error e => rw [hidx] at hf; cases hf
    | ok k =>
      rw [hidx] at hf
      cases hf
      have := (orderIndex_ok hidx).1
      omega
  unfold floorIndex at h
  split at h
  · cases h
  · rename_i k ks hks
    cases h
    rw [hks] at hle
    have hfold : ∀ (ks : List Nat) (k : Nat), k ≤ 3 → (∀ j ∈ ks, j ≤ 3) → ks.foldl max k ≤ 3 := by
      intro ks
      induction ks with
      | nil => intro k hk _; exact hk
      | cons j js ih =>
        intro k hk hjs
        exact ih (max k j) (max_le hk (hjs j List.mem_cons_self))
          fun l hl => hjs l (List.mem_cons_of_mem _ hl)
    exact hfold ks k (hle k List.mem_cons_self) fun j hj => hle j (List.mem_cons_of_mem _ hj)

private theorem applyFloors_critical {fs : List PyVal} {v : PyVal}
    (h : applyFloors fs (.str "Critical") = .ok v) : v = .str "Critical" := by
  unfold applyFloors at h
  split at h
  · exact (Except.pure_ok_iff.mp h).symm
  · obtain ⟨floorIdx, hfloor, h⟩ := Except.bind_ok_iff.mp h
    obtain ⟨i, hi, h⟩ := Except.bind_ok_iff.mp h
    rw [Except.pure_ok_iff] at h
    have hle := floorIndex_le hfloor
    have hcritical : orderIndex (.str "Critical") = .ok 3 := by decide
    rw [hcritical] at hi
    cases hi
    rw [if_neg (by omega)] at h
    exact h.symm

private theorem applyBumps_critical {n : Nat} {v : PyVal}
    (h : applyBumps n (.str "Critical") = .ok v) : v = .str "Critical" := by
  unfold applyBumps at h
  split at h
  · exact (Except.pure_ok_iff.mp h).symm
  · obtain ⟨i, hi, h⟩ := Except.bind_ok_iff.mp h
    rw [Except.pure_ok_iff] at h
    have hcritical : orderIndex (.str "Critical") = .ok 3 := by decide
    rw [hcritical] at hi
    cases hi
    have hlen : order.length = 4 := rfl
    rw [hlen, Nat.min_eq_right (by omega)] at h
    exact h.symm

/-- A critical priority stays critical. -/
theorem applyPriorityPostprocessing_critical {actions actions' : Dict String PyVal}
    {matched : List Rule} (h : applyPriorityPostprocessing actions matched = .ok actions')
    (hcritical : actions.get? "priority" = some (.str "Critical")) :
    actions'.get? "priority" = some (.str "Critical") := by
  unfold applyPriorityPostprocessing at h
  rw [hcritical] at h
  simp only [Option.getD_some, Bool.false_and, Bool.false_eq_true, if_false] at h
  obtain ⟨v, hv, h⟩ := Except.bind_ok_iff.mp h
  rw [applyFloors_critical hv] at h
  obtain ⟨w, hw, h⟩ := Except.bind_ok_iff.mp h
  rw [applyBumps_critical hw] at h
  rw [← Except.pure_ok_iff.mp h, Dict.get?_set_self]

end ConflictResolver

end PulseGuard
