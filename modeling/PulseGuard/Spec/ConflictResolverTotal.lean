import PulseGuard.Native.Pipeline
import PulseGuard.Spec.ConflictResolverCorrect
import PulseGuard.Spec.WellFormedTree

/-!
# When conflict resolution and plan building never raise

`UsableActions` says that the action values the pipeline interprets are ones it can
interpret. On matched rules with usable actions and countable conditions,
`ConflictResolver.resolve` returns (`resolve_total`) and so does
`ExecutionPlanBuilder.build` (`build_total`).
-/

namespace PulseGuard

/-- The action values the pipeline interprets, each one usable. -/
structure UsableActions (rule : Rule) : Prop where
  priority : ∀ field ∈ ["priority", "priorityFloor"], ∀ v, rule.actions.get? field = some v →
    ∃ s ∈ ConflictResolver.order, v = .str s
  duration : ∀ field ∈ ["targetSLA", "slaTarget"], ∀ v, rule.actions.get? field = some v →
    ∃ n, ConflictResolver.parseDurationMinutes v = .ok n
  sequencing : ∀ seq, rule.sequencing = some seq → seq.isEmpty = false →
    ∀ key ∈ ["tryFirst", "fallbackTo"], ∃ v, seq.get? key = some v ∧ v.hashable = true

namespace RuleCondition

private theorem countChildren_total {xs : List PyVal} (h : ∀ x ∈ xs, ∃ n, countLeaves x = .ok n) :
    ∃ n, countChildren xs = .ok n := by
  induction xs with
  | nil => exact ⟨0, rfl⟩
  | cons x xs ih =>
    obtain ⟨m, hm⟩ := h x List.mem_cons_self
    obtain ⟨n, hn⟩ := ih fun y hy => h y (List.mem_cons_of_mem _ hy)
    refine ⟨m + n, ?_⟩
    rw [countChildren, hm, hn]
    rfl

/-- The leaves of a well-formed tree can be counted. -/
theorem countLeaves_wellFormed {tree : PyVal} (h : WellFormed tree) :
    ∃ n, countLeaves tree = .ok n := by
  induction h with
  | literal v hv =>
    cases v with
    | dict entries => exact absurd rfl (hv entries)
    | _ => exact ⟨0, rfl⟩
  | path p => exact ⟨1, rfl⟩
  | node op args _ _ _ ih =>
    unfold countLeaves
    split
    · exact countChildren_total ih
    · exact ⟨1, rfl⟩

end RuleCondition

namespace ConflictResolver

theorem written_spec {field : String} {rule : Rule} (h : field ∈ rule.actions.keys) :
    rule.actions.get? field = some (written field rule) := by
  obtain ⟨v, hv⟩ := (Dict.mem_keys_iff _).mp h
  rw [written, hv, Option.getD_some]

/-! ## Each way of deciding a field succeeds -/

private theorem foldl_max_mem (xs : List Nat) (hne : xs ≠ []) : xs.foldl max 0 ∈ xs := by
  have hacc : ∀ (xs : List Nat) (a : Nat), xs.foldl max a = a ∨ xs.foldl max a ∈ xs := by
    intro xs
    induction xs with
    | nil => intro a; exact Or.inl rfl
    | cons x xs ih =>
      intro a
      rw [List.foldl_cons]
      rcases ih (max a x) with h | h
      · rw [h]
        rcases Nat.le_total a x with hax | hxa
        · rw [Nat.max_eq_right hax]
          exact Or.inr List.mem_cons_self
        · rw [Nat.max_eq_left hxa]
          exact Or.inl rfl
      · exact Or.inr (List.mem_cons_of_mem _ h)
  obtain ⟨x, xs, rfl⟩ := List.exists_cons_of_ne_nil hne
  rw [List.foldl_cons, Nat.max_eq_right (Nat.zero_le x)]
  rcases hacc xs x with h | h
  · rw [h]
    exact List.mem_cons_self
  · exact List.mem_cons_of_mem _ h

/-- The candidates of the greatest weight. -/
def heaviest (c : Rule) (cs : List Rule) : List Rule :=
  (c :: cs).filter fun r =>
    r.priorityWeight == (PyList.maxBy Rule.priorityWeight c cs).priorityWeight

/-- Once the specificities are known that are looked at, some candidate is in the top. -/
private theorem inTop_total {c : Rule} {cs : List Rule}
    (hspec : 1 < (heaviest c cs).length →
      ∀ r ∈ heaviest c cs, ∃ n, r.conditions.specificity = .ok n) :
    ∃ top, inTop c cs = .ok top ∧ ∃ r ∈ c :: cs, top r = true := by
  have hmax := PyList.maxBy_mem Rule.priorityWeight c cs
  unfold heaviest at hspec
  unfold inTop
  generalize PyList.maxBy Rule.priorityWeight c cs = best at hmax hspec
  simp only
  split
  · rename_i hseveral
    have hheaviest : best ∈ (c :: cs).filter fun r => r.priorityWeight == best.priorityWeight := by
      rw [List.mem_filter]
      exact ⟨hmax, beq_self_eq_true _⟩
    obtain ⟨ns, hns⟩ := Except.exists_mapM_ok (hspec hseveral)
    refine ⟨fun r => r.priorityWeight == best.priorityWeight &&
      hasSpecificity (ns.foldl max 0) r, ?_, ?_⟩
    · exact Except.bind_ok_iff.mpr ⟨ns, hns, rfl⟩
    · obtain ⟨n, hn, -⟩ := Except.ok_of_mapM_ok hns best hheaviest
      have hmem := foldl_max_mem ns (List.ne_nil_of_mem hn)
      -- The greatest specificity is the specificity of one of the heaviest rules.
      obtain ⟨r, hr, hrn⟩ := Except.exists_of_mem_mapM hns hmem
      rw [List.mem_filter] at hr
      refine ⟨r, hr.1, ?_⟩
      rw [Bool.and_eq_true]
      refine ⟨hr.2, ?_⟩
      rw [hasSpecificity, hrn]
      exact beq_self_eq_true _
  · exact ⟨_, rfl, best, hmax, beq_self_eq_true _⟩

theorem resolveConflictGroup_total (field : String) {c : Rule} {cs : List Rule}
    (hspec : 1 < (heaviest c cs).length →
      ∀ r ∈ heaviest c cs, ∃ n, r.conditions.specificity = .ok n) :
    ∃ result, resolveConflictGroup field c cs = .ok result := by
  obtain ⟨top, htop, r, hr, hrtop⟩ := inTop_total hspec
  unfold resolveConflictGroup
  rw [htop]
  cases hfilter : (c :: cs).filter top with
  | nil =>
    have hmem : r ∈ (c :: cs).filter top := List.mem_filter.mpr ⟨hr, hrtop⟩
    rw [hfilter] at hmem
    cases hmem
  | cons t ts =>
    refine Except.exists_bind_ok rfl ?_
    rw [hfilter]
    exact ⟨_, rfl⟩

/-- Conversely an election that goes through knows them. -/
theorem specificity_of_resolveConflictGroup {field : String} {c : Rule} {cs : List Rule}
    {won : Rule × List SuppressedEntry} (h : resolveConflictGroup field c cs = .ok won)
    (hseveral : 1 < (heaviest c cs).length) :
    ∀ r ∈ heaviest c cs, ∃ n, r.conditions.specificity = .ok n := by
  obtain ⟨top, htop, -⟩ := Except.bind_ok_iff.mp h
  unfold inTop at htop
  unfold heaviest at hseveral
  simp only [gt_iff_lt, if_pos hseveral] at htop
  obtain ⟨ns, hns, -⟩ := Except.bind_ok_iff.mp htop
  intro r hr
  obtain ⟨n, -, hn⟩ := Except.ok_of_mapM_ok hns r hr
  exact ⟨n, hn⟩

private theorem selectBy_total
    (select : (Int × PyVal → Int) → Int × PyVal → List (Int × PyVal) → Int × PyVal)
    {key : PyVal → Except PyError Int} {v : PyVal} {vs : List PyVal}
    (h : ∀ x ∈ v :: vs, ∃ k, key x = .ok k) : ∃ x, selectBy select key v vs = .ok x := by
  obtain ⟨k, hk⟩ := h v List.mem_cons_self
  obtain ⟨ks, hks⟩ := Except.exists_mapM_ok fun x hx => h x (List.mem_cons_of_mem _ hx)
  exact Except.exists_bind_ok hk (Except.exists_bind_ok hks ⟨_, rfl⟩)

private theorem mergeField_total {field : String} {c : Rule} {cs : List Rule}
    (husable : ∀ r ∈ c :: cs, UsableActions r) (hkey : ∀ r ∈ c :: cs, field ∈ r.actions.keys) :
    ∃ v, mergeField field c cs = .ok v := by
  have hmem : ∀ x ∈ written field c :: cs.map (written field),
      ∃ r ∈ c :: cs, r.actions.get? field = some x := by
    intro x hx
    rw [← List.map_cons] at hx
    obtain ⟨r, hr, rfl⟩ := List.mem_map.mp hx
    exact ⟨r, hr, written_spec (hkey r hr)⟩
  unfold mergeField
  simp only
  split
  · rename_i hfield
    refine selectBy_total PyList.maxBy fun x hx => ?_
    obtain ⟨r, hr, hget⟩ := hmem x hx
    rw [beq_iff_eq.mp hfield] at hget
    obtain ⟨s, -, rfl⟩ := (husable r hr).priority "priority" (by simp) x hget
    exact ⟨_, rfl⟩
  · split
    · rename_i hfield
      refine selectBy_total PyList.minBy fun x hx => ?_
      obtain ⟨r, hr, hget⟩ := hmem x hx
      refine (husable r hr).duration field ?_ x hget
      simpa using hfield
    · split
      · exact ⟨_, rfl⟩
      · exact ⟨_, rfl⟩

theorem applySuppression_subset (field : String) (ws : List Rule) :
    ∀ r ∈ (applySuppression field ws).1, r ∈ ws := by
  intro r hr
  unfold applySuppression at hr
  split at hr
  · exact hr
  · rename_i s ss hsup
    split at hr
    · exact (List.mem_filter.mp hr).1
    · rw [List.mem_singleton] at hr
      subst hr
      have hmem := PyList.maxBy_mem Rule.priorityWeight s ss
      rw [← hsup] at hmem
      exact (List.mem_filter.mp hmem).1

private theorem resolveField_total {field : String} {ws : List Rule}
    (husable : ∀ r ∈ ws, UsableActions r ∧ ∃ n, r.conditions.specificity = .ok n)
    (hkey : ∀ r ∈ ws, field ∈ r.actions.keys) :
    ∃ result, resolveField field ws = .ok result := by
  have hsub := applySuppression_subset field ws
  unfold resolveField
  simp only
  generalize (applySuppression field ws).1 = effective at hsub
  match effective, hsub with
  | [], _ => exact ⟨_, rfl⟩
  | [c], _ => exact ⟨_, rfl⟩
  | c :: c' :: cs, hsub =>
    simp only
    split
    · exact ⟨_, rfl⟩
    · split
      · obtain ⟨⟨winner, lost⟩, hwin⟩ := resolveConflictGroup_total field
          fun _ r hr => (husable r (hsub r (List.mem_filter.mp hr).1)).2
        exact Except.exists_bind_ok hwin ⟨_, rfl⟩
      · obtain ⟨v, hv⟩ := mergeField_total (fun r hr => (husable r (hsub r hr)).1)
          fun r hr => hkey r (hsub r hr)
        exact Except.exists_bind_ok hv ⟨_, rfl⟩

private theorem resolveFields_total {fields : List (String × List Rule)}
    (h : ∀ entry ∈ fields, ∃ result, resolveField entry.1 entry.2 = .ok result)
    (actions : Dict String PyVal) (suppressed : List SuppressedEntry) :
    ∃ result, resolveFields actions suppressed fields = .ok result := by
  induction fields generalizing actions suppressed with
  | nil => exact ⟨_, rfl⟩
  | cons entry rest ih =>
    obtain ⟨⟨value, entries⟩, hfield⟩ := h entry List.mem_cons_self
    rw [resolveFields, hfield]
    exact ih (fun e he => h e (List.mem_cons_of_mem _ he)) _ _

/-! ## The priority stays on the scale -/

/-- The priority that the writers of the field agree on, elect or merge is one they wrote. -/
theorem resolveField_priority_written {ws : List Rule} {v : PyVal}
    {entries : List SuppressedEntry} (h : resolveField "priority" ws = .ok (some v, entries)) :
    ∃ r ∈ ws, v = written "priority" r := by
  have hsub := applySuppression_subset "priority" ws
  unfold resolveField at h
  simp only at h
  generalize (applySuppression "priority" ws).1 = effective at h hsub
  match effective, h, hsub with
  | [c], h, hsub =>
    obtain ⟨hv, -⟩ := Prod.mk.inj (Except.pure_ok_iff.mp h)
    exact ⟨c, hsub c List.mem_cons_self, (Option.some.inj hv).symm⟩
  | c :: c' :: cs, h, hsub =>
    simp only at h
    split at h
    · obtain ⟨hv, -⟩ := Prod.mk.inj (Except.pure_ok_iff.mp h)
      exact ⟨c, hsub c List.mem_cons_self, (Option.some.inj hv).symm⟩
    · split at h
      · obtain ⟨⟨winner, lost⟩, hwin, h⟩ := Except.bind_ok_iff.mp h
        obtain ⟨hv, -⟩ := Prod.mk.inj (Except.pure_ok_iff.mp h)
        exact ⟨winner, hsub winner (resolveConflictGroup_winner hwin).1,
          (Option.some.inj hv).symm⟩
      · obtain ⟨x, hx, h⟩ := Except.bind_ok_iff.mp h
        obtain ⟨hv, -⟩ := Prod.mk.inj (Except.pure_ok_iff.mp h)
        have hmerge : selectBy PyList.maxBy severityRank (written "priority" c)
            ((c' :: cs).map (written "priority")) = .ok x := hx
        have hmem := (selectBy_maxBy hmerge).1
        rw [← List.map_cons] at hmem
        obtain ⟨r, hr, hrx⟩ := List.mem_map.mp hmem
        exact ⟨r, hsub r hr, by rw [hrx, ← Option.some.inj hv]⟩

private theorem orderIndex_total {s : String} (h : s ∈ order) : ∃ i, orderIndex (.str s) = .ok i := by
  refine ⟨order.idxOf s, ?_⟩
  rw [orderIndex, if_pos (List.contains_iff_mem.mpr h)]

private theorem orderAt_mem (i : Nat) : ∃ s ∈ order, orderAt i = .str s := by
  unfold orderAt
  cases h : order[i]? with
  | none => exact ⟨"Critical", by decide, rfl⟩
  | some s => exact ⟨s, List.mem_of_getElem? h, rfl⟩

/-- Floors and bumps succeed on a scale value, and give one. -/
private theorem applyFloors_total {fs : List PyVal} (hfs : ∀ f ∈ fs, ∃ s ∈ order, f = .str s)
    {s : String} (hs : s ∈ order) : ∃ t ∈ order, applyFloors fs (.str s) = .ok (.str t) := by
  unfold applyFloors
  cases fs with
  | nil => exact ⟨s, hs, rfl⟩
  | cons f fs =>
    obtain ⟨i, hi⟩ := orderIndex_total hs
    obtain ⟨j, hj⟩ : ∃ j, floorIndex (f :: fs) = .ok j := by
      obtain ⟨t, ht, rfl⟩ := hfs f List.mem_cons_self
      obtain ⟨k, hk⟩ := orderIndex_total ht
      rw [floorIndex, List.filterMap_cons, hk]
      exact ⟨_, rfl⟩
    rw [hi, hj]
    by_cases hlt : i < j
    · obtain ⟨t, ht, heq⟩ := orderAt_mem j
      refine ⟨t, ht, ?_⟩
      show Except.ok (if i < j then orderAt j else PyVal.str s) = _
      rw [if_pos hlt, heq]
    · refine ⟨s, hs, ?_⟩
      show Except.ok (if i < j then orderAt j else PyVal.str s) = _
      rw [if_neg hlt]

private theorem applyBumps_total (n : Nat) {s : String} (hs : s ∈ order) :
    ∃ v, applyBumps n (.str s) = .ok v := by
  unfold applyBumps
  obtain ⟨i, hi⟩ := orderIndex_total hs
  rw [hi]
  split
  · exact ⟨_, rfl⟩
  · exact ⟨_, rfl⟩

private theorem applyPriorityPostprocessing_total {actions : Dict String PyVal}
    {matched : List Rule} (husable : ∀ r ∈ matched, UsableActions r)
    (hscale : ∀ v, actions.get? "priority" = some v → ∃ s ∈ order, v = .str s) :
    ∃ actions', applyPriorityPostprocessing actions matched = .ok actions' := by
  have hfloors : ∀ f ∈ floors matched, ∃ s ∈ order, f = .str s := by
    intro f hf
    obtain ⟨r, hr, hget⟩ := List.mem_filterMap.mp hf
    exact (husable r hr).priority "priorityFloor" (by simp) f hget
  have hrest : ∀ s ∈ order, ∃ actions', (do
      let current ← applyFloors (floors matched) (.str s)
      let current ← applyBumps (bumps matched) current
      return actions.set "priority" current) = .ok actions' := by
    intro s hs
    obtain ⟨t, ht, hfl⟩ := applyFloors_total hfloors hs
    obtain ⟨v, hv⟩ := applyBumps_total (bumps matched) ht
    exact Except.exists_bind_ok hfl (Except.exists_bind_ok hv ⟨_, rfl⟩)
  unfold applyPriorityPostprocessing
  cases hget : actions.get? "priority" with
  | none =>
    simp only [Option.getD_none, Bool.true_and]
    cases (floors matched).isEmpty with
    | true => exact ⟨actions, rfl⟩
    | false => exact hrest "Low" (by decide)
  | some v =>
    obtain ⟨s, hs, rfl⟩ := hscale v hget
    exact hrest s hs

/-- On usable matched rules whose conditions can be counted, resolution returns. -/
theorem resolve_total {matched : List Rule}
    (h : ∀ r ∈ matched, UsableActions r ∧ ∃ n, r.conditions.specificity = .ok n) :
    ∃ res, resolve matched = .ok res := by
  have hentry : ∀ entry ∈ (fieldWriters matched).entries,
      entry.1 ∉ modifierFields ∧ writers entry.1 matched ≠ [] ∧
        entry.2 = writers entry.1 matched := by
    intro entry hentry
    have hget := (Dict.get?_eq_some_iff (fieldWriters matched)).mpr hentry
    rw [get?_fieldWriters] at hget
    split at hget
    · rename_i hcond
      exact ⟨hcond.1, hcond.2, (Option.some.inj hget).symm⟩
    · cases hget
  have hresolved : ∀ entry ∈ (fieldWriters matched).entries,
      ∃ result, resolveField entry.1 entry.2 = .ok result := by
    intro entry hmem
    obtain ⟨-, -, hws⟩ := hentry entry hmem
    rw [hws]
    exact resolveField_total (fun r hr => h r (mem_writers.mp hr).1)
      fun r hr => (mem_writers.mp hr).2
  obtain ⟨⟨actions, suppressed⟩, hfields⟩ := resolveFields_total hresolved Dict.empty []
  have hscale : ∀ v, actions.get? "priority" = some v → ∃ s ∈ order, v = .str s := by
    intro v hv
    have hws : writers "priority" matched ≠ [] := by
      intro hnil
      have hstep := get?_resolveFields (fieldWriters matched).nodup hfields "priority"
      have hnone : Assoc.get? "priority" (fieldWriters matched).entries = none := by
        rw [← Dict.get?, get?_fieldWriters, if_neg (fun hc => hc.2 hnil)]
      rw [hnone] at hstep
      rw [show actions.get? "priority" = none from hstep] at hv
      cases hv
    obtain ⟨entries, hfield⟩ := get?_of_resolveFields hfields (by decide) hws
    rw [hv] at hfield
    obtain ⟨r, hr, rfl⟩ := resolveField_priority_written hfield
    obtain ⟨hr, hkey⟩ := mem_writers.mp hr
    exact (h r hr).1.priority "priority" (by simp) _ (written_spec hkey)
  obtain ⟨actions', hpost⟩ :=
    applyPriorityPostprocessing_total (fun r hr => (h r hr).1) hscale
  exact ⟨⟨actions', mergeMitigations matched, suppressed⟩,
    resolve_ok_iff.mpr ⟨actions, hfields, hpost, rfl⟩⟩

end ConflictResolver

namespace ExecutionPlanBuilder

private theorem sequencedSteps_total (order : Nat) (rule : Rule) {seq : Dict String PyVal}
    (h : ∀ key ∈ ["tryFirst", "fallbackTo"], ∃ v, seq.get? key = some v ∧ v.hashable = true) :
    ∃ result, sequencedSteps order rule seq = .ok result := by
  obtain ⟨v, hv, hvhash⟩ := h "tryFirst" (by simp)
  obtain ⟨w, hw, hwhash⟩ := h "fallbackTo" (by simp)
  have hadd : ∀ types x, x.hashable = true → addType types x = .ok (types ++ [x]) :=
    fun types x hx => if_pos hx
  refine Except.exists_bind_ok (a := v) (by rw [required, hv]) ?_
  refine Except.exists_bind_ok (a := w) (by rw [required, hw]) ?_
  exact Except.exists_bind_ok (hadd [] v hvhash)
    (Except.exists_bind_ok (hadd [v] w hwhash) ⟨_, rfl⟩)

private theorem sequencedPlan_total {matched : List Rule}
    (h : ∀ r ∈ matched, UsableActions r) (plan : List PlanStep) (types : List PyVal) :
    ∃ result, sequencedPlan plan types matched = .ok result := by
  induction matched generalizing plan types with
  | nil => exact ⟨_, rfl⟩
  | cons rule rest ih =>
    have hrest := ih fun r hr => h r (List.mem_cons_of_mem _ hr)
    unfold sequencedPlan
    cases hseq : rule.sequencing.filter (!·.isEmpty) with
    | none => exact hrest plan types
    | some seq =>
      rw [Option.filter_eq_some_iff] at hseq
      obtain ⟨⟨steps, inserted⟩, hsteps⟩ := sequencedSteps_total (plan.length + 1) rule
        ((h rule List.mem_cons_self).sequencing seq hseq.1 (by simpa using hseq.2))
      simp only [hsteps]
      exact hrest _ _

/-- On usable matched rules plan building returns, whatever the actions. -/
theorem build_total {matched : List Rule} (h : ∀ r ∈ matched, UsableActions r)
    (actions : Dict String PyVal) : ∃ plan, build actions matched = .ok plan := by
  obtain ⟨⟨plan, types⟩, hplan⟩ := sequencedPlan_total h [] []
  exact Except.exists_bind_ok hplan ⟨_, rfl⟩

end ExecutionPlanBuilder

end PulseGuard
