import PulseGuard.Spec.SettledFields

/-!
# What a resolution chooses for a field

A resolution decides each field from the rules that write it, and nothing else: `chosen` is the
value that the loop over the fields gives to one of them, `passedOver` the entries that it appends
for it. `resolves_iff` says when a list of rules is resolved at all, and `get?_resolve`,
`get?_resolve_priority` and `filter_suppressed` read a resolution field by field. Two lists of
rules with the same writers of a field agree on that field, so that what is true of one field need
not look at the others.
-/

namespace PulseGuard

namespace ConflictResolver

/-- The value that the loop over the fields gives to a field, if it gives one. -/
def chosen (field : String) (matched : List Rule) : Option PyVal :=
  (decided (field, writers field matched)).1

/-- The entries that the loop over the fields appends for a field. -/
def passedOver (field : String) (matched : List Rule) : List SuppressedEntry :=
  (decided (field, writers field matched)).2

/-- The writers of a field that suppression leaves. -/
def standing (field : String) (matched : List Rule) : List Rule :=
  (applySuppression field (writers field matched)).1

theorem mem_writers_of_standing {field : String} {matched : List Rule} {r : Rule}
    (h : r ∈ standing field matched) : r ∈ writers field matched :=
  applySuppression_subset field _ r h

theorem mem_of_standing {field : String} {matched : List Rule} {r : Rule}
    (h : r ∈ standing field matched) : r ∈ matched ∧ field ∈ r.actions.keys :=
  mem_writers.mp (mem_writers_of_standing h)

theorem decided_of_no_writers (field : String) :
    Decides (field, []) ∧ decided (field, []) = (none, []) := by
  have hresolve : resolveField field [] = .ok (none, []) := rfl
  exact ⟨decides_iff.mpr ⟨_, hresolve⟩, decided_eq hresolve⟩

/-- A field is decided by what is concluded from the writers that suppression leaves. -/
theorem decides_writers_iff {field : String} {matched : List Rule} :
    Decides (field, writers field matched) ↔
      ∃ lost, conclude field (standing field matched) = .ok (chosen field matched, lost) ∧
        passedOver field matched =
          (applySuppression field (writers field matched)).2 ++ lost := by
  have heq := resolveField_eq field (writers field matched)
  constructor
  · intro h
    have h : resolveField field (writers field matched) =
        .ok (decided (field, writers field matched)) := h
    rw [heq] at h
    obtain ⟨result, hresult, hdecided⟩ := Except.map_ok_iff.mp h
    refine ⟨result.2, ?_, ?_⟩
    · show conclude field (applySuppression field (writers field matched)).1 = _
      rw [hresult, chosen, ← hdecided]
    · rw [passedOver, ← hdecided]
  · intro h
    obtain ⟨lost, hlost, -⟩ := h
    apply decides_iff.mpr
    have hlost : conclude field (applySuppression field (writers field matched)).1 = _ := hlost
    rw [heq, hlost]
    exact ⟨_, rfl⟩

theorem chosen_eq (field : String) (matched : List Rule) :
    chosen field matched = ((conclude field (standing field matched)).toOption.getD (none, [])).1 := by
  rw [chosen, decided, resolveField_eq, standing]
  cases conclude field (applySuppression field (writers field matched)).1 <;> rfl

/-- Writers that are left alike are decided alike. -/
theorem decides_congr {field : String} {matched matched' : List Rule}
    (h : standing field matched' = standing field matched) :
    (Decides (field, writers field matched') ↔ Decides (field, writers field matched)) ∧
      chosen field matched' = chosen field matched := by
  constructor
  · rw [decides_iff, decides_iff]
    simp only [resolveField_eq]
    have h : (applySuppression field (writers field matched')).1 =
        (applySuppression field (writers field matched)).1 := h
    rw [h]
    cases conclude field (applySuppression field (writers field matched)).1 with
    | error e => simp [Functor.map, Except.map]
    | ok result => simp [Functor.map, Except.map]
  · rw [chosen_eq, chosen_eq, h]

/-- What suppression makes of the writers of a field: without a suppressor it leaves them all, a
    writer that is not suppressible takes out the suppressors, and otherwise the first of the
    heaviest suppressors is left. -/
theorem applySuppression_cases (field : String) (ws : List Rule) :
    ((∀ r ∈ ws, r.isSuppressor = false) ∧ applySuppression field ws = (ws, [])) ∨
    ((∃ r ∈ ws, r.isSuppressor = true) ∧ (∃ r ∈ ws, r.nonSuppressible = true) ∧
      applySuppression field ws = (ws.filter (!·.isSuppressor),
        (ws.filter Rule.isSuppressor).map fun r => ⟨r.ruleCode, field,
          "attempted suppression overridden by non-suppressible rule"⟩)) ∨
    ∃ s ss, ws.filter Rule.isSuppressor = s :: ss ∧ (∀ r ∈ ws, r.nonSuppressible = false) ∧
      applySuppression field ws = ([PyList.maxBy Rule.priorityWeight s ss],
        (ws.eraseP fun r => r.isSuppressor &&
            r.priorityWeight == (PyList.maxBy Rule.priorityWeight s ss).priorityWeight).map
          fun r => ⟨r.ruleCode, field,
            "suppressed by " ++ (PyList.maxBy Rule.priorityWeight s ss).ruleCode⟩) := by
  unfold applySuppression
  cases hsuppressors : ws.filter Rule.isSuppressor with
  | nil =>
    left
    refine ⟨?_, rfl⟩
    intro r hr
    simpa using List.filter_eq_nil_iff.mp hsuppressors r hr
  | cons s ss =>
    right
    have hs : s ∈ ws ∧ s.isSuppressor = true := by
      rw [← List.mem_filter, hsuppressors]
      exact List.mem_cons_self
    by_cases hany : ws.any Rule.nonSuppressible = true
    · left
      simp only [hany, if_true]
      exact ⟨⟨s, hs⟩, List.any_eq_true.mp hany, trivial⟩
    · right
      simp only [hany]
      refine ⟨s, ss, rfl, ?_, rfl⟩
      intro r hr
      rw [Bool.not_eq_true, List.any_eq_false] at hany
      simpa using hany r hr

theorem standing_sublist (field : String) (matched : List Rule) :
    (standing field matched).Sublist (writers field matched) := by
  unfold standing
  rcases applySuppression_cases field (writers field matched) with
    ⟨-, heq⟩ | ⟨-, -, heq⟩ | ⟨s, ss, hfilter, -, heq⟩
  · rw [heq]
  · rw [heq]
    exact List.filter_sublist
  · rw [heq, List.singleton_sublist]
    have hmem := PyList.maxBy_mem Rule.priorityWeight s ss
    rw [← hfilter] at hmem
    exact (List.mem_filter.mp hmem).1

/-- A field has no value when suppression leaves no writer, and only then. -/
theorem conclude_isSome {field : String} {ws : List Rule}
    {result : Option PyVal × List SuppressedEntry} (h : conclude field ws = .ok result)
    (hne : ws ≠ []) : ∃ v, result.1 = some v := by
  unfold conclude at h
  split at h
  · exact absurd rfl hne
  · cases h
    exact ⟨_, rfl⟩
  · split at h
    · cases h
      exact ⟨_, rfl⟩
    · split at h
      · obtain ⟨won, -, rfl⟩ := Except.map_ok_iff.mp h
        exact ⟨_, rfl⟩
      · obtain ⟨v, -, rfl⟩ := Except.map_ok_iff.mp h
        exact ⟨v, rfl⟩

theorem exists_chosen {field : String} {matched : List Rule}
    (hdecides : Decides (field, writers field matched)) (hne : standing field matched ≠ []) :
    ∃ v, chosen field matched = some v := by
  obtain ⟨lost, hlost, -⟩ := decides_writers_iff.mp hdecides
  exact @conclude_isSome field _ (chosen field matched, lost) hlost hne

/-- What is chosen for a field is what a writer that stands writes. -/
theorem conclude_written {field : String} {ws : List Rule}
    {result : Option PyVal × List SuppressedEntry} (h : conclude field ws = .ok result) {v : PyVal}
    (hv : result.1 = some v) : ∃ r ∈ ws, v = written field r := by
  unfold conclude at h
  split at h
  · cases h
    cases hv
  · cases h
    exact ⟨_, List.mem_cons_self, (Option.some.inj hv).symm⟩
  · split at h
    · cases h
      exact ⟨_, List.mem_cons_self, (Option.some.inj hv).symm⟩
    · split at h
      · obtain ⟨won, hwon, rfl⟩ := Except.map_ok_iff.mp h
        exact ⟨won.1, (resolveConflictGroup_winner hwon).1, (Option.some.inj hv).symm⟩
      · obtain ⟨w, hw, rfl⟩ := Except.map_ok_iff.mp h
        cases hv
        exact merges_written (mergeField_ok_iff.mp hw).2

theorem chosen_written {field : String} {matched : List Rule}
    (hdecides : Decides (field, writers field matched)) {v : PyVal}
    (hv : chosen field matched = some v) : ∃ r ∈ standing field matched, v = written field r := by
  obtain ⟨lost, hlost, -⟩ := decides_writers_iff.mp hdecides
  exact conclude_written hlost hv

/-! ## The fields one by one -/

/-- Each field is decided without an exception. -/
def AllDecided (matched : List Rule) : Prop :=
  ∀ f, f ∉ modifierFields → Decides (f, writers f matched)

theorem allDecided_iff {matched : List Rule} :
    AllDecided matched ↔ ∀ entry ∈ (fieldWriters matched).entries, Decides entry := by
  rw [entries_fieldWriters, List.forall_mem_map]
  constructor
  · intro h f hf
    exact h f (mem_keys_fieldWriters.mp hf).1
  · intro h f hmod
    by_cases hwriters : writers f matched = []
    · rw [hwriters]
      exact (decided_of_no_writers f).1
    · exact h f (mem_keys_fieldWriters.mpr ⟨hmod, hwriters⟩)

theorem get?_resolveFields_chosen {matched : List Rule} {actions : Dict String PyVal}
    {suppressed : List SuppressedEntry}
    (h : resolveFields Dict.empty [] (fieldWriters matched).entries = .ok (actions, suppressed))
    {f : String} (hmod : f ∉ modifierFields) : actions.get? f = chosen f matched := by
  rw [get?_resolveFields_eq h]
  by_cases hwriters : writers f matched = []
  · rw [if_neg fun hcond => hcond.2 hwriters, chosen, hwriters, (decided_of_no_writers f).2]
  · rw [if_pos ⟨hmod, hwriters⟩, chosen]

/-- Rules are resolved when each field is decided and the priority can be raised. -/
theorem resolves_iff {matched : List Rule} :
    (∃ res, resolve matched = .ok res) ↔ AllDecided matched ∧
      ∃ p, raisedPriority (chosen "priority" matched) (floors matched) (bumps matched) = .ok p := by
  constructor
  · intro h
    obtain ⟨res, hres⟩ := h
    obtain ⟨actions, hfields, hpost, -⟩ := resolve_ok_iff.mp hres
    obtain ⟨p, hraised, -⟩ := applyPriorityPostprocessing_ok_iff.mp hpost
    rw [get?_resolveFields_chosen hfields (by decide)] at hraised
    exact ⟨allDecided_iff.mpr (resolveFields_ok_iff.mp ⟨actions, hfields⟩).1, p, hraised⟩
  · intro h
    obtain ⟨hall, p, hraised⟩ := h
    obtain ⟨actions, hfields⟩ := resolveFields_ok_iff.mpr ⟨allDecided_iff.mp hall, rfl⟩
    rw [← get?_resolveFields_chosen hfields (by decide)] at hraised
    have hpost := applyPriorityPostprocessing_ok_iff.mpr ⟨p, hraised, rfl⟩
    exact ⟨⟨_, mergeMitigations matched, _⟩, resolve_ok_iff.mpr ⟨actions, hfields, hpost, rfl⟩⟩

theorem allDecided_of_resolve {matched : List Rule} {res : Resolution}
    (h : resolve matched = .ok res) : AllDecided matched :=
  (resolves_iff.mp ⟨res, h⟩).1

/-- Every field but the priority has what the loop gives it. -/
theorem get?_resolve {matched : List Rule} {res : Resolution} (h : resolve matched = .ok res)
    {f : String} (hmod : f ∉ modifierFields) (hpriority : f ≠ "priority") :
    res.actions.get? f = chosen f matched := by
  obtain ⟨actions, hfields, hpost, -⟩ := resolve_ok_iff.mp h
  obtain ⟨p, -, hactions⟩ := applyPriorityPostprocessing_ok_iff.mp hpost
  rw [← get?_resolveFields_chosen hfields hmod, hactions]
  cases p with
  | none => rfl
  | some v => exact Dict.get?_set_of_ne _ _ (Ne.symm hpriority)

/-- The priority has what the loop gives it, raised. -/
theorem get?_resolve_priority {matched : List Rule} {res : Resolution}
    (h : resolve matched = .ok res) :
    ∃ p, raisedPriority (chosen "priority" matched) (floors matched) (bumps matched) = .ok p ∧
      res.actions.get? "priority" = p.or (chosen "priority" matched) := by
  obtain ⟨actions, hfields, hpost, -⟩ := resolve_ok_iff.mp h
  obtain ⟨p, hraised, hactions⟩ := applyPriorityPostprocessing_ok_iff.mp hpost
  have hchosen := get?_resolveFields_chosen hfields (f := "priority") (by decide)
  rw [hchosen] at hraised
  refine ⟨p, hraised, ?_⟩
  rw [hactions]
  cases p with
  | none => exact hchosen
  | some v => exact Dict.get?_set_self _ _ _

/-- A field for which the loop chooses a value is there. -/
theorem exists_resolved {matched : List Rule} {res : Resolution} (h : resolve matched = .ok res)
    {f : String} (hmod : f ∉ modifierFields) {v : PyVal} (hv : chosen f matched = some v) :
    ∃ w, res.actions.get? f = some w := by
  by_cases hpriority : f = "priority"
  · subst hpriority
    obtain ⟨p, -, hget⟩ := get?_resolve_priority h
    rw [hget, hv]
    cases p with
    | none => exact ⟨v, rfl⟩
    | some w => exact ⟨w, rfl⟩
  · exact ⟨v, by rw [get?_resolve h hmod hpriority, hv]⟩

/-! ## The entries of a field -/

theorem field_of_mem_applySuppression {field : String} {ws : List Rule} {entry : SuppressedEntry}
    (h : entry ∈ (applySuppression field ws).2) : entry.field = field := by
  unfold applySuppression at h
  split at h
  · cases h
  · split at h
    · obtain ⟨r, -, rfl⟩ := List.mem_map.mp h
      rfl
    · obtain ⟨r, -, rfl⟩ := List.mem_map.mp h
      rfl

theorem field_of_mem_lost {field : String} {c : Rule} {cs : List Rule}
    {won : Rule × List SuppressedEntry} (h : resolveConflictGroup field c cs = .ok won)
    {entry : SuppressedEntry} (hentry : entry ∈ won.2) : entry.field = field := by
  unfold resolveConflictGroup at h
  obtain ⟨top, -, h⟩ := Except.bind_ok_iff.mp h
  split at h
  · cases h
  · rw [Except.pure_ok_iff] at h
    subst h
    obtain ⟨r, -, rfl⟩ := List.mem_map.mp hentry
    rfl

theorem field_of_mem_conclude {field : String} {ws : List Rule}
    {result : Option PyVal × List SuppressedEntry} (h : conclude field ws = .ok result)
    {entry : SuppressedEntry} (hentry : entry ∈ result.2) : entry.field = field := by
  unfold conclude at h
  split at h
  · cases h
    cases hentry
  · cases h
    cases hentry
  · split at h
    · cases h
      cases hentry
    · split at h
      · obtain ⟨won, hwon, rfl⟩ := Except.map_ok_iff.mp h
        exact field_of_mem_lost hwon hentry
      · obtain ⟨v, -, rfl⟩ := Except.map_ok_iff.mp h
        cases hentry

theorem field_of_mem_passedOver {field : String} {matched : List Rule} {entry : SuppressedEntry}
    (hdecides : Decides (field, writers field matched)) (h : entry ∈ passedOver field matched) :
    entry.field = field := by
  obtain ⟨lost, hlost, heq⟩ := decides_writers_iff.mp hdecides
  rw [heq] at h
  cases List.mem_append.mp h with
  | inl hsuppressed => exact field_of_mem_applySuppression hsuppressed
  | inr hlost' => exact field_of_mem_conclude hlost hlost'

/-- The suppressed list of a resolution is made of the entries of its fields. -/
theorem suppressed_eq {matched : List Rule} {res : Resolution} (h : resolve matched = .ok res) :
    res.suppressed = (fieldWriters matched).keys.flatMap fun f => passedOver f matched := by
  obtain ⟨actions, hfields, -, -⟩ := resolve_ok_iff.mp h
  have hsuppressed := (resolveFields_ok_iff.mp ⟨actions, hfields⟩).2
  rw [List.nil_append, entries_fieldWriters, List.flatMap_map] at hsuppressed
  exact hsuppressed

theorem mem_suppressed {matched : List Rule} {res : Resolution} (h : resolve matched = .ok res)
    {entry : SuppressedEntry} :
    entry ∈ res.suppressed ↔ entry.field ∉ modifierFields ∧ entry ∈ passedOver entry.field matched := by
  have hall := allDecided_of_resolve h
  rw [suppressed_eq h, List.mem_flatMap]
  constructor
  · intro hentry
    obtain ⟨f, hf, hentry⟩ := hentry
    have hmod := (mem_keys_fieldWriters.mp hf).1
    rw [field_of_mem_passedOver (hall f hmod) hentry]
    exact ⟨hmod, hentry⟩
  · intro hentry
    refine ⟨entry.field, mem_keys_fieldWriters.mpr ⟨hentry.1, ?_⟩, hentry.2⟩
    intro hwriters
    have hnone := hentry.2
    rw [passedOver, hwriters, (decided_of_no_writers _).2] at hnone
    cases hnone

/-- The entries of one field are those that the loop appends for it. -/
theorem filter_suppressed {matched : List Rule} {res : Resolution} (h : resolve matched = .ok res)
    {f : String} (hmod : f ∉ modifierFields) :
    res.suppressed.filter (fun entry => entry.field == f) = passedOver f matched := by
  have hall := allDecided_of_resolve h
  have hnodup : (fieldWriters matched).keys.Nodup := (fieldWriters matched).nodup
  have hkeys : ∀ keys : List String, keys.Nodup → (∀ k ∈ keys, k ∉ modifierFields) →
      (keys.flatMap fun k => passedOver k matched).filter (fun entry => entry.field == f) =
        if f ∈ keys then passedOver f matched else [] := by
    intro keys
    induction keys with
    | nil => simp
    | cons k rest ih =>
      intro hnodup hmods
      rw [List.nodup_cons] at hnodup
      rw [List.forall_mem_cons] at hmods
      have hown : ∀ entry ∈ passedOver k matched, entry.field = k :=
        fun entry hentry => field_of_mem_passedOver (hall k hmods.1) hentry
      rw [List.flatMap_cons, List.filter_append, ih hnodup.2 hmods.2]
      by_cases hk : k = f
      · subst hk
        rw [List.filter_eq_self.mpr fun entry hentry => by rw [hown entry hentry, beq_self_eq_true],
          if_neg hnodup.1, if_pos List.mem_cons_self, List.append_nil]
      · have hnone : (passedOver k matched).filter (fun entry => entry.field == f) = [] := by
          rw [List.filter_eq_nil_iff]
          intro entry hentry
          rw [hown entry hentry]
          simpa using hk
        simp [hnone, Ne.symm hk]
  rw [suppressed_eq h, hkeys _ hnodup fun k hk => (mem_keys_fieldWriters.mp hk).1]
  by_cases hf : f ∈ (fieldWriters matched).keys
  · rw [if_pos hf]
  · rw [if_neg hf]
    have hwriters : writers f matched = [] := by
      by_contra hne
      exact hf (mem_keys_fieldWriters.mpr ⟨hmod, hne⟩)
    rw [passedOver, hwriters, (decided_of_no_writers f).2]

end ConflictResolver

end PulseGuard
