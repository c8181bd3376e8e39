import PulseGuard.Spec.ConflictResolverTotal

/-!
# A resolution, field by field

`ConflictResolver.resolve` decides each field on its own, from the rules that write it. Here the
loop over the fields is the map that it is, with what it appends to the suppressed rules
(`resolveFields_ok_iff`), the priority that the floors and the bumps leave is a function of the
three things it depends on, and the rules that write a set of fields of their own can be told
apart from the others (`fieldWriters_filter`).
-/

namespace PulseGuard

namespace ConflictResolver

/-! ## The loop over the fields -/

/-- What the loop makes of one field. -/
def decided (entry : String × List Rule) : Option PyVal × List SuppressedEntry :=
  (resolveField entry.1 entry.2).toOption.getD (none, [])

/-- The field is decided without an exception. -/
def Decides (entry : String × List Rule) : Prop := resolveField entry.1 entry.2 = .ok (decided entry)

theorem decides_iff {entry : String × List Rule} :
    Decides entry ↔ ∃ result, resolveField entry.1 entry.2 = .ok result := by
  unfold Decides decided
  constructor
  · intro h
    exact ⟨_, h⟩
  · intro h
    obtain ⟨result, h⟩ := h
    rw [h]
    rfl

theorem decided_eq {field : String} {ws : List Rule} {result : Option PyVal × List SuppressedEntry}
    (h : resolveField field ws = .ok result) : decided (field, ws) = result := by
  unfold decided
  rw [h]
  rfl

/-- The loop goes through when each field is decided, and appends what each of them appends. -/
theorem resolveFields_ok_iff {actions : Dict String PyVal} {suppressed suppressed' : List SuppressedEntry}
    {fields : List (String × List Rule)} :
    (∃ actions', resolveFields actions suppressed fields = .ok (actions', suppressed')) ↔
      (∀ entry ∈ fields, Decides entry) ∧
        suppressed' = suppressed ++ fields.flatMap fun entry => (decided entry).2 := by
  induction fields generalizing actions suppressed with
  | nil =>
    rw [List.flatMap_nil, List.append_nil]
    constructor
    · intro h
      obtain ⟨actions', h⟩ := h
      cases h
      exact ⟨fun _ hmem => absurd hmem List.not_mem_nil, rfl⟩
    · intro h
      obtain ⟨-, rfl⟩ := h
      exact ⟨actions, rfl⟩
  | cons entry rest ih =>
    obtain ⟨field, ws⟩ := entry
    rw [List.forall_mem_cons, List.flatMap_cons, ← List.append_assoc]
    constructor
    · intro h
      obtain ⟨actions', h⟩ := h
      rw [resolveFields] at h
      obtain ⟨⟨value, entries⟩, hfield, hrest⟩ := Except.bind_ok_iff.mp h
      obtain ⟨hall, hsuppressed⟩ := ih.mp ⟨actions', hrest⟩
      rw [decided_eq hfield]
      exact ⟨⟨decides_iff.mpr ⟨_, hfield⟩, hall⟩, hsuppressed⟩
    · intro h
      obtain ⟨⟨hfield, hall⟩, hsuppressed⟩ := h
      unfold resolveFields
      have hfield : resolveField field ws = .ok (decided (field, ws)) := hfield
      rw [hfield]
      exact ih.mpr ⟨hall, hsuppressed⟩

/-- The fields of a resolution, each with the rules that write it. -/
theorem mem_fieldWriters {matched : List Rule} {field : String} {ws : List Rule} :
    (field, ws) ∈ (fieldWriters matched).entries ↔
      field ∉ modifierFields ∧ writers field matched ≠ [] ∧ ws = writers field matched := by
  rw [← Dict.get?_eq_some_iff, get?_fieldWriters]
  constructor
  · intro h
    split at h
    · rename_i hcond
      exact ⟨hcond.1, hcond.2, (Option.some.inj h).symm⟩
    · cases h
  · intro h
    obtain ⟨hmod, hwriters, rfl⟩ := h
    rw [if_pos ⟨hmod, hwriters⟩]

/-- The fields of a resolution come with their writers. -/
theorem entries_fieldWriters (matched : List Rule) :
    (fieldWriters matched).entries =
      (fieldWriters matched).keys.map fun f => (f, writers f matched) := by
  unfold Dict.keys
  rw [List.map_map]
  refine (List.map_congr_left ?_).trans (List.map_id _) |>.symm
  intro entry hentry
  obtain ⟨f, ws⟩ := entry
  obtain ⟨-, -, hws⟩ := mem_fieldWriters.mp hentry
  show (f, writers f matched) = (f, ws)
  rw [hws]

theorem mem_keys_fieldWriters {matched : List Rule} {f : String} :
    f ∈ (fieldWriters matched).keys ↔ f ∉ modifierFields ∧ writers f matched ≠ [] := by
  rw [Dict.mem_keys_iff]
  constructor
  · intro h
    obtain ⟨ws, hws⟩ := h
    obtain ⟨hmod, hne, -⟩ := mem_fieldWriters.mp ((Dict.get?_eq_some_iff _).mp hws)
    exact ⟨hmod, hne⟩
  · intro h
    obtain ⟨hmod, hne⟩ := h
    exact ⟨_, (Dict.get?_eq_some_iff _).mpr (mem_fieldWriters.mpr ⟨hmod, hne, rfl⟩)⟩

/-- The value that the loop leaves at a field. -/
theorem get?_resolveFields_eq {matched : List Rule} {actions : Dict String PyVal}
    {suppressed : List SuppressedEntry}
    (h : resolveFields Dict.empty [] (fieldWriters matched).entries = .ok (actions, suppressed))
    (f : String) :
    actions.get? f = if f ∉ modifierFields ∧ writers f matched ≠ [] then
      (decided (f, writers f matched)).1 else none := by
  split
  · rename_i hcond
    obtain ⟨entries, hfield⟩ := get?_of_resolveFields h hcond.1 hcond.2
    rw [decided_eq hfield]
  · rename_i hcond
    have hstep := get?_resolveFields (fieldWriters matched).nodup h f
    have hget : Assoc.get? f (fieldWriters matched).entries = none := by
      rw [← Dict.get?, get?_fieldWriters, if_neg hcond]
    rw [hget] at hstep
    exact hstep

/-! ## The rules that are suppressed -/

/-- A suppressed rule is one of the writers. -/
theorem exists_of_mem_suppressed {field : String} {ws : List Rule} {value : Option PyVal}
    {entries : List SuppressedEntry} (h : resolveField field ws = .ok (value, entries))
    {entry : SuppressedEntry} (hentry : entry ∈ entries) : ∃ r ∈ ws, r.ruleCode = entry.ruleCode := by
  have hsuppression : ∀ e ∈ (applySuppression field ws).2, ∃ r ∈ ws, r.ruleCode = e.ruleCode := by
    intro e he
    unfold applySuppression at he
    split at he
    · cases he
    · rename_i s ss hsuppressors
      split at he
      · obtain ⟨r, hr, rfl⟩ := List.mem_map.mp he
        rw [← hsuppressors] at hr
        exact ⟨r, (List.mem_filter.mp hr).1, rfl⟩
      · obtain ⟨r, hr, rfl⟩ := List.mem_map.mp he
        exact ⟨r, List.mem_of_mem_eraseP hr, rfl⟩
  have hsub := applySuppression_subset field ws
  unfold resolveField at h
  simp only at h
  split at h
  · cases h
    exact hsuppression entry hentry
  · cases h
    exact hsuppression entry hentry
  · rename_i c cs hone heffective
    split at h
    · cases h
      exact hsuppression entry hentry
    · split at h
      · obtain ⟨⟨winner, lost⟩, hgroup, h⟩ := Except.bind_ok_iff.mp h
        rw [Except.pure_ok_iff] at h
        cases h
        rcases List.mem_append.mp hentry with hentry | hentry
        · exact hsuppression entry hentry
        · unfold resolveConflictGroup at hgroup
          obtain ⟨top, -, hgroup⟩ := Except.bind_ok_iff.mp hgroup
          split at hgroup
          · cases hgroup
          · rw [Except.pure_ok_iff] at hgroup
            cases hgroup
            obtain ⟨r, hr, rfl⟩ := List.mem_map.mp hentry
            have hmem : r ∈ (applySuppression field ws).1 := heffective ▸ List.mem_of_mem_eraseP hr
            exact ⟨r, hsub r hmem, rfl⟩
      · obtain ⟨merged, -, h⟩ := Except.bind_ok_iff.mp h
        rw [Except.pure_ok_iff] at h
        cases h
        exact hsuppression entry hentry

/-! ## The floors and the bumps -/

/-- The priority after the floors and the bumps, when there is one. -/
def raisedPriority (current : Option PyVal) (floors : List PyVal) (bumps : Nat) :
    Except PyError (Option PyVal) := do
  let current := current.getD .none
  let current := if current matches .none && !floors.isEmpty then .str "Low" else current
  if current matches .none then return none
  let current ← applyFloors floors current
  let current ← applyBumps bumps current
  return some current

/-- What the floors and the bumps act on: the priority, or `Low` where there are only floors. -/
def raisedFrom (current : Option PyVal) (floors : List PyVal) : Option PyVal :=
  match current.getD .none with
  | .none => if floors.isEmpty then none else some (.str "Low")
  | v => some v

/-- A priority that is there, after the floors and the bumps. -/
def raise (floors : List PyVal) (bumps : Nat) (current : PyVal) : Except PyError PyVal := do
  let current ← applyFloors floors current
  applyBumps bumps current

theorem map_raise {α : Type} (f : PyVal → α) (floors : List PyVal) (bumps : Nat) (v : PyVal) :
    f <$> raise floors bumps v = do
      let current ← applyFloors floors v
      let current ← applyBumps bumps current
      return f current := by
  unfold raise
  simp only [map_eq_pure_bind, bind_assoc]

theorem raisedPriority_eq (current : Option PyVal) (floors : List PyVal) (bumps : Nat) :
    raisedPriority current floors bumps = match raisedFrom current floors with
      | none => .ok none
      | some v => some <$> raise floors bumps v := by
  unfold raisedPriority raisedFrom
  cases current.getD .none with
  | none =>
    cases floors.isEmpty with
    | true => rfl
    | false => exact (map_raise some floors bumps _).symm
  | _ => exact (map_raise some floors bumps _).symm

theorem applyPriorityPostprocessing_eq (actions : Dict String PyVal) (matched : List Rule) :
    applyPriorityPostprocessing actions matched =
      match raisedFrom (actions.get? "priority") (floors matched) with
      | none => .ok actions
      | some v => actions.set "priority" <$> raise (floors matched) (bumps matched) v := by
  unfold applyPriorityPostprocessing raisedFrom
  cases (actions.get? "priority").getD .none with
  | none =>
    cases (floors matched).isEmpty with
    | true => rfl
    | false => exact (map_raise (actions.set "priority") _ _ _).symm
  | _ => exact (map_raise (actions.set "priority") _ _ _).symm

/-- The floors and the bumps of the matched rules act on the priority. -/
theorem applyPriorityPostprocessing_ok_iff {actions actions' : Dict String PyVal} {matched : List Rule} :
    applyPriorityPostprocessing actions matched = .ok actions' ↔
      ∃ priority, raisedPriority (actions.get? "priority") (floors matched) (bumps matched) = .ok priority ∧
        actions' = match priority with
          | some v => actions.set "priority" v
          | none => actions := by
  rw [applyPriorityPostprocessing_eq, raisedPriority_eq]
  cases raisedFrom (actions.get? "priority") (floors matched) with
  | none =>
    constructor
    · intro h
      cases h
      exact ⟨none, rfl, rfl⟩
    · intro h
      obtain ⟨priority, hpriority, rfl⟩ := h
      cases hpriority
      rfl
  | some v =>
    show actions.set "priority" <$> _ = _ ↔ ∃ priority, some <$> _ = _ ∧ _
    simp only [Except.map_ok_iff]
    constructor
    · intro h
      obtain ⟨w, hw, rfl⟩ := h
      exact ⟨some w, ⟨w, hw, rfl⟩, rfl⟩
    · intro h
      obtain ⟨_, ⟨w, hw, rfl⟩, rfl⟩ := h
      exact ⟨w, hw, rfl⟩

/-- The priority comes out of `raise`, where there is one to raise. -/
theorem raisedPriority_ok_iff {current : Option PyVal} {floors : List PyVal} {bumps : Nat}
    {priority : Option PyVal} : raisedPriority current floors bumps = .ok priority ↔
      raisedFrom current floors = none ∧ priority = none ∨
        ∃ v w, raisedFrom current floors = some v ∧ raise floors bumps v = .ok w ∧ priority = some w := by
  rw [raisedPriority_eq]
  cases raisedFrom current floors with
  | none => simp [eq_comm]
  | some v =>
    show some <$> _ = _ ↔ _
    rw [Except.map_ok_iff]
    simp [@eq_comm _ priority]

theorem raisedFrom_absent {current : Option PyVal} (hnone : current.getD .none = .none)
    (floors : List PyVal) :
    raisedFrom current floors = if floors = [] then none else some (.str "Low") := by
  unfold raisedFrom
  rw [hnone]
  simp

theorem raisedFrom_present {v : PyVal} (hv : v ≠ .none) (floors : List PyVal) :
    raisedFrom (some v) floors = some v := by
  cases v with
  | none => exact absurd rfl hv
  | _ => rfl

theorem raisedFrom_eq_none_iff {current : Option PyVal} {floors : List PyVal} :
    raisedFrom current floors = none ↔ current.getD .none = .none ∧ floors = [] := by
  by_cases hnone : current.getD .none = .none
  · simp [raisedFrom_absent hnone, hnone]
  · cases current with
    | none => exact absurd rfl hnone
    | some v => simp [@raisedFrom_present v hnone, show v ≠ .none from hnone]

theorem raisedFrom_eq_some_iff {current : Option PyVal} {floors : List PyVal} {v : PyVal} :
    raisedFrom current floors = some v ↔ current = some v ∧ v ≠ .none ∨
      current.getD .none = .none ∧ floors ≠ [] ∧ v = .str "Low" := by
  by_cases hnone : current.getD .none = .none
  · have hnot : ¬(current = some v ∧ v ≠ .none) := by
      intro h
      rw [h.1] at hnone
      exact h.2 hnone
    simp [raisedFrom_absent hnone, hnone, hnot, eq_comm]
  · cases current with
    | none => exact absurd rfl hnone
    | some w =>
      have hw : w ≠ .none := hnone
      rw [raisedFrom_present hw]
      constructor
      · intro h
        cases h
        exact Or.inl ⟨rfl, hw⟩
      · intro h
        exact (h.resolve_right fun habsent => hnone habsent.1).1

theorem applyFloors_origin {floors : List PyVal} {current v : PyVal}
    (h : applyFloors floors current = .ok v) : v = current ∨ ∃ s, v = .str s := by
  unfold applyFloors at h
  split at h
  · exact Or.inl (Except.pure_ok_iff.mp h).symm
  · obtain ⟨i, -, h⟩ := Except.bind_ok_iff.mp h
    obtain ⟨j, -, h⟩ := Except.bind_ok_iff.mp h
    rw [Except.pure_ok_iff] at h
    split at h
    · exact Or.inr ⟨_, h.symm⟩
    · exact Or.inl h.symm

theorem applyBumps_origin {bumps : Nat} {current v : PyVal}
    (h : applyBumps bumps current = .ok v) : v = current ∨ ∃ s, v = .str s := by
  unfold applyBumps at h
  split at h
  · exact Or.inl (Except.pure_ok_iff.mp h).symm
  · obtain ⟨i, -, h⟩ := Except.bind_ok_iff.mp h
    exact Or.inr ⟨_, (Except.pure_ok_iff.mp h).symm⟩

/-- The floors and the bumps leave the priority, or put it on the scale. -/
theorem raisedPriority_origin {current : Option PyVal} {floors : List PyVal} {bumps : Nat} {v : PyVal}
    (h : raisedPriority current floors bumps = .ok (some v)) :
    current = some v ∨ ∃ s, v = .str s := by
  rcases raisedPriority_ok_iff.mp h with ⟨-, hnone⟩ | ⟨start, w, hstart, hraise, hsome⟩
  · cases hnone
  · cases hsome
    obtain ⟨floored, hfloors, hbumps⟩ := Except.bind_ok_iff.mp hraise
    rcases applyBumps_origin hbumps with rfl | hscale
    · rcases applyFloors_origin hfloors with rfl | hscale
      · -- neither raises it: it is the current priority, or the level below the floors
        rcases raisedFrom_eq_some_iff.mp hstart with ⟨hcurrent, -⟩ | ⟨-, -, hlow⟩
        · exact Or.inl hcurrent
        · exact Or.inr ⟨"Low", hlow⟩
      · exact Or.inr hscale
    · exact Or.inr hscale

/-! ## Rules with fields of their own -/

/-- Some rules write fields that the others do not write. -/
def Apart (own : Rule → Bool) (field : String → Bool) (rules : List Rule) : Prop :=
  ∀ r ∈ rules, ∀ f ∈ r.actions.keys, field f = own r

private theorem filter_foldl_addWriter {own : Rule → Bool} {field : String → Bool} {rule : Rule}
    (fields : List String) (hfields : ∀ f ∈ fields, field f = own rule) (ws : Dict String (List Rule)) :
    ∀ ws' : Dict String (List Rule), ws'.entries = ws.entries.filter (fun e => field e.1) →
      (fields.foldl (addWriter rule) ws).entries.filter (fun e => field e.1) =
        if own rule then (fields.foldl (addWriter rule) ws').entries else ws'.entries := by
  induction fields generalizing ws with
  | nil =>
    intro ws' hws
    rw [List.foldl_nil, List.foldl_nil, ← hws, ite_self]
  | cons f rest ih =>
    intro ws' hws
    rw [List.forall_mem_cons] at hfields
    rw [List.foldl_cons, List.foldl_cons]
    -- the step on `f` writes an entry that is kept exactly when the rule is
    have hstep : (addWriter rule ws f).entries.filter (fun e => field e.1) =
        if own rule then (addWriter rule ws' f).entries else ws'.entries := by
      unfold addWriter
      split
      · rw [← hws, ite_self]
      · show (Assoc.set f _ ws.entries).filter (fun e => field e.1) =
          if own rule then Assoc.set f _ ws'.entries else ws'.entries
        rw [Assoc.filter_set, hfields.1, ← hws]
        by_cases hown : own rule = true
        · have hget : ws'.get? f = ws.get? f := by
            unfold Dict.get?
            rw [hws]
            exact Assoc.get?_filter (hfields.1.trans hown) ws.entries
          rw [if_pos hown, if_pos hown, hget]
        · rw [if_neg hown, if_neg hown]
    by_cases hown : own rule = true
    · rw [if_pos hown] at hstep ⊢
      rw [ih hfields.2 _ (addWriter rule ws' f) hstep.symm, if_pos hown]
    · rw [if_neg hown] at hstep ⊢
      rw [ih hfields.2 _ ws' hstep.symm, if_neg hown]

/-- The fields that are the own rules', in their order, are those of the own rules alone. -/
theorem fieldWriters_filter {own : Rule → Bool} {field : String → Bool} {matched : List Rule}
    (h : Apart own field matched) :
    (fieldWriters matched).entries.filter (fun e => field e.1) =
      (fieldWriters (matched.filter own)).entries := by
  have hfold : ∀ (rules : List Rule) (ws ws' : Dict String (List Rule)), Apart own field rules →
      ws'.entries = ws.entries.filter (fun e => field e.1) →
      (rules.foldl (fun ws rule => rule.actions.keys.foldl (addWriter rule) ws) ws).entries.filter
          (fun e => field e.1) =
        ((rules.filter own).foldl (fun ws rule => rule.actions.keys.foldl (addWriter rule) ws) ws').entries := by
    intro rules
    induction rules with
    | nil =>
      intro ws ws' _ hws
      exact hws.symm
    | cons rule rest ih =>
      intro ws ws' hapart hws
      unfold Apart at hapart
      rw [List.forall_mem_cons] at hapart
      have hstep := filter_foldl_addWriter rule.actions.keys hapart.1 ws ws' hws
      rw [List.foldl_cons, List.filter_cons]
      by_cases hown : own rule = true
      · rw [if_pos hown] at hstep ⊢
        rw [List.foldl_cons]
        exact ih _ _ hapart.2 hstep.symm
      · rw [if_neg hown] at hstep ⊢
        exact ih _ _ hapart.2 hstep.symm
  exact hfold matched Dict.empty Dict.empty h rfl

end ConflictResolver

end PulseGuard
