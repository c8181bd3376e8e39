import PulseGuard.Spec.AddOnPacks
import PulseGuard.Spec.ChosenValues

/-!
# The priority on its scale

After the fields are resolved the priority is raised to the floors and then by one level for each
rule that bumps it. On the scale `Low`, `Medium`, `High`, `Critical` this is arithmetic
(`raisedPriority_level`): the highest of the chosen priority and the floors, plus the bumps, and no
more than `Critical`. A rule that writes only floors and bumps changes no writer of a field, so
that adding one never lowers the priority (`priority_scale`).
-/

namespace PulseGuard

namespace ConflictResolver

/-! ## Levels -/

/-- The level of a priority: none is below `Low`. -/
def level : Option PyVal → Nat
  | some (.str s) => if order.contains s then order.idxOf s + 1 else 0
  | _ => 0

/-- The highest level of some values. -/
def highest (values : List PyVal) : Nat := (values.map fun v => level (some v)).foldr max 0

theorem le_highest {values : List PyVal} {v : PyVal} (h : v ∈ values) :
    level (some v) ≤ highest values := by
  induction values with
  | nil => cases h
  | cons w rest ih =>
    have hcons : highest (w :: rest) = max (level (some w)) (highest rest) := rfl
    rw [hcons]
    cases List.mem_cons.mp h with
    | inl hhead => rw [hhead]; omega
    | inr hrest =>
      have hle := ih hrest
      omega

/-- The value is on the scale. -/
def OnScale (v : PyVal) : Prop := ∃ s ∈ order, v = .str s

theorem level_of_mem {s : String} (h : s ∈ order) : level (some (.str s)) = order.idxOf s + 1 := by
  rw [level, if_pos (List.contains_iff_mem.mpr h)]

theorem orderIndex_of_mem {s : String} (h : s ∈ order) : orderIndex (.str s) = .ok (order.idxOf s) := by
  rw [orderIndex, if_pos (List.contains_iff_mem.mpr h)]

theorem level_of_onScale {v : PyVal} (h : OnScale v) : 1 ≤ level (some v) ∧ level (some v) ≤ 4 := by
  obtain ⟨s, hs, rfl⟩ := h
  have hlt : order.idxOf s < order.length := List.idxOf_lt_length_iff.mpr hs
  have hlength : order.length = 4 := rfl
  rw [level_of_mem hs]
  omega

theorem level_le (p : Option PyVal) : level p ≤ 4 := by
  unfold level
  split
  · split
    · rename_i s hs
      have hlt : order.idxOf s < order.length :=
        List.idxOf_lt_length_iff.mpr (List.contains_iff_mem.mp hs)
      have hlength : order.length = 4 := rfl
      omega
    · omega
  · omega

/-- The priority at an index of the scale. -/
theorem level_orderAt {i : Nat} (h : i ≤ 3) : OnScale (orderAt i) ∧ level (some (orderAt i)) = i + 1 := by
  have hcases : i = 0 ∨ i = 1 ∨ i = 2 ∨ i = 3 := by omega
  rcases hcases with rfl | rfl | rfl | rfl
  · exact ⟨⟨"Low", by decide, rfl⟩, by decide⟩
  · exact ⟨⟨"Medium", by decide, rfl⟩, by decide⟩
  · exact ⟨⟨"High", by decide, rfl⟩, by decide⟩
  · exact ⟨⟨"Critical", by decide, rfl⟩, by decide⟩

/-! ## Floors and bumps -/

theorem highest_le {values : List PyVal} : highest values ≤ 4 := by
  induction values with
  | nil => exact Nat.zero_le 4
  | cons v rest ih =>
    have hcons : highest (v :: rest) = max (level (some v)) (highest rest) := rfl
    have hle := level_le (some v)
    omega

theorem level_eq (v : PyVal) :
    level (some v) = match (orderIndex v).toOption with
      | some i => i + 1
      | none => 0 := by
  cases v with
  | str s =>
    by_cases hs : s ∈ order
    · rw [level_of_mem hs, orderIndex_of_mem hs]
      rfl
    · have hnot : order.contains s = false := by
        rw [Bool.eq_false_iff]
        exact fun hcontains => hs (List.contains_iff_mem.mp hcontains)
      rw [level, orderIndex, hnot]
      rfl
  | _ => rfl

/-- The greatest index of the floors is one less than their highest level; the floors off the scale
    do not count. -/
theorem floorIndex_ok_iff {fs : List PyVal} {i : Nat} :
    floorIndex fs = .ok i ↔ i + 1 = highest fs := by
  -- a floor off the scale has level 0, and no index
  have hindices : highest fs =
      ((fs.filterMap fun f => (orderIndex f).toOption).map (· + 1)).foldr max 0 := by
    induction fs with
    | nil => rfl
    | cons f rest ih =>
      have hcons : highest (f :: rest) = max (level (some f)) (highest rest) := rfl
      rw [hcons, ih, level_eq, List.filterMap_cons]
      cases (orderIndex f).toOption with
      | none => exact Nat.zero_max _
      | some i => rfl
  -- a level is one more than its index
  have hmax : ∀ (is : List Nat) (a : Nat),
      is.foldl max a + 1 = max (a + 1) ((is.map (· + 1)).foldr max 0) := by
    intro is
    induction is with
    | nil => intro a; rw [List.foldl_nil, List.map_nil, List.foldr_nil]; omega
    | cons j rest ih =>
      intro a
      rw [List.foldl_cons, ih, List.map_cons, List.foldr_cons]
      omega
  unfold floorIndex
  rw [hindices]
  cases fs.filterMap fun f => (orderIndex f).toOption with
  | nil =>
    show Except.error _ = Except.ok i ↔ i + 1 = 0
    simp
  | cons j is =>
    rw [List.map_cons, List.foldr_cons, ← hmax is j, Nat.add_right_cancel_iff]
    show Except.ok (is.foldl max j) = Except.ok i ↔ _
    rw [Except.ok.injEq, eq_comm]

theorem applyFloors_level {fs : List PyVal} (hfs : fs ≠ [] → 1 ≤ highest fs) {v : PyVal}
    (hv : OnScale v) :
    ∃ w, applyFloors fs v = .ok w ∧ OnScale w ∧ level (some w) = max (level (some v)) (highest fs) := by
  unfold applyFloors
  cases hempty : fs.isEmpty with
  | true =>
    rw [List.isEmpty_iff] at hempty
    subst hempty
    exact ⟨v, rfl, hv, (Nat.max_zero _).symm⟩
  | false =>
    have hne : fs ≠ [] := by
      intro hnil
      rw [hnil] at hempty
      cases hempty
    have hone := hfs hne
    have hle : highest fs ≤ 4 := highest_le
    obtain ⟨i, hhighest⟩ : ∃ i, i + 1 = highest fs := ⟨highest fs - 1, by omega⟩
    have hi := floorIndex_ok_iff.mpr hhighest
    obtain ⟨hscale, hlevel⟩ := level_orderAt (i := i) (by omega)
    obtain ⟨s, hs, rfl⟩ := hv
    rw [hi, orderIndex_of_mem hs]
    have hidx := level_of_mem hs
    -- the floor is taken only when it is higher
    by_cases hlt : order.idxOf s < i
    · refine ⟨orderAt i, ?_, hscale, ?_⟩
      · show Except.ok (if order.idxOf s < i then orderAt i else .str s) = _
        rw [if_pos hlt]
      · rw [hlevel, hidx]
        omega
    · refine ⟨.str s, ?_, ⟨s, hs, rfl⟩, ?_⟩
      · show Except.ok (if order.idxOf s < i then orderAt i else .str s) = _
        rw [if_neg hlt]
      · rw [hidx]
        omega

theorem applyBumps_level (n : Nat) {v : PyVal} (hv : OnScale v) :
    ∃ w, applyBumps n v = .ok w ∧ OnScale w ∧ level (some w) = min 4 (level (some v) + n) := by
  have hle := (level_of_onScale hv).2
  unfold applyBumps
  by_cases hzero : n = 0
  · subst hzero
    refine ⟨v, rfl, hv, ?_⟩
    omega
  · obtain ⟨s, hs, rfl⟩ := hv
    have hlength : order.length - 1 = 3 := rfl
    obtain ⟨hscale, hlevel⟩ := level_orderAt (i := min (order.idxOf s + n) 3) (by omega)
    refine ⟨orderAt (min (order.idxOf s + n) 3), ?_, hscale, ?_⟩
    · rw [if_neg (by simpa using hzero), orderIndex_of_mem hs, hlength]
      rfl
    · rw [hlevel, level_of_mem hs]
      omega

theorem one_le_highest {fs : List PyVal} (hfs : ∀ f ∈ fs, OnScale f) (hne : fs ≠ []) :
    1 ≤ highest fs := by
  obtain ⟨f, hf⟩ := List.exists_mem_of_ne_nil fs hne
  exact (level_of_onScale (hfs f hf)).1.trans (le_highest hf)

/-- A priority on the scale is raised to the highest floor, and then by the bumps. -/
theorem raise_level {fs : List PyVal} (hfs : fs ≠ [] → 1 ≤ highest fs) (n : Nat) {v : PyVal}
    (hv : OnScale v) : ∃ w, raise fs n v = .ok w ∧ OnScale w ∧
      level (some w) = min 4 (max (level (some v)) (highest fs) + n) := by
  obtain ⟨floored, hfloors, hscale, hlevel⟩ := applyFloors_level hfs hv
  obtain ⟨w, hbumps, hscale', hlevel'⟩ := applyBumps_level n hscale
  refine ⟨w, Except.bind_ok_iff.mpr ⟨floored, hfloors, hbumps⟩, hscale', ?_⟩
  rw [hlevel', hlevel]

theorem level_absent {current : Option PyVal} (h : current.getD .none = .none) : level current = 0 := by
  cases current with
  | none => rfl
  | some v =>
    have hv : v = .none := h
    rw [hv]
    rfl

/-- `Low` is below every floor. -/
theorem max_level_low {current : Option PyVal} (habsent : current.getD .none = .none)
    {fs : List PyVal} (hone : 1 ≤ highest fs) :
    max (level (some (.str "Low"))) (highest fs) = max (level current) (highest fs) := by
  have hlow : level (some (.str "Low")) = 1 := by decide
  rw [hlow, level_absent habsent]
  omega

/-- The level of a raised priority: there is none where there is neither a chosen priority nor a
    floor. -/
theorem raisedPriority_level {current : Option PyVal} {fs : List PyVal} (n : Nat)
    (hcurrent : ∀ v, current = some v → OnScale v) (hfs : ∀ f ∈ fs, OnScale f) :
    ∃ p, raisedPriority current fs n = .ok p ∧ (p = none → current = none) ∧
      level p = if current = none ∧ fs = [] then 0
        else min 4 (max (level current) (highest fs) + n) := by
  have hfloors := one_le_highest hfs
  cases current with
  | none =>
    by_cases hnil : fs = []
    · refine ⟨none, raisedPriority_ok_iff.mpr (Or.inl ⟨?_, rfl⟩), fun _ => rfl, ?_⟩
      · exact raisedFrom_eq_none_iff.mpr ⟨rfl, hnil⟩
      · rw [if_pos ⟨rfl, hnil⟩]
        rfl
    · obtain ⟨w, hraise, -, hlevel⟩ := raise_level hfloors n ⟨"Low", by decide, rfl⟩
      have hstart : raisedFrom none fs = some (.str "Low") :=
        raisedFrom_eq_some_iff.mpr (Or.inr ⟨rfl, hnil, rfl⟩)
      refine ⟨some w, raisedPriority_ok_iff.mpr (Or.inr ⟨_, w, hstart, hraise, rfl⟩), fun _ => rfl, ?_⟩
      rw [if_neg fun hcond => hnil hcond.2, hlevel, @max_level_low none rfl fs (hfloors hnil)]
  | some v =>
    have hv := hcurrent v rfl
    obtain ⟨w, hraise, -, hlevel⟩ := raise_level hfloors n hv
    have hpresent : v ≠ .none := by
      obtain ⟨s, -, rfl⟩ := hv
      exact PyVal.noConfusion
    have hstart : raisedFrom (some v) fs = some v := raisedFrom_present hpresent fs
    refine ⟨some w, raisedPriority_ok_iff.mpr (Or.inr ⟨v, w, hstart, hraise, rfl⟩), ?_, ?_⟩
    · intro hnone
      cases hnone
    · rw [if_neg fun hcond => Option.some_ne_none v hcond.1, hlevel]

/-- There is nothing that raises the priority, or no priority to raise. -/
def Unraised (current : Option PyVal) (fs : List PyVal) (n : Nat) : Prop :=
  fs = [] ∧ (n = 0 ∨ current.getD .none = .none)

theorem orderIndex_onScale {v : PyVal} {i : Nat} (h : orderIndex v = .ok i) : OnScale v := by
  obtain ⟨hlt, rfl⟩ := orderIndex_ok h
  exact (level_orderAt (by omega)).1

theorem applyFloors_ok {fs : List PyVal} {v w : PyVal} (h : applyFloors fs v = .ok w) :
    fs = [] ∧ w = v ∨
      1 ≤ highest fs ∧ OnScale v ∧ OnScale w ∧ level (some w) = max (level (some v)) (highest fs) := by
  have hcopy := h
  unfold applyFloors at hcopy
  split at hcopy
  · rename_i hempty
    exact Or.inl ⟨List.isEmpty_iff.mp hempty, (Except.pure_ok_iff.mp hcopy).symm⟩
  · obtain ⟨j, hj, hcopy⟩ := Except.bind_ok_iff.mp hcopy
    obtain ⟨i, hi, -⟩ := Except.bind_ok_iff.mp hcopy
    have hone := floorIndex_ok_iff.mp hj
    have hscale := orderIndex_onScale hi
    obtain ⟨w', hw', hresult⟩ := @applyFloors_level fs (by omega) v hscale
    rw [h] at hw'
    cases hw'
    exact Or.inr ⟨by omega, hscale, hresult⟩

theorem applyBumps_ok {n : Nat} {v w : PyVal} (h : applyBumps n v = .ok w) :
    n = 0 ∧ w = v ∨ OnScale v ∧ OnScale w ∧ level (some w) = min 4 (level (some v) + n) := by
  have hcopy := h
  unfold applyBumps at hcopy
  split at hcopy
  · rename_i hzero
    exact Or.inl ⟨beq_iff_eq.mp hzero, (Except.pure_ok_iff.mp hcopy).symm⟩
  · obtain ⟨i, hi, -⟩ := Except.bind_ok_iff.mp hcopy
    have hscale := orderIndex_onScale hi
    obtain ⟨w', hw', hresult⟩ := applyBumps_level n hscale
    rw [h] at hw'
    cases hw'
    exact Or.inr ⟨hscale, hresult⟩

/-- What is raised at all is on the scale, and so is what comes out; floors off the scale do not
    count. -/
theorem raise_ok {fs : List PyVal} {n : Nat} {v w : PyVal} (h : raise fs n v = .ok w) :
    fs = [] ∧ n = 0 ∧ w = v ∨
      ¬(fs = [] ∧ n = 0) ∧ (fs ≠ [] → 1 ≤ highest fs) ∧ OnScale v ∧ OnScale w ∧
        level (some w) = min 4 (max (level (some v)) (highest fs) + n) := by
  obtain ⟨floored, hfloors, hbumps⟩ := Except.bind_ok_iff.mp h
  have hnil : highest [] = 0 := rfl
  rcases applyFloors_ok hfloors with ⟨rfl, rfl⟩ | ⟨hone, hscale, hscale', hlevel⟩
  · -- without floors it is up to the bumps
    rcases applyBumps_ok hbumps with ⟨rfl, rfl⟩ | ⟨hscale, hscale', hlevel⟩
    · exact Or.inl ⟨rfl, rfl, rfl⟩
    · by_cases hzero : n = 0
      · subst hzero
        cases hbumps
        exact Or.inl ⟨rfl, rfl, rfl⟩
      · refine Or.inr ⟨fun hcond => hzero hcond.2, fun hne => absurd rfl hne, hscale, hscale', ?_⟩
        rw [hlevel, hnil, Nat.max_zero]
  · have hfs : ¬(fs = [] ∧ n = 0) := by
      intro hcase
      obtain ⟨rfl, -⟩ := hcase
      omega
    have hle := (level_of_onScale hscale').2
    right
    rcases applyBumps_ok hbumps with ⟨rfl, rfl⟩ | ⟨-, hscale'', hlevel'⟩
    · exact ⟨hfs, fun _ => hone, hscale, hscale', by omega⟩
    · exact ⟨hfs, fun _ => hone, hscale, hscale'', by omega⟩

/-- A priority that is raised at all comes out on the scale; floors off the scale do not count. -/
theorem raisedPriority_ok {current : Option PyVal} {fs : List PyVal} {n : Nat} {p : Option PyVal}
    (h : raisedPriority current fs n = .ok p) :
    Unraised current fs n ∧ p.or current = current ∨
      ¬Unraised current fs n ∧ (current.getD .none = .none ∨ OnScale (current.getD .none)) ∧
        ∃ v, p = some v ∧ OnScale v ∧
          level (some v) = min 4 (max (level current) (highest fs) + n) := by
  rcases raisedPriority_ok_iff.mp h with ⟨hstart, rfl⟩ | ⟨v, w, hstart, hraise, rfl⟩
  · obtain ⟨hnone, hfs⟩ := raisedFrom_eq_none_iff.mp hstart
    exact Or.inl ⟨⟨hfs, Or.inr hnone⟩, Option.none_or⟩
  · rcases raisedFrom_eq_some_iff.mp hstart with ⟨rfl, hv⟩ | ⟨hnone, hne, rfl⟩
    · rcases raise_ok hraise with ⟨hfs, hn, rfl⟩ | ⟨hnot, -, hscale, hscale', hlevel⟩
      · exact Or.inl ⟨⟨hfs, Or.inl hn⟩, Option.some_or⟩
      · refine Or.inr ⟨?_, Or.inr hscale, w, rfl, hscale', hlevel⟩
        intro hcond
        exact hnot ⟨hcond.1, hcond.2.resolve_right hv⟩
    · -- there is no priority, and the floors raise `Low`
      rcases raise_ok hraise with ⟨hfs, -⟩ | ⟨-, hone, -, hscale, hlevel⟩
      · exact absurd hfs hne
      · refine Or.inr ⟨fun hcond => hne hcond.1, Or.inl hnone, w, rfl, hscale, ?_⟩
        rw [hlevel, max_level_low hnone (hone hne)]

/-! ## The resolved priority -/

/-- The priorities and the floors of the rules are on the scale. -/
def RulesOnScale (rules : List Rule) : Prop :=
  ∀ r ∈ rules, ∀ f ∈ ["priority", "priorityFloor"], ∀ v, r.actions.get? f = some v → OnScale v

theorem RulesOnScale.chosen {matched : List Rule} (h : RulesOnScale matched)
    (hall : AllDecided matched) {v : PyVal} (hv : chosen "priority" matched = some v) : OnScale v := by
  obtain ⟨r, hr, rfl⟩ := chosen_written (hall "priority" (by decide)) hv
  obtain ⟨hr, hkey⟩ := mem_of_standing hr
  exact h r hr "priority" (by simp) _ (written_spec hkey)

theorem RulesOnScale.floors {matched : List Rule} (h : RulesOnScale matched) :
    ∀ f ∈ floors matched, OnScale f := by
  intro f hf
  obtain ⟨r, hr, hget⟩ := List.mem_filterMap.mp hf
  exact h r hr "priorityFloor" (by simp) f hget

/-- The level that the priority is raised to. -/
def raisedLevel (matched : List Rule) : Nat :=
  if chosen "priority" matched = none ∧ floors matched = [] then 0
  else min 4 (max (level (chosen "priority" matched)) (highest (floors matched)) + bumps matched)

/-- On the scale the priority can be raised, and its level is known. -/
theorem RulesOnScale.level_resolve {matched : List Rule} (h : RulesOnScale matched)
    (hall : AllDecided matched) :
    (∃ res, resolve matched = .ok res) ∧
      ∀ res, resolve matched = .ok res → level (res.actions.get? "priority") = raisedLevel matched := by
  obtain ⟨p, hp, hnone, hlevel⟩ := raisedPriority_level (bumps matched)
    (fun v hv => h.chosen hall hv) h.floors
  refine ⟨resolves_iff.mpr ⟨hall, p, hp⟩, ?_⟩
  intro res hres
  obtain ⟨p', hp', hpriority⟩ := get?_resolve_priority hres
  rw [hp] at hp'
  cases hp'
  rw [hpriority]
  cases p with
  | none =>
    rw [Option.none_or, hnone rfl]
    rw [hnone rfl] at hlevel
    unfold raisedLevel
    rw [hnone rfl]
    exact hlevel
  | some v => exact hlevel

/-! ## Rules that only modify -/

/-- The rule writes nothing but the modifier fields. -/
def ModifierOnly (rule : Rule) : Prop := ∀ f ∈ rule.actions.keys, f ∈ modifierFields

theorem writers_insert {before after : List Rule} {rule : Rule} (hrule : ModifierOnly rule)
    {f : String} (hmod : f ∉ modifierFields) :
    writers f (before ++ rule :: after) = writers f (before ++ after) := by
  have hnot : rule.actions.contains f = false := by
    rw [Bool.eq_false_iff]
    intro hcontains
    exact hmod (hrule f ((Dict.contains_iff _).mp hcontains))
  simp [writers, hnot]

theorem highest_append (xs ys : List PyVal) : highest (xs ++ ys) = max (highest xs) (highest ys) := by
  induction xs with
  | nil => exact (Nat.zero_max _).symm
  | cons x rest ih =>
    have hcons : ∀ zs, highest (x :: zs) = max (level (some x)) (highest zs) := fun _ => rfl
    rw [List.cons_append, hcons, hcons, ih]
    omega

/-- A rule that only modifies leaves what is chosen, and lowers neither the floors nor the bumps. -/
theorem raisedLevel_insert {before after : List Rule} {rule : Rule} (hrule : ModifierOnly rule) :
    raisedLevel (before ++ after) ≤ raisedLevel (before ++ rule :: after) := by
  have hchosen : chosen "priority" (before ++ rule :: after) = chosen "priority" (before ++ after) := by
    rw [chosen, chosen, writers_insert hrule (by decide)]
  have hfloors : ∃ own, floors (before ++ rule :: after) = floors before ++ own ++ floors after := by
    refine ⟨floors [rule], ?_⟩
    simp [floors, ← List.filterMap_append]
  obtain ⟨own, hfloors⟩ := hfloors
  have hbase : floors (before ++ after) = floors before ++ floors after := List.filterMap_append
  have hbumps : bumps (before ++ after) ≤ bumps (before ++ rule :: after) := by
    unfold bumps
    rw [List.countP_append, List.countP_append, List.countP_cons]
    omega
  have hhighest : highest (floors (before ++ after)) ≤ highest (floors (before ++ rule :: after)) := by
    rw [hfloors, hbase, highest_append, highest_append, highest_append]
    omega
  unfold raisedLevel
  rw [hchosen]
  -- without a priority and a floor the level is 0, whatever the added rule does
  by_cases habsent : chosen "priority" (before ++ after) = none ∧ floors (before ++ after) = []
  · rw [if_pos habsent]
    exact Nat.zero_le _
  · have hpresent : ¬(chosen "priority" (before ++ after) = none ∧
        floors (before ++ rule :: after) = []) := by
      intro hcond
      rw [hfloors, List.append_eq_nil_iff, List.append_eq_nil_iff] at hcond
      exact habsent ⟨hcond.1, by rw [hbase, hcond.2.1.1, hcond.2.2]; rfl⟩
    rw [if_neg habsent, if_neg hpresent]
    omega

/-- The resolved priority is at least every floor and at least what was chosen, no more than
    `Critical`, and given by the floors and the bumps; a rule that only modifies, added anywhere,
    never lowers it. -/
theorem priority_scale (matched : List Rule) (hscale : RulesOnScale matched) (res : Resolution)
    (hres : resolve matched = .ok res) :
    (∀ r ∈ matched, ∀ floor, r.actions.get? "priorityFloor" = some floor →
      level (some floor) ≤ level (res.actions.get? "priority")) ∧
    level (chosen "priority" matched) ≤ level (res.actions.get? "priority") ∧
    level (res.actions.get? "priority") ≤ level (some (.str "Critical")) ∧
    (chosen "priority" matched ≠ none ∨ floors matched ≠ [] →
      level (res.actions.get? "priority") = min (level (some (.str "Critical")))
        (max (level (chosen "priority" matched)) (highest (floors matched)) + bumps matched)) ∧
    ∀ before after rule, matched = before ++ after → ModifierOnly rule → RulesOnScale [rule] →
      ∃ res', resolve (before ++ rule :: after) = .ok res' ∧
        level (res.actions.get? "priority") ≤ level (res'.actions.get? "priority") := by
  have hall := allDecided_of_resolve hres
  have hlevel := (hscale.level_resolve hall).2 res hres
  have hcritical : level (some (.str "Critical")) = 4 := by decide
  rw [hlevel, hcritical]
  refine ⟨?_, ?_, ?_, ?_, ?_⟩
  · -- each floor
    intro r hr floor hfloor
    have hmem : floor ∈ floors matched := List.mem_filterMap.mpr ⟨r, hr, hfloor⟩
    have hle := le_highest hmem
    have hle' : highest (floors matched) ≤ 4 := highest_le
    unfold raisedLevel
    rw [if_neg fun hcond => List.ne_nil_of_mem hmem hcond.2]
    omega
  · -- what was chosen
    have hle := level_le (chosen "priority" matched)
    unfold raisedLevel
    split
    · rename_i hcond
      rw [hcond.1]
      exact Nat.zero_le _
    · omega
  · -- `Critical` is the highest level
    unfold raisedLevel
    split
    · exact Nat.zero_le _
    · omega
  · -- the level, when there is something to raise
    intro hexists
    unfold raisedLevel
    rw [if_neg]
    intro hcond
    cases hexists with
    | inl hchosen => exact hchosen hcond.1
    | inr hfloors => exact hfloors hcond.2
  · -- one more rule that only modifies
    intro before after rule hsplit hrule hscale'
    subst hsplit
    have hscale'' : RulesOnScale (before ++ rule :: after) := by
      intro r hr
      rw [List.mem_append, List.mem_cons] at hr
      rcases hr with hr | rfl | hr
      · exact hscale r (List.mem_append_left _ hr)
      · exact hscale' r (List.mem_singleton_self _)
      · exact hscale r (List.mem_append_right _ hr)
    have hall' : AllDecided (before ++ rule :: after) := by
      intro f hmod
      rw [writers_insert hrule hmod]
      exact hall f hmod
    obtain ⟨⟨res', hres'⟩, hlevel'⟩ := hscale''.level_resolve hall'
    refine ⟨res', hres', ?_⟩
    rw [hlevel' res' hres']
    exact raisedLevel_insert hrule

/-! ## Examples -/

open PipelineOrchestrator (fieldRule)

/-- A rule that asks for a High priority and one with a Critical floor. -/
theorem priority_scale_floor :
    ∃ res, resolve [fieldRule "R1" "priority" (.str "High"),
        fieldRule "R2" "priorityFloor" (.str "Critical")] = .ok res ∧
      level (some (.str "Critical")) ≤ level (res.actions.get? "priority") := by
  have hscale : RulesOnScale [fieldRule "R1" "priority" (.str "High"),
      fieldRule "R2" "priorityFloor" (.str "Critical")] := by
    intro r hr f _ v hv
    obtain ⟨code, field, s, hs, rfl⟩ : ∃ code field s, s ∈ order ∧ r = fieldRule code field (.str s) := by
      cases List.mem_pair.mp hr with
      | inl hfirst => exact ⟨"R1", "priority", "High", by decide, hfirst⟩
      | inr hsecond => exact ⟨"R2", "priorityFloor", "Critical", by decide, hsecond⟩
    have hv : (Dict.empty.set field (PyVal.str s)).get? f = some v := hv
    rw [Dict.get?_set] at hv
    split at hv
    · cases hv
      exact ⟨s, hs, rfl⟩
    · cases hv
  have hresolve : resolve [fieldRule "R1" "priority" (.str "High"),
      fieldRule "R2" "priorityFloor" (.str "Critical")] =
        .ok ⟨Dict.empty.set "priority" (.str "Critical"), Dict.empty, []⟩ := rfl
  exact ⟨_, hresolve, (priority_scale _ hscale _ hresolve).1 (fieldRule "R2" "priorityFloor"
    (.str "Critical")) (List.mem_cons_of_mem _ List.mem_cons_self) (.str "Critical") rfl⟩

end ConflictResolver

end PulseGuard
