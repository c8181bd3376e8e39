import PulseGuard.Spec.GroupLosers

/-!
# The rules that are set aside

A resolution logs a rule as suppressed for a field in three places: when a suppressor vetoes the
other writers, when the suppressors are overridden, and when a conflict group elects a writer. None
of the three looks at what the rule wrote, so that a rule is also set aside for writing what the
field comes to, and its contribution is lost to the risk score. `SetAside` says which rules are set
aside and `SettlesOn` what the field comes to (`settlesOn_iff`, `mem_passedOver_iff`), and
`trace_agrees_iff` when the log names none but rules that disagree with the outcome.
-/

namespace PulseGuard

/-- The rules whose contributions make up the score. -/
def RiskScorer.counted (matched : List Rule) (suppressedCodes : List String) : List Rule :=
  matched.filter fun r => !suppressedCodes.contains r.ruleCode

theorem RiskScorer.total_eq (matched : List Rule) (suppressedCodes : List String) :
    total matched suppressedCodes =
      max 0 (min ((counted matched suppressedCodes).map fun r => r.contributionScore.getD 0).sum 120) :=
  rfl

namespace ConflictResolver

/-! ## What the writers of a field come to -/

/-- The first of the suppressors that none outweighs vetoes the other writers, when each of them can
    be suppressed. -/
structure Vetoes (ws : List Rule) (s : Rule) (rest : List Rule) : Prop where
  suppressible : ∀ r ∈ ws, r.nonSuppressible = false
  picks : PyList.Picks (fun r => r.isSuppressor = true ∧
    ∀ x ∈ ws, x.isSuppressor = true → x.priorityWeight ≤ r.priorityWeight) ws s rest

/-- No suppressor vetoes: there is none, or some writer cannot be suppressed. -/
def HeldOff (ws : List Rule) : Prop :=
  (∀ r ∈ ws, r.isSuppressor = false) ∨ ∃ r ∈ ws, r.nonSuppressible = true

/-- The writers that are no suppressors. -/
def plain (ws : List Rule) : List Rule := ws.filter (!·.isSuppressor)

/-- Not all of the writers write what the first of them writes. -/
def Disagree (field : String) (ws : List Rule) : Prop :=
  ∃ c cs, ws = c :: cs ∧ ∃ r ∈ ws, (written field r).beq (written field c) = false

/-- The writers are one conflict group. -/
def OneGroup (ws : List Rule) : Prop := ∃ g, ∀ r ∈ ws, r.conflictGroup = some g

/-- The writers are one conflict group that disagrees, and elects the first that none of them beats. -/
structure Elects (field : String) (ws : List Rule) (w : Rule) (rest : List Rule) : Prop where
  disagree : Disagree field ws
  group : OneGroup ws
  picks : PyList.Picks (fun r => ∀ x ∈ ws, ¬Beats x r) ws w rest

/-- What the writers that suppression leaves come to. -/
inductive ComesTo (field : String) : List Rule → Option PyVal → Prop
  | nobody : ComesTo field [] none
  | alone (c : Rule) : ComesTo field [c] (some (written field c))
  | agreed {c : Rule} {cs : List Rule} (h : ¬Disagree field (c :: cs)) :
      ComesTo field (c :: cs) (some (written field c))
  | elected {ws rest : List Rule} {w : Rule} (h : Elects field ws w rest) :
      ComesTo field ws (some (written field w))
  | merged {c : Rule} {cs : List Rule} {v : PyVal} (hdisagree : Disagree field (c :: cs))
      (hgroup : ¬OneGroup (c :: cs)) (h : Merges field c cs v) : ComesTo field (c :: cs) (some v)

theorem disagree_cons_iff {field : String} {c : Rule} {cs : List Rule} :
    Disagree field (c :: cs) ↔
      ¬((c :: cs).all fun r => (written field r).beq (written field c)) = true := by
  rw [List.all_eq_true]
  constructor
  · intro h hall
    obtain ⟨c', cs', heq, r, hr, hne⟩ := h
    cases heq
    rw [hall r hr] at hne
    cases hne
  · intro h
    push Not at h
    obtain ⟨r, hr, hne⟩ := h
    exact ⟨c, cs, rfl, r, hr, Bool.eq_false_iff.mpr hne⟩

theorem merges_unique {field : String} {c : Rule} {cs : List Rule} {v w : PyVal}
    (h : Merges field c cs v) (h' : Merges field c cs w) : v = w := by
  rcases h with ⟨hored, rfl⟩ | ⟨hnot, rfl⟩
  · rcases h' with ⟨-, rfl⟩ | ⟨hnot, -⟩
    · rfl
    · exact absurd hored hnot
  · rcases h' with ⟨hored, -⟩ | ⟨-, rfl⟩
    · exact absurd hored hnot
    · rfl

theorem Elects.mem {field : String} {ws rest : List Rule} {w : Rule} (h : Elects field ws w rest) :
    w ∈ ws := h.picks.perm.mem_iff.mpr List.mem_cons_self

/-- The writers come to the value, and the entries are those of the writers that are not elected. -/
structure Concluded (field : String) (ws : List Rule) (value : Option PyVal)
    (lost : List SuppressedEntry) : Prop where
  value : ∀ v, ComesTo field ws v ↔ v = value
  lost : ∀ code, (∃ entry ∈ lost, entry.ruleCode = code) ↔
    ∃ w rest, Elects field ws w rest ∧ ∃ r ∈ rest, r.ruleCode = code

/-- Writers that elect none leave no entry. -/
theorem Concluded.of_no_election {field : String} {ws : List Rule} {value : Option PyVal}
    (hvalue : ∀ v, ComesTo field ws v ↔ v = value)
    (hnone : ∀ w rest, Elects field ws w rest → rest = []) : Concluded field ws value [] := by
  refine ⟨hvalue, fun code => ?_⟩
  constructor
  · intro hlogged
    obtain ⟨entry, hentry, -⟩ := hlogged
    cases hentry
  · intro helection
    obtain ⟨w, rest, helects, r, hr, -⟩ := helection
    rw [hnone w rest helects] at hr
    cases hr

theorem concluded_nil {field : String} : Concluded field [] none [] := by
  apply Concluded.of_no_election
  · intro v
    constructor
    · intro hcomes
      cases hcomes with
      | nobody => rfl
      | elected helects => cases helects.mem
    · rintro rfl
      exact .nobody
  · intro w rest helects
    cases helects.picks

theorem concluded_singleton {field : String} {c : Rule} :
    Concluded field [c] (some (written field c)) [] := by
  apply Concluded.of_no_election
  · intro v
    constructor
    · intro hcomes
      cases hcomes with
      | alone => rfl
      | agreed => rfl
      | elected helects => rw [List.mem_singleton.mp helects.mem]
      | merged hdisagree hgroup hmerges =>
        obtain ⟨r, hr, rfl⟩ := merges_written hmerges
        rw [List.mem_singleton.mp hr]
    · rintro rfl
      exact .alone c
  · intro w rest helects
    have hlength := helects.picks.perm.length_eq
    simpa using hlength

section

variable {field : String} {c c' : Rule} {cs : List Rule}

theorem concluded_agreed (h : ¬Disagree field (c :: c' :: cs)) :
    Concluded field (c :: c' :: cs) (some (written field c)) [] := by
  apply Concluded.of_no_election
  · intro v
    constructor
    · intro hcomes
      cases hcomes with
      | agreed => rfl
      | elected helects => exact absurd helects.disagree h
      | merged hdisagree => exact absurd hdisagree h
    · rintro rfl
      exact .agreed h
  · intro w rest helects
    exact absurd helects.disagree h

theorem concluded_elected (hdisagree : Disagree field (c :: c' :: cs))
    (hgroup : OneGroup (c :: c' :: cs)) {winner : Rule} {lost : List SuppressedEntry}
    (hwon : resolveConflictGroup field c (c' :: cs) = .ok (winner, lost)) :
    Concluded field (c :: c' :: cs) (some (written field winner)) lost := by
  obtain ⟨rest, hpicks, rfl, -⟩ := resolveConflictGroup_picks hwon
  have helected : Elects field (c :: c' :: cs) winner rest := ⟨hdisagree, hgroup, hpicks⟩
  constructor
  · intro v
    constructor
    · intro hcomes
      cases hcomes with
      | agreed hagree => exact absurd hdisagree hagree
      | elected helects => rw [(helects.picks.unique hpicks).1]
      | merged _ hmixed => exact absurd hgroup hmixed
    · rintro rfl
      exact .elected helected
  · intro code
    constructor
    · intro hlogged
      obtain ⟨entry, hentry, rfl⟩ := hlogged
      obtain ⟨r, hr, rfl⟩ := List.mem_map.mp hentry
      exact ⟨winner, rest, helected, r, hr, rfl⟩
    · intro helection
      obtain ⟨w, rest', helects, r, hr, rfl⟩ := helection
      obtain ⟨-, rfl⟩ := helects.picks.unique hpicks
      exact ⟨_, List.mem_map_of_mem hr, rfl⟩

theorem concluded_merged (hdisagree : Disagree field (c :: c' :: cs))
    (hmixed : ¬OneGroup (c :: c' :: cs)) {v : PyVal} (hmerges : Merges field c (c' :: cs) v) :
    Concluded field (c :: c' :: cs) (some v) [] := by
  apply Concluded.of_no_election
  · intro v'
    constructor
    · intro hcomes
      cases hcomes with
      | agreed hagree => exact absurd hdisagree hagree
      | elected helects => exact absurd helects.group hmixed
      | merged _ _ hmerges' => rw [merges_unique hmerges' hmerges]
    · rintro rfl
      exact .merged hdisagree hmixed hmerges
  · intro w rest helects
    exact absurd helects.group hmixed

end

theorem concluded {field : String} {ws : List Rule} {value : Option PyVal}
    {lost : List SuppressedEntry} (h : conclude field ws = .ok (value, lost)) :
    Concluded field ws value lost := by
  match ws, h with
  | [], h =>
    cases h
    exact concluded_nil
  | [c], h =>
    cases h
    exact concluded_singleton
  | c :: c' :: cs, h =>
    unfold conclude at h
    simp only at h
    split at h
    · rename_i hall
      cases h
      exact concluded_agreed fun hdisagree => disagree_cons_iff.mp hdisagree hall
    · rename_i hall
      have hdisagree := disagree_cons_iff.mpr hall
      split at h
      · rename_i hgroup
        obtain ⟨won, hwon, hresult⟩ := Except.map_ok_iff.mp h
        cases hresult
        exact concluded_elected hdisagree (sameGroup_iff.mp hgroup) hwon
      · rename_i hmixed
        obtain ⟨v, hv, hresult⟩ := Except.map_ok_iff.mp h
        cases hresult
        exact concluded_merged hdisagree (fun hgroup => hmixed (sameGroup_iff.mpr hgroup))
          (mergeField_ok_iff.mp hv).2

/-! ## What suppression sets aside -/

theorem Vetoes.mem {ws rest : List Rule} {s : Rule} (h : Vetoes ws s rest) :
    s ∈ ws ∧ s.isSuppressor = true :=
  ⟨h.picks.perm.mem_iff.mpr List.mem_cons_self, h.picks.pos.1⟩

theorem Vetoes.not_heldOff {ws rest : List Rule} {s : Rule} (h : Vetoes ws s rest) : ¬HeldOff ws := by
  intro hheld
  obtain ⟨hmem, hsup⟩ := h.mem
  cases hheld with
  | inl hnone =>
    rw [hnone s hmem] at hsup
    cases hsup
  | inr hsome =>
    obtain ⟨r, hr, hns⟩ := hsome
    rw [h.suppressible r hr] at hns
    cases hns

/-- The winner among the suppressors vetoes. -/
theorem vetoes_maxBy {ws ss : List Rule} {s : Rule} (hfilter : ws.filter Rule.isSuppressor = s :: ss)
    (hnone : ∀ r ∈ ws, r.nonSuppressible = false) :
    Vetoes ws (PyList.maxBy Rule.priorityWeight s ss) (ws.eraseP fun r =>
      r.isSuppressor && r.priorityWeight == (PyList.maxBy Rule.priorityWeight s ss).priorityWeight) := by
  have hmem := PyList.maxBy_mem Rule.priorityWeight s ss
  have hle := PyList.le_maxBy Rule.priorityWeight s ss
  have hpicks := picks_others hfilter
  rw [← hfilter] at hmem hle
  generalize PyList.maxBy Rule.priorityWeight s ss = winner at hmem hle hpicks
  refine ⟨hnone, hpicks.congr fun r hr => ?_⟩
  rw [Bool.and_eq_true, beq_iff_eq]
  constructor
  · intro hsuppressor
    obtain ⟨hsup, hweight⟩ := hsuppressor
    refine ⟨hsup, fun x hx hsupx => ?_⟩
    rw [hweight]
    exact hle x (List.mem_filter.mpr ⟨hx, hsupx⟩)
  · intro hsuppressor
    obtain ⟨hsup, hheaviest⟩ := hsuppressor
    obtain ⟨hwinner, hsupw⟩ := List.mem_filter.mp hmem
    exact ⟨hsup, le_antisymm (hle r (List.mem_filter.mpr ⟨hr, hsup⟩)) (hheaviest winner hwinner hsupw)⟩

/-- What suppression leaves, and whom it logs. -/
theorem applySuppression_spec (field : String) (ws : List Rule) :
    (∃ s rest, Vetoes ws s rest ∧ (applySuppression field ws).1 = [s] ∧
      ∀ code, (∃ entry ∈ (applySuppression field ws).2, entry.ruleCode = code) ↔
        ∃ r ∈ rest, r.ruleCode = code) ∨
    HeldOff ws ∧ (applySuppression field ws).1 = plain ws ∧
      ∀ code, (∃ entry ∈ (applySuppression field ws).2, entry.ruleCode = code) ↔
        (∃ n ∈ ws, n.nonSuppressible = true) ∧ ∃ r ∈ ws, r.isSuppressor = true ∧ r.ruleCode = code := by
  rcases applySuppression_cases field ws with
    ⟨hfree, heq⟩ | ⟨-, hns, heq⟩ | ⟨s, ss, hfilter, hnone, heq⟩
  · -- nobody is a suppressor, and nobody is logged
    right
    rw [heq]
    refine ⟨Or.inl hfree, ?_, fun code => ?_⟩
    · exact (List.filter_eq_self.mpr fun r hr => by rw [hfree r hr]; rfl).symm
    · constructor
      · intro hlogged
        obtain ⟨entry, hentry, -⟩ := hlogged
        cases hentry
      · intro hsuppressor
        obtain ⟨-, r, hr, hsup, -⟩ := hsuppressor
        rw [hfree r hr] at hsup
        cases hsup
  · -- the suppressors are overridden, and they are logged
    right
    rw [heq]
    refine ⟨Or.inr hns, rfl, fun code => ?_⟩
    constructor
    · intro hlogged
      obtain ⟨entry, hentry, rfl⟩ := hlogged
      obtain ⟨r, hr, rfl⟩ := List.mem_map.mp hentry
      obtain ⟨hr, hsup⟩ := List.mem_filter.mp hr
      exact ⟨hns, r, hr, hsup, rfl⟩
    · intro hsuppressor
      obtain ⟨-, r, hr, hsup, rfl⟩ := hsuppressor
      exact ⟨_, List.mem_map_of_mem (List.mem_filter.mpr ⟨hr, hsup⟩), rfl⟩
  · -- the winner of the suppressors vetoes, and all the others are logged
    left
    rw [heq]
    refine ⟨_, _, vetoes_maxBy hfilter hnone, rfl, fun code => ?_⟩
    constructor
    · intro hlogged
      obtain ⟨entry, hentry, rfl⟩ := hlogged
      obtain ⟨r, hr, rfl⟩ := List.mem_map.mp hentry
      exact ⟨r, hr, rfl⟩
    · intro hcase
      obtain ⟨r, hr, rfl⟩ := hcase
      exact ⟨_, List.mem_map_of_mem hr, rfl⟩

/-! ## The fields -/

/-- What the writers of a field come to. -/
inductive SettlesOn (field : String) (ws : List Rule) : Option PyVal → Prop
  | vetoed {s : Rule} {rest : List Rule} (h : Vetoes ws s rest) :
      SettlesOn field ws (some (written field s))
  | heldOff {v : Option PyVal} (hheld : HeldOff ws) (h : ComesTo field (plain ws) v) :
      SettlesOn field ws v

/-- The rule is set aside for a field: a suppressor vetoes it, it is a suppressor itself and
    overridden, or its conflict group elects another. -/
inductive SetAside (field : String) (ws : List Rule) (r : Rule) : Prop
  | vetoed {s : Rule} {rest : List Rule} (h : Vetoes ws s rest) (hr : r ∈ rest)
  | overridden {n : Rule} (hn : n ∈ ws) (hns : n.nonSuppressible = true) (hr : r ∈ ws)
      (hsup : r.isSuppressor = true)
  | outdone {w : Rule} {rest : List Rule} (hheld : HeldOff ws) (h : Elects field (plain ws) w rest)
      (hr : r ∈ rest)

theorem SetAside.mem {field : String} {ws : List Rule} {r : Rule} (h : SetAside field ws r) :
    r ∈ ws := by
  cases h with
  | vetoed h hr => exact h.picks.perm.mem_iff.mpr (List.mem_cons_of_mem _ hr)
  | overridden _ _ hr => exact hr
  | outdone _ h hr =>
    exact (List.mem_filter.mp (h.picks.perm.mem_iff.mpr (List.mem_cons_of_mem _ hr))).1

section

variable {field : String} {matched : List Rule}

/-- A field is given what its writers come to. -/
theorem settlesOn_iff (hdecides : Decides (field, writers field matched)) {v : Option PyVal} :
    SettlesOn field (writers field matched) v ↔ v = chosen field matched := by
  obtain ⟨lost, hconclude, -⟩ := decides_writers_iff.mp hdecides
  rcases applySuppression_spec field (writers field matched) with
    ⟨s, rest, hveto, hleft, -⟩ | ⟨hheld, hleft, -⟩
  · have hstanding : standing field matched = [s] := hleft
    rw [hstanding] at hconclude
    obtain ⟨hvalue, -⟩ := Prod.mk.inj (Except.ok.inj hconclude)
    rw [← hvalue]
    constructor
    · intro hsettles
      cases hsettles with
      | vetoed hveto' => rw [(hveto'.picks.unique hveto.picks).1]
      | heldOff hheld => exact absurd hheld hveto.not_heldOff
    · rintro rfl
      exact .vetoed hveto
  · have hstanding : standing field matched = plain (writers field matched) := hleft
    rw [hstanding] at hconclude
    rw [← (concluded hconclude).value]
    constructor
    · intro hsettles
      cases hsettles with
      | vetoed hveto => exact absurd hheld hveto.not_heldOff
      | heldOff _ hcomes => exact hcomes
    · exact .heldOff hheld

/-- The entries of a field are those of the rules that are set aside for it. -/
theorem mem_passedOver_iff (hdecides : Decides (field, writers field matched)) {code : String} :
    (∃ entry ∈ passedOver field matched, entry.ruleCode = code) ↔
      ∃ r, SetAside field (writers field matched) r ∧ r.ruleCode = code := by
  obtain ⟨lost, hconclude, hpassed⟩ := decides_writers_iff.mp hdecides
  have happend : (∃ entry ∈ passedOver field matched, entry.ruleCode = code) ↔
      (∃ entry ∈ (applySuppression field (writers field matched)).2, entry.ruleCode = code) ∨
        ∃ entry ∈ lost, entry.ruleCode = code := by
    rw [hpassed]
    simp only [List.mem_append, or_and_right, exists_or]
  rw [happend]
  rcases applySuppression_spec field (writers field matched) with
    ⟨s, rest, hveto, hleft, hlog⟩ | ⟨hheld, hleft, hlog⟩
  · have hstanding : standing field matched = [s] := hleft
    rw [hstanding] at hconclude
    obtain ⟨-, rfl⟩ := Prod.mk.inj (Except.ok.inj hconclude)
    rw [hlog]
    constructor
    · rintro (⟨r, hr, hcode⟩ | ⟨entry, hentry, -⟩)
      · exact ⟨r, .vetoed hveto hr, hcode⟩
      · cases hentry
    · intro hset
      obtain ⟨r, haside, hcode⟩ := hset
      left
      cases haside with
      | vetoed hveto' hr =>
        obtain ⟨-, rfl⟩ := hveto'.picks.unique hveto.picks
        exact ⟨r, hr, hcode⟩
      | overridden hn hns => exact absurd (Or.inr ⟨_, hn, hns⟩) hveto.not_heldOff
      | outdone hheld => exact absurd hheld hveto.not_heldOff
  · have hstanding : standing field matched = plain (writers field matched) := hleft
    rw [hstanding] at hconclude
    rw [hlog, (concluded hconclude).lost]
    constructor
    · rintro (⟨⟨n, hn, hns⟩, r, hr, hsup, hcode⟩ | ⟨w, rest, helects, r, hr, hcode⟩)
      · exact ⟨r, .overridden hn hns hr hsup, hcode⟩
      · exact ⟨r, .outdone hheld helects hr, hcode⟩
    · intro hset
      obtain ⟨r, haside, hcode⟩ := hset
      cases haside with
      | vetoed hveto => exact absurd hheld hveto.not_heldOff
      | overridden hn hns hr hsup => exact Or.inl ⟨⟨_, hn, hns⟩, r, hr, hsup, hcode⟩
      | outdone _ helects hr => exact Or.inr ⟨_, _, helects, r, hr, hcode⟩

end

/-- The suppressed list names the rules that are set aside for some field. -/
theorem mem_suppressedCodes {matched : List Rule} {res : Resolution} (hres : resolve matched = .ok res)
    {code : String} : (∃ entry ∈ res.suppressed, entry.ruleCode = code) ↔
      ∃ f, f ∉ modifierFields ∧ ∃ r, SetAside f (writers f matched) r ∧ r.ruleCode = code := by
  have hall := allDecided_of_resolve hres
  constructor
  · intro hlogged
    obtain ⟨entry, hentry, hcode⟩ := hlogged
    obtain ⟨hmod, hentry⟩ := (mem_suppressed hres).mp hentry
    exact ⟨_, hmod, (mem_passedOver_iff (hall _ hmod)).mp ⟨entry, hentry, hcode⟩⟩
  · intro hset
    obtain ⟨f, hmod, haside⟩ := hset
    obtain ⟨entry, hentry, hcode⟩ := (mem_passedOver_iff (hall f hmod)).mpr haside
    have hfield := field_of_mem_passedOver (hall f hmod) hentry
    refine ⟨entry, (mem_suppressed hres).mpr ?_, hcode⟩
    rw [hfield]
    exact ⟨hmod, hentry⟩

/-! ## The log and the outcome -/

/-- What a rule writes for a field is what the field has, when the field comes to the value; the
    priority is raised to the floors and by the bumps first. -/
def Meets (field : String) (matched : List Rule) (value : Option PyVal) (r : Rule) : Prop :=
  (field ≠ "priority" ∨ Unraised value (floors matched) (bumps matched)) ∧
      (∃ v, value = some v ∧ (written field r).beq v = true) ∨
    field = "priority" ∧ ¬Unraised value (floors matched) (bumps matched) ∧
      OnScale (written field r) ∧ level (some (written field r)) =
        min 4 (max (level value) (highest (floors matched)) + bumps matched)

/-- The rule writes what the field has. -/
def Agrees (res : Resolution) (field : String) (v : PyVal) : Prop :=
  ∃ w, res.actions.get? field = some w ∧ v.beq w = true

/-- The log and the outcome are of one mind: an entry is of a rule that wrote something else than
    the field has, and a rule that wrote nothing else than its fields have is not logged and counts
    for the score. -/
structure TraceAgrees (matched : List Rule) (res : Resolution) : Prop where
  differs : ∀ entry ∈ res.suppressed, ∃ r ∈ matched, r.ruleCode = entry.ruleCode ∧
    ∃ v, r.actions.get? entry.field = some v ∧ ¬Agrees res entry.field v
  counted : ∀ r ∈ matched,
    (∀ f v, f ∉ modifierFields → r.actions.get? f = some v → Agrees res f v) →
      (∀ entry ∈ res.suppressed, entry.ruleCode ≠ r.ruleCode) ∧
        r ∈ RiskScorer.counted matched (res.suppressed.map SuppressedEntry.ruleCode)

theorem level_injective {v w : PyVal} (hv : OnScale v) (hw : OnScale w)
    (h : level (some v) = level (some w)) : v = w := by
  obtain ⟨s, hs, rfl⟩ := hv
  obtain ⟨t, ht, rfl⟩ := hw
  rw [level_of_mem hs, level_of_mem ht, Nat.add_right_cancel_iff] at h
  rw [(List.idxOf_inj hs).mp h]

/-- What is written is what the field has, or not, by what is chosen for the field. -/
theorem meets_iff {matched : List Rule} {res : Resolution} (hres : resolve matched = .ok res)
    {f : String} (hmod : f ∉ modifierFields) {r : Rule} :
    Meets f matched (chosen f matched) r ↔ Agrees res f (written f r) := by
  unfold Meets Agrees
  by_cases hpriority : f = "priority"
  · subst hpriority
    obtain ⟨p, hp, hget⟩ := get?_resolve_priority hres
    rw [hget]
    rcases raisedPriority_ok hp with ⟨hunraised, hor⟩ | ⟨hraised, -, v, rfl, hscale, hlevel⟩
    · -- the priority is what was chosen
      simp [hunraised, hor]
    · -- the priority is on the scale, and a level is that of one priority
      obtain ⟨s, hs, rfl⟩ := hscale
      have hlevels : OnScale (written "priority" r) ∧ level (some (written "priority" r)) =
            level (some (.str s)) ↔ (written "priority" r).beq (.str s) = true := by
        rw [PyVal.beq_str_iff]
        constructor
        · intro h
          exact level_injective h.1 ⟨s, hs, rfl⟩ h.2
        · intro h
          rw [h]
          exact ⟨⟨s, hs, rfl⟩, rfl⟩
      rw [← hlevel]
      simpa [hraised] using hlevels
  · rw [get?_resolve hres hmod hpriority]
    simp [hpriority]

/-- The log agrees with the outcome exactly when no rule that is set aside for a field writes what
    the field comes to. -/
theorem trace_agrees_iff (matched : List Rule) (hcodes : (matched.map Rule.ruleCode).Nodup)
    (res : Resolution) (hres : resolve matched = .ok res) :
    TraceAgrees matched res ↔ ∀ f, f ∉ modifierFields → ∀ r, SetAside f (writers f matched) r →
      ∀ v, SettlesOn f (writers f matched) v → ¬Meets f matched v r := by
  have hall := allDecided_of_resolve hres
  have hsame : ∀ r ∈ matched, ∀ x ∈ matched, r.ruleCode = x.ruleCode → r = x :=
    fun r hr x hx heq => List.inj_on_of_nodup_map hcodes hr hx heq
  constructor
  · -- a rule that is set aside has an entry, which `differs` speaks of
    intro htrace f hmod r haside v hsettles hmeets
    obtain rfl := (settlesOn_iff (hall f hmod)).mp hsettles
    obtain ⟨hr, hkey⟩ := mem_writers.mp haside.mem
    obtain ⟨entry, hentry, hcode⟩ := (mem_passedOver_iff (hall f hmod)).mpr ⟨r, haside, rfl⟩
    have hfield := field_of_mem_passedOver (hall f hmod) hentry
    have hlogged : entry ∈ res.suppressed :=
      (mem_suppressed hres).mpr (by rw [hfield]; exact ⟨hmod, hentry⟩)
    obtain ⟨x, hx, hxcode, v, hv, hdiffers⟩ := htrace.differs entry hlogged
    obtain rfl := hsame r hr x hx (hcode.symm.trans hxcode.symm)
    rw [hfield, written_spec hkey] at hv
    cases hv
    rw [hfield] at hdiffers
    exact hdiffers ((meets_iff hres hmod).mp hmeets)
  · -- an entry is of a rule that is set aside; the codes tell the rules apart
    intro hnone
    have hdiffers : ∀ entry ∈ res.suppressed, ∃ r ∈ matched, r.ruleCode = entry.ruleCode ∧
        ∃ v, r.actions.get? entry.field = some v ∧ ¬Agrees res entry.field v := by
      intro entry hentry
      obtain ⟨hmod, hentry⟩ := (mem_suppressed hres).mp hentry
      obtain ⟨r, haside, hcode⟩ := (mem_passedOver_iff (hall _ hmod)).mp ⟨entry, hentry, rfl⟩
      obtain ⟨hr, hkey⟩ := mem_writers.mp haside.mem
      refine ⟨r, hr, hcode, _, written_spec hkey, fun hagrees => ?_⟩
      exact hnone _ hmod r haside _ ((settlesOn_iff (hall _ hmod)).mpr rfl)
        ((meets_iff hres hmod).mpr hagrees)
    refine ⟨hdiffers, fun r hr hwrites => ?_⟩
    have hunnamed : ∀ entry ∈ res.suppressed, entry.ruleCode ≠ r.ruleCode := by
      intro entry hentry heq
      obtain ⟨x, hx, hcode, v, hv, hdiffer⟩ := hdiffers entry hentry
      obtain rfl := hsame x hx r hr (hcode.trans heq)
      exact hdiffer (hwrites _ v ((mem_suppressed hres).mp hentry).1 hv)
    refine ⟨hunnamed, List.mem_filter.mpr ⟨hr, ?_⟩⟩
    rw [Bool.not_eq_true', ← Bool.not_eq_true, List.contains_iff_mem, List.mem_map]
    intro hfound
    obtain ⟨entry, hentry, heq⟩ := hfound
    exact hunnamed entry hentry heq

/-! ## Examples -/

/-- The two rules of the reroute group disagree, and the one that is beaten is logged. -/
theorem trace_agrees_reroute : ∃ res, resolve rerouteGroup = .ok res ∧ TraceAgrees rerouteGroup res := by
  have hresolve : (resolve rerouteGroup).isOk = true := by decide +kernel
  obtain ⟨res, hres⟩ := Except.isOk_iff.mp hresolve
  refine ⟨res, hres, (trace_agrees_iff rerouteGroup (by decide) res hres).mpr ?_⟩
  intro f hmod r haside v hsettles hmeets
  obtain ⟨hr, hkey⟩ := mem_writers.mp haside.mem
  have hrules : ∀ x ∈ rerouteGroup, x.isSuppressor = false ∧ x.actions.keys = ["rerouteTraffic"] := by
    intro x hx
    cases List.mem_pair.mp hx with
    | inl hfirst => rw [hfirst]; exact ⟨rfl, rfl⟩
    | inr hsecond => rw [hsecond]; exact ⟨rfl, rfl⟩
  rw [(hrules r hr).2, List.mem_singleton] at hkey
  subst hkey
  have hdecides := allDecided_of_resolve hres "rerouteTraffic" (by decide)
  obtain rfl := (settlesOn_iff hdecides).mp hsettles
  have hchosen : chosen "rerouteTraffic" rerouteGroup = some (.bool false) := rfl
  have hpassed : passedOver "rerouteTraffic" rerouteGroup =
      [⟨"R1", "rerouteTraffic", "lost conflict group to R2"⟩] := rfl
  obtain ⟨entry, hentry, hcode⟩ := (mem_passedOver_iff hdecides).mpr ⟨r, haside, rfl⟩
  rw [hpassed, List.mem_singleton] at hentry
  rw [hentry] at hcode
  rcases hmeets with ⟨-, v, hv, hbeq⟩ | ⟨hpriority, -⟩
  · rw [hchosen] at hv
    cases hv
    cases List.mem_pair.mp hr with
    | inl hfirst =>
      rw [hfirst] at hbeq
      revert hbeq
      decide
    | inr hsecond =>
      rw [hsecond] at hcode
      exact absurd hcode (by decide)
  · exact absurd hpriority (by decide)

/-- A rule that writes what the winner of its group writes is logged next to the one that does not,
    and does not count. -/
theorem trace_names_agreeing :
    ¬∀ (matched : List Rule), (matched.map Rule.ruleCode).Nodup → ∀ res, resolve matched = .ok res →
      TraceAgrees matched res := by
  intro h
  let rules := [groupRule "R1" 10 (.str "north"), groupRule "R2" 50 (.str "north"),
    groupRule "R3" 20 (.str "south")]
  have hresolve : resolve rules = .ok ⟨Dict.empty.set "rerouteTraffic" (.str "north"), Dict.empty,
      [⟨"R1", "rerouteTraffic", "lost conflict group to R2"⟩,
        ⟨"R3", "rerouteTraffic", "lost conflict group to R2"⟩]⟩ := rfl
  have htrace := h rules (by decide) _ hresolve
  obtain ⟨hunnamed, -⟩ := htrace.counted _ List.mem_cons_self (by
    intro f v _ hv
    have hfield : f = "rerouteTraffic" :=
      List.mem_singleton.mp ((Dict.mem_keys_iff _).mpr ⟨v, hv⟩)
    subst hfield
    cases hv
    exact ⟨_, rfl, rfl⟩)
  exact hunnamed _ List.mem_cons_self rfl

end ConflictResolver

end PulseGuard
