import PulseGuard.Spec.PlanSteps
import PulseGuard.Spec.PriorityScale
import PulseGuard.Spec.UnseenChanges

/-!
# Rules without some of their writes

Two resolutions are compared: one of the matched rules, and one of the same rules where some do
not write a field. Every other field is resolved as before (`decided_withoutWrites`), so that the
two agree on the field itself when suppression leaves it the same writers. A non-suppressible rule
makes sure of that for the suppressors: none of them changes what the rules decide for the field
(`nonSuppressible_guarantee`). `field_kept_iff` says when a field that some rule writes is decided
at all.
-/

namespace PulseGuard

/-- The rule without its write of a field. -/
def Rule.withoutWrite (field : String) (rule : Rule) : Rule :=
  { rule with actions := rule.actions.filter (· != field) }

namespace ConflictResolver

/-- The rules, some of them without their write of a field. -/
def withoutWrites (p : Rule → Bool) (field : String) (matched : List Rule) : List Rule :=
  matched.map fun r => if p r then r.withoutWrite field else r

section

variable {p : Rule → Bool} {field : String}

theorem get?_withoutWrite {f : String} (hf : f ≠ field) (rule : Rule) :
    (rule.withoutWrite field).actions.get? f = rule.actions.get? f :=
  Dict.get?_filter _ (by simpa using hf)

theorem contains_withoutWrite (rule : Rule) :
    (rule.withoutWrite field).actions.contains field = false := by
  rw [Bool.eq_false_iff, ne_eq, Dict.contains_iff]
  intro hmem
  obtain ⟨entry, hentry, hkey⟩ := List.mem_map.mp hmem
  have hother := (List.mem_filter.mp hentry).2
  rw [hkey] at hother
  simp at hother

/-- Another field does not see the change. -/
theorem unseen_withoutWrites (p : Rule → Bool) {f : String} (hf : f ≠ field) :
    Unseen f (fun r => if p r then r.withoutWrite field else r) := by
  have hwritten : ∀ r : Rule, written f (r.withoutWrite field) = written f r := by
    intro r
    rw [written, get?_withoutWrite hf, ← written]
  have hsame : ∀ {α : Type} (g : Rule → α), (∀ r, g (r.withoutWrite field) = g r) →
      ∀ r, g (if p r then r.withoutWrite field else r) = g r := by
    intro α g hg r
    split
    · exact hg r
    · rfl
  exact ⟨hsame _ fun _ => rfl, hsame _ fun _ => rfl, hsame _ fun _ => rfl, hsame _ fun _ => rfl,
    hsame _ fun _ => rfl, hsame _ fun _ => rfl, hsame _ hwritten⟩

theorem writers_withoutWrites_of_ne {f : String} (hf : f ≠ field) (matched : List Rule) :
    writers f (withoutWrites p field matched) =
      (writers f matched).map fun r => if p r then r.withoutWrite field else r := by
  apply filter_map_unseen
  intro r
  unfold Dict.contains
  split
  · rw [get?_withoutWrite hf]
  · rfl

/-- The writers of the field are those that are left. -/
theorem writers_withoutWrites (p : Rule → Bool) (field : String) (matched : List Rule) :
    writers field (withoutWrites p field matched) = (writers field matched).filter (!p ·) := by
  unfold writers withoutWrites
  induction matched with
  | nil => rfl
  | cons r rest ih =>
    rw [List.map_cons]
    by_cases hp : p r = true
    · have hnot : (r.withoutWrite field).actions.contains field = false := contains_withoutWrite r
      simp only [hp, if_true]
      rw [List.filter_cons_of_neg (by simp [hnot]), ih, List.filter_cons]
      split
      · rw [List.filter_cons_of_neg (by simp [hp])]
      · rfl
    · -- the rule keeps its write, if it has one
      simp only [hp]
      rw [List.filter_cons, List.filter_cons, if_neg Bool.false_ne_true, ih]
      split
      · rw [List.filter_cons_of_pos (by simpa using hp)]
      · rfl

/-- Every other field is decided as before. -/
theorem decided_withoutWrites {f : String} (hf : f ≠ field) (matched : List Rule) :
    (Decides (f, writers f (withoutWrites p field matched)) ↔ Decides (f, writers f matched)) ∧
      chosen f (withoutWrites p field matched) = chosen f matched := by
  have hresolve := resolveField_map (unseen_withoutWrites p hf) (writers f matched)
  rw [← writers_withoutWrites_of_ne hf] at hresolve
  constructor
  · rw [decides_iff, decides_iff]
    show (∃ result, resolveField f (writers f (withoutWrites p field matched)) = .ok result) ↔ _
    rw [hresolve]
  · show ((resolveField f (writers f (withoutWrites p field matched))).toOption.getD (none, [])).1 = _
    rw [hresolve]
    rfl

theorem allDecided_withoutWrites {matched : List Rule}
    (hdecides : Decides (field, writers field (withoutWrites p field matched)) ↔
      Decides (field, writers field matched)) :
    AllDecided (withoutWrites p field matched) ↔ AllDecided matched := by
  apply forall_congr'
  intro f
  apply imp_congr_right
  intro _
  by_cases hf : f = field
  · subst hf
    exact hdecides
  · exact (decided_withoutWrites hf matched).1

theorem floors_withoutWrites (hmod : field ∉ modifierFields) (matched : List Rule) :
    floors (withoutWrites p field matched) = floors matched := by
  have hfloor : "priorityFloor" ≠ field := by
    rintro rfl
    exact hmod (by decide)
  unfold floors withoutWrites
  rw [List.filterMap_map]
  apply List.filterMap_congr
  intro r _
  show (if p r then r.withoutWrite field else r).actions.get? "priorityFloor" = _
  split
  · exact get?_withoutWrite hfloor r
  · rfl

theorem bumps_withoutWrites (hmod : field ∉ modifierFields) (matched : List Rule) :
    bumps (withoutWrites p field matched) = bumps matched := by
  have hbump : "priorityBumpOneLevel" ≠ field := by
    rintro rfl
    exact hmod (by decide)
  unfold bumps withoutWrites
  rw [List.countP_map]
  apply List.countP_congr
  intro r _
  show (((if p r then r.withoutWrite field else r).actions.get? "priorityBumpOneLevel").getD
    .none).truthy = true ↔ _
  split
  · rw [get?_withoutWrite hbump r]
  · rfl

end

/-! ## Two resolutions -/

/-- Resolutions that choose the same for a field, and raise the priority alike, agree on it. -/
theorem get?_resolve_congr {matched matched' : List Rule} {res res' : Resolution} {f : String}
    (hres : resolve matched = .ok res) (hres' : resolve matched' = .ok res')
    (hmod : f ∉ modifierFields) (hchosen : chosen f matched' = chosen f matched)
    (hfloors : floors matched' = floors matched) (hbumps : bumps matched' = bumps matched) :
    res'.actions.get? f = res.actions.get? f := by
  by_cases hpriority : f = "priority"
  · subst hpriority
    obtain ⟨p, hp, hget⟩ := get?_resolve_priority hres
    obtain ⟨p', hp', hget'⟩ := get?_resolve_priority hres'
    rw [hchosen, hfloors, hbumps, hp] at hp'
    cases hp'
    rw [hget, hget', hchosen]
  · rw [get?_resolve hres hmod hpriority, get?_resolve hres' hmod hpriority, hchosen]

/-- Without some of the writes of a field, the rules are resolved together with the rules, and to
    the same value of the field, when the field is decided alike. -/
theorem resolve_withoutWrites {p : Rule → Bool} {f : String} {matched : List Rule}
    (hmod : f ∉ modifierFields)
    (hdecides : Decides (f, writers f (withoutWrites p f matched)) ↔ Decides (f, writers f matched))
    (hchosen : chosen f (withoutWrites p f matched) = chosen f matched) :
    Except.Both (fun res res' => resolve matched = .ok res ∧
        res'.actions.get? f = res.actions.get? f)
      (resolve matched) (resolve (withoutWrites p f matched)) := by
  have hall := allDecided_withoutWrites hdecides
  have hpriority : chosen "priority" (withoutWrites p f matched) = chosen "priority" matched := by
    by_cases hf : "priority" = f
    · subst hf
      exact hchosen
    · exact (decided_withoutWrites hf matched).2
  have hiff : (∃ res, resolve (withoutWrites p f matched) = .ok res) ↔
      ∃ res, resolve matched = .ok res := by
    rw [resolves_iff, resolves_iff, hall, hpriority, floors_withoutWrites hmod,
      bumps_withoutWrites hmod]
  cases hres : resolve matched with
  | ok res =>
    obtain ⟨res', hres'⟩ := hiff.mpr ⟨res, hres⟩
    rw [hres']
    exact .ok ⟨rfl, get?_resolve_congr hres hres' hmod hchosen (floors_withoutWrites hmod matched)
      (bumps_withoutWrites hmod matched)⟩
  | error e =>
    cases hres' : resolve (withoutWrites p f matched) with
    | error e' => exact .error
    | ok res' =>
      obtain ⟨res, hok⟩ := hiff.mp ⟨res', hres'⟩
      rw [hres] at hok
      cases hok

/-! ## The guarantee of a non-suppressible rule -/

/-- Without suppressors among them, all the writers of a field stand. -/
theorem standing_of_no_suppressor {field : String} {matched : List Rule}
    (h : ∀ r ∈ writers field matched, r.isSuppressor = false) :
    standing field matched = writers field matched := by
  unfold standing
  rcases applySuppression_cases field (writers field matched) with
    ⟨-, heq⟩ | ⟨⟨r, hr, hsup⟩, -⟩ | ⟨s, ss, hfilter, -⟩
  · rw [heq]
  · rw [h r hr] at hsup
    cases hsup
  · have hs : s ∈ (writers field matched).filter Rule.isSuppressor := by
      rw [hfilter]
      exact List.mem_cons_self
    obtain ⟨hs, hsup⟩ := List.mem_filter.mp hs
    rw [h s hs] at hsup
    cases hsup

/-- A field that a non-suppressible rule decides has the value that it has when no suppressor
    writes it. -/
theorem nonSuppressible_guarantee (matched : List Rule) (f : String) (hmod : f ∉ modifierFields)
    (hwriter : ∃ r ∈ matched, f ∈ r.actions.keys ∧ r.nonSuppressible = true ∧ r.isSuppressor = false) :
    Except.Both (fun res res' => ∃ v, res.actions.get? f = some v ∧ res'.actions.get? f = some v)
      (resolve matched) (resolve (withoutWrites Rule.isSuppressor f matched)) := by
  obtain ⟨r, hr, hkey, hns, hsup⟩ := hwriter
  have hmem : r ∈ writers f matched := mem_writers.mpr ⟨hr, hkey⟩
  have hstanding : standing f matched = (writers f matched).filter (!·.isSuppressor) :=
    applySuppression_of_nonSuppressible f hmem hns
  have hleft : writers f (withoutWrites Rule.isSuppressor f matched) = standing f matched := by
    rw [writers_withoutWrites, hstanding]
  -- the writers that are left are those that stood before
  have hstanding' : standing f (withoutWrites Rule.isSuppressor f matched) = standing f matched := by
    rw [standing_of_no_suppressor, hleft]
    intro r' hr'
    rw [hleft, hstanding] at hr'
    simpa using (List.mem_filter.mp hr').2
  obtain ⟨hdecides, hchosen⟩ := decides_congr hstanding'
  apply (resolve_withoutWrites hmod hdecides hchosen).mono
  intro res res' hboth
  have hne : standing f matched ≠ [] := by
    rw [hstanding]
    exact List.ne_nil_of_mem (List.mem_filter.mpr ⟨hmem, by simp [hsup]⟩)
  obtain ⟨v, hv⟩ := exists_chosen (allDecided_of_resolve hboth.1 f hmod) hne
  obtain ⟨w, hw⟩ := exists_resolved hboth.1 hmod hv
  exact ⟨w, hw, hboth.2.trans hw⟩

/-! ## The fields that are kept -/

/-- Some matched rule writes the value. -/
def WrittenValue (f : String) (matched : List Rule) (v : PyVal) : Prop :=
  ∃ r ∈ matched, r.actions.get? f = some v

/-- The value comes from written ones: it is one of them, their boolean OR, or the level that the
    floors and the bumps make of a written priority. -/
def FromWritten (f : String) (matched : List Rule) (v : PyVal) : Prop :=
  WrittenValue f matched v ∨
    ((∀ r ∈ writers f matched, (written f r).isBool = true) ∧
      v = .bool ((writers f matched).any fun r => (written f r).truthy)) ∨
    f = "priority" ∧ ∃ w, WrittenValue f matched w ∧
      raisedPriority (some w) (floors matched) (bumps matched) = .ok (some v)

/-- Every writer of the field is a suppressor, and one of them is not suppressible. -/
def Lost (f : String) (matched : List Rule) : Prop :=
  (∀ r ∈ matched, f ∈ r.actions.keys → r.isSuppressor = true) ∧
    ∃ r ∈ matched, f ∈ r.actions.keys ∧ r.nonSuppressible = true

/-- The floors and the bumps make a written priority, or one that comes from a written one, of no
    priority at all. -/
def Recovered (matched : List Rule) : Prop :=
  ∃ v, raisedPriority none (floors matched) (bumps matched) = .ok (some v) ∧
    FromWritten "priority" matched v

/-- Suppression leaves no writer exactly when the field is lost. -/
theorem standing_eq_nil_iff {f : String} {matched : List Rule}
    (hwritten : ∃ r ∈ matched, f ∈ r.actions.keys) : standing f matched = [] ↔ Lost f matched := by
  obtain ⟨w, hw, hkey⟩ := hwritten
  have hmem : w ∈ writers f matched := mem_writers.mpr ⟨hw, hkey⟩
  unfold standing
  rcases applySuppression_cases f (writers f matched) with
    ⟨hnone, heq⟩ | ⟨-, ⟨r, hr, hns⟩, heq⟩ | ⟨s, ss, -, hnone, heq⟩
  · -- without a suppressor everybody is left
    rw [heq]
    constructor
    · intro hnil
      exact absurd hnil (List.ne_nil_of_mem hmem)
    · intro hlost
      have hsup := hlost.1 w hw hkey
      rw [hnone w hmem] at hsup
      cases hsup
  · -- the suppressors are taken out, the non-suppressible one of them too
    rw [heq]
    show (writers f matched).filter (fun r => !r.isSuppressor) = [] ↔ _
    rw [List.filter_eq_nil_iff]
    obtain ⟨hr, hkey'⟩ := mem_writers.mp hr
    constructor
    · intro hall
      refine ⟨?_, r, hr, hkey', hns⟩
      intro r' hr' hkey''
      simpa using hall r' (mem_writers.mpr ⟨hr', hkey''⟩)
    · intro hlost r' hr'
      obtain ⟨hr', hkey''⟩ := mem_writers.mp hr'
      simp [hlost.1 r' hr' hkey'']
  · -- one suppressor is left
    rw [heq]
    constructor
    · intro hnil
      cases hnil
    · intro hlost
      obtain ⟨r, hr, hkey', hns⟩ := hlost.2
      rw [hnone r (mem_writers.mpr ⟨hr, hkey'⟩)] at hns
      cases hns

/-- A field that some rule writes is resolved to a value that comes from written ones exactly when
    it is not lost, or is the priority and recovered. -/
theorem field_kept_iff (matched : List Rule) (res : Resolution) (hres : resolve matched = .ok res)
    (f : String) (hmod : f ∉ modifierFields) (hwritten : ∃ r ∈ matched, f ∈ r.actions.keys) :
    (∃ v, res.actions.get? f = some v ∧ FromWritten f matched v) ↔
      ¬Lost f matched ∨ f = "priority" ∧ Recovered matched := by
  have hdecides := allDecided_of_resolve hres f hmod
  rw [← standing_eq_nil_iff hwritten]
  by_cases hnil : standing f matched = []
  · -- nothing is chosen, and only the floors and bumps can give a value
    have hchosen : chosen f matched = none := by
      rw [chosen_eq, hnil]
      rfl
    constructor
    · intro hkept
      obtain ⟨v, hv, hfrom⟩ := hkept
      by_cases hpriority : f = "priority"
      · subst hpriority
        obtain ⟨p, hp, hget⟩ := get?_resolve_priority hres
        rw [hchosen] at hp hget
        rw [hget, Option.or_none] at hv
        rw [hv] at hp
        exact Or.inr ⟨rfl, v, hp, hfrom⟩
      · rw [get?_resolve hres hmod hpriority, hchosen] at hv
        cases hv
    · intro hcond
      cases hcond with
      | inl hnot => exact absurd hnil hnot
      | inr hrecovered =>
        obtain ⟨rfl, v, hv, hfrom⟩ := hrecovered
        obtain ⟨p, hp, hget⟩ := get?_resolve_priority hres
        rw [hchosen] at hp hget
        rw [hv] at hp
        cases hp
        exact ⟨v, hget, hfrom⟩
  · -- a writer that is left gives the value
    refine ⟨fun _ => Or.inl hnil, fun _ => ?_⟩
    obtain ⟨v, hv⟩ := exists_chosen hdecides hnil
    obtain ⟨r, hr, rfl⟩ := chosen_written hdecides hv
    obtain ⟨hr, hkey⟩ := mem_of_standing hr
    have hvalue : WrittenValue f matched (written f r) := ⟨r, hr, written_spec hkey⟩
    by_cases hpriority : f = "priority"
    · subst hpriority
      obtain ⟨p, hp, hget⟩ := get?_resolve_priority hres
      rw [hv] at hp hget
      cases p with
      | none => exact ⟨_, hget, Or.inl hvalue⟩
      | some w => exact ⟨w, hget, Or.inr (Or.inr ⟨rfl, _, hvalue, hp⟩)⟩
    · rw [get?_resolve hres hmod hpriority, hv]
      exact ⟨_, rfl, Or.inl hvalue⟩

/-! ## Examples -/

open ExecutionPlanBuilder (dispatchRule restartRule)

theorem nonSuppressible_guarantee_dispatch :
    Except.Both (fun res res' => ∃ v, res.actions.get? "dispatchEngineer" = some v ∧
        res'.actions.get? "dispatchEngineer" = some v)
      (resolve [restartRule "R033", dispatchRule])
      (resolve (withoutWrites Rule.isSuppressor "dispatchEngineer" [restartRule "R033", dispatchRule])) :=
  nonSuppressible_guarantee _ "dispatchEngineer" (by decide)
    ⟨dispatchRule, List.mem_cons_of_mem _ List.mem_cons_self, by decide, rfl, rfl⟩

theorem field_kept_dispatch :
    ∃ res v, resolve [dispatchRule] = .ok res ∧ res.actions.get? "dispatchEngineer" = some v ∧
      FromWritten "dispatchEngineer" [dispatchRule] v := by
  have hresolve : resolve [dispatchRule] =
      .ok ⟨Dict.empty.set "dispatchEngineer" (.bool true), Dict.empty, []⟩ := rfl
  obtain ⟨v, hv, hfrom⟩ := (field_kept_iff _ _ hresolve "dispatchEngineer" (by decide)
    ⟨dispatchRule, List.mem_cons_self, by decide⟩).mpr (by
      left
      intro hlost
      have hsup := hlost.1 dispatchRule List.mem_cons_self (by decide)
      cases hsup)
  exact ⟨_, v, hresolve, hv, hfrom⟩

/-- A suppressor that cannot be suppressed overrides itself. -/
theorem field_lost :
    ¬∀ (matched : List Rule) (res : Resolution), resolve matched = .ok res →
      ∀ f, f ∉ modifierFields → (∃ r ∈ matched, f ∈ r.actions.keys) →
        ∃ v, res.actions.get? f = some v ∧ FromWritten f matched v := by
  intro h
  have hresolve : resolve [{ dispatchRule with isSuppressor := true }] =
      .ok ⟨Dict.empty, Dict.empty, [⟨"R008", "dispatchEngineer",
        "attempted suppression overridden by non-suppressible rule"⟩]⟩ := rfl
  obtain ⟨v, hv, -⟩ := h _ _ hresolve "dispatchEngineer" (by decide)
    ⟨{ dispatchRule with isSuppressor := true }, List.mem_cons_self, by decide⟩
  cases hv

end ConflictResolver

end PulseGuard
