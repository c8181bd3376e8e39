import PulseGuard.Spec.GroupElection

/-!
# Without the loser of a conflict group

The election in a conflict group is held only when all the writers that suppression leaves are of
that group; a writer without a group or of another one has the field merged, the losers' values
included. So a loser decides nothing among its own group, and nothing in a merge that does not rest
on its value (`loser_decides_nothing`).
-/

namespace PulseGuard

namespace ConflictResolver

/-- Two values that are one, or equal (`==`). -/
def SameValue (v w : Option PyVal) : Prop :=
  v = w ∨ ∃ x y, v = some x ∧ w = some y ∧ x.beq y = true

/-- The rules without the one with a code. -/
def others (code : String) (rules : List Rule) : List Rule := rules.filter (!·.ruleCode == code)

theorem mem_others {code : String} {rules : List Rule} {x : Rule} :
    x ∈ others code rules ↔ x ∈ rules ∧ x.ruleCode ≠ code := by
  simp [others]

/-- The merge of a field rests on what one rule writes: it is the only one to write true, or not to
    write a boolean, where the others are all merged by the OR, and otherwise the first of the rules
    that rank highest. -/
def Carries (field : String) (rules : List Rule) (r : Rule) : Prop :=
  Ored field (others r.ruleCode rules) ∧
      ((written field r).isBool = false ∨ written field r = .bool true ∧
        ∀ x ∈ others r.ruleCode rules, written field x ≠ .bool true) ∨
    ¬Ored field (others r.ruleCode rules) ∧
      ∃ c cs, rules = c :: cs ∧ PyList.maxBy (mergeRank field) c cs = r

/-! ## The writers that are left -/

/-- Suppression leaves the same writers without one, unless it is the only one to hold suppressors
    off. -/
theorem standing_others {matched : List Rule} {field : String} {r : Rule}
    (hheld : (∀ x ∈ writers field matched, x.isSuppressor = false) ∨
      ∃ x ∈ writers field matched, x.nonSuppressible = true ∧ x.ruleCode ≠ r.ruleCode) :
    standing field (withoutWrites (·.ruleCode == r.ruleCode) field matched) =
      others r.ruleCode (standing field matched) := by
  have hleft : writers field (withoutWrites (·.ruleCode == r.ruleCode) field matched) =
      others r.ruleCode (writers field matched) := writers_withoutWrites _ _ _
  have hfree : (∀ x ∈ writers field matched, x.isSuppressor = false) →
      standing field (withoutWrites (·.ruleCode == r.ruleCode) field matched) =
        others r.ruleCode (standing field matched) := by
    intro hfree
    rw [standing_of_no_suppressor hfree, standing_of_no_suppressor, hleft]
    intro x hx
    rw [hleft] at hx
    exact hfree x (mem_others.mp hx).1
  rcases hheld with hnone | ⟨x, hx, hns, hcode⟩
  · exact hfree hnone
  · -- the non-suppressible writer is still there, and takes the suppressors out
    have hx' : x ∈ writers field (withoutWrites (·.ruleCode == r.ruleCode) field matched) := by
      rw [hleft]
      exact mem_others.mpr ⟨hx, hcode⟩
    have hstanding : standing field matched = (writers field matched).filter (!·.isSuppressor) :=
      applySuppression_of_nonSuppressible field hx hns
    have hstanding' : standing field (withoutWrites (·.ruleCode == r.ruleCode) field matched) =
        (writers field (withoutWrites (·.ruleCode == r.ruleCode) field matched)).filter
          (!·.isSuppressor) := applySuppression_of_nonSuppressible field hx' hns
    rw [hstanding', hstanding, hleft, others, others, List.filter_filter, List.filter_filter]
    apply List.filter_congr
    intro y _
    exact Bool.and_comm _ _

section

variable {field : String} {ws : List Rule} {r w : Rule}

/-- A writer among those left writes the same as what they are decided by, unless there is an
    election or a merge. -/
theorem conclude_same {d x : Rule} {ds : List Rule} (hx : x ∈ d :: ds) :
    (∃ result, conclude field (d :: ds) = .ok result ∧
      SameValue (some (written field x)) result.1) ∨
    ds ≠ [] ∧ ¬∀ y ∈ d :: ds, (written field y).beq (written field d) = true := by
  by_cases hagree : ∀ y ∈ d :: ds, (written field y).beq (written field d) = true
  · exact Or.inl ⟨_, conclude_agree hagree, Or.inr ⟨_, _, rfl, rfl, hagree x hx⟩⟩
  by_cases hone : ds = []
  · subst hone
    rw [List.mem_singleton.mp hx]
    exact Or.inl ⟨_, rfl, Or.inl rfl⟩
  · exact Or.inr ⟨hone, hagree⟩

/-- Where the writers agree, they agree without one of them. -/
theorem conclude_others_agree {c : Rule} {cs : List Rule} (hc : c.ruleCode ≠ r.ruleCode)
    (h : ∀ x ∈ c :: cs, (written field x).beq (written field c) = true) :
    conclude field (others r.ruleCode (c :: cs)) = .ok (some (written field c), []) := by
  have hcons : others r.ruleCode (c :: cs) = c :: others r.ruleCode cs := by
    unfold others
    exact List.filter_cons_of_pos (by simpa using hc)
  rw [hcons]
  apply conclude_agree
  intro x hx
  rw [← hcons] at hx
  exact h x (mem_others.mp hx).1

/-- The heaviest candidates without one that is not needed among them. -/
theorem heaviest_others {c d : Rule} {cs ds : List Rule} {code : String}
    (hleft : others code (c :: cs) = d :: ds) {best : Rule} (hbest : best ∈ c :: cs)
    (hcode : best.ruleCode ≠ code)
    (hmax : best.priorityWeight = (PyList.maxBy Rule.priorityWeight c cs).priorityWeight) :
    heaviest d ds = others code (heaviest c cs) := by
  have hmem : ∀ x, x ∈ d :: ds ↔ x ∈ c :: cs ∧ x.ruleCode ≠ code := by
    intro x
    rw [← hleft]
    exact mem_others
  have hsame : (PyList.maxBy Rule.priorityWeight d ds).priorityWeight =
      (PyList.maxBy Rule.priorityWeight c cs).priorityWeight := by
    apply le_antisymm
    · exact PyList.le_maxBy Rule.priorityWeight c cs _
        ((hmem _).mp (PyList.maxBy_mem Rule.priorityWeight d ds)).1
    · rw [← hmax]
      exact PyList.le_maxBy Rule.priorityWeight d ds best ((hmem best).mpr ⟨hbest, hcode⟩)
  unfold heaviest
  rw [hsame, ← hleft, others, others, List.filter_filter, List.filter_filter]
  apply List.filter_congr
  intro x _
  exact Bool.and_comm _ _

/-- In a group that does not agree, a candidate that is beaten can be left out. -/
theorem conclude_others_group (hcodes : (ws.map Rule.ruleCode).Nodup) (hr : r ∈ ws) (hw : w ∈ ws)
    (hbeats : Beats w r) (hgroup : ∃ g, ∀ x ∈ ws, x.conflictGroup = some g)
    {c : Rule} {cs : List Rule} (hws : ws = c :: cs) {won : Rule × List SuppressedEntry}
    (hwon : resolveConflictGroup field c cs = .ok won) :
    ∃ result, conclude field (others r.ruleCode ws) = .ok result ∧
      SameValue (some (written field won.1)) result.1 := by
  obtain ⟨winner, lost⟩ := won
  subst hws
  obtain ⟨hwinner, hwins, -⟩ := resolveConflictGroup_elects hcodes hwon
  -- the beaten candidate is not the winner
  have hne : winner ≠ r := by
    rintro rfl
    have hwr : w ≠ winner := by
      rintro rfl
      exact Beats.asymm hbeats hbeats
    exact Beats.asymm hbeats (hwins w hw hwr)
  have hcode : winner.ruleCode ≠ r.ruleCode := by
    intro heq
    exact hne (List.inj_on_of_nodup_map hcodes hwinner hr heq)
  have hkept : winner ∈ others r.ruleCode (c :: cs) := mem_others.mpr ⟨hwinner, hcode⟩
  have hcodes' : ((others r.ruleCode (c :: cs)).map Rule.ruleCode).Nodup :=
    hcodes.sublist (List.filter_sublist.map _)
  cases hleft : others r.ruleCode (c :: cs) with
  | nil =>
    rw [hleft] at hkept
    cases hkept
  | cons d ds =>
    rw [hleft] at hkept hcodes'
    rcases @conclude_same field _ _ _ hkept with hsame | ⟨hseveral, hdisagree⟩
    · exact hsame
    have hmax := PyList.maxBy_mem Rule.priorityWeight c cs
    have hheavy : winner.priorityWeight = (PyList.maxBy Rule.priorityWeight c cs).priorityWeight :=
      le_antisymm (PyList.le_maxBy Rule.priorityWeight c cs winner hwinner)
        ((resolveConflictGroup_winner hwon).2 _ hmax)
    have hheaviest := heaviest_others hleft hwinner hcode hheavy
    -- the specificities that are looked at were looked at before
    obtain ⟨⟨winner', lost'⟩, hwon'⟩ := @resolveConflictGroup_total field d ds (by
      intro hseveral x hx
      rw [hheaviest] at hseveral hx
      have hlength : (others r.ruleCode (heaviest c cs)).length ≤ (heaviest c cs).length :=
        List.length_filter_le _ _
      exact specificity_of_resolveConflictGroup hwon (by omega) x (mem_others.mp hx).1)
    obtain ⟨hwinner', hwins', -⟩ := resolveConflictGroup_elects hcodes' hwon'
    have hsub : ∀ x ∈ d :: ds, x ∈ c :: cs := by
      intro x hx
      rw [← hleft] at hx
      exact (mem_others.mp hx).1
    -- the winner still wins over those that are left
    have hsame : winner' = winner :=
      hwins'.unique hwinner' hkept fun b hb hne => hwins b (hsub b hb) hne
    refine ⟨(some (written field winner'), lost'), ?_, Or.inl (by rw [hsame])⟩
    have hsameGroup : sameGroup d ds = true := by
      obtain ⟨g, hg⟩ := hgroup
      exact sameGroup_iff.mpr ⟨g, fun x hx => hg x (hsub x hx)⟩
    rw [conclude_disagree hseveral hdisagree, if_pos hsameGroup, hwon']
    rfl

/-- A merge that does not rest on one rule is the merge of the others. -/
theorem merges_others {c d : Rule} {cs ds : List Rule} {v : PyVal} (hr : r ∈ c :: cs)
    (hcodes : ((c :: cs).map Rule.ruleCode).Nodup) (hleft : others r.ruleCode (c :: cs) = d :: ds)
    (hcarries : ¬Carries field (c :: cs) r) (h : Merges field c cs v) : Merges field d ds v := by
  have hmem : ∀ x, x ∈ d :: ds ↔ x ∈ c :: cs ∧ x.ruleCode ≠ r.ruleCode := by
    intro x
    rw [← hleft]
    exact mem_others
  have hcases : ∀ x ∈ c :: cs, x = r ∨ x ∈ d :: ds := by
    intro x hx
    by_cases hcode : x.ruleCode = r.ruleCode
    · exact Or.inl (List.inj_on_of_nodup_map hcodes hx hr hcode)
    · exact Or.inr ((hmem x).mpr ⟨hx, hcode⟩)
  unfold Carries at hcarries
  rw [hleft] at hcarries
  push Not at hcarries
  by_cases hored : Ored field (d :: ds)
  · -- the others are merged by the OR, and the value of the rule does not show in it
    obtain ⟨hbool, htrue⟩ := hcarries.1 hored
    have hall : Ored field (c :: cs) := by
      refine ⟨hored.1, ?_⟩
      intro x hx
      rcases hcases x hx with rfl | hx
      · simpa using hbool
      · exact hored.2 x hx
    rcases h with ⟨-, rfl⟩ | ⟨hnot, -⟩
    · left
      refine ⟨hored, congrArg PyVal.bool ?_⟩
      rw [Bool.eq_iff_iff, List.any_eq_true, List.any_eq_true]
      constructor
      · intro hany
        obtain ⟨x, hx, hx'⟩ := hany
        rcases hcases x hx with rfl | hx
        · obtain ⟨y, hy, hy'⟩ := htrue (by
            cases hvalue : written field x with
            | bool b =>
              rw [hvalue] at hx'
              have hb : b = true := hx'
              rw [hb]
            | _ => rw [hvalue] at hbool; exact absurd rfl hbool)
          refine ⟨y, hy, ?_⟩
          rw [hy']
          rfl
        · exact ⟨x, hx, hx'⟩
      · intro hany
        obtain ⟨x, hx, hx'⟩ := hany
        exact ⟨x, ((hmem x).mp hx).1, hx'⟩
    · exact absurd hall hnot
  · right
    refine ⟨hored, ?_⟩
    rcases h with ⟨hall, -⟩ | ⟨-, rfl⟩
    · -- the others would be merged by the OR too
      exfalso
      exact hored ⟨hall.1, fun x hx => hall.2 x ((hmem x).mp hx).1⟩
    · -- the first of the highest rank is another rule
      have hbest := hcarries.2 hored c cs rfl
      have hkept := hcases _ (PyList.maxBy_mem (mergeRank field) c cs)
      have hcode : (PyList.maxBy (mergeRank field) c cs).ruleCode ≠ r.ruleCode :=
        ((hmem _).mp (hkept.resolve_left hbest)).2
      have hsame := @PyList.maxBy_filter _ _ _ (mergeRank field) (!·.ruleCode == r.ruleCode)
        c d cs ds hleft (by simpa using hcode)
      rw [hsame]

/-- In a mix of groups, a rule that the merge does not rest on can be left out. -/
theorem conclude_others_merge (hcodes : (ws.map Rule.ruleCode).Nodup) (hr : r ∈ ws) (hw : w ∈ ws)
    (hcode : w.ruleCode ≠ r.ruleCode) (hsame : ∃ g, r.conflictGroup = some g ∧ w.conflictGroup = some g)
    (hmixed : ¬∃ g, ∀ x ∈ ws, x.conflictGroup = some g) (hcarries : ¬Carries field ws r)
    {c : Rule} {cs : List Rule} (hws : ws = c :: cs) {v : PyVal}
    (hmerge : mergeField field c cs = .ok v) :
    ∃ result, conclude field (others r.ruleCode ws) = .ok result ∧ SameValue (some v) result.1 := by
  subst hws
  obtain ⟨hrank, hmerges⟩ := mergeField_ok_iff.mp hmerge
  have hkept : w ∈ others r.ruleCode (c :: cs) := mem_others.mpr ⟨hw, hcode⟩
  have hsub : ∀ x ∈ others r.ruleCode (c :: cs), x ∈ c :: cs := fun x hx => (mem_others.mp hx).1
  -- the writer outside of the group is left as well
  have hmixed' : ¬∃ g, ∀ x ∈ others r.ruleCode (c :: cs), x.conflictGroup = some g := by
    intro hone
    obtain ⟨g, hg⟩ := hone
    obtain ⟨g', hrg, hwg⟩ := hsame
    have hgg : g' = g := Option.some.inj (hwg.symm.trans (hg w hkept))
    apply hmixed
    refine ⟨g, fun x hx => ?_⟩
    by_cases hx' : x.ruleCode = r.ruleCode
    · rw [List.inj_on_of_nodup_map hcodes hx hr hx', hrg, hgg]
    · exact hg x (mem_others.mpr ⟨hx, hx'⟩)
  cases hleft : others r.ruleCode (c :: cs) with
  | nil =>
    rw [hleft] at hkept
    cases hkept
  | cons d ds =>
    rw [hleft] at hkept hmixed' hsub
    have hmerges' : Merges field d ds v := merges_others hr hcodes hleft hcarries hmerges
    obtain ⟨x, hx, hvalue⟩ := merges_written hmerges'
    rcases @conclude_same field _ _ _ hx with hsame | ⟨hseveral, hdisagree⟩
    · rw [hvalue]
      exact hsame
    have hmerge' : mergeField field d ds = .ok v :=
      mergeField_ok_iff.mpr ⟨fun x hx => hrank x (hsub x hx), hmerges'⟩
    refine ⟨(some v, []), ?_, Or.inl rfl⟩
    rw [conclude_disagree hseveral hdisagree, if_neg fun hone => hmixed' (sameGroup_iff.mp hone),
      hmerge']
    rfl

/-- What is concluded without a beaten writer of a group: the same, among the group alone, and in a
    mix that does not rest on it. -/
theorem conclude_others (hcodes : (ws.map Rule.ruleCode).Nodup) (hr : r ∈ ws) (hw : w ∈ ws)
    (hsame : ∃ g, r.conflictGroup = some g ∧ w.conflictGroup = some g)
    (hdisagree : (written field w).beq (written field r) = false) (hbeats : Beats w r)
    (hrests : (∃ g, ∀ x ∈ ws, x.conflictGroup = some g) ∨ ¬Carries field ws r)
    {result : Option PyVal × List SuppressedEntry} (h : conclude field ws = .ok result) :
    ∃ result', conclude field (others r.ruleCode ws) = .ok result' ∧
      SameValue result.1 result'.1 := by
  have hne : w ≠ r := by
    rintro rfl
    exact Beats.asymm hbeats hbeats
  have hcode : w.ruleCode ≠ r.ruleCode :=
    fun heq => hne (List.inj_on_of_nodup_map hcodes hw hr heq)
  match ws, hcodes, hr, hw, hrests, h with
  | [c], _, hr, hw, _, _ =>
    rw [List.mem_singleton] at hr hw
    exact absurd (hw.trans hr.symm) hne
  | c :: c' :: cs, hcodes, hr, hw, hrests, h =>
    unfold conclude at h
    simp only at h
    split at h
    · rename_i hagree
      have hagree := List.all_eq_true.mp hagree
      cases h
      -- the rule is not the first, with whose value its own group agrees
      have hfirst : c.ruleCode ≠ r.ruleCode := by
        intro heq
        have hcr := List.inj_on_of_nodup_map hcodes List.mem_cons_self hr heq
        rw [← hcr, hagree w hw] at hdisagree
        cases hdisagree
      exact ⟨_, conclude_others_agree hfirst hagree, Or.inl rfl⟩
    · split at h
      · rename_i hgroup
        obtain ⟨won, hwon, rfl⟩ := Except.map_ok_iff.mp h
        exact conclude_others_group hcodes hr hw hbeats (sameGroup_iff.mp hgroup) rfl hwon
      · rename_i hgroup
        obtain ⟨v, hv, rfl⟩ := Except.map_ok_iff.mp h
        have hmixed : ¬∃ g, ∀ x ∈ c :: c' :: cs, x.conflictGroup = some g :=
          fun hone => hgroup (sameGroup_iff.mpr hone)
        exact conclude_others_merge hcodes hr hw hcode hsame hmixed (hrests.resolve_left hmixed) rfl hv

end

/-! ## The resolution -/

/-- A priority off the scale is left alone, or raises. -/
private theorem raisedPriority_other {v : PyVal} (hnone : v ≠ .none) (hstr : ∀ s, v ≠ .str s)
    {fs : List PyVal} {n : Nat} {p : Option PyVal} (h : raisedPriority (some v) fs n = .ok p) :
    fs = [] ∧ n = 0 := by
  rcases raisedPriority_ok h with ⟨⟨hfs, hn⟩, -⟩ | ⟨-, hnil | ⟨s, -, hs⟩, -⟩
  · exact ⟨hfs, hn.resolve_right hnone⟩
  · exact absurd hnil hnone
  · exact absurd hs (hstr s)

/-- The floors and the bumps make the same of equal priorities. -/
theorem raisedPriority_congr {current current' : Option PyVal} (hsame : SameValue current current')
    {fs : List PyVal} {n : Nat} {p : Option PyVal} (h : raisedPriority current fs n = .ok p) :
    ∃ p', raisedPriority current' fs n = .ok p' ∧ SameValue (p.or current) (p'.or current') := by
  rcases hsame with rfl | ⟨v, w, rfl, rfl, hbeq⟩
  · exact ⟨p, h, Or.inl rfl⟩
  by_cases hnone : v = .none
  · subst hnone
    cases w with
    | none => exact ⟨p, h, Or.inl rfl⟩
    | _ => cases hbeq
  by_cases hstr : ∃ s, v = .str s
  · obtain ⟨s, rfl⟩ := hstr
    cases w with
    | str t =>
      have heq : s = t := by simpa [PyVal.beq] using hbeq
      rw [← heq]
      exact ⟨p, h, Or.inl rfl⟩
    | _ => cases hbeq
  · obtain ⟨rfl, rfl⟩ := raisedPriority_other hnone (fun s hs => hstr ⟨s, hs⟩) h
    have hleft : ∀ x : PyVal, x ≠ .none → raisedPriority (some x) [] 0 = .ok (some x) :=
      fun x hx => raisedPriority_ok_iff.mpr (Or.inr ⟨x, x, raisedFrom_present hx [], rfl, rfl⟩)
    have hw : w ≠ .none := by
      rintro rfl
      cases v with
      | none => exact hnone rfl
      | _ => cases hbeq
    rw [hleft v hnone] at h
    cases h
    exact ⟨some w, hleft w hw, Or.inr ⟨v, w, rfl, rfl, hbeq⟩⟩

/-- Without some of the writes of a field the rules are still resolved, and to the same value of the
    field, when it is still decided and the same is chosen for it. -/
theorem resolve_withoutWrites_same {p : Rule → Bool} {f : String} {matched : List Rule}
    {res : Resolution} (hres : resolve matched = .ok res) (hmod : f ∉ modifierFields)
    (hdecides : Decides (f, writers f (withoutWrites p f matched)))
    (hchosen : SameValue (chosen f matched) (chosen f (withoutWrites p f matched))) :
    ∃ res', resolve (withoutWrites p f matched) = .ok res' ∧
      SameValue (res.actions.get? f) (res'.actions.get? f) := by
  have hall := allDecided_of_resolve hres
  have hall' : AllDecided (withoutWrites p f matched) :=
    (allDecided_withoutWrites (iff_of_true hdecides (hall f hmod))).mpr hall
  have hpriority : SameValue (chosen "priority" matched)
      (chosen "priority" (withoutWrites p f matched)) := by
    by_cases hf : "priority" = f
    · rw [hf]
      exact hchosen
    · exact Or.inl (decided_withoutWrites hf matched).2.symm
  obtain ⟨q, hq, hget⟩ := get?_resolve_priority hres
  obtain ⟨q', hq', hsame⟩ := raisedPriority_congr hpriority hq
  rw [← floors_withoutWrites hmod, ← bumps_withoutWrites hmod] at hq'
  obtain ⟨res', hres'⟩ := resolves_iff.mpr ⟨hall', q', hq'⟩
  refine ⟨res', hres', ?_⟩
  by_cases hf : f = "priority"
  · subst hf
    obtain ⟨q₁, hq₁, hget'⟩ := get?_resolve_priority hres'
    rw [hq'] at hq₁
    cases hq₁
    rw [hget, hget']
    exact hsame
  · rw [get?_resolve hres hmod hf, get?_resolve hres' hmod hf]
    exact hchosen

/-- Of two writers of one conflict group that survive the suppressors and disagree, the beaten one
    decides nothing: the field has the same value without its write, when suppression leaves the
    same writers without it, and either all of them are of the group or the merge of the mix does
    not rest on the beaten one. -/
theorem loser_decides_nothing (matched : List Rule) (hcodes : (matched.map Rule.ruleCode).Nodup)
    (res : Resolution) (hres : resolve matched = .ok res) (f : String) (hmod : f ∉ modifierFields)
    (r w : Rule) (hr : r ∈ standing f matched) (hw : w ∈ standing f matched)
    (hsame : ∃ g, r.conflictGroup = some g ∧ w.conflictGroup = some g)
    (hdisagree : (written f w).beq (written f r) = false) (hbeats : Beats w r)
    (hheld : (∀ x ∈ writers f matched, x.isSuppressor = false) ∨
      ∃ x ∈ writers f matched, x.nonSuppressible = true ∧ x.ruleCode ≠ r.ruleCode)
    (hrests : (∃ g, ∀ x ∈ standing f matched, x.conflictGroup = some g) ∨
      ¬Carries f (standing f matched) r) :
    ∃ res', resolve (withoutWrites (·.ruleCode == r.ruleCode) f matched) = .ok res' ∧
      SameValue (res.actions.get? f) (res'.actions.get? f) := by
  obtain ⟨lost, hconclude, -⟩ := decides_writers_iff.mp (allDecided_of_resolve hres f hmod)
  have hcodes' : ((standing f matched).map Rule.ruleCode).Nodup := by
    have hsublist : (standing f matched).Sublist (writers f matched) := standing_sublist f matched
    exact hcodes.sublist ((hsublist.trans List.filter_sublist).map _)
  obtain ⟨result, hresult, hvalue⟩ :=
    conclude_others hcodes' hr hw hsame hdisagree hbeats hrests hconclude
  have hleft := standing_others hheld
  rw [← hleft] at hresult
  have hdecides : Decides (f, writers f (withoutWrites (·.ruleCode == r.ruleCode) f matched)) := by
    apply decides_iff.mpr
    have hresult : conclude f (applySuppression f (writers f
        (withoutWrites (·.ruleCode == r.ruleCode) f matched))).1 = .ok result := hresult
    rw [resolveField_eq, hresult]
    exact ⟨_, rfl⟩
  apply resolve_withoutWrites_same hres hmod hdecides
  rw [chosen_eq f (withoutWrites _ f matched), hresult]
  exact hvalue

/-! ## Examples -/

/-- Two rules of the reroute group, of which the second wins. -/
def rerouteGroup : List Rule := [groupRule "R1" 10 (.bool true), groupRule "R2" 50 (.bool false)]

theorem loser_decides_nothing_reroute :
    ∃ res res', resolve rerouteGroup = .ok res ∧
      resolve (withoutWrites (·.ruleCode == "R1") "rerouteTraffic" rerouteGroup) = .ok res' ∧
      SameValue (res.actions.get? "rerouteTraffic") (res'.actions.get? "rerouteTraffic") := by
  have hresolve : (resolve rerouteGroup).isOk = true := by decide +kernel
  obtain ⟨res, hres⟩ := Except.isOk_iff.mp hresolve
  have hgroup : ∀ x ∈ rerouteGroup, x.conflictGroup = some "reroute" ∧ x.isSuppressor = false := by
    intro x hx
    cases List.mem_pair.mp hx with
    | inl hfirst => rw [hfirst]; exact ⟨rfl, rfl⟩
    | inr hsecond => rw [hsecond]; exact ⟨rfl, rfl⟩
  obtain ⟨res', hres', hsame⟩ := loser_decides_nothing rerouteGroup (by decide) res hres
    "rerouteTraffic" (by decide) (groupRule "R1" 10 (.bool true)) (groupRule "R2" 50 (.bool false))
    List.mem_cons_self (List.mem_cons_of_mem _ List.mem_cons_self) ⟨"reroute", rfl, rfl⟩ (by decide)
    (Or.inl (by decide)) (Or.inl fun x hx => (hgroup x hx).2)
    (Or.inl ⟨"reroute", fun x hx => (hgroup x hx).1⟩)
  exact ⟨res, res', hres, hres', hsame⟩

/-- With a writer outside of the group the field is merged, and the loser's value shows. -/
theorem loser_decides_merge :
    ¬∀ (matched : List Rule), (matched.map Rule.ruleCode).Nodup → ∀ res, resolve matched = .ok res →
      ∀ f, f ∉ modifierFields → ∀ r w, r ∈ standing f matched → w ∈ standing f matched →
      (∃ g, r.conflictGroup = some g ∧ w.conflictGroup = some g) →
      (written f w).beq (written f r) = false → Beats w r →
      ∀ res', resolve (withoutWrites (·.ruleCode == r.ruleCode) f matched) = .ok res' →
        SameValue (res.actions.get? f) (res'.actions.get? f) := by
  intro h
  let rules := rerouteGroup ++ [PipelineOrchestrator.fieldRule "R3" "rerouteTraffic" (.bool false)]
  have hresolve : resolve rules =
      .ok ⟨Dict.empty.set "rerouteTraffic" (.bool true), Dict.empty, []⟩ := rfl
  have hwithout : resolve (withoutWrites (·.ruleCode == "R1") "rerouteTraffic" rules) =
      .ok ⟨Dict.empty.set "rerouteTraffic" (.bool false), Dict.empty, []⟩ := rfl
  have hsame := h rules (by decide) _ hresolve "rerouteTraffic" (by decide)
    (groupRule "R1" 10 (.bool true)) (groupRule "R2" 50 (.bool false)) List.mem_cons_self
    (List.mem_cons_of_mem _ List.mem_cons_self) ⟨"reroute", rfl, rfl⟩ (by decide)
    (Or.inl (by decide)) _ hwithout
  rcases hsame with heq | ⟨x, y, hx, hy, hbeq⟩
  · exact absurd (PyVal.bool.inj (Option.some.inj heq)) (by decide)
  · cases hx
    cases hy
    revert hbeq
    decide

/-- Without the write of the only rule that held it off, the suppressor decides. -/
example :
    let rules := [{ groupRule "R1" 10 (.bool true) with nonSuppressible := true },
      groupRule "R2" 50 (.bool false),
      { PipelineOrchestrator.fieldRule "R3" "rerouteTraffic" (.str "south") with isSuppressor := true }]
    resolve rules = .ok ⟨Dict.empty.set "rerouteTraffic" (.bool false), Dict.empty,
        [⟨"R3", "rerouteTraffic", "attempted suppression overridden by non-suppressible rule"⟩,
          ⟨"R1", "rerouteTraffic", "lost conflict group to R2"⟩]⟩ ∧
      resolve (withoutWrites (·.ruleCode == "R1") "rerouteTraffic" rules) =
        .ok ⟨Dict.empty.set "rerouteTraffic" (.str "south"), Dict.empty,
          [⟨"R2", "rerouteTraffic", "suppressed by R3"⟩]⟩ :=
  ⟨rfl, rfl⟩

end ConflictResolver

end PulseGuard
