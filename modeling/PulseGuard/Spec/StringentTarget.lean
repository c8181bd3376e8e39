import PulseGuard.Spec.SetAside
import PulseGuard.Spec.SlaFill

/-!
# The most stringent target

A rule declares a target in two places: the `targetSLA` of its actions and its own `sla_target`, of
which the schema says that it is the source of truth. Only the first is read. Among the writers of
`targetSLA` the shortest duration comes out of suppression, election and merge, of those that are
not logged (`settlesOn_noLonger`); a compliance rule and the matrix can still set a longer one.
`most_stringent_iff` says when no target declared by a rule that is not logged is shorter than the
decision's.
-/

namespace PulseGuard

/-! ## Durations -/

/-- The value is a duration of so many minutes. -/
inductive Lasts : PyVal → Int → Prop
  | minutes {text : String} {n : Int} (h : PyStr.Decimal text n) : Lasts (.str (text ++ " minutes")) n
  | hours {text : String} {n : Int} (h : PyStr.Decimal text n) :
      Lasts (.str (text ++ " hours")) (n * 60)

/-- The value is not a duration longer than so many minutes. -/
def NoLonger (v : PyVal) (m : Int) : Prop := ∀ k, Lasts v k → k ≤ m

namespace ConflictResolver

theorem parseDurationMinutes_eq {text unit : String} {n : Int} (h : PyStr.Decimal text n)
    (hunit : PyStr.lower (" " ++ unit) = " " ++ unit) :
    parseDurationMinutes (.str (text ++ " " ++ unit)) =
      .ok (if PyStr.contains (text ++ " " ++ unit) "hour" then n * 60 else n) := by
  have hlower : PyStr.lower (text ++ " " ++ unit) = text ++ " " ++ unit := by
    rw [String.append_assoc]
    exact h.lower hunit
  unfold parseDurationMinutes
  simp only [hlower, h.split, h.value]

/-- A duration is parsed to its minutes. -/
theorem parse_lasts {v : PyVal} {m : Int} (h : Lasts v m) : parseDurationMinutes v = .ok m := by
  cases h with
  | @minutes text n h =>
    have htext : text ++ " minutes" = text ++ " " ++ "minutes" := by
      rw [String.append_assoc]
      rfl
    have hcontains : PyStr.contains (text ++ " " ++ "minutes") "hour" = false := by
      unfold PyStr.contains
      rw [decide_eq_false_iff_not]
      intro hinfix
      -- neither the number nor the unit has an h
      have hmem : 'h' ∈ (text ++ " " ++ "minutes").toList := hinfix.subset (by decide)
      rw [String.append_assoc, String.toList_append, List.mem_append] at hmem
      cases hmem with
      | inl hnumber => exact (h.char hnumber).2.2 rfl
      | inr hunit => revert hunit; decide
    rw [htext, parseDurationMinutes_eq h (by decide), hcontains]
    rfl
  | @hours text n h =>
    have htext : text ++ " hours" = text ++ " " ++ "hours" := by
      rw [String.append_assoc]
      rfl
    have hcontains : PyStr.contains (text ++ " " ++ "hours") "hour" = true := by
      unfold PyStr.contains
      rw [decide_eq_true_eq]
      refine ⟨text.toList ++ [' '], ['s'], ?_⟩
      rw [String.toList_append, String.toList_append, List.append_assoc, List.append_assoc,
        List.append_assoc]
      rfl
    rw [htext, parseDurationMinutes_eq h (by decide), hcontains]
    rfl

theorem lasts_unique {v : PyVal} {k m : Int} (h : Lasts v k) (h' : Lasts v m) : k = m :=
  Except.ok.inj ((parse_lasts h).symm.trans (parse_lasts h'))

/-! ## The targets of the rules -/

/-- The rule declares the target by its own field. -/
def Dedicated (r : Rule) (m : Int) : Prop := ∃ t, r.slaTarget = some t ∧ Lasts (.str t) m

/-- The rule declares the target, by an action or by its own field. -/
def Declares (r : Rule) (m : Int) : Prop :=
  (∃ v, r.actions.get? "targetSLA" = some v ∧ Lasts v m) ∨ Dedicated r m

/-- What the rule declares is a duration. -/
structure InDurations (r : Rule) : Prop where
  action : ∀ v, r.actions.get? "targetSLA" = some v → ∃ m, Lasts v m
  field : ∀ t, r.slaTarget = some t → ∃ m, Lasts (.str t) m

/-- No rule with the code is set aside for any field. -/
def Unlogged (matched : List Rule) (code : String) : Prop :=
  ∀ f, f ∉ modifierFields → ∀ x, SetAside f (writers f matched) x → x.ruleCode ≠ code

theorem unlogged_iff {matched : List Rule} {res : Resolution} (hres : resolve matched = .ok res)
    {code : String} :
    Unlogged matched code ↔ ∀ entry ∈ res.suppressed, entry.ruleCode ≠ code := by
  have hlogged := @mem_suppressedCodes matched res hres code
  constructor
  · intro hnone entry hentry hcode
    obtain ⟨f, hmod, x, haside, hx⟩ := hlogged.mp ⟨entry, hentry, hcode⟩
    exact hnone f hmod x haside hx
  · intro hnone f hmod x haside hcode
    obtain ⟨entry, hentry, hcode⟩ := hlogged.mpr ⟨f, hmod, x, haside, hcode⟩
    exact hnone entry hentry hcode

theorem mergeRank_targetSLA {r : Rule} {m : Int} (h : Lasts (written "targetSLA" r) m) :
    mergeRank "targetSLA" r = -m := by
  show -rank parseDurationMinutes (written "targetSLA" r) = -m
  rw [rank_eq (parse_lasts h)]

/-- What some writers come to is no longer than what one of them writes that is not elected out. -/
theorem comesTo_noLonger {ws : List Rule} {v : PyVal} (hcomes : ComesTo "targetSLA" ws (some v))
    {r : Rule} (hr : r ∈ ws) (helected : ∀ w rest, Elects "targetSLA" ws w rest → r ∉ rest) {m : Int}
    (hm : Lasts (written "targetSLA" r) m) : NoLonger v m := by
  intro k hk
  cases hcomes with
  | alone c =>
    rw [List.mem_singleton.mp hr] at hm
    exact le_of_eq (lasts_unique hk hm)
  | @agreed c cs hagree =>
    have hall := not_not.mp fun hnot => hagree (disagree_cons_iff.mpr hnot)
    have hbeq := List.all_eq_true.mp hall r hr
    -- a duration is a text, and equal texts are the same
    have hsame : written "targetSLA" r = written "targetSLA" c := by
      cases hvalue : written "targetSLA" c with
      | str t =>
        rw [hvalue] at hbeq
        exact PyVal.beq_str_iff.mp hbeq
      | _ =>
        rw [hvalue] at hk
        cases hk
    rw [hsame] at hm
    exact le_of_eq (lasts_unique hk hm)
  | @elected _ rest w helects =>
    -- the others of the group are logged
    cases List.mem_cons.mp (helects.picks.perm.mem_iff.mp hr) with
    | inl hwinner =>
      rw [hwinner] at hm
      exact le_of_eq (lasts_unique hk hm)
    | inr hrest => exact absurd hrest (helected w rest helects)
  | @merged c cs _ _ _ hmerges =>
    -- the merge ranks a shorter duration higher
    rcases hmerges with ⟨hored, -⟩ | ⟨-, rfl⟩
    · exact absurd hored.1 (by decide)
    · have hle := PyList.le_maxBy (mergeRank "targetSLA") c cs r hr
      rw [mergeRank_targetSLA hm, mergeRank_targetSLA hk] at hle
      omega

/-- A writer that is not set aside while the suppressors are held off is no suppressor. -/
theorem mem_plain {field : String} {ws : List Rule} (hheld : HeldOff ws) {r : Rule} (hr : r ∈ ws)
    (haside : ¬SetAside field ws r) : r ∈ plain ws := by
  refine List.mem_filter.mpr ⟨hr, ?_⟩
  cases hsup : r.isSuppressor with
  | false => rfl
  | true =>
    exfalso
    cases hheld with
    | inl hnone =>
      rw [hnone r hr] at hsup
      cases hsup
    | inr hsome =>
      obtain ⟨n, hn, hns⟩ := hsome
      exact haside (.overridden hn hns hr hsup)

/-- A field that comes to nothing has set each of its writers aside. -/
theorem setAside_of_settlesOn_none {field : String} {ws : List Rule} (h : SettlesOn field ws none)
    {r : Rule} (hr : r ∈ ws) : SetAside field ws r := by
  by_contra haside
  cases h with
  | heldOff hheld hcomes =>
    have hplain := mem_plain hheld hr haside
    generalize plain ws = left at hcomes hplain
    cases hcomes with
    | nobody => cases hplain

/-- What the field comes to is no longer than what a writer writes that is not set aside. -/
theorem settlesOn_noLonger {ws : List Rule} {v : PyVal} (hsettles : SettlesOn "targetSLA" ws (some v))
    {r : Rule} (hr : r ∈ ws) (haside : ¬SetAside "targetSLA" ws r) {m : Int}
    (hm : Lasts (written "targetSLA" r) m) : NoLonger v m := by
  cases hsettles with
  | @vetoed s rest hveto =>
    cases List.mem_cons.mp (hveto.picks.perm.mem_iff.mp hr) with
    | inl hwinner =>
      rw [hwinner] at hm
      exact fun k hk => le_of_eq (lasts_unique hk hm)
    | inr hrest => exact absurd (.vetoed hveto hrest) haside
  | heldOff hheld hcomes =>
    have hplain : r ∈ plain ws := mem_plain hheld hr haside
    apply comesTo_noLonger hcomes hplain _ hm
    intro w rest helects hrest
    exact haside (.outdone hheld helects hrest)

end ConflictResolver

/-! ## The run -/

namespace PipelineOrchestrator

open ConflictResolver ComplianceApplier

/-- The targets of the rules that are not logged hold: the last compliance rule that applies and
    writes a target writes none that is longer; where there is none, the target that the rules come
    to is no longer than those of the dedicated fields, and where they come to none, the default
    is not. -/
structure TargetsHold (matrix : Option SlaMatrix) (incident : Incident) (pack : RulePack)
    (matched : List Rule) : Prop where
  compliance : ∀ v, lastWritten "targetSLA" (applying incident.asEvaluationData pack.rules) = some v →
    ∀ r ∈ matched, Unlogged matched r.ruleCode → ∀ m, Declares r m → NoLonger v m
  rules : lastWritten "targetSLA" (applying incident.asEvaluationData pack.rules) = none →
    ∀ v, SettlesOn "targetSLA" (writers "targetSLA" matched) (some v) →
      ∀ r ∈ matched, Unlogged matched r.ruleCode → ∀ m, Dedicated r m → NoLonger v m
  default : lastWritten "targetSLA" (applying incident.asEvaluationData pack.rules) = none →
    SettlesOn "targetSLA" (writers "targetSLA" matched) none →
      ∀ entry, HasDefault matrix incident pack matched entry →
        ∀ r ∈ matched, Unlogged matched r.ruleCode → ∀ m, Dedicated r m → entry.responseMinutes ≤ m

section

variable {matrix : Option SlaMatrix} {incident : Incident} {pack : RulePack} {matched : List Rule}
  {resolution : Resolution}

/-- A target that is decided stays. -/
theorem get?_fillSla_targetSLA {actions final : Dict String PyVal}
    (hfill : fillSla matrix incident actions = .ok final) {v : PyVal}
    (hv : actions.get? "targetSLA" = some v) : final.get? "targetSLA" = some v := by
  rcases fillSla_ok hfill with ⟨rfl, -⟩ | ⟨entry, ⟨rows, -, hmissing, -⟩, -⟩
  · exact hv
  · unfold Dict.contains at hmissing
    rw [hv] at hmissing
    cases hmissing

/-- Where the decision has its target from. -/
theorem targetSLA_cases (hresolve : resolve matched = .ok resolution) {final : Dict String PyVal}
    (hfill : fillSla matrix incident (decidedActions incident pack resolution) = .ok final) :
    (∃ v, lastWritten "targetSLA" (applying incident.asEvaluationData pack.rules) = some v ∧
      final.get? "targetSLA" = some v) ∨
    lastWritten "targetSLA" (applying incident.asEvaluationData pack.rules) = none ∧
      ((∃ v, SettlesOn "targetSLA" (writers "targetSLA" matched) (some v) ∧
          final.get? "targetSLA" = some v) ∨
        SettlesOn "targetSLA" (writers "targetSLA" matched) none ∧
          ∀ v, final.get? "targetSLA" = some v ↔ ∃ entry,
            HasDefault matrix incident pack matched entry ∧
              v = .str (toString entry.responseMinutes ++ " minutes")) := by
  have hdecides := allDecided_of_resolve hresolve "targetSLA" (by decide)
  have hchosen := get?_resolve hresolve (f := "targetSLA") (by decide) (by decide)
  -- the compliance rules write over what is resolved
  have hdecided := get?_narrow resolution.actions
    (applying incident.asEvaluationData pack.rules) "targetSLA"
  rw [hchosen] at hdecided
  cases hlast : lastWritten "targetSLA" (applying incident.asEvaluationData pack.rules) with
  | some v =>
    rw [hlast, Option.some_or] at hdecided
    exact Or.inl ⟨v, rfl, get?_fillSla_targetSLA hfill hdecided⟩
  | none =>
    rw [hlast, Option.none_or] at hdecided
    refine Or.inr ⟨rfl, ?_⟩
    cases hvalue : chosen "targetSLA" matched with
    | some v =>
      rw [hvalue] at hdecided
      exact Or.inl ⟨v, (settlesOn_iff hdecides).mpr hvalue.symm, get?_fillSla_targetSLA hfill hdecided⟩
    | none =>
      rw [hvalue] at hdecided
      have hsettles := (settlesOn_iff hdecides).mpr hvalue.symm
      -- nobody writes a target, so the matrix may fill it in
      have hfilled : ∀ entry, Filled matrix incident (decidedActions incident pack resolution) entry ↔
          HasDefault matrix incident pack matched entry := by
        intro entry
        have hmissing : DecidedValue incident pack matched "targetSLA" none := by
          unfold DecidedValue
          rw [hlast]
          exact hsettles
        rw [filled_iff hresolve, and_iff_right hmissing]
      refine Or.inr ⟨hsettles, fun v => ?_⟩
      rcases fillSla_ok hfill with ⟨rfl, hnone⟩ | ⟨entry, hentry, rfl⟩
      · constructor
        · intro hget
          rw [show (decidedActions incident pack resolution).get? "targetSLA" = none from hdecided] at hget
          cases hget
        · intro hlogged
          obtain ⟨entry, hentry, -⟩ := hlogged
          exact absurd ((hfilled entry).mpr hentry) (hnone entry)
      · rw [Dict.get?_set_of_ne _ _ (by decide), Dict.get?_set_self]
        constructor
        · intro hget
          exact ⟨entry, (hfilled entry).mp hentry, (Option.some.inj hget).symm⟩
        · intro hfound
          obtain ⟨entry', hentry', rfl⟩ := hfound
          rw [filled_unique ((hfilled entry').mpr hentry') hentry]

end

/-- No target that a rule declares which is not logged is shorter than the decision's, exactly when
    the targets hold. -/
theorem most_stringent_iff (matrix : Option SlaMatrix) (incident : Incident) (pack : RulePack)
    (decision : Decision) (hrun : run matrix incident pack = .ok decision) (matched : List Rule)
    (rejected : List RejectedRuleTrace)
    (hevaluate : PolicyEngine.evaluate pack incident = .ok (matched, rejected)) :
    (∀ r ∈ matched, (∀ entry ∈ decision.suppressedRules, entry.ruleCode ≠ r.ruleCode) →
      ∀ m, Declares r m → ∀ v, decision.actions.get? "targetSLA" = some v → NoLonger v m) ↔
    TargetsHold matrix incident pack matched := by
  obtain ⟨matched', rejected', resolution, actions, constraints, final, plan, confidence, hevaluate',
    hresolve, happly, hfill, -, -, rfl⟩ := run_ok_iff.mp hrun
  rw [hevaluate] at hevaluate'
  cases hevaluate'
  obtain ⟨-, hactions, -⟩ := ComplianceApplier.apply_ok_iff.mp happly
  have hdecided : actions = decidedActions incident pack resolution := hactions
  subst hdecided
  -- what is logged as suppressed is what some field sets aside
  have hunlogged : ∀ code, (∀ entry ∈ resolution.suppressed, entry.ruleCode ≠ code) ↔
      Unlogged matched code := fun code => (unlogged_iff hresolve).symm
  simp only [hunlogged]
  have hdecides := allDecided_of_resolve hresolve "targetSLA" (by decide)
  -- the rules settle on one target at most
  have hsettles : ∀ v w, SettlesOn "targetSLA" (writers "targetSLA" matched) v →
      SettlesOn "targetSLA" (writers "targetSLA" matched) w → v = w := fun v w hv hw =>
    ((settlesOn_iff hdecides).mp hv).trans ((settlesOn_iff hdecides).mp hw).symm
  rcases targetSLA_cases hresolve hfill with ⟨w, hlast, hget⟩ | ⟨hlast, ⟨w, hw, hget⟩ | ⟨hw, hget⟩⟩
  · -- the last compliance rule to write a target
    constructor
    · intro hstringent
      constructor
      · intro v hv r hr hfree m hm
        obtain rfl := Option.some.inj (hlast.symm.trans hv)
        exact hstringent r hr hfree m hm w hget
      · intro hnone
        exact absurd (hlast.symm.trans hnone) (Option.some_ne_none w)
      · intro hnone
        exact absurd (hlast.symm.trans hnone) (Option.some_ne_none w)
    · intro hhold r hr hfree m hm v hv
      obtain rfl := Option.some.inj (hget.symm.trans hv)
      exact hhold.compliance w hlast r hr hfree m hm
  · -- the rules
    constructor
    · intro hstringent
      constructor
      · intro v hv
        exact absurd (hv.symm.trans hlast) (Option.some_ne_none v)
      · intro _ v hv r hr hfree m hm
        obtain rfl := Option.some.inj (hsettles _ _ hw hv)
        exact hstringent r hr hfree m (Or.inr hm) w hget
      · intro _ hnone
        exact absurd (hsettles _ _ hw hnone) (Option.some_ne_none w)
    · intro hhold r hr hfree m hm v hv
      obtain rfl := Option.some.inj (hget.symm.trans hv)
      cases hm with
      | inl haction =>
        obtain ⟨u, hu, hlasts⟩ := haction
        -- a target that the rule writes itself loses to the shorter one, or is set aside
        have hwritten : written "targetSLA" r = u := by
          rw [written, hu]
          rfl
        have hwriter : r ∈ writers "targetSLA" matched :=
          mem_writers.mpr ⟨hr, (Dict.mem_keys_iff _).mpr ⟨u, hu⟩⟩
        rw [← hwritten] at hlasts
        exact settlesOn_noLonger hw hwriter
          (fun haside => hfree "targetSLA" (by decide) r haside rfl) hlasts
      | inr hdedicated => exact hhold.rules hlast w hw r hr hfree m hdedicated
  · -- the default
    constructor
    · intro hstringent
      constructor
      · intro v hv
        exact absurd (hv.symm.trans hlast) (Option.some_ne_none v)
      · intro _ v hv
        exact absurd (hsettles _ _ hv hw) (Option.some_ne_none v)
      · intro _ _ entry hentry r hr hfree m hm
        exact hstringent r hr hfree m (Or.inr hm) _ ((hget _).mpr ⟨entry, hentry, rfl⟩) _
          (.minutes (PyStr.decimal_toString _))
    · intro hhold r hr hfree m hm v hv
      obtain ⟨entry, hentry, rfl⟩ := (hget v).mp hv
      cases hm with
      | inl haction =>
        obtain ⟨u, hu, -⟩ := haction
        have hwriter : r ∈ writers "targetSLA" matched :=
          mem_writers.mpr ⟨hr, (Dict.mem_keys_iff _).mpr ⟨u, hu⟩⟩
        -- a rule that writes a target is set aside where the rules settle on none
        exact absurd rfl (hfree "targetSLA" (by decide) r (setAside_of_settlesOn_none hw hwriter))
      | inr hdedicated =>
        intro k hk
        rw [← lasts_unique (.minutes (PyStr.decimal_toString _)) hk]
        exact hhold.default hlast hw entry hentry r hr hfree m hdedicated

/-! ## Examples -/

/-- A rule with a target of its own. -/
def dedicatedRule (ruleCode target : String) : Rule := { plainRule ruleCode with slaTarget := some target }

/-- A rule whose action sets a target of 30 minutes, and one with a target of its own. -/
def targetRules (target : String) : List Rule :=
  [fieldRule "R1" "targetSLA" (.str "30 minutes"), dedicatedRule "R2" target]

def targetPack (target : String) : RulePack := { highPack with rules := targetRules target }

private theorem matched_targetPack {target : String} {matched : List Rule}
    {rejected : List RejectedRuleTrace}
    (hevaluate : PolicyEngine.evaluate (targetPack target) severeIncident = .ok (matched, rejected)) :
    matched = targetRules target := (PolicyEngine.evaluate_ok_iff.mp ⟨rejected, hevaluate⟩).2

private theorem lasts_minutes {text : String} {n : Int} (hdigits : text.toList.all Char.isDigit = true)
    (hvalue : PyStr.int? text = some n) : Lasts (.str (text ++ " minutes")) n :=
  .minutes ⟨fun c hc => Or.inl (List.all_eq_true.mp hdigits c hc), hvalue⟩

private theorem lasts_thirty : Lasts (.str "30 minutes") 30 :=
  @lasts_minutes "30" 30 (by decide) (by decide)

private theorem durations_targetRules {target : String} {m : Int} (htarget : Lasts (.str target) m) :
    ∀ r ∈ targetRules target, InDurations r := by
  intro r hr
  cases List.mem_pair.mp hr with
  | inl hfirst =>
    rw [hfirst]
    constructor
    · intro v hv
      cases hv
      exact ⟨30, lasts_thirty⟩
    · intro t ht
      cases ht
  | inr hsecond =>
    rw [hsecond]
    constructor
    · intro v hv
      cases hv
    · intro t ht
      cases ht
      exact ⟨m, htarget⟩

private theorem settles_targetRules {target : String} {resolution : Resolution}
    (hresolve : resolve (targetRules target) = .ok resolution) {v : Option PyVal} :
    SettlesOn "targetSLA" (writers "targetSLA" (targetRules target)) v ↔
      v = some (.str "30 minutes") :=
  settlesOn_iff (allDecided_of_resolve hresolve "targetSLA" (by decide))

/-- The other rule's own target is longer. -/
theorem most_stringent_action :
    ∃ decision, run none severeIncident (targetPack "120 minutes") = .ok decision ∧
      ∀ r ∈ targetRules "120 minutes",
        (∀ entry ∈ decision.suppressedRules, entry.ruleCode ≠ r.ruleCode) →
          ∀ m, Declares r m → ∀ v, decision.actions.get? "targetSLA" = some v → NoLonger v m := by
  have hruns : (run none severeIncident (targetPack "120 minutes")).isOk = true := by decide +kernel
  obtain ⟨decision, hrun⟩ := Except.isOk_iff.mp hruns
  obtain ⟨matched, rejected, resolution, -, -, -, -, -, hevaluate, hresolve, -⟩ := run_ok_iff.mp hrun
  obtain rfl := matched_targetPack hevaluate
  have hlasts : Lasts (.str "120 minutes") 120 := @lasts_minutes "120" 120 (by decide) (by decide)
  refine ⟨decision, hrun, (most_stringent_iff none severeIncident (targetPack "120 minutes") decision
    hrun _ rejected hevaluate).mpr ?_⟩
  constructor
  · intro v hv
    cases hv
  · intro _ v hv r hr _ m hm k hk
    cases (settles_targetRules hresolve).mp hv
    rw [lasts_unique hk lasts_thirty]
    obtain ⟨t, ht, hm⟩ := hm
    cases List.mem_pair.mp hr with
    | inl hfirst =>
      rw [hfirst] at ht
      cases ht
    | inr hsecond =>
      rw [hsecond] at ht
      cases ht
      rw [lasts_unique hm hlasts]
      decide
  · intro _ hnone
    cases (settles_targetRules hresolve).mp hnone

/-- The other rule's own target is shorter, and nothing reads it. -/
theorem dedicated_target_unread :
    ¬∀ (matrix : Option SlaMatrix) (incident : Incident) (pack : RulePack) (decision : Decision),
      run matrix incident pack = .ok decision → ∀ matched rejected,
        PolicyEngine.evaluate pack incident = .ok (matched, rejected) →
        (∀ r ∈ matched, InDurations r) →
          ∀ r ∈ matched, (∀ entry ∈ decision.suppressedRules, entry.ruleCode ≠ r.ruleCode) →
            ∀ m, Declares r m → ∀ v, decision.actions.get? "targetSLA" = some v → NoLonger v m := by
  intro h
  have hruns : (run none severeIncident (targetPack "5 minutes")).isOk = true := by decide +kernel
  obtain ⟨decision, hrun⟩ := Except.isOk_iff.mp hruns
  obtain ⟨matched, rejected, resolution, -, -, -, -, -, hevaluate, hresolve, -⟩ := run_ok_iff.mp hrun
  obtain rfl := matched_targetPack hevaluate
  have hlasts : Lasts (.str "5 minutes") 5 := @lasts_minutes "5" 5 (by decide) (by decide)
  have hdurations := durations_targetRules hlasts
  have hhold := (most_stringent_iff none severeIncident (targetPack "5 minutes") decision hrun _
    rejected hevaluate).mp (h none severeIncident (targetPack "5 minutes") decision hrun _
      rejected hevaluate hdurations)
  have hnothing : resolution.suppressed = [] := by
    have hresolution : resolve (targetRules "5 minutes") =
        .ok ⟨Dict.empty.set "targetSLA" (.str "30 minutes"), Dict.empty, []⟩ := rfl
    rw [hresolution] at hresolve
    cases hresolve
    rfl
  have hthirty := hhold.rules rfl _ ((settles_targetRules hresolve).mpr rfl)
    (dedicatedRule "R2" "5 minutes") (List.mem_cons_of_mem _ List.mem_cons_self) (by
      apply (unlogged_iff hresolve).mpr
      rw [hnothing]
      intro entry hentry
      cases hentry) 5 ⟨"5 minutes", rfl, hlasts⟩ 30 lasts_thirty
  exact absurd hthirty (by decide)

end PipelineOrchestrator

end PulseGuard
