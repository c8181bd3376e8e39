import PulseGuard.ForStd.FloatRange
import PulseGuard.ForStd.PyList
import PulseGuard.Native.Escalation

/-!
# Escalation climbs, and stops

When the events that sweeps of one decision open are in the order of the policy
(`climbs_iff`): a sweep opens the furthest level without an event, so once a level was skipped, a
sweep that reaches no further level falls back to it. And when no sweep opens an event after
an acknowledgement (`acknowledgement_stops_iff`), which the sweep does not look at.
-/

namespace PulseGuard

namespace EscalationSweep

/-- The levels have distinct names and strictly increasing timeouts. -/
structure Ascending (policy : EscalationPolicy) : Prop where
  names : (policy.levels.map EscalationLevel.level).Nodup
  timeouts : (policy.levels.map EscalationLevel.timeoutMinutes).Pairwise (· < ·)

theorem ascending_defaultPolicies :
    ∀ entry ∈ InMemoryEscalationPolicyRepository.defaultPolicies, Ascending entry.2 := by
  intro entry hmem
  simp only [InMemoryEscalationPolicyRepository.defaultPolicies, List.mem_cons, List.not_mem_nil,
    or_false] at hmem
  rcases hmem with rfl | rfl | rfl | rfl <;> exact ⟨by decide, by decide⟩

/-- The events after one more sweep of a decision, whose event is added. -/
def sweep (decisionId : String) (policy : EscalationPolicy) (decisionCreatedAt : Int)
    (events : List EscalationEvent) (at_ : Uuid × Int) : List EscalationEvent :=
  events ++ (run at_.1 decisionId policy events decisionCreatedAt at_.2).toList

/-- The events that sweeps of one decision open. -/
def sweeps (decisionId : String) (policy : EscalationPolicy) (decisionCreatedAt : Int)
    (ats : List (Uuid × Int)) : List EscalationEvent :=
  ats.foldl (sweep decisionId policy decisionCreatedAt) []

/-- The place of a level in the order of the policy. -/
def place (policy : EscalationPolicy) (level : String) : Nat :=
  (policy.levels.map EscalationLevel.level).idxOf level

/-- The events are in strictly increasing policy order. -/
def Climbs (policy : EscalationPolicy) (events : List EscalationEvent) : Prop :=
  (events.map fun event => place policy event.level).Pairwise (· < ·)

/-- How many levels have a timeout that is over. -/
def reached (policy : EscalationPolicy) (decisionCreatedAt now : Int) : Nat :=
  policy.levels.countP (elapsed decisionCreatedAt now)

/-- Each sweep reaches a level that no earlier one has reached, or each level it reaches was the
    furthest that some earlier sweep reached. -/
def InStep (policy : EscalationPolicy) (decisionCreatedAt : Int) (times : List Int) : Prop :=
  ∀ before now, before ++ [now] <+: times →
    (∀ t ∈ before, reached policy decisionCreatedAt t < reached policy decisionCreatedAt now) ∨
      ∀ level, 0 < level → level ≤ reached policy decisionCreatedAt now →
        ∃ t ∈ before, reached policy decisionCreatedAt t = level

variable {policy : EscalationPolicy} {decisionId : String} {createdAt now : Int}

/-! ## One sweep -/

theorem reached_le (policy : EscalationPolicy) (createdAt now : Int) :
    reached policy createdAt now ≤ policy.levels.length := List.countP_le_length

/-- What is elapsed for a timeout is elapsed for a shorter one. -/
theorem elapsed_of_le {a b : EscalationLevel} (h : a.timeoutMinutes < b.timeoutMinutes)
    (hb : elapsed createdAt now b = true) : elapsed createdAt now a = true := by
  have hlt : (a.timeoutMinutes : Rat) < b.timeoutMinutes := by exact_mod_cast h
  exact PyFloat.ble_fin_of_lt hlt hb

/-- The elapsed levels are the first ones. -/
theorem elapsed_iff_lt_reached (h : Ascending policy) {i : Nat} (hi : i < policy.levels.length) :
    elapsed createdAt now policy.levels[i] = true ↔ i < reached policy createdAt now := by
  refine PyList.getElem_iff_lt_countP ?_ hi
  have htimeouts := List.pairwise_map.mp h.timeouts
  exact htimeouts.imp fun hlt hb => elapsed_of_le hlt hb

theorem place_getElem (h : Ascending policy) {i : Nat} (hi : i < policy.levels.length) :
    place policy policy.levels[i].level = i := by
  have hi' : i < (policy.levels.map EscalationLevel.level).length := by simpa using hi
  have hplace := h.names.idxOf_getElem i hi'
  rwa [List.getElem_map] at hplace

/-- The level of the policy at a place has an event. -/
def Opened (policy : EscalationPolicy) (events : List EscalationEvent) (i : Nat) : Prop :=
  ∃ hi : i < policy.levels.length, policy.levels[i].level ∈ triggeredLevels events

/-- A sweep opens nothing when every level it reaches has an event. -/
theorem run_eq_none_iff (h : Ascending policy) {newId : Uuid} {events : List EscalationEvent} :
    run newId decisionId policy events createdAt now = none ↔
      ∀ i < reached policy createdAt now, Opened policy events i := by
  unfold run nextLevel
  rw [Option.map_eq_none_iff, PyList.foldl_keep_eq_none_iff (p := fun levelDef =>
    elapsed createdAt now levelDef && !(triggeredLevels events).contains levelDef.level)]
  constructor
  · intro hnone i hi
    have hlength : i < policy.levels.length := lt_of_lt_of_le hi (reached_le policy createdAt now)
    have hlevel := hnone _ (List.getElem_mem hlength)
    rw [(elapsed_iff_lt_reached h hlength).mpr hi] at hlevel
    exact ⟨hlength, by simpa using hlevel⟩
  · intro hopened levelDef hmem
    obtain ⟨i, hi, rfl⟩ := List.mem_iff_getElem.mp hmem
    cases helapsed : elapsed createdAt now policy.levels[i] with
    | false => rfl
    | true =>
      obtain ⟨_, htriggered⟩ := hopened i ((elapsed_iff_lt_reached h hi).mp helapsed)
      simpa using htriggered

/-- A sweep opens the furthest level it reaches that has no event. -/
theorem run_eq_some (h : Ascending policy) {newId : Uuid} {events : List EscalationEvent}
    {event : EscalationEvent}
    (hrun : run newId decisionId policy events createdAt now = some event) :
    ∃ i, ∃ hi : i < policy.levels.length, event.level = policy.levels[i].level ∧
      i < reached policy createdAt now ∧ ¬Opened policy events i ∧
      ∀ j, i < j → j < reached policy createdAt now → Opened policy events j := by
  unfold run nextLevel at hrun
  obtain ⟨levelDef, hnext, rfl⟩ := Option.map_eq_some_iff.mp hrun
  obtain ⟨i, hi, rfl, hfree, hafter⟩ := PyList.foldl_keep_eq_some (p := fun levelDef =>
    elapsed createdAt now levelDef && !(triggeredLevels events).contains levelDef.level) hnext
  simp only [Bool.and_eq_true, Bool.not_eq_true', List.contains_eq_mem, decide_eq_false_iff_not]
    at hfree
  refine ⟨i, hi, rfl, (elapsed_iff_lt_reached h hi).mp hfree.1, ?_, ?_⟩
  · intro h
    obtain ⟨_, hopened⟩ := h
    exact hfree.2 hopened
  · intro j hlt hreached
    have hj : j < policy.levels.length := lt_of_lt_of_le hreached (reached_le policy createdAt now)
    have hlevel := hafter j hj hlt
    rw [(elapsed_iff_lt_reached h hj).mpr hreached] at hlevel
    exact ⟨hj, by simpa using hlevel⟩

/-! ## A sequence of sweeps -/

theorem sweeps_concat (ats : List (Uuid × Int)) (at_ : Uuid × Int) :
    sweeps decisionId policy createdAt (ats ++ [at_]) =
      sweeps decisionId policy createdAt ats ++
        (run at_.1 decisionId policy (sweeps decisionId policy createdAt ats) createdAt
          at_.2).toList := by
  unfold sweeps
  rw [List.foldl_append]
  rfl

theorem opened_append {events : List EscalationEvent} {event : EscalationEvent} {i j : Nat}
    (h : Ascending policy) (hi : i < policy.levels.length)
    (hlevel : event.level = policy.levels[i].level) :
    Opened policy (events ++ [event]) j ↔ Opened policy events j ∨ j = i := by
  unfold Opened triggeredLevels
  rw [List.map_append]
  constructor
  · intro h
    obtain ⟨hj, hmem⟩ := h
    rcases List.mem_append.mp hmem with hmem | hmem
    · exact Or.inl ⟨hj, hmem⟩
    · have hsame : policy.levels[j].level = policy.levels[i].level := by
        rw [← hlevel]
        simpa using hmem
      refine Or.inr ?_
      rw [← place_getElem h hj, hsame, place_getElem h hi]
  · rintro (⟨hj, hmem⟩ | rfl)
    · exact ⟨hj, List.mem_append_left _ hmem⟩
    · refine ⟨hi, List.mem_append_right _ ?_⟩
      simp [hlevel]

/-- The events, as long as they climb, are those of the levels that were the furthest reached. -/
def Furthest (policy : EscalationPolicy) (createdAt : Int) (events : List EscalationEvent)
    (times : List Int) : Prop :=
  ∀ i, Opened policy events i ↔ ∃ t ∈ times, reached policy createdAt t = i + 1

theorem climbs_append {events : List EscalationEvent} {event : EscalationEvent} :
    Climbs policy (events ++ [event]) ↔ Climbs policy events ∧
      ∀ e ∈ events, place policy e.level < place policy event.level := by
  unfold Climbs
  rw [List.map_append, List.pairwise_append]
  simp

/-- An event is of a level of the policy. -/
def OfPolicy (policy : EscalationPolicy) (events : List EscalationEvent) : Prop :=
  ∀ e ∈ events, ∃ i, ∃ hi : i < policy.levels.length, e.level = policy.levels[i].level

/-- The events are below a place exactly when the places with an event are. -/
theorem forall_place_lt_iff (h : Ascending policy) {events : List EscalationEvent}
    (hof : OfPolicy policy events) {n : Nat} :
    (∀ e ∈ events, place policy e.level < n) ↔ ∀ i, Opened policy events i → i < n := by
  constructor
  · intro hplaces i h
    obtain ⟨hi, hmem⟩ := h
    obtain ⟨e, he, hlevel⟩ := List.mem_map.mp hmem
    have hlt := hplaces e he
    rwa [hlevel, place_getElem h hi] at hlt
  · intro hopened e he
    obtain ⟨i, hi, hlevel⟩ := hof e he
    rw [hlevel, place_getElem h hi]
    refine hopened i ⟨hi, ?_⟩
    rw [← hlevel]
    exact List.mem_map_of_mem he

/-- What holds of the sweeps so far, by induction on the last one. -/
structure Swept (policy : EscalationPolicy) (createdAt : Int) (events : List EscalationEvent)
    (times : List Int) : Prop where
  ofPolicy : OfPolicy policy events
  climbs_iff : Climbs policy events ↔ InStep policy createdAt times
  furthest : Climbs policy events → Furthest policy createdAt events times

theorem inStep_concat {times : List Int} : InStep policy createdAt (times ++ [now]) ↔
    InStep policy createdAt times ∧
      ((∀ t ∈ times, reached policy createdAt t < reached policy createdAt now) ∨
        ∀ level, 0 < level → level ≤ reached policy createdAt now →
          ∃ t ∈ times, reached policy createdAt t = level) := by
  unfold InStep
  constructor
  · intro h
    refine ⟨fun before t hprefix => h before t ?_, h times now (List.prefix_refl _)⟩
    exact hprefix.trans (List.prefix_append _ _)
  · rintro ⟨hbefore, hlast⟩ before t hprefix
    rcases List.prefix_concat_iff.mp hprefix with heq | hprefix
    · obtain ⟨rfl, hsame⟩ := List.append_inj' heq rfl
      cases hsame
      exact hlast
    · exact hbefore before t hprefix

/-- A sweep that opens nothing leaves everything as it was. -/
theorem Swept.of_none {events : List EscalationEvent} {times : List Int}
    (hswept : Swept policy createdAt events times)
    (hall : ∀ i < reached policy createdAt now, Opened policy events i) :
    Swept policy createdAt events (times ++ [now]) := by
  have hfurthest : Climbs policy events → Furthest policy createdAt events (times ++ [now]) := by
    intro hclimbs i
    rw [hswept.furthest hclimbs i]
    constructor
    · intro h
      obtain ⟨t, ht, hreached⟩ := h
      exact ⟨t, List.mem_append_left _ ht, hreached⟩
    · intro h
      obtain ⟨t, ht, hreached⟩ := h
      rcases List.mem_append.mp ht with ht | ht
      · exact ⟨t, ht, hreached⟩
      · obtain rfl := List.mem_singleton.mp ht
        exact (hswept.furthest hclimbs i).mp (hall i (by omega))
  refine ⟨hswept.ofPolicy, ?_, hfurthest⟩
  rw [inStep_concat, hswept.climbs_iff]
  constructor
  · intro hstep
    refine ⟨hstep, Or.inr ?_⟩
    intro level hpos hle
    have hopened := hall (level - 1) (by omega)
    obtain ⟨t, ht, hreached⟩ := (hswept.furthest (hswept.climbs_iff.mpr hstep) _).mp hopened
    exact ⟨t, ht, by omega⟩
  · exact And.left

/-- A sweep that opens the level at a place keeps the order exactly when it is the furthest level
    reached, and no sweep has reached it before. -/
theorem Swept.of_some (h : Ascending policy) {events : List EscalationEvent} {times : List Int}
    (hswept : Swept policy createdAt events times) {event : EscalationEvent} {i : Nat}
    (hi : i < policy.levels.length) (hlevel : event.level = policy.levels[i].level)
    (hreached : i < reached policy createdAt now) (hfree : ¬Opened policy events i)
    (hafter : ∀ j, i < j → j < reached policy createdAt now → Opened policy events j) :
    Swept policy createdAt (events ++ [event]) (times ++ [now]) := by
  have hplace : place policy event.level = i := by rw [hlevel, place_getElem h hi]
  have hclimbs : Climbs policy (events ++ [event]) ↔
      Climbs policy events ∧ ∀ j, Opened policy events j → j < i := by
    rw [climbs_append, hplace, forall_place_lt_iff h hswept.ofPolicy]
  -- the events so far are below the level that is opened exactly when it is a new furthest level
  have hnew : Climbs policy events → ((∀ j, Opened policy events j → j < i) ↔
      ∀ t ∈ times, reached policy createdAt t < reached policy createdAt now) := by
    intro hevents
    have hfurthest := hswept.furthest hevents
    constructor
    · intro hbelow t ht
      by_contra hge
      have hopened : Opened policy events (reached policy createdAt t - 1) :=
        (hfurthest _).mpr ⟨t, ht, by omega⟩
      have hlt := hbelow _ hopened
      omega
    · intro hlower j hopened
      obtain ⟨t, ht, hreachedt⟩ := (hfurthest j).mp hopened
      have hlt := hlower t ht
      by_contra hge
      -- the level at the end of those reached is opened already
      have hne : j ≠ i := fun heq => hfree (heq ▸ hopened)
      have hlast := hafter (reached policy createdAt now - 1) (by omega) (by omega)
      obtain ⟨t', ht', hreachedt'⟩ := (hfurthest _).mp hlast
      have hlt' := hlower t' ht'
      omega
  have hend : Climbs policy (events ++ [event]) → reached policy createdAt now = i + 1 := by
    intro hall
    by_contra hne
    have hopened := hafter (i + 1) (by omega) (by omega)
    have hlt := (hclimbs.mp hall).2 _ hopened
    omega
  constructor
  · intro e he
    rcases List.mem_append.mp he with he | he
    · exact hswept.ofPolicy e he
    · obtain rfl := List.mem_singleton.mp he
      exact ⟨i, hi, hlevel⟩
  · rw [hclimbs, inStep_concat, ← hswept.climbs_iff]
    refine and_congr_right fun hevents => ?_
    rw [hnew hevents]
    refine ⟨Or.inl, ?_⟩
    rintro (hlower | hskipped)
    · exact hlower
    · -- the level opened would have been the furthest reached before
      obtain ⟨t, ht, hreachedt⟩ := hskipped (i + 1) (by omega) (by omega)
      exact absurd ((hswept.furthest hevents i).mpr ⟨t, ht, hreachedt⟩) hfree
  · intro hall j
    have hevents := (hclimbs.mp hall).1
    rw [opened_append h hi hlevel, hswept.furthest hevents j]
    constructor
    · rintro (⟨t, ht, hreachedt⟩ | rfl)
      · exact ⟨t, List.mem_append_left _ ht, hreachedt⟩
      · exact ⟨now, by simp, hend hall⟩
    · intro h
      obtain ⟨t, ht, hreachedt⟩ := h
      rcases List.mem_append.mp ht with ht | ht
      · exact Or.inl ⟨t, ht, hreachedt⟩
      · obtain rfl := List.mem_singleton.mp ht
        have hsame := hend hall
        exact Or.inr (by omega)

theorem swept_sweeps (h : Ascending policy) (decisionId : String) (createdAt : Int)
    (ats : List (Uuid × Int)) :
    Swept policy createdAt (sweeps decisionId policy createdAt ats) (ats.map Prod.snd) := by
  induction ats using List.reverseRecOn with
  | nil =>
    refine ⟨fun e he => (by cases he), ?_, ?_⟩
    · refine iff_of_true List.Pairwise.nil ?_
      intro before now hprefix
      have hlength := hprefix.length_le
      simp at hlength
    · intro _ i
      constructor
      · intro h
        obtain ⟨hi, hmem⟩ := h
        cases hmem
      · intro h
        obtain ⟨t, ht, -⟩ := h
        cases ht
  | append_singleton ats at_ ih =>
    rw [sweeps_concat, List.map_append, List.map_singleton]
    cases hrun : run at_.1 decisionId policy (sweeps decisionId policy createdAt ats) createdAt
        at_.2 with
    | none =>
      rw [Option.toList_none, List.append_nil]
      exact ih.of_none ((run_eq_none_iff h).mp hrun)
    | some event =>
      obtain ⟨i, hi, hlevel, hreached, hfree, hafter⟩ := run_eq_some h hrun
      exact ih.of_some h hi hlevel hreached hfree hafter

/-- Escalation climbs in the order of the policy, and opens no level twice, exactly when each
    sweep reaches a further level than the sweeps before, or no level that they have skipped. -/
theorem climbs_iff (policy : EscalationPolicy) (h : Ascending policy) (decisionId : String)
    (decisionCreatedAt : Int) (ats : List (Uuid × Int)) :
    Climbs policy (sweeps decisionId policy decisionCreatedAt ats) ↔
      InStep policy decisionCreatedAt (ats.map Prod.snd) :=
  (swept_sweeps h decisionId decisionCreatedAt ats).climbs_iff

/-- The policy for critical decisions. -/
def critical : EscalationPolicy where
  severityBand := "Critical"
  levels := [⟨"ENGINEER", 5⟩, ⟨"REGIONAL_MANAGER", 15⟩, ⟨"NATIONAL_NOC", 30⟩]

theorem ascending_critical : Ascending critical := ⟨by decide, by decide⟩

/-- So many minutes, in microseconds. -/
def minutes (n : Nat) : Int := 60000000 * n

/-- Sweeps after six and after sixteen minutes open the first two levels. -/
theorem climbs_in_step :
    Climbs critical (sweeps "INC-ESC" critical 0 [(0, minutes 6), (1, minutes 16)]) := by
  refine (climbs_iff critical ascending_critical "INC-ESC" 0 _).mpr ?_
  have hfirst : reached critical 0 (minutes 6) = 1 := by decide +kernel
  have hsecond : reached critical 0 (minutes 16) = 2 := by decide +kernel
  intro before now hprefix
  refine Or.inl fun t ht => ?_
  match before with
  | [] => cases ht
  | [_] =>
    simp only [List.map_cons, List.map_nil, List.singleton_append, List.cons_prefix_cons] at hprefix
    obtain ⟨rfl, rfl, -⟩ := hprefix
    obtain rfl := List.mem_singleton.mp ht
    omega
  | _ :: _ :: _ =>
    have hlength := hprefix.length_le
    simp at hlength

/-- Two sweeps after twenty minutes: the second opens the level below the first. -/
theorem escalation_falls_back :
    ¬∀ (policy : EscalationPolicy) (decisionId : String) (decisionCreatedAt : Int)
      (ats : List (Uuid × Int)), Ascending policy → (ats.map Prod.snd).Pairwise (· ≤ ·) →
      Climbs policy (sweeps decisionId policy decisionCreatedAt ats) := by
  intro h
  have hclimbs := h critical "INC-ESC" 0 [(0, minutes 20), (1, minutes 20)] ascending_critical
    (by decide)
  have hplaces : (sweeps "INC-ESC" critical 0 [(0, minutes 20), (1, minutes 20)]).map
      (fun event => place critical event.level) = [1, 0] := by decide +kernel
  unfold Climbs at hclimbs
  rw [hplaces] at hclimbs
  revert hclimbs
  decide

end EscalationSweep

/-! ## Acknowledgement -/

namespace EscalationCall

open InMemoryEscalationRepository (init events listByDecision)

/-! ### What a call does to the events of a decision -/

/-- A sweep opens nothing when every level whose timeout is over has an event. -/
theorem opened_eq_none_iff {decisionId : String} {policy : EscalationPolicy}
    {decisionCreatedAt now : Int} {store : EscalationStore} :
    opened decisionId policy decisionCreatedAt now store = none ↔
      ∀ levelDef ∈ policy.levels, EscalationSweep.elapsed decisionCreatedAt now levelDef = true →
        ∃ event ∈ events decisionId store, event.level = levelDef.level := by
  unfold opened EscalationSweep.run EscalationSweep.nextLevel
  rw [Option.map_eq_none_iff, PyList.foldl_keep_eq_none_iff (p := fun levelDef =>
    EscalationSweep.elapsed decisionCreatedAt now levelDef &&
      !(EscalationSweep.triggeredLevels (events decisionId store)).contains levelDef.level)]
  refine forall₂_congr fun levelDef _ => ?_
  cases EscalationSweep.elapsed decisionCreatedAt now levelDef with
  | false => simp
  | true => simp [EscalationSweep.triggeredLevels]

/-- The event that a sweep opens is one of the decision it sweeps. -/
theorem decisionId_of_opened {decisionId : String} {policy : EscalationPolicy}
    {decisionCreatedAt now : Int} {store : EscalationStore} {event : EscalationEvent}
    (h : opened decisionId policy decisionCreatedAt now store = some event) :
    event.decisionId = decisionId := by
  unfold opened EscalationSweep.run at h
  obtain ⟨nextLevel, -, rfl⟩ := Option.map_eq_some_iff.mp h
  rfl

/-- An acknowledgement leaves the lists of events alone. -/
theorem listByDecision_acknowledge (ref : EscalationEventRef) (acknowledgedBy : String) (now : Int)
    (store : EscalationStore) (decisionId : String) :
    listByDecision decisionId ((acknowledge ref acknowledgedBy now).exec store) =
      listByDecision decisionId store := by
  simp only [exec]
  split
  · rfl
  · rfl

/-- A sweep adds the event that it opens to the list of its decision. -/
theorem listByDecision_sweep (swept : String) (policy : EscalationPolicy)
    (decisionCreatedAt now : Int) (store : EscalationStore) (decisionId : String) :
    listByDecision decisionId ((sweep swept policy decisionCreatedAt now).exec store) =
      listByDecision decisionId store ++
        if decisionId = swept ∧ (opened swept policy decisionCreatedAt now store).isSome then
          [store.nextRef] else [] := by
  cases hopened : opened swept policy decisionCreatedAt now store with
  | none => simp [exec, hopened]
  | some event =>
    have hdecision := decisionId_of_opened hopened
    simp only [exec, hopened, InMemoryEscalationRepository.save, listByDecision, hdecision,
      Option.isSome_some, and_true]
    by_cases hsame : decisionId = swept
    · subst hsame
      rw [Dict.get?_set_self, if_pos rfl, Option.getD_some]
    · rw [Dict.get?_set_of_ne _ _ (Ne.symm hsame), if_neg hsame, List.append_nil]

/-- The list of a decision only grows at its end. -/
theorem listByDecision_prefix_exec (call : EscalationCall) (store : EscalationStore)
    (decisionId : String) :
    listByDecision decisionId store <+: listByDecision decisionId (call.exec store) := by
  cases call with
  | sweep swept policy decisionCreatedAt now =>
    rw [listByDecision_sweep]
    exact List.prefix_append _ _
  | acknowledge ref acknowledgedBy now =>
    rw [listByDecision_acknowledge]

theorem runAll_append (calls rest : List EscalationCall) (store : EscalationStore) :
    runAll (calls ++ rest) store = runAll rest (runAll calls store) :=
  List.foldl_append ..

theorem listByDecision_prefix_runAll (calls : List EscalationCall) (store : EscalationStore)
    (decisionId : String) :
    listByDecision decisionId store <+: listByDecision decisionId (runAll calls store) := by
  induction calls generalizing store with
  | nil => exact List.prefix_refl _
  | cons call rest ih => exact (listByDecision_prefix_exec call store decisionId).trans (ih _)

/-! ### Runs -/

/-- Some event of the decision is acknowledged. -/
def Acknowledged (decisionId : String) (store : EscalationStore) : Prop :=
  ∃ event ∈ events decisionId store, event.acknowledgedAt.isSome = true

/-- From when some event of a decision is acknowledged on, no event is opened for it. -/
def AcknowledgementStops (calls : List EscalationCall) : Prop :=
  ∀ decisionId before after, calls = before ++ after →
    Acknowledged decisionId (runAll before init) →
    listByDecision decisionId (runAll calls init) =
      listByDecision decisionId (runAll before init)

/-- Each sweep of a decision after an acknowledgement finds an event for every level whose
    timeout is over. -/
def NoneOverdue (calls : List EscalationCall) : Prop :=
  ∀ decisionId policy decisionCreatedAt now before middle after,
    calls = before ++ middle ++ sweep decisionId policy decisionCreatedAt now :: after →
    Acknowledged decisionId (runAll before init) →
    ∀ levelDef ∈ policy.levels, EscalationSweep.elapsed decisionCreatedAt now levelDef = true →
      ∃ event ∈ events decisionId (runAll (before ++ middle) init), event.level = levelDef.level

/-- Acknowledgement stops escalation exactly when no sweep after one finds a level overdue: the
    sweep itself does not look at the acknowledgements. -/
theorem acknowledgement_stops_iff (calls : List EscalationCall) :
    AcknowledgementStops calls ↔ NoneOverdue calls := by
  constructor
  · intro h decisionId policy decisionCreatedAt now before middle after heq hacknowledged
    rw [← opened_eq_none_iff]
    -- what the sweep opens would still be there at the end
    have hend := h decisionId before (middle ++ sweep decisionId policy decisionCreatedAt now :: after)
      (by rw [heq, List.append_assoc]) hacknowledged
    have hbefore := (listByDecision_prefix_runAll middle (runAll before init) decisionId).length_le
    rw [heq, runAll_append] at hend
    have hafter := (listByDecision_prefix_runAll after ((sweep decisionId policy decisionCreatedAt
      now).exec (runAll (before ++ middle) init)) decisionId).length_le
    have hsweep := listByDecision_sweep decisionId policy decisionCreatedAt now
      (runAll (before ++ middle) init) decisionId
    rw [runAll_append] at hend hafter hsweep ⊢
    cases hopened : opened decisionId policy decisionCreatedAt now
        (runAll middle (runAll before init)) with
    | none => rfl
    | some event =>
      rw [hopened, if_pos ⟨rfl, rfl⟩] at hsweep
      have hlength := congrArg List.length hsweep
      have hsame := congrArg List.length hend
      have hstep : runAll (sweep decisionId policy decisionCreatedAt now :: after)
          (runAll middle (runAll before init)) = runAll after
            ((sweep decisionId policy decisionCreatedAt now).exec
              (runAll middle (runAll before init))) := rfl
      rw [hstep] at hsame
      simp only [List.length_append, List.length_singleton] at hlength
      omega
  · intro h decisionId before after heq hacknowledged
    subst heq
    induction after using List.reverseRecOn with
    | nil => rw [List.append_nil]
    | append_singleton middle call ih =>
      -- no call after the acknowledgement adds an event
      have hbefore : NoneOverdue (before ++ middle) := by
        intro decisionId policy decisionCreatedAt now before' middle' after' heq
        exact h decisionId policy decisionCreatedAt now before' middle' (after' ++ [call])
          (by rw [← List.append_assoc, heq]; simp)
      rw [← ih hbefore, ← List.append_assoc, runAll_append]
      show listByDecision decisionId (call.exec (runAll (before ++ middle) init)) = _
      cases call with
      | acknowledge ref acknowledgedBy now => exact listByDecision_acknowledge ..
      | sweep swept policy decisionCreatedAt now =>
        rw [listByDecision_sweep, if_neg, List.append_nil]
        intro h
        obtain ⟨rfl, hopened⟩ := h
        have hnone := h decisionId policy decisionCreatedAt now before middle [] (by simp)
          hacknowledged
        rw [opened_eq_none_iff.mpr hnone] at hopened
        cases hopened

/-- The first level is acknowledged, and the next one's timeout is over. -/
theorem acknowledged_escalates : ¬∀ calls, AcknowledgementStops calls := by
  intro h
  have hstops := h [sweep "INC-ESC" EscalationSweep.critical 0 (EscalationSweep.minutes 6),
    acknowledge 0 "operator" (EscalationSweep.minutes 7),
    sweep "INC-ESC" EscalationSweep.critical 0 (EscalationSweep.minutes 20)] "INC-ESC"
    [sweep "INC-ESC" EscalationSweep.critical 0 (EscalationSweep.minutes 6),
      acknowledge 0 "operator" (EscalationSweep.minutes 7)]
    [sweep "INC-ESC" EscalationSweep.critical 0 (EscalationSweep.minutes 20)] rfl ?_
  · revert hstops
    decide +kernel
  · exact List.any_eq_true.mp (by decide +kernel)

end EscalationCall

end PulseGuard
