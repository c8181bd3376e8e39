import PulseGuard.ForStd.Except
import PulseGuard.Native.SlaBreachSweep

/-!
# The SLA sweep fires once

What a sweep does to the decisions it is handed (`run_apply`), and when a sequence of sweeps
raises each decision by at most one level, in time and not while its clock is paused. The sweep
keeps no note of the decisions it has raised and does not look at `pauseSLAClock`, so that is
so exactly when no sweep finds a decision due that was raised before or is paused
(`fires_once_iff`).
-/

namespace PulseGuard

namespace SlaBreachSweep

variable {sweep : SlaBreachSweep}

/-! ## One decision -/

/-- The sweep raises the decision when it comes to it: unresolved, with a target whose
    threshold is reached, and on the scale below its top. -/
structure Due (sweep : SlaBreachSweep) (now : Int) (decision : DecisionRecord) (level : Nat) :
    Prop where
  unresolved : decision.resolved = false
  target : (targetSla decision).truthy = true
  reached : sweep.thresholdReached now decision = .ok true
  onScale : severityIndex decision.priority = some level
  below : level + 1 < severityOrder.length

/-- `actions["pauseSLAClock"]` is true. -/
def ClockPaused (decision : DecisionRecord) : Prop :=
  ((decision.actions.get? "pauseSLAClock").getD .none).truthy = true

/-- The priority at a level of the scale. -/
def severityAt (level : Nat) : PyVal := .str (severityOrder[level]?.getD "Critical")

theorem severityIndex_eq_some_iff {priority : PyVal} {level : Nat} :
    severityIndex priority = some level ↔
      level < severityOrder.length ∧ priority = severityAt level := by
  unfold severityIndex
  constructor
  · intro h
    cases priority with
    | str s =>
      obtain ⟨hlt, hs, -⟩ := List.idxOf?_eq_some_iff.mp h
      refine ⟨hlt, ?_⟩
      rw [severityAt, List.getElem?_eq_getElem hlt, Option.getD_some, hs]
    | _ => cases h
  · intro h
    obtain ⟨hlt, rfl⟩ := h
    have hlevel : level = 0 ∨ level = 1 ∨ level = 2 ∨ level = 3 := by
      have : level < 4 := hlt
      omega
    rcases hlevel with rfl | rfl | rfl | rfl <;> rfl

/-- A priority on the scale is true. -/
theorem truthy_of_severityIndex {priority : PyVal} {level : Nat}
    (h : severityIndex priority = some level) : priority.truthy = true := by
  obtain ⟨hlt, rfl⟩ := severityIndex_eq_some_iff.mp h
  have hlevel : level = 0 ∨ level = 1 ∨ level = 2 ∨ level = 3 := by
    have : level < 4 := hlt
    omega
  rcases hlevel with rfl | rfl | rfl | rfl <;> decide

/-- What the body of the loop does. -/
theorem check_eq_some_iff {now : Int} {decision decision' : DecisionRecord} :
    sweep.check now decision = .ok (some decision') ↔
      ∃ level, Due sweep now decision level ∧
        decision' = raised decision (severityAt (level + 1)) := by
  unfold check
  constructor
  · intro h
    by_cases hskip : (decision.resolved || !decision.priority.truthy) = true
    · rw [if_pos hskip] at h
      cases h
    rw [if_neg hskip] at h
    by_cases htarget : (!(targetSla decision).truthy) = true
    · rw [if_pos htarget] at h
      cases h
    rw [if_neg htarget] at h
    obtain ⟨reached, hreached, h⟩ := Except.bind_ok_iff.mp h
    cases reached with
    | false => cases h
    | true =>
      simp only [Bool.not_true, Bool.false_eq_true, if_false] at h
      cases hlevel : severityIndex decision.priority with
      | none =>
        rw [hlevel] at h
        cases h
      | some level =>
        rw [hlevel] at h
        simp only at h
        cases hnext : severityOrder[level + 1]? with
        | none =>
          rw [hnext] at h
          cases h
        | some priority =>
          rw [hnext] at h
          cases h
          have hbelow := (List.getElem?_eq_some_iff.mp hnext).1
          simp only [Bool.or_eq_true, not_or, Bool.not_eq_true] at hskip
          refine ⟨level, ⟨hskip.1, by simpa using htarget, hreached, hlevel, hbelow⟩, ?_⟩
          rw [severityAt, hnext, Option.getD_some]
  · intro h
    obtain ⟨level, hdue, rfl⟩ := h
    have hnext := List.getElem?_eq_getElem hdue.below
    simp only [hdue.unresolved, truthy_of_severityIndex hdue.onScale, hdue.target, hdue.reached,
      hdue.onScale, hnext, severityAt, Option.getD_some]
    rfl

/-! ## One sweep -/

/-- The loop comes to a decision: no decision before it in the list makes it raise. -/
def Reaches (sweep : SlaBreachSweep) (now : Int) (openDecisions : List DecisionRef)
    (objects : DecisionRef → DecisionRecord) (ref : DecisionRef) : Prop :=
  ∃ before after, openDecisions = before ++ ref :: after ∧
    ∀ r ∈ before, (sweep.check now (objects r)).isOk = true

/-- The sweep comes to a decision that is due. -/
def ReachesDue (sweep : SlaBreachSweep) (now : Int) (openDecisions : List DecisionRef)
    (objects : DecisionRef → DecisionRecord) (ref : DecisionRef) (level : Nat) : Prop :=
  Reaches sweep now openDecisions objects ref ∧ Due sweep now (objects ref) level

theorem reaches_cons {now : Int} {head ref : DecisionRef} {rest : List DecisionRef}
    {objects : DecisionRef → DecisionRecord} :
    Reaches sweep now (head :: rest) objects ref ↔
      ref = head ∨ (sweep.check now (objects head)).isOk = true ∧
        Reaches sweep now rest objects ref := by
  constructor
  · intro h
    obtain ⟨before, after, heq, hbefore⟩ := h
    cases before with
    | nil =>
      cases heq
      exact Or.inl rfl
    | cons b before =>
      cases heq
      refine Or.inr ⟨hbefore _ List.mem_cons_self, before, after, rfl, ?_⟩
      intro r hr
      exact hbefore r (List.mem_cons_of_mem _ hr)
  · rintro (rfl | ⟨hhead, before, after, rfl, hbefore⟩)
    · exact ⟨[], rest, rfl, by simp⟩
    · refine ⟨head :: before, after, rfl, ?_⟩
      intro r hr
      rcases List.mem_cons.mp hr with rfl | hr
      · exact hhead
      · exact hbefore r hr

theorem Reaches.mem {now : Int} {ref : DecisionRef} {openDecisions : List DecisionRef}
    {objects : DecisionRef → DecisionRecord}
    (h : Reaches sweep now openDecisions objects ref) : ref ∈ openDecisions := by
  obtain ⟨before, after, rfl, -⟩ := h
  simp

/-- What the loop comes to depends on the decisions of the list alone. -/
theorem reaches_congr {now : Int} {ref : DecisionRef} {openDecisions : List DecisionRef}
    {objects objects' : DecisionRef → DecisionRecord}
    (h : ∀ r ∈ openDecisions, objects r = objects' r) :
    Reaches sweep now openDecisions objects ref ↔ Reaches sweep now openDecisions objects' ref := by
  have hcheck : ∀ before after, openDecisions = before ++ ref :: after → ∀ r ∈ before,
      objects r = objects' r := by
    rintro before after rfl r hr
    exact h r (List.mem_append_left _ hr)
  constructor
  · intro h
    obtain ⟨before, after, heq, hbefore⟩ := h
    refine ⟨before, after, heq, ?_⟩
    intro r hr
    rw [← hcheck before after heq r hr]
    exact hbefore r hr
  · intro h
    obtain ⟨before, after, heq, hbefore⟩ := h
    refine ⟨before, after, heq, ?_⟩
    intro r hr
    rw [hcheck before after heq r hr]
    exact hbefore r hr

/-- What a sweep of distinct decisions does: it raises those it finds due when it comes to them,
    and no other. -/
theorem run_apply (sweep : SlaBreachSweep) (now : Int) {openDecisions : List DecisionRef} (hnodup : openDecisions.Nodup)
    (objects : DecisionRef → DecisionRecord) (ref : DecisionRef) :
    (∃ level, ReachesDue sweep now openDecisions objects ref level ∧
      (sweep.run now openDecisions objects).2 ref =
        raised (objects ref) (severityAt (level + 1))) ∨
    (∀ level, ¬ReachesDue sweep now openDecisions objects ref level) ∧
      (sweep.run now openDecisions objects).2 ref = objects ref := by
  induction openDecisions generalizing objects with
  | nil =>
    refine Or.inr ⟨?_, rfl⟩
    intro level h
    obtain ⟨hreaches, -⟩ := h
    cases hreaches.mem
  | cons head rest ih =>
    obtain ⟨hhead, hrest⟩ := List.nodup_cons.mp hnodup
    rw [run]
    cases hcheck : sweep.check now (objects head) with
    | error e =>
      refine Or.inr ⟨?_, rfl⟩
      intro level h
      obtain ⟨hreaches, hdue⟩ := h
      rcases reaches_cons.mp hreaches with rfl | ⟨hok, -⟩
      · rw [check_eq_some_iff.mpr ⟨level, hdue, rfl⟩] at hcheck
        cases hcheck
      · rw [hcheck] at hok
        cases hok
    | ok result =>
      have hok : (sweep.check now (objects head)).isOk = true := by rw [hcheck]; rfl
      -- the rest of the list is handed decisions that differ at most at its head
      have hfrom : ∀ objects', (∀ r ∈ rest, objects' r = objects r) → ref ≠ head →
          ∀ level, ReachesDue sweep now rest objects' ref level ↔
            ReachesDue sweep now (head :: rest) objects ref level := by
        intro objects' hsame hne level
        constructor
        · intro h
          obtain ⟨hreaches, hdue⟩ := h
          refine ⟨reaches_cons.mpr (Or.inr ⟨hok, (reaches_congr hsame).mp hreaches⟩), ?_⟩
          rw [← hsame ref hreaches.mem]
          exact hdue
        · intro h
          obtain ⟨hreaches, hdue⟩ := h
          rcases reaches_cons.mp hreaches with rfl | ⟨-, hreaches⟩
          · exact absurd rfl hne
          · refine ⟨(reaches_congr hsame).mpr hreaches, ?_⟩
            rw [hsame ref hreaches.mem]
            exact hdue
      by_cases href : ref = head
      · subst href
        have hnot : ∀ objects' level, ¬ReachesDue sweep now rest objects' ref level := by
          intro objects' level h
          obtain ⟨hreaches, -⟩ := h
          exact hhead hreaches.mem
        have hstay : ∀ objects', (sweep.run now rest objects').2 ref = objects' ref := by
          intro objects'
          rcases ih hrest objects' with ⟨level, hreaches, -⟩ | ⟨-, hsame⟩
          · exact absurd hreaches (hnot objects' level)
          · exact hsame
        cases result with
        | none =>
          refine Or.inr ⟨?_, hstay objects⟩
          intro level h
          obtain ⟨-, hdue⟩ := h
          rw [check_eq_some_iff.mpr ⟨level, hdue, rfl⟩] at hcheck
          cases hcheck
        | some decision =>
          obtain ⟨level, hdue, hraised⟩ := check_eq_some_iff.mp hcheck
          refine Or.inl ⟨level, ⟨reaches_cons.mpr (Or.inl rfl), hdue⟩, ?_⟩
          rw [← hraised]
          exact (hstay (Function.update objects ref decision)).trans (Function.update_self ..)
      · cases result with
        | none =>
          have hiff := hfrom objects (fun _ _ => rfl) href
          rcases ih hrest objects with ⟨level, hreaches, hraised⟩ | ⟨hno, hsame⟩
          · exact Or.inl ⟨level, (hiff level).mp hreaches, hraised⟩
          · refine Or.inr ⟨?_, hsame⟩
            intro level hreaches
            exact hno level ((hiff level).mpr hreaches)
        | some decision =>
          have hother : ∀ r, r ≠ head → Function.update objects head decision r = objects r :=
            fun r hr => Function.update_of_ne hr ..
          have hiff := hfrom (Function.update objects head decision)
            (fun r hr => hother r fun heq => hhead (heq ▸ hr)) href
          rcases ih hrest (Function.update objects head decision) with
            ⟨level, hreaches, hraised⟩ | ⟨hno, hsame⟩
          · refine Or.inl ⟨level, (hiff level).mp hreaches, ?_⟩
            rw [hother ref href] at hraised
            exact hraised
          · refine Or.inr ⟨?_, ?_⟩
            · intro level hreaches
              exact hno level ((hiff level).mpr hreaches)
            · rw [hother ref href] at hsame
              exact hsame

/-! ## Sequences of sweeps -/

/-- What happens to the decisions: a sweep over some of them, or one is resolved. -/
inductive SweepEvent where
  | run (now : Int) (openDecisions : List DecisionRef)
  | resolve (ref : DecisionRef)

namespace SweepEvent

/-- The decisions after an event. -/
def exec (sweep : SlaBreachSweep) :
    SweepEvent → (DecisionRef → DecisionRecord) → DecisionRef → DecisionRecord
  | run now openDecisions, objects => (sweep.run now openDecisions objects).2
  | resolve ref, objects => Function.update objects ref { objects ref with resolved := true }

/-- A sweep is handed a set of decisions. -/
def Distinct : SweepEvent → Prop
  | run _ openDecisions => openDecisions.Nodup
  | resolve _ => True

/-- The time of a sweep. -/
def time? : SweepEvent → Option Int
  | run now _ => some now
  | resolve _ => none

end SweepEvent

/-- The decisions after a sequence of events. -/
def runEvents (sweep : SlaBreachSweep) (events : List SweepEvent)
    (objects : DecisionRef → DecisionRecord) : DecisionRef → DecisionRecord :=
  events.foldl (fun objects event => event.exec sweep objects) objects

theorem runEvents_append (events more : List SweepEvent) (objects : DecisionRef → DecisionRecord) :
    runEvents sweep (events ++ more) objects = runEvents sweep more (runEvents sweep events objects) :=
  List.foldl_append ..

/-- A priority one level above another. -/
def OneLevelUp (before after : PyVal) : Prop :=
  ∃ level, severityIndex before = some level ∧ severityIndex after = some (level + 1)

/-- A priority that is another or above it on the scale. -/
def AtLeast (before after : PyVal) : Prop :=
  after = before ∨
    ∃ level level', severityIndex before = some level ∧ severityIndex after = some level' ∧
      level < level'

theorem AtLeast.trans {p q r : PyVal} (h : AtLeast p q) (h' : AtLeast q r) : AtLeast p r := by
  rcases h with rfl | ⟨i, j, hi, hj, hij⟩
  · exact h'
  · rcases h' with rfl | ⟨j', k, hj', hk, hjk⟩
    · exact Or.inr ⟨i, j, hi, hj, hij⟩
    · have heq : j = j' := Option.some.inj (hj.symm.trans hj')
      exact Or.inr ⟨i, k, hi, hk, by omega⟩

/-- Each decision is raised by at most one level, and only by a sweep that finds it unresolved,
    at its threshold and with its clock running. -/
structure FiresOnce (sweep : SlaBreachSweep) (events : List SweepEvent)
    (objects : DecisionRef → DecisionRecord) : Prop where
  once : ∀ ref, (runEvents sweep events objects ref).priority = (objects ref).priority ∨
    OneLevelUp (objects ref).priority (runEvents sweep events objects ref).priority
  timely : ∀ before now openDecisions after, events = before ++ .run now openDecisions :: after →
    ∀ ref, let decision := runEvents sweep before objects ref
      (runEvents sweep (before ++ [.run now openDecisions]) objects ref).priority
        ≠ decision.priority →
      decision.resolved = false ∧ sweep.thresholdReached now decision = .ok true ∧
        ¬ClockPaused decision

/-- No sweep comes to a decision that is due, but was raised before or has its clock paused. -/
def DueOnce (sweep : SlaBreachSweep) (events : List SweepEvent)
    (objects : DecisionRef → DecisionRecord) : Prop :=
  ∀ before now openDecisions after, events = before ++ .run now openDecisions :: after →
    ∀ ref level, ReachesDue sweep now openDecisions (runEvents sweep before objects) ref level →
      (runEvents sweep before objects ref).priority = (objects ref).priority ∧
        ¬ClockPaused (runEvents sweep before objects ref)

/-- What one event does to the priority of a decision. -/
theorem exec_priority (sweep : SlaBreachSweep) {event : SweepEvent} (hdistinct : event.Distinct)
    (objects : DecisionRef → DecisionRecord) (ref : DecisionRef) :
    (event.exec sweep objects ref).priority = (objects ref).priority ∨
    ∃ now openDecisions level, event = .run now openDecisions ∧
      ReachesDue sweep now openDecisions objects ref level ∧
      (event.exec sweep objects ref).priority = severityAt (level + 1) := by
  cases event with
  | run now openDecisions =>
    rcases run_apply sweep now hdistinct objects ref with ⟨level, hreaches, hraised⟩ | ⟨-, hsame⟩
    · refine Or.inr ⟨now, openDecisions, level, rfl, hreaches, ?_⟩
      rw [SweepEvent.exec, hraised]
      rfl
    · refine Or.inl ?_
      rw [SweepEvent.exec, hsame]
  | resolve r =>
    refine Or.inl ?_
    rw [SweepEvent.exec]
    by_cases hr : ref = r
    · subst hr
      rw [Function.update_self]
    · rw [Function.update_of_ne hr]

/-- A sweep that raises a decision takes its priority one level up. -/
theorem Due.oneLevelUp {now : Int} {decision : DecisionRecord} {level : Nat}
    (h : Due sweep now decision level) : OneLevelUp decision.priority (severityAt (level + 1)) :=
  ⟨level, h.onScale, severityIndex_eq_some_iff.mpr ⟨h.below, rfl⟩⟩

/-- A sweep that raises a decision changes its priority. -/
theorem Due.priority_ne {now : Int} {decision : DecisionRecord} {level : Nat}
    (h : Due sweep now decision level) : severityAt (level + 1) ≠ decision.priority := by
  obtain ⟨level', hbefore, hafter⟩ := h.oneLevelUp
  intro heq
  rw [heq, hbefore] at hafter
  have : level' = level' + 1 := Option.some.inj hafter
  omega

theorem atLeast_exec (sweep : SlaBreachSweep) {event : SweepEvent} (hdistinct : event.Distinct)
    (objects : DecisionRef → DecisionRecord) (ref : DecisionRef) :
    AtLeast (objects ref).priority (event.exec sweep objects ref).priority := by
  rcases exec_priority sweep hdistinct objects ref with hsame | ⟨now, _, level, -, ⟨-, hdue⟩, hraised⟩
  · exact Or.inl hsame
  · obtain ⟨level', hbefore, hafter⟩ := hdue.oneLevelUp
    rw [hraised]
    exact Or.inr ⟨level', level' + 1, hbefore, hafter, by omega⟩

/-- No priority ever falls. -/
theorem atLeast_runEvents (sweep : SlaBreachSweep) {events : List SweepEvent}
    (hdistinct : ∀ event ∈ events, event.Distinct)
    (objects : DecisionRef → DecisionRecord) (ref : DecisionRef) :
    AtLeast (objects ref).priority (runEvents sweep events objects ref).priority := by
  induction events generalizing objects with
  | nil => exact Or.inl rfl
  | cons event events ih =>
    have hhead := atLeast_exec sweep (hdistinct event List.mem_cons_self) objects ref
    exact hhead.trans (ih (fun e he => hdistinct e (List.mem_cons_of_mem _ he)) _)

/-- When no sweep comes to a decision that was raised before, each is raised at most once. -/
theorem once_of_dueOnce {events : List SweepEvent} (hdistinct : ∀ event ∈ events, event.Distinct)
    {objects : DecisionRef → DecisionRecord} (h : DueOnce sweep events objects)
    (ref : DecisionRef) :
    (runEvents sweep events objects ref).priority = (objects ref).priority ∨
      OneLevelUp (objects ref).priority (runEvents sweep events objects ref).priority := by
  induction events using List.reverseRecOn with
  | nil => exact Or.inl rfl
  | append_singleton events event ih =>
    have hbefore : DueOnce sweep events objects := by
      rintro before now openDecisions after rfl
      exact h before now openDecisions (after ++ [event]) (by simp)
    have hold := ih (fun e he => hdistinct e (List.mem_append_left _ he)) hbefore
    rw [runEvents_append]
    rcases exec_priority sweep (hdistinct event (by simp))
        (runEvents sweep events objects) ref with
      hsame | ⟨now, openDecisions, level, rfl, hreaches, hraised⟩
    · rw [show (runEvents sweep [event] (runEvents sweep events objects) ref).priority =
        (runEvents sweep events objects ref).priority from hsame]
      exact hold
    · obtain ⟨hfirst, -⟩ := h events now openDecisions [] rfl ref level hreaches
      refine Or.inr ?_
      rw [show (runEvents sweep [.run now openDecisions] (runEvents sweep events objects) ref).priority
        = severityAt (level + 1) from hraised, ← hfirst]
      exact hreaches.2.oneLevelUp

/-- The sweep fires once: whatever the sets of decisions that the sweeps are handed, their times
    and the resolutions in between, each decision is raised by at most one level, in time and
    with its clock running, if and only if no sweep comes to a decision that is due, but was
    raised before or has its clock paused. -/
theorem fires_once_iff (sweep : SlaBreachSweep) (events : List SweepEvent)
    (hdistinct : ∀ event ∈ events, event.Distinct) (objects : DecisionRef → DecisionRecord) :
    FiresOnce sweep events objects ↔ DueOnce sweep events objects := by
  constructor
  · rintro ⟨honce, htimely⟩ before now openDecisions after rfl ref level hreaches
    have hbefore : ∀ e ∈ before, e.Distinct := fun e he => hdistinct e (by simp [he])
    have hafter : ∀ e ∈ after, e.Distinct := fun e he => hdistinct e (by simp [he])
    -- the sweep raises the decision
    have hraised : (runEvents sweep (before ++ [.run now openDecisions]) objects ref).priority
        = severityAt (level + 1) := by
      rw [runEvents_append]
      rcases run_apply sweep now (hdistinct (.run now openDecisions) (by simp))
          (runEvents sweep before objects) ref with ⟨level', hreaches', hraised⟩ | ⟨hno, -⟩
      · have hlevel : level' = level :=
          Option.some.inj (hreaches'.2.onScale.symm.trans hreaches.2.onScale)
        subst hlevel
        exact congrArg (fun d : DecisionRecord => d.priority) hraised
      · exact absurd hreaches (hno level)
    have hchanged := htimely before now openDecisions after rfl ref
      (by rw [hraised]; exact hreaches.2.priority_ne)
    refine ⟨?_, hchanged.2.2⟩
    -- had it been raised before, it would end two levels above its start
    rcases atLeast_runEvents sweep hbefore objects ref with hsame | ⟨i, j, hi, hj, hij⟩
    · exact hsame
    · have hrest := atLeast_runEvents sweep hafter
        (runEvents sweep (before ++ [.run now openDecisions]) objects) ref
      rw [hraised, ← runEvents_append, List.append_assoc, List.singleton_append] at hrest
      have hj' : j = level := Option.some.inj (hj.symm.trans hreaches.2.onScale)
      have hnext : severityIndex (severityAt (level + 1)) = some (level + 1) :=
        severityIndex_eq_some_iff.mpr ⟨hreaches.2.below, rfl⟩
      have hend : ∃ k, level + 1 ≤ k ∧ severityIndex
          (runEvents sweep (before ++ .run now openDecisions :: after) objects ref).priority
            = some k := by
        rcases hrest with hend | ⟨k, k', hk, hk', hlt⟩
        · rw [hend]
          exact ⟨level + 1, le_refl _, hnext⟩
        · rw [hnext] at hk
          cases hk
          exact ⟨k', by omega, hk'⟩
      obtain ⟨k, hk, hend⟩ := hend
      rcases honce ref with hstart | ⟨i', hi', hend'⟩
      · rw [hstart, hi] at hend
        cases hend
        omega
      · rw [hi] at hi'
        cases hi'
        rw [hend] at hend'
        cases hend'
        omega
  · intro h
    refine ⟨once_of_dueOnce hdistinct h, ?_⟩
    intro before now openDecisions after heq ref decision hchanged
    subst heq
    rw [runEvents_append] at hchanged
    rcases exec_priority sweep (hdistinct (.run now openDecisions) (by simp))
        (runEvents sweep before objects) ref with hsame | ⟨_, _, level, hrun, hreaches, -⟩
    · exact absurd hsame hchanged
    · cases hrun
      exact ⟨hreaches.2.unresolved, hreaches.2.reached,
        (h before now openDecisions after rfl ref level hreaches).2⟩

/-- A decision that is open for an hour, with a target of fifteen minutes. -/
def overdue (priority : String) : DecisionRecord :=
  { InMemoryDecisionRepository.blank with
    incidentId := "INC-SLA"
    priority := .str priority
    actions := Dict.empty.set "targetSLA" (.str "15 minutes") }

/-- The time of an hour, in microseconds. -/
def hour : Int := 3600000000

/-- The sweep with the default threshold. -/
def defaultSweep : SlaBreachSweep where
  thresholdFraction := PyFloat.ofRat (mkRat 8 10)

/-- A sweep over a decision that is due, which is then resolved, and a second sweep. -/
theorem fires_once_resolved :
    FiresOnce defaultSweep [.run hour [0], .resolve 0, .run hour [0]]
      (fun _ => overdue "Medium") := by
  refine (fires_once_iff defaultSweep _ (by simp [SweepEvent.Distinct]) _).mpr ?_
  intro before now openDecisions after heq ref level hreaches
  match before with
  | [] =>
    refine ⟨rfl, ?_⟩
    show ¬ClockPaused (overdue "Medium")
    unfold ClockPaused
    decide
  | [_] => cases heq
  | [_, _] =>
    -- the second sweep finds the decision resolved
    cases heq
    obtain rfl : ref = 0 := List.mem_singleton.mp hreaches.1.mem
    have hresolved := hreaches.2.unresolved
    cases hresolved
  | _ :: _ :: _ :: before => simp at heq

/-- Two sweeps at one time over a decision of medium priority: it ends critical. -/
theorem sweep_fires_twice :
    ¬∀ (sweep : SlaBreachSweep) (events : List SweepEvent) (objects : DecisionRef → DecisionRecord),
      (∀ event ∈ events, event.Distinct) → (events.filterMap SweepEvent.time?).Pairwise (· ≤ ·) →
      FiresOnce sweep events objects := by
  intro h
  have hfires := h defaultSweep [.run hour [0], .run hour [0]] (fun _ => overdue "Medium")
    (by simp [SweepEvent.Distinct]) (by simp [SweepEvent.time?])
  have hindex : severityIndex (runEvents defaultSweep [.run hour [0], .run hour [0]]
      (fun _ => overdue "Medium") 0).priority = some 3 := by decide +kernel
  have hstart : severityIndex (overdue "Medium").priority = some 1 := by decide
  rcases hfires.once 0 with hsame | ⟨level, hbefore, hafter⟩
  · rw [hsame, hstart] at hindex
    cases hindex
  · rw [hstart] at hbefore
    cases hbefore
    rw [hindex] at hafter
    cases hafter

end SlaBreachSweep

end PulseGuard
