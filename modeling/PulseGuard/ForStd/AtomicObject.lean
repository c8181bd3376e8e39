import Mathlib.Data.List.Nodup
import Mathlib.Logic.Function.Basic
import PulseGuard.ForStd.Refinement

/-!
# Atomic objects behind an unreliable network

An object that does one operation after another, and calls of it that overlap. Each call's
operation takes place at one moment between the call and its answer, as long as nothing has
gone wrong; after a fault the answer of a call may be lost, and its operation may then take
place later or never. The histories of calls and answers are the linearizable ones
(`linearizes`): they agree with the operations done in turn, in an order that keeps to real
time.
-/

namespace AtomicObject

open Refinement

/-- What an operation answers and leaves, and the answer that stands for a lost one. -/
structure Object (σ Op ρ : Type) where
  apply : Op → σ → ρ × σ
  lost : Op → ρ

/-- What is seen of the calls. -/
inductive Observation (ι Op ρ : Type) where
  | call (i : ι) (op : Op)
  | ret (i : ι) (answer : ρ)
  | fault

/-- Where a call stands. An operation whose answer was lost may be `late`. -/
inductive Phase (Op ρ : Type) where
  | ready
  | called (op : Op)
  | done (op : Op) (answer : ρ)
  | dropped (op : Op) (late : Bool)
  | returned (op : Op) (late : Bool)

/-- The operations that took place, in turn, where each call stands, and whether there has
    been a fault. -/
structure Config (ι Op ρ : Type) where
  log : List (ι × Op)
  phase : ι → Phase Op ρ
  faulty : Bool

/-- What can happen. -/
inductive Label (ι Op ρ : Type) where
  | call (i : ι) (op : Op)
  | perform (i : ι)
  | drop (i : ι)
  | ret (i : ι) (answer : ρ)
  | fault

variable {σ ι Op ρ : Type}

/-- Nothing has been called. -/
def Config.start : Config ι Op ρ where
  log := []
  phase := fun _ => .ready
  faulty := false

/-- The event of a label, if it is seen. -/
def Label.event : Label ι Op ρ → Option (Observation ι Op ρ)
  | .call i op => some (.call i op)
  | .perform _ => none
  | .drop _ => none
  | .ret i answer => some (.ret i answer)
  | .fault => some .fault

namespace Object

variable (obj : Object σ Op ρ)

/-- The object after some operations. -/
def after (s : σ) (log : List (ι × Op)) : σ := log.foldl (fun s entry => (obj.apply entry.2 s).2) s

@[simp] theorem after_nil (s : σ) : obj.after s ([] : List (ι × Op)) = s := rfl

@[simp] theorem after_concat (s : σ) (log : List (ι × Op)) (entry : ι × Op) :
    obj.after s (log ++ [entry]) = (obj.apply entry.2 (obj.after s log)).2 := by
  simp [after]

/-- The answer of an operation after some others. -/
def answer (s : σ) (log : List (ι × Op)) (op : Op) : ρ := (obj.apply op (obj.after s log)).1

variable [DecidableEq ι]

/-- Where a call stands has changed. -/
def move (x : Config ι Op ρ) (i : ι) (phase : Phase Op ρ) : Config ι Op ρ :=
  { x with phase := Function.update x.phase i phase }

/-- The operation of a call takes place. -/
def perform (x : Config ι Op ρ) (i : ι) (op : Op) (phase : Phase Op ρ) : Config ι Op ρ :=
  { move x i phase with log := x.log ++ [(i, op)] }

/-- The steps of the object and its calls. -/
inductive Step (start : σ) (x : Config ι Op ρ) : Label ι Op ρ → Config ι Op ρ → Prop where
  | call {i : ι} (op : Op) (h : x.phase i = .ready) :
      Step start x (.call i op) (move x i (.called op))
  | perform {i : ι} {op : Op} (h : x.phase i = .called op) :
      Step start x (.perform i) (perform x i op (.done op (obj.answer start x.log op)))
  | drop {i : ι} {op : Op} (hfaulty : x.faulty = true) (h : x.phase i = .called op) :
      Step start x (.drop i) (move x i (.dropped op true))
  | lose {i : ι} {op : Op} {answer : ρ} (hfaulty : x.faulty = true)
      (h : x.phase i = .done op answer) : Step start x (.drop i) (move x i (.dropped op false))
  | late {i : ι} {op : Op} (h : x.phase i = .dropped op true) :
      Step start x (.perform i) (perform x i op (.dropped op false))
  | belated {i : ι} {op : Op} (h : x.phase i = .returned op true) :
      Step start x (.perform i) (perform x i op (.returned op false))
  | ret {i : ι} {op : Op} {answer : ρ} (h : x.phase i = .done op answer) :
      Step start x (.ret i answer) (move x i (.returned op false))
  | giveUp {i : ι} {op : Op} {late : Bool} (h : x.phase i = .dropped op late) :
      Step start x (.ret i (obj.lost op)) (move x i (.returned op late))
  | fault : Step start x .fault { x with faulty := true }

/-- The object and its calls, as a system. -/
def system (start : σ) : System (Config ι Op ρ) (Label ι Op ρ) (Observation ι Op ρ) where
  step := obj.Step start
  seen _ l := l.event

variable {obj} {start : σ} {x y z : Config ι Op ρ} {l l' : Label ι Op ρ} {e : Observation ι Op ρ}

theorem trace_hidden (hstep : obj.Step start x l y) (hhidden : l.event = none) :
    Trace (obj.system start) x [] y := Trace.hidden hstep hhidden

theorem trace_seen (hstep : obj.Step start x l y) (hseen : l.event = some e) :
    Trace (obj.system start) x [e] y := Trace.shown hstep hseen

/-- A fault, and a step that is hidden. -/
theorem trace_fault (hstep : obj.Step start { x with faulty := true } l y)
    (hhidden : l.event = none) : Trace (obj.system start) x [.fault] y :=
  (trace_seen .fault rfl).trans (trace_hidden hstep hhidden)

end Object

/-! ## Linearizability -/

/-- One entry of a list stands before another. -/
def Before {α : Type} (a b : α) (l : List α) : Prop := [a, b].Sublist l

theorem before_concat {α : Type} {a b e : α} {l : List α} :
    Before a b (l ++ [e]) ↔ Before a b l ∨ a ∈ l ∧ b = e := by
  unfold Before
  constructor
  · intro h
    obtain ⟨l₁, l₂, hsplit, hl₁, hl₂⟩ := List.sublist_append_iff.mp h
    -- Either the last event is in neither place, or it is the second one.
    cases List.sublist_singleton.mp hl₂ with
    | inl hnil =>
      left
      rw [hsplit, hnil, List.append_nil]
      exact hl₁
    | inr hlast =>
      right
      rw [hlast] at hsplit
      have hboth : [a] ++ [b] = l₁ ++ [e] := hsplit
      obtain ⟨hfirst, hb⟩ := List.append_inj' hboth rfl
      rw [← hfirst] at hl₁
      exact ⟨List.singleton_sublist.mp hl₁, List.singleton_inj.mp hb⟩
  · intro h
    cases h with
    | inl hold => exact hold.trans (List.sublist_append_left l [e])
    | inr hnew =>
      obtain ⟨ha, rfl⟩ := hnew
      exact (List.singleton_sublist.mpr ha).append (List.Sublist.refl [b])

theorem Before.mem_left {α : Type} {a b : α} {l : List α} (h : Before a b l) : a ∈ l :=
  List.Sublist.subset h List.mem_cons_self

theorem Before.mem_right {α : Type} {a b : α} {l : List α} (h : Before a b l) : b ∈ l :=
  List.Sublist.subset h (List.mem_cons_of_mem _ List.mem_cons_self)

theorem Before.append {α : Type} {a b : α} {l : List α} (h : Before a b l) (l' : List α) :
    Before a b (l ++ l') := List.Sublist.trans h (List.sublist_append_left l l')

theorem before_of_mem {α : Type} {a b : α} {l l' : List α} (h : a ∈ l) : Before a b (l ++ b :: l') :=
  (List.singleton_sublist.mpr h).append (List.singleton_sublist.mpr List.mem_cons_self)

/-- In a list without duplicates, what stands before an entry is among those before its place. -/
theorem Before.mem_earlier {α : Type} {a b : α} {l l' : List α} (h : Before a b (l ++ b :: l'))
    (hnodup : (l ++ b :: l').Nodup) : a ∈ l := by
  induction l with
  | nil =>
    have hb : b ∉ l' := (List.nodup_cons.mp hnodup).1
    cases h with
    | cons _ hrest => exact absurd (Before.mem_right hrest) hb
    | cons_cons _ hrest => exact absurd (List.singleton_sublist.mp hrest) hb
  | cons c l ih =>
    cases h with
    | cons _ hrest => exact List.mem_cons_of_mem c (ih hrest (List.nodup_cons.mp hnodup).2)
    | cons_cons => exact List.mem_cons_self

theorem Before.asymm {α : Type} {a b : α} {l : List α} (hab : Before a b l) (hnodup : l.Nodup) :
    ¬ Before b a l := by
  intro hba
  obtain ⟨l₁, l₂, rfl⟩ := List.append_of_mem hab.mem_right
  have ha : a ∈ l₁ := hab.mem_earlier hnodup
  obtain ⟨l₃, l₄, rfl⟩ := List.append_of_mem ha
  rw [List.append_assoc, List.cons_append] at hba hnodup
  have hb : b ∈ l₃ := hba.mem_earlier hnodup
  exact List.disjoint_of_nodup_append hnodup hb (by simp)

variable (obj : Object σ Op ρ) (start : σ)

/-- The operation of a call took place, with this answer. -/
def Took (log : List (ι × Op)) (i : ι) (answer : ρ) : Prop :=
  ∃ earlier op later, log = earlier ++ (i, op) :: later ∧ answer = obj.answer start earlier op

/-- The answer of a call is more than a sign that something went wrong. -/
def Heard (h : List (Observation ι Op ρ)) (i : ι) (answer : ρ) : Prop :=
  ¬ Before .fault (.ret i answer) h ∨ ∀ op, .call i op ∈ h → answer ≠ obj.lost op

/-- A history agrees with operations done in turn. -/
structure Linearizes (h : List (Observation ι Op ρ)) (log : List (ι × Op)) : Prop where
  once : (log.map Prod.fst).Nodup
  called : ∀ {i : ι} {op : Op}, (i, op) ∈ log → .call i op ∈ h
  single : ∀ {i : ι} {op op' : Op}, .call i op ∈ h → .call i op' ∈ h → op = op'
  answered : ∀ {i : ι} {answer : ρ}, .ret i answer ∈ h → Heard obj h i answer →
    Took obj start log i answer
  ordered : ∀ {i j : ι} {answer : ρ} {op : Op}, Before (.ret i answer) (.call j op) h →
    Heard obj h i answer → (j, op) ∈ log → ∃ op', Before (i, op') (j, op) log

variable {obj start} {h : List (Observation ι Op ρ)} {log : List (ι × Op)}

theorem Took.mem {i : ι} {answer : ρ} (h : Took obj start log i answer) : ∃ op, (i, op) ∈ log := by
  obtain ⟨earlier, op, later, rfl, -⟩ := h
  exact ⟨op, by simp⟩

theorem Took.append {i : ι} {answer : ρ} (h : Took obj start log i answer)
    (more : List (ι × Op)) : Took obj start (log ++ more) i answer := by
  obtain ⟨earlier, op, later, rfl, hanswer⟩ := h
  exact ⟨earlier, op, later ++ more, by simp, hanswer⟩

/-- An operation that takes place now is answered by what the object says now. -/
theorem took_concat (log : List (ι × Op)) (i : ι) (op : Op) :
    Took obj start (log ++ [(i, op)]) i (obj.answer start log op) := ⟨log, op, [], rfl, rfl⟩

theorem Heard.earlier {i : ι} {answer : ρ} {e : Observation ι Op ρ}
    (hheard : Heard obj (h ++ [e]) i answer) : Heard obj h i answer := by
  cases hheard with
  | inl hbefore => exact .inl fun hold => hbefore (hold.append [e])
  | inr hne => exact .inr fun op hop => hne op (List.mem_append_left _ hop)

/-- Something else is seen: a call that is new, an answer that is right, or a fault. -/
theorem Linearizes.event (hlin : Linearizes obj start h log) {e : Observation ι Op ρ}
    (hcall : ∀ i op, e = .call i op → ∀ op', .call i op' ∉ h)
    (hret : ∀ i answer, e = .ret i answer → Heard obj (h ++ [e]) i answer →
      Took obj start log i answer) : Linearizes obj start (h ++ [e]) log where
  once := hlin.once
  called hmem := List.mem_append_left _ (hlin.called hmem)
  single {i op op'} hop hop' := by
    rw [List.mem_append, List.mem_singleton] at hop hop'
    cases hop with
    | inl hop =>
      cases hop' with
      | inl hop' => exact hlin.single hop hop'
      | inr hnew => exact absurd hop (hcall i op' hnew.symm op)
    | inr hnew =>
      cases hop' with
      | inl hop' => exact absurd hop' (hcall i op hnew.symm op')
      | inr hnew' =>
        rw [← hnew'] at hnew
        injection hnew
  answered {i answer} hmem hheard := by
    rw [List.mem_append, List.mem_singleton] at hmem
    cases hmem with
    | inl hold => exact hlin.answered hold hheard.earlier
    | inr hnew => exact hret i answer hnew.symm hheard
  ordered {i j answer op} hbefore hheard hmem := by
    rw [before_concat] at hbefore
    cases hbefore with
    | inl hold => exact hlin.ordered hold hheard.earlier hmem
    -- a call that is only now made has not taken place
    | inr hnew => exact absurd (hlin.called hmem) (hcall j op hnew.2.symm op)

/-- The operation of a call takes place, once. -/
theorem Linearizes.perform (hlin : Linearizes obj start h log) {i : ι} {op : Op}
    (hcall : .call i op ∈ h) (hnew : i ∉ log.map Prod.fst) :
    Linearizes obj start h (log ++ [(i, op)]) where
  once := by
    rw [List.map_append, List.map_singleton, List.nodup_append]
    refine ⟨hlin.once, List.nodup_singleton i, ?_⟩
    intro j hj k hk hjk
    rw [List.mem_singleton] at hk
    rw [hjk, hk] at hj
    exact hnew hj
  called {j op'} hmem := by
    rw [List.mem_append, List.mem_singleton] at hmem
    cases hmem with
    | inl hold => exact hlin.called hold
    | inr heq =>
      cases heq
      exact hcall
  single := hlin.single
  answered hmem hheard := (hlin.answered hmem hheard).append _
  ordered {j k answer op'} hbefore hheard hmem := by
    rw [List.mem_append, List.mem_singleton] at hmem
    cases hmem with
    | inl hold =>
      obtain ⟨first, hfirst⟩ := hlin.ordered hbefore hheard hold
      exact ⟨first, hfirst.append _⟩
    | inr heq =>
      -- whatever was heard before this call was made has taken place
      obtain ⟨first, hfirst⟩ := (hlin.answered hbefore.mem_left hheard).mem
      exact ⟨first, before_concat.mpr (.inr ⟨hfirst, heq⟩)⟩

/-- What has been seen of a call, and whether its operation can still take place. -/
def Stands (obj : Object σ Op ρ) (start : σ) (h : List (Observation ι Op ρ)) (log : List (ι × Op))
    (i : ι) : Phase Op ρ → Prop
  | .ready => ∀ op, .call i op ∉ h
  | .called op => .call i op ∈ h ∧ i ∉ log.map Prod.fst
  | .done op answer => .call i op ∈ h ∧ Took obj start log i answer
  | .dropped op late => .call i op ∈ h ∧ .fault ∈ h ∧ (late = true → i ∉ log.map Prod.fst)
  | .returned op late => .call i op ∈ h ∧ (late = true → i ∉ log.map Prod.fst)

/-- The history so far is linearizable, and every call stands as it should. -/
structure Inv (obj : Object σ Op ρ) (start : σ) (h : List (Observation ι Op ρ))
    (x : Config ι Op ρ) : Prop where
  lin : Linearizes obj start h x.log
  stands : ∀ i, Stands obj start h x.log i (x.phase i)
  faulty : x.faulty = true → .fault ∈ h

/-- What is seen of other calls leaves a call where it stands. -/
theorem Stands.event {i : ι} {phase : Phase Op ρ} (hstands : Stands obj start h log i phase)
    {e : Observation ι Op ρ} (he : ∀ op, e ≠ .call i op) :
    Stands obj start (h ++ [e]) log i phase := by
  cases phase with
  | ready =>
    intro op hop
    rw [List.mem_append, List.mem_singleton] at hop
    cases hop with
    | inl hold => exact hstands op hold
    | inr hnew => exact he op hnew.symm
  | called op => exact ⟨List.mem_append_left _ hstands.1, hstands.2⟩
  | done op answer => exact ⟨List.mem_append_left _ hstands.1, hstands.2⟩
  | dropped op late =>
    exact ⟨List.mem_append_left _ hstands.1, List.mem_append_left _ hstands.2.1, hstands.2.2⟩
  | returned op late => exact ⟨List.mem_append_left _ hstands.1, hstands.2⟩

/-- So does the operation of another call. -/
theorem Stands.perform {i j : ι} {phase : Phase Op ρ} {op : Op}
    (hstands : Stands obj start h log i phase) (hne : i ≠ j) :
    Stands obj start h (log ++ [(j, op)]) i phase := by
  have hnot (hi : i ∉ log.map Prod.fst) : i ∉ (log ++ [(j, op)]).map Prod.fst := by
    simp only [List.map_append, List.map_cons, List.map_nil, List.mem_append, List.mem_singleton]
    intro hmem
    cases hmem with
    | inl hold => exact hi hold
    | inr hj => exact hne hj
  cases phase with
  | ready => exact hstands
  | called op' => exact ⟨hstands.1, hnot hstands.2⟩
  | done op' answer => exact ⟨hstands.1, hstands.2.append _⟩
  | dropped op' late => exact ⟨hstands.1, hstands.2.1, fun hlate => hnot (hstands.2.2 hlate)⟩
  | returned op' late => exact ⟨hstands.1, fun hlate => hnot (hstands.2 hlate)⟩

variable [DecidableEq ι] {x y : Config ι Op ρ}

/-- A call moves on, and nothing is seen of it. -/
theorem Inv.move (hinv : Inv obj start h x) {i : ι} {phase : Phase Op ρ}
    (hphase : Stands obj start h x.log i phase) : Inv obj start h (Object.move x i phase) where
  lin := hinv.lin
  faulty := hinv.faulty
  stands j := by
    simp only [Object.move, Function.update_apply]
    split
    · next hj => exact hj ▸ hphase
    · exact hinv.stands j

/-- A call moves on, and something is seen of it. -/
theorem Inv.event (hinv : Inv obj start h x) {i : ι} {phase : Phase Op ρ} {e : Observation ι Op ρ}
    (hlin : Linearizes obj start (h ++ [e]) x.log) (he : ∀ j op, e = .call j op → j = i)
    (hphase : Stands obj start (h ++ [e]) x.log i phase) :
    Inv obj start (h ++ [e]) (Object.move x i phase) where
  lin := hlin
  faulty hfaulty := List.mem_append_left _ (hinv.faulty hfaulty)
  stands j := by
    simp only [Object.move, Function.update_apply]
    split
    · next hj => exact hj ▸ hphase
    · next hj => exact (hinv.stands j).event fun op hop => hj (he j op hop)

/-- The operation of a call takes place. -/
theorem Inv.perform (hinv : Inv obj start h x) {i : ι} {op : Op} {phase : Phase Op ρ}
    (hcall : .call i op ∈ h) (hnew : i ∉ x.log.map Prod.fst)
    (hphase : Stands obj start h (x.log ++ [(i, op)]) i phase) :
    Inv obj start h (Object.perform x i op phase) where
  lin := hinv.lin.perform hcall hnew
  faulty := hinv.faulty
  stands j := by
    simp only [Object.perform, Object.move, Function.update_apply]
    split
    · next hj => exact hj ▸ hphase
    · next hj => exact (hinv.stands j).perform hj

theorem Inv.step (hinv : Inv obj start h x) {l : Label ι Op ρ} (hstep : obj.Step start x l y) :
    Inv obj start (h ++ l.event.toList) y := by
  cases hstep with
  | @call i op hphase =>
    have hstands := hinv.stands i
    rw [hphase] at hstands
    have hfresh : i ∉ x.log.map Prod.fst := by
      intro hmem
      obtain ⟨entry, hentry, rfl⟩ := List.mem_map.mp hmem
      exact hstands entry.2 (hinv.lin.called hentry)
    refine hinv.event (hinv.lin.event ?_ ?_) ?_ ⟨by simp, hfresh⟩
    · intro j op' heq
      cases heq
      exact hstands
    · intro j answer heq
      cases heq
    · intro j op' heq
      cases heq
      rfl
  | @perform i op hphase =>
    have hstands := hinv.stands i
    rw [hphase] at hstands
    simp only [Label.event, Option.toList_none, List.append_nil]
    exact hinv.perform hstands.1 hstands.2 ⟨hstands.1, took_concat x.log i op⟩
  | @drop i op hfaulty hphase =>
    have hstands := hinv.stands i
    rw [hphase] at hstands
    simp only [Label.event, Option.toList_none, List.append_nil]
    exact hinv.move ⟨hstands.1, hinv.faulty hfaulty, fun _ => hstands.2⟩
  | @lose i op answer hfaulty hphase =>
    have hstands := hinv.stands i
    rw [hphase] at hstands
    simp only [Label.event, Option.toList_none, List.append_nil]
    exact hinv.move ⟨hstands.1, hinv.faulty hfaulty, fun hlate => absurd hlate (by decide)⟩
  | @late i op hphase =>
    have hstands := hinv.stands i
    rw [hphase] at hstands
    simp only [Label.event, Option.toList_none, List.append_nil]
    exact hinv.perform hstands.1 (hstands.2.2 rfl)
      ⟨hstands.1, hstands.2.1, fun hlate => absurd hlate (by decide)⟩
  | @belated i op hphase =>
    have hstands := hinv.stands i
    rw [hphase] at hstands
    simp only [Label.event, Option.toList_none, List.append_nil]
    exact hinv.perform hstands.1 (hstands.2 rfl)
      ⟨hstands.1, fun hlate => absurd hlate (by decide)⟩
  | @ret i op answer hphase =>
    have hstands := hinv.stands i
    rw [hphase] at hstands
    refine hinv.event (hinv.lin.event ?_ ?_) ?_
      ⟨List.mem_append_left _ hstands.1, fun hlate => absurd hlate (by decide)⟩
    · intro j op' heq
      cases heq
    · intro j answer' heq _
      cases heq
      exact hstands.2
    · intro j op' heq
      cases heq
  | @giveUp i op late hphase =>
    have hstands := hinv.stands i
    rw [hphase] at hstands
    refine hinv.event (hinv.lin.event ?_ ?_) ?_ ⟨List.mem_append_left _ hstands.1, hstands.2.2⟩
    · intro j op' heq
      cases heq
    · intro j answer heq hheard
      cases heq
      -- nothing was heard: the answer only says that there was a fault
      cases hheard with
      | inl hnot => exact absurd (before_concat.mpr (.inr ⟨hstands.2.1, rfl⟩)) hnot
      | inr hne => exact absurd rfl (hne op (List.mem_append_left _ hstands.1))
    · intro j op' heq
      cases heq
  | fault =>
    refine ⟨hinv.lin.event ?_ ?_, ?_, fun _ => by simp [Label.event]⟩
    · intro j op heq
      cases heq
    · intro j answer heq
      cases heq
    · intro j
      exact (hinv.stands j).event fun op heq => by cases heq

/-- Every history of the object is linearizable. -/
theorem linearizes (hrun : Trace (obj.system start) .start h x) :
    Linearizes obj start h x.log := by
  refine (Trace.invariant (Inv obj start) (fun _ _ _ _ hinv hstep => hinv.step hstep) ?_ hrun).lin
  refine ⟨⟨List.nodup_nil, ?_, ?_, ?_, ?_⟩, fun _ _ => List.not_mem_nil, fun h => by cases h⟩
  · intro i op hmem
    cases hmem
  · intro i op op' hmem
    cases hmem
  · intro i answer hmem
    cases hmem
  · intro i j answer op hbefore
    exact absurd hbefore.mem_left List.not_mem_nil

end AtomicObject
