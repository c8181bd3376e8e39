import PulseGuard.ForStd.Except
import PulseGuard.Native.ConflictResolver

/-!
# Changes that the resolution of a field does not see

The rules that write a field are told apart by their flags, weights, groups, conditions and codes,
and by the value they write. A change of the rules that leaves these is unseen: the field is
resolved as before (`resolveField_map`).
-/

namespace PulseGuard

namespace ConflictResolver

/-- A change of rules that leaves what the resolution of a field reads. -/
structure Unseen (field : String) (φ : Rule → Rule) : Prop where
  ruleCode : ∀ r, (φ r).ruleCode = r.ruleCode
  priorityWeight : ∀ r, (φ r).priorityWeight = r.priorityWeight
  conditions : ∀ r, (φ r).conditions = r.conditions
  conflictGroup : ∀ r, (φ r).conflictGroup = r.conflictGroup
  isSuppressor : ∀ r, (φ r).isSuppressor = r.isSuppressor
  nonSuppressible : ∀ r, (φ r).nonSuppressible = r.nonSuppressible
  written : ∀ r, written field (φ r) = written field r

section

variable {φ : Rule → Rule} {p : Rule → Bool}

/-- A filter that does not see the change. -/
theorem filter_map_unseen (hp : ∀ r, p (φ r) = p r) (rules : List Rule) :
    (rules.map φ).filter p = (rules.filter p).map φ := by
  rw [List.filter_map, show p ∘ φ = p from funext hp]

theorem eraseP_map_unseen (hp : ∀ r, p (φ r) = p r) (rules : List Rule) :
    (rules.map φ).eraseP p = (rules.eraseP p).map φ := by
  rw [List.eraseP_map, show p ∘ φ = p from funext hp]

theorem any_map_unseen (hp : ∀ r, p (φ r) = p r) (rules : List Rule) :
    (rules.map φ).any p = rules.any p := by
  rw [List.any_map, show p ∘ φ = p from funext hp]

theorem all_map_unseen (hp : ∀ r, p (φ r) = p r) (rules : List Rule) :
    (rules.map φ).all p = rules.all p := by
  rw [List.all_map, show p ∘ φ = p from funext hp]

end

section

variable {field : String} {φ : Rule → Rule} (h : Unseen field φ)

include h

/-- Entries are made of codes. -/
theorem Unseen.map_entry (reason : String) (rules : List Rule) :
    (rules.map φ).map (fun r => (⟨r.ruleCode, field, reason⟩ : SuppressedEntry)) =
      rules.map fun r => ⟨r.ruleCode, field, reason⟩ := by
  rw [List.map_map]
  apply List.map_congr_left
  intro r _
  show (⟨(φ r).ruleCode, field, reason⟩ : SuppressedEntry) = _
  rw [h.ruleCode]

theorem Unseen.heaviest (c : Rule) (cs : List Rule) :
    PyList.maxBy Rule.priorityWeight (φ c) (cs.map φ) = φ (PyList.maxBy Rule.priorityWeight c cs) :=
  PyList.maxBy_map _ _ h.priorityWeight c cs

theorem applySuppression_map (writers : List Rule) :
    applySuppression field (writers.map φ) =
      ((applySuppression field writers).1.map φ, (applySuppression field writers).2) := by
  unfold applySuppression
  rw [filter_map_unseen h.isSuppressor, any_map_unseen h.nonSuppressible]
  cases hsuppressors : writers.filter Rule.isSuppressor with
  | nil => rfl
  | cons s ss =>
    simp only [List.map_cons]
    split
    · have hfilter := @filter_map_unseen φ (fun r => !r.isSuppressor)
        (fun r => by rw [h.isSuppressor]) writers
      rw [hfilter, h.ruleCode, h.map_entry]
    · have herase := @eraseP_map_unseen φ (fun r => r.isSuppressor &&
        r.priorityWeight == (PyList.maxBy Rule.priorityWeight s ss).priorityWeight)
        (fun r => by rw [h.isSuppressor, h.priorityWeight]) writers
      rw [h.heaviest, h.priorityWeight, h.ruleCode, herase, h.map_entry]
      rfl

/-- The candidates at the top are told by what is left. -/
theorem inTop_map (c : Rule) (cs : List Rule) :
    inTop (φ c) (cs.map φ) = inTop c cs ∧
      ∀ top, inTop c cs = .ok top → ∀ r : Rule, top (φ r) = top r := by
  constructor
  · have hfilter (n : Int) := @filter_map_unseen φ (fun r => r.priorityWeight == n)
      (fun r => by rw [h.priorityWeight]) (c :: cs)
    have hspecificity : (fun r : Rule => r.conditions.specificity) ∘ φ =
        fun r => r.conditions.specificity := by
      funext r
      show (φ r).conditions.specificity = r.conditions.specificity
      rw [h.conditions]
    unfold inTop
    simp only [h.heaviest, h.priorityWeight, ← List.map_cons, hfilter, List.length_map,
      List.mapM_map, hspecificity]
  · intro top htop r
    unfold inTop at htop
    simp only at htop
    split at htop
    · obtain ⟨specificities, -, htop⟩ := Except.bind_ok_iff.mp htop
      rw [Except.pure_ok_iff] at htop
      rw [← htop]
      unfold hasSpecificity
      simp only [h.priorityWeight, h.conditions]
    · rw [Except.pure_ok_iff] at htop
      rw [← htop]
      simp only [h.priorityWeight]

theorem resolveConflictGroup_map (c : Rule) (cs : List Rule) :
    resolveConflictGroup field (φ c) (cs.map φ) =
      (fun result => (φ result.1, result.2)) <$> resolveConflictGroup field c cs := by
  obtain ⟨hsame, hreads⟩ := inTop_map h c cs
  unfold resolveConflictGroup
  rw [hsame]
  cases htop : inTop c cs with
  | error e => rfl
  | ok top =>
    have htop' : ∀ r : Rule, top (φ r) = top r := hreads top htop
    simp only [← List.map_cons, bind, Except.bind, filter_map_unseen htop']
    cases (c :: cs).filter top with
    | nil => rfl
    | cons t ts =>
      have hwinner : PyList.minBy Rule.ruleCode (φ t) (ts.map φ) =
          φ (PyList.minBy Rule.ruleCode t ts) := PyList.minBy_map _ _ h.ruleCode t ts
      have herase := @eraseP_map_unseen φ (fun r => top r && r.ruleCode ==
        (PyList.minBy Rule.ruleCode t ts).ruleCode) (fun r => by rw [htop' r, h.ruleCode]) (c :: cs)
      simp only [List.map_cons, hwinner, h.ruleCode] at herase ⊢
      rw [herase, h.map_entry]
      rfl

theorem sameGroup_map (c : Rule) (cs : List Rule) :
    sameGroup (φ c) (cs.map φ) = sameGroup c cs := by
  unfold sameGroup
  rw [h.conflictGroup, all_map_unseen fun r => by rw [h.conflictGroup]]

theorem mergeField_map (c : Rule) (cs : List Rule) :
    mergeField field (φ c) (cs.map φ) = mergeField field c cs := by
  have hvalues : (cs.map φ).map (written field) = cs.map (written field) := by
    rw [List.map_map]
    exact List.map_congr_left fun r _ => h.written r
  unfold mergeField
  simp only [h.heaviest, hvalues, h.written]

/-- The field is resolved as before the change. -/
theorem resolveField_map (writers : List Rule) :
    resolveField field (writers.map φ) = resolveField field writers := by
  unfold resolveField
  rw [applySuppression_map h]
  obtain ⟨effective, entries⟩ := applySuppression field writers
  cases effective with
  | nil => rfl
  | cons c cs =>
    cases cs with
    | nil => simp only [List.map_cons, List.map_nil, h.written]
    | cons d ds =>
      have hall : ((d :: ds).map φ).all (fun r => (written field r).beq (written field c)) =
          (d :: ds).all fun r => (written field r).beq (written field c) :=
        all_map_unseen (fun r => by rw [h.written]) _
      have hgroup := sameGroup_map h c (d :: ds)
      have hresolve := resolveConflictGroup_map h c (d :: ds)
      have hmerge := mergeField_map h c (d :: ds)
      simp only [List.map_cons, List.all_cons, h.written] at hall hgroup hresolve hmerge ⊢
      rw [hall, hgroup, hresolve, hmerge]
      simp only [bind_map_left, h.written]

end

end ConflictResolver

end PulseGuard
