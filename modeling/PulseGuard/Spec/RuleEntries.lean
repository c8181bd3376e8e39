import PulseGuard.Spec.CallSteps
import PulseGuard.Spec.RequestSections

/-!
# How rules enter a pack

The condition on a call, and the invariants of a store that every call keeps. What a creation of
a rule appends has an identifier that was drawn for it and a code that no rule of the pack has,
which `Lawful.createRule_performs` does not say; `Lawful.Keeps` does, and `Keeps.runCalls` is the
induction over any list of calls.
-/

namespace PulseGuard

variable {σ ρ : Type}

/-- Every call of a list meets a condition in the state it is made in. -/
def CallsMeet (repo : RulePackRepository σ ρ) (P : Call → App σ → Prop) : List Call → App σ → Prop
  | [], _ => True
  | call :: rest, app => P call app ∧ CallsMeet repo P rest (call.exec repo app).2

theorem CallsMeet.append {repo : RulePackRepository σ ρ} {P : Call → App σ → Prop}
    {calls rest : List Call} {app : App σ} :
    CallsMeet repo P (calls ++ rest) app ↔
      CallsMeet repo P calls app ∧ CallsMeet repo P rest (runCalls repo calls app) := by
  induction calls generalizing app with
  | nil => simp [CallsMeet, runCalls]
  | cons call calls ih => simp only [List.cons_append, CallsMeet, runCalls, ih, and_assoc]

/-- What calls that meet a condition keep, lists of such calls keep. -/
theorem CallsMeet.invariant {repo : RulePackRepository σ ρ} {P : Call → App σ → Prop}
    {I : App σ → Prop} (hcall : ∀ call app, I app → P call app → I (call.exec repo app).2)
    {calls : List Call} {app : App σ} (hI : I app) (h : CallsMeet repo P calls app) :
    I (runCalls repo calls app) := by
  induction calls generalizing app with
  | nil => exact hI
  | cons call rest ih => exact ih (hcall call app hI h.1) h.2

/-- The calls that append rules to a pack. -/
def Call.CreatesRules : Call → Prop
  | createRule _ _ _ | bulkCreateRules _ _ _ => True
  | _ => False

/-- An update by identifier keeps the identifiers of a list of rules. -/
theorem map_id_replaceRule {ruleId : Uuid} {updated : Rule} (hid : updated.id = some ruleId)
    (rules : List Rule) : (replaceRule ruleId updated rules).map Rule.id = rules.map Rule.id := by
  unfold replaceRule
  rw [List.map_map]
  apply List.map_congr_left
  intro r _
  rw [Function.comp_apply]
  split
  · rename_i heq
    rw [hid, beq_iff_eq.mp heq]
  · rfl

/-- An update by identifier replaces the one rule that has it, in its place. -/
theorem replaceRule_around {before after : List Rule} {rule : Rule} {ruleId : Uuid}
    (hid : rule.id = some ruleId) (hbefore : ∀ r ∈ before, r.id ≠ some ruleId)
    (hafter : ∀ r ∈ after, r.id ≠ some ruleId) (updated : Rule) :
    replaceRule ruleId updated (before ++ rule :: after) = before ++ updated :: after := by
  have hkeep : ∀ l : List Rule, (∀ r ∈ l, r.id ≠ some ruleId) → replaceRule ruleId updated l = l := by
    intro l hl
    have hsame : ∀ r ∈ l, (if r.id == some ruleId then updated else r) = r :=
      fun r hr => if_neg fun heq => hl r hr (beq_iff_eq.mp heq)
    unfold replaceRule
    rw [List.map_congr_left hsame, List.map_id']
  unfold replaceRule at hkeep ⊢
  rw [List.map_append, List.map_cons, hkeep before hbefore, hkeep after hafter, hid,
    beq_self_eq_true, if_pos rfl]

/-- A deletion keeps whatever of a rule does not say whether it is enabled. -/
theorem map_disableRule {α : Type} {f : Rule → α} (hf : ∀ (r : Rule) b, f { r with enabled := b } = f r)
    (ruleId : Uuid) (rules : List Rule) : (disableRule ruleId rules).map f = rules.map f := by
  induction rules with
  | nil => rfl
  | cons rule rest ih =>
    unfold disableRule at ih ⊢
    rw [List.replaceF_cons]
    split
    · rw [List.map_cons, List.map_cons, ih]
    · rename_i r hsome
      split at hsome
      · cases hsome
        rw [List.map_cons, List.map_cons, hf]
      · cases hsome

namespace Lawful

variable {repo : RulePackRepository σ ρ} {V : StoreView σ} (L : Lawful repo V)
  {app app' : App σ} {actor : String}

/-- A creation saves its pack with one more rule, under the identifier drawn for it and a code
    that is new in the pack. -/
theorem createRule_saves {packId : Uuid} {data : RuleData} {created : Rule}
    (hInv : L.Inv app.repository)
    (h : CreateRuleUseCase.execute repo packId data actor app = .ok (created, app')) :
    ∃ ref rule, L.Reads app.repository ref packId ∧
      (repo.pack app.repository ref).status = .draft ∧ ruleFromJson data = .ok rule ∧
      (∀ r ∈ (repo.pack app.repository ref).rules, r.ruleCode ≠ rule.ruleCode) ∧
      L.Performs (repo.uuid4 app.repository).2
        (.saveEdited (repo.pack app.repository ref) ((repo.pack app.repository ref).rules ++
          [{ rule with id := some (repo.uuid4 app.repository).1 }])) app'.repository := by
  obtain ⟨ref, rule, saved, t, hget, hdraft, hrule, hcode, hsave, hstored⟩ :=
    CreateRuleUseCase.execute_ok h
  have hreads := L.getById hInv hget
  refine ⟨ref, rule, hreads, hdraft, hrule, hcode, ?_⟩
  -- a payload has no identifier, so one is drawn
  have hnew : identified repo rule app.repository =
      ({ rule with id := some (repo.uuid4 app.repository).1 },
        (repo.uuid4 app.repository).2) := by
    unfold identified
    rw [id_of_ruleFromJson hrule]
  rw [hnew] at hsave
  rw [hstored]
  have hpack := L.pack_uuid4 app.repository ref
  rw [← hpack] at hsave hdraft ⊢
  exact .saveEdited (Or.inl rfl) (L.reads_uuid4 hreads) hdraft hsave

/-- An invariant of the store that every write keeps which meets a condition, and that holds when
    a rule is created; the creation makes such a write. -/
structure Keeps (I : σ → Prop) (P : σ → Write → Prop) : Prop where
  metadata : ∀ s u lock fields, P s (.updateMetadata u lock fields) → V.inPlace →
    fields.all PackAttr.isMetadata = true
  write : ∀ s w t, L.Inv s → I s → P s w → L.Performs s w t → I t
  draw : ∀ s, I s → I (repo.uuid4 s).2
  create : ∀ s ref u (rule : Rule), L.Inv s → I s → L.Reads s ref u → (repo.pack s ref).status = .draft →
    (∀ r ∈ (repo.pack s ref).rules, r.ruleCode ≠ rule.ruleCode) →
    P (repo.uuid4 s).2 (.saveEdited (repo.pack s ref)
      ((repo.pack s ref).rules ++ [{ rule with id := some (repo.uuid4 s).1 }]))

namespace Keeps

variable {L} {I : σ → Prop} {P : σ → Write → Prop} (K : L.Keeps I P)
include K

theorem createRule {packId : Uuid} {data : RuleData} {created : Rule}
    (hInv : L.Inv app.repository) (hI : I app.repository)
    (h : CreateRuleUseCase.execute repo packId data actor app = .ok (created, app')) :
    L.Inv app'.repository ∧ I app'.repository := by
  obtain ⟨ref, rule, hreads, hdraft, -, hcode, hperforms⟩ := L.createRule_saves hInv h
  have hInv' := L.inv_uuid4 hInv
  have hwrite := K.create _ ref packId rule hInv hI hreads hdraft hcode
  exact ⟨(hperforms.step hInv').1, K.write _ _ _ hInv' (K.draw _ hI) hwrite hperforms⟩

theorem bulkCreateRules {packId : Uuid} (rulesData : List RuleData) {app : App σ}
    (hInv : L.Inv app.repository) (hI : I app.repository) :
    let t := (BulkCreateRulesUseCase.execute repo packId actor rulesData app).2.repository
    L.Inv t ∧ I t := by
  induction rulesData generalizing app with
  | nil => exact ⟨hInv, hI⟩
  | cons data rest ih =>
    rw [BulkCreateRulesUseCase.execute]
    cases hcreate : CreateRuleUseCase.execute repo packId data actor app with
    | error e => exact ⟨hInv, hI⟩
    | ok result =>
      obtain ⟨rule, app'⟩ := result
      obtain ⟨hInv', hI'⟩ := K.createRule hInv hI hcreate
      exact ih hInv' hI'

/-- A run of writes that meet the condition keeps the invariant. -/
theorem run {s t : σ} (hI : I s)
    (hrun : Run.RunWhere L.Performs (fun s w => L.Inv s ∧ P s w) s t) : I t :=
  Run.RunWhere.invariant I (fun _ _ _ hstep hw hI => K.write _ _ _ hw.1 hI hw.2 hstep) hrun hI

/-- A call keeps the invariant when its writes meet the condition; one that creates rules
    always does. -/
theorem exec {call : Call} {app : App σ} (hInv : L.Inv app.repository) (hI : I app.repository)
    (heach : ¬call.CreatesRules → call.Each repo P app) :
    L.Inv (call.exec repo app).2.repository ∧ I (call.exec repo app).2.repository := by
  have hother : call.Each repo P app →
      L.Inv (call.exec repo app).2.repository ∧ I (call.exec repo app).2.repository := by
    intro h
    obtain ⟨hInv', hrun⟩ := L.exec_performs K.metadata hInv h
    exact ⟨hInv', K.run hI hrun.run⟩
  cases call with
  | createRule packId data actor =>
    rw [Call.exec]
    cases hcreate : CreateRuleUseCase.execute repo packId data actor app with
    | error e => exact ⟨hInv, hI⟩
    | ok result => exact K.createRule hInv hI hcreate
  | bulkCreateRules packId rulesData actor => exact K.bulkCreateRules rulesData hInv hI
  | _ => exact hother (heach id)

/-- So does a list of calls. -/
theorem runCalls {Q : Call → App σ → Prop}
    (hcall : ∀ call app, L.Inv app.repository → I app.repository → Q call app →
      ¬call.CreatesRules → call.Each repo P app)
    {calls : List Call} {app : App σ} (hInv : L.Inv app.repository) (hI : I app.repository)
    (h : CallsMeet repo Q calls app) :
    L.Inv (runCalls repo calls app).repository ∧ I (runCalls repo calls app).repository := by
  have hkeep : ∀ call app, L.Inv app.repository ∧ I app.repository → Q call app →
      L.Inv (call.exec repo app).2.repository ∧ I (call.exec repo app).2.repository :=
    fun call app happ hQ => K.exec happ.1 happ.2 (hcall call app happ.1 happ.2 hQ)
  exact CallsMeet.invariant (I := fun app => L.Inv app.repository ∧ I app.repository) hkeep
    ⟨hInv, hI⟩ h

end Keeps

end Lawful

end PulseGuard
