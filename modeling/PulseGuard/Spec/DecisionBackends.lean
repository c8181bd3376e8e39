import PulseGuard.Native.DecisionRepositories
import PulseGuard.Spec.DecisionHistory
import PulseGuard.Spec.SameVerdicts

/-!
# The two decision repositories answer alike

Both repositories stand for a log of the decisions that were saved, oldest first (`decisionLog`).
A decision of the pipeline comes back from the table as it was saved (`decisionToDomain_run`): its
confidence is a decimal with two places, which the column keeps. The table is sorted by the times
of the decisions and the histories in memory are in the order of the saves, so the two answer
alike when the clock moves on between evaluations (`decisions_agree`).
-/

namespace PulseGuard

/-! ## The confidence -/

/-- The column keeps a decimal with two places. -/
theorem numericColumn_ofRat {k : Int} (hlow : 0 ≤ k) (hhigh : k < 10 ^ 5) :
    numericColumn (PyFloat.ofRat (mkRat k 100)) = some k := by
  obtain ⟨x, hx, hk⟩ := PyFloat.hundredths_ofRat hlow (by omega)
  rw [hx]
  unfold numericColumn
  simp only [hk]
  exact if_pos ⟨by omega, hx⟩

/-- And what it keeps is the float it was given. -/
theorem ofRat_of_numericColumn {x : PyFloat} {k : Int} (h : numericColumn x = some k) :
    PyFloat.ofRat (mkRat k 100) = x := by
  unfold numericColumn at h
  cases x with
  | fin q =>
    simp only at h
    split at h
    · rename_i hcond
      cases h
      exact hcond.2
    · cases h
  | inf neg => cases h
  | nan => cases h

/-- What is left of the sources, in percent as floats compute it, is between zero and a bound that
    the column holds. -/
theorem ConfidenceCalculator.scaled_bound {live total : Nat} (hlive : 1 ≤ live)
    (hle : live ≤ total) (htotal : total < 2 ^ 63) :
    ∃ l t q, PyVal.floatOfInt live = .ok (.fin l) ∧ PyVal.floatOfInt total = .ok (.fin t) ∧
      (PyFloat.mul (.fin 100) (.fin l)).divFin t = .fin q ∧ 0 ≤ q ∧ q ≤ 300 := by
  have hone : (1 : Rat) ≤ live := by exact_mod_cast hlive
  have hpart : (live : Rat) ≤ total := by exact_mod_cast hle
  have htop : (total : Rat) ≤ 9223372036854775808 := by exact_mod_cast htotal.le
  -- Four roundings, each of less than a hundredth.
  obtain ⟨l, hl, hlow, hhigh⟩ := PyFloat.ofRat_near (q := live) (by norm_num; linarith)
    (by norm_num; linarith)
  obtain ⟨t, ht, htlow, hthigh⟩ := PyFloat.ofRat_near (q := total) (by norm_num; linarith)
    (by norm_num; linarith)
  obtain ⟨m, hm, hmlow, hmhigh⟩ := PyFloat.ofRat_near (q := 100 * l) (by norm_num; linarith)
    (by norm_num; linarith)
  have htpos : 0 < t := by linarith
  have hratio : m / t ≤ 200 := by
    rw [div_le_iff₀ htpos]
    linarith
  have hratio' : 1 / 2 ^ 70 ≤ m / t := by
    rw [le_div_iff₀ htpos]
    norm_num
    linarith
  obtain ⟨q, hq, hqlow, hqhigh⟩ := PyFloat.ofRat_near hratio' (by norm_num; linarith)
  refine ⟨l, t, q, ?_, ?_, ?_, ?_, by linarith⟩
  · simp [PyVal.floatOfInt, hl]
  · simp [PyVal.floatOfInt, ht]
  · show PyFloat.divFin (PyFloat.ofRat (100 * l)) t = .fin q
    rw [hm]
    exact hq
  · have hpos : 0 ≤ m / t := le_trans (by norm_num) hratio'
    linarith

/-- The confidence score is a decimal with two places that the column holds. -/
theorem ConfidenceCalculator.compute_column {total degraded : Int} (htotal : total < 2 ^ 63)
    (hdegraded : 0 ≤ degraded) {score : PyFloat} (h : compute total degraded = .ok score) :
    ∃ k, numericColumn score = some k := by
  have hcolumn : ∀ {k : Int}, 0 ≤ k → k < 10 ^ 5 → PyFloat.ofRat (mkRat k 100) = score →
      ∃ k, numericColumn score = some k := by
    intro k hlow hhigh hscore
    exact ⟨k, hscore ▸ numericColumn_ofRat hlow hhigh⟩
  unfold compute at h
  by_cases hpos : total ≤ 0
  · rw [if_pos hpos] at h
    cases h
    exact hcolumn (k := 10000) (by omega) (by omega) (by decide +kernel)
  rw [if_neg hpos] at h
  obtain ⟨n, rfl⟩ := Int.eq_ofNat_of_zero_le (show 0 ≤ total by omega)
  obtain ⟨live, hlive⟩ := Int.eq_ofNat_of_zero_le (le_max_right ((n : Int) - degraded) 0)
  simp only [hlive] at h
  have hn : n < 2 ^ 63 := by exact_mod_cast htotal
  -- Without a live source the score is zero, whatever the number of sources is rounded to.
  by_cases hzero : live = 0
  · subst hzero
    obtain ⟨t, ht⟩ := PyVal.floatOfInt_natCast hn
    have hfloat : PyVal.floatOfInt ((0 : Nat) : Int) = .ok (.fin 0) := by
      simp [PyVal.floatOfInt, PyFloat.ofRat]
    have hscaled : (PyFloat.mul (.fin 100) (.fin 0)).divFin t = .fin 0 := by
      simp [PyFloat.mul, PyFloat.divFin, PyFloat.ofRat]
    simp only [hfloat, ht, bind, Except.bind, hscaled] at h
    cases h
    exact hcolumn (k := PyFloat.hundredths 0) (by decide +kernel) (by decide +kernel) rfl
  · have hle : live ≤ n := by omega
    obtain ⟨l, t, q, hl, ht, hq, hqlow, hqhigh⟩ :=
      scaled_bound (show 1 ≤ live by omega) hle hn
    simp only [hl, ht, bind, Except.bind, hq] at h
    cases h
    have hround := abs_le.mp (PyFloat.abs_roundHalfEven_sub_le (q * 100))
    have hlow : (-1 : Rat) < (PyFloat.hundredths q : Int) := by
      unfold PyFloat.hundredths
      linarith
    have hhigh : ((PyFloat.hundredths q : Int) : Rat) < 10 ^ 5 := by
      unfold PyFloat.hundredths
      norm_num
      linarith
    have hlow' : -1 < PyFloat.hundredths q := by exact_mod_cast hlow
    exact hcolumn (k := PyFloat.hundredths q) (by omega) (by exact_mod_cast hhigh) rfl

/-! ## Rows -/

theorem MatchedRuleTrace.ofDict_toDict (m : MatchedRuleTrace) : ofDict m.toDict = some m := by
  obtain ⟨ruleCode, name, family, priorityWeight, severityBand, contributionScore⟩ := m
  cases severityBand <;> cases contributionScore <;> rfl

theorem RejectedRuleTrace.ofDict_toDict (r : RejectedRuleTrace) : ofDict r.toDict = some r := rfl

/-- Items that are read one by one. -/
theorem mapM_of_forall₂ {α β : Type} {f : α → Option β} {as : List α} {bs : List β}
    (h : List.Forall₂ (fun a b => f a = some b) as bs) : as.mapM f = some bs := by
  induction h with
  | nil => rfl
  | cons hhead _ ih =>
    rw [List.mapM_cons, hhead, ih]
    rfl

/-- A row is read as the decision it was written from. -/
theorem decisionToDomain_toOrm {decision : DecisionRecord} {row : DecisionRow}
    (h : decisionToOrm decision = some row) (hband : decision.riskBand ≠ "") :
    decisionToDomain row = some decision := by
  obtain ⟨text, htext, h⟩ := Option.bind_eq_some_iff.mp h
  obtain ⟨k, hk, h⟩ := Option.bind_eq_some_iff.mp h
  cases h
  have hmatched : (decision.matchedRules.map MatchedRuleTrace.toDict).mapM
      MatchedRuleTrace.ofDict = some decision.matchedRules := by
    refine mapM_of_forall₂ (List.forall₂_map_left_iff.mpr (List.forall₂_same.mpr ?_))
    exact fun m _ => m.ofDict_toDict
  have hrejected : (decision.rejectedRules.map RejectedRuleTrace.toDict).mapM
      RejectedRuleTrace.ofDict = some decision.rejectedRules := by
    refine mapM_of_forall₂ (List.forall₂_map_left_iff.mpr (List.forall₂_same.mpr ?_))
    exact fun r _ => r.ofDict_toDict
  have hpriority : PyVal.ofText text = decision.priority := PyVal.ofText_of_textOrNone? htext
  have hconfidence := ofRat_of_numericColumn hk
  have hkept : (some decision.riskBand).filter (· != "") = some decision.riskBand := by
    simp [Option.filter, hband]
  unfold decisionToDomain
  simp only [hmatched, hrejected, hpriority, hkept]
  simp [hconfidence]

/-- A decision that fits the columns. -/
structure DecisionRecord.Storable (decision : DecisionRecord) : Prop where
  row : ∃ row, decisionToOrm decision = some row
  band : decision.riskBand ≠ ""

/-- Every band has a name. -/
theorem RiskScorer.band_ne_empty (score : Int) : band score ≠ "" := by
  unfold band
  split
  · rename_i b hfind
    have hmem := List.mem_of_find?_eq_some hfind
    simp only [bands, List.mem_cons, List.not_mem_nil, or_false] at hmem
    obtain rfl | rfl | rfl := hmem <;> decide
  · decide

/-- A decision of the pipeline fits the columns, when its priority is a text or `None`. -/
theorem storable_of_run {matrix : Option SlaMatrix} {incident : Incident} {pack : RulePack}
    {decision : Decision} (hrun : PipelineOrchestrator.run matrix incident pack = .ok decision)
    (htotal : PipelineOrchestrator.totalSources incident < 2 ^ 63)
    (hdegraded : 0 ≤ PipelineOrchestrator.degradedSources incident)
    (hpriority : ∃ text, decision.priority.textOrNone? = some text) (createdAt : Int)
    (resolved : Bool) :
    ({ decision with createdAt, resolved } : DecisionRecord).Storable := by
  obtain ⟨matched, rejected, resolution, actions, constraints, final, plan, confidence, -, -, -, -,
    -, hconfidence, rfl⟩ := PipelineOrchestrator.run_ok_iff.mp hrun
  obtain ⟨text, htext⟩ := hpriority
  obtain ⟨k, hk⟩ := ConfidenceCalculator.compute_column htotal hdegraded hconfidence
  refine ⟨?_, RiskScorer.band_ne_empty _⟩
  unfold decisionToOrm
  simp only at htext
  simp [htext, hk]

/-- A decision of the pipeline is read from the table as it was saved. -/
theorem decisionToDomain_run {matrix : Option SlaMatrix} {incident : Incident} {pack : RulePack}
    {decision : Decision} (hrun : PipelineOrchestrator.run matrix incident pack = .ok decision)
    (htotal : PipelineOrchestrator.totalSources incident < 2 ^ 63)
    (hdegraded : 0 ≤ PipelineOrchestrator.degradedSources incident)
    (hpriority : ∃ text, decision.priority.textOrNone? = some text) (createdAt : Int)
    (resolved : Bool) :
    ∃ row, decisionToOrm { decision with createdAt, resolved } = some row ∧
      decisionToDomain row = some { decision with createdAt, resolved } := by
  have hstorable := storable_of_run hrun htotal hdegraded hpriority createdAt resolved
  obtain ⟨row, hrow⟩ := hstorable.row
  exact ⟨row, hrow, decisionToDomain_toOrm hrow hstorable.band⟩

/-- The decision on a severe incident, one of whose two sources was degraded. -/
theorem decisionToDomain_run_severe :
    ∃ decision row, decisionToOrm decision = some row ∧ row.confidenceScore = some 5000 ∧
      decisionToDomain row = some decision := by
  let incident : Incident :=
    { severeIncident with contextSourcesTotal := 2, contextSourcesDegraded := 1 }
  let pack : RulePack := { InMemoryRulePackRepository.blank with rules := [quarterRule] }
  -- The pipeline is evaluated once; the columns are read off the decision it makes.
  have hcolumns : ((PipelineOrchestrator.run none incident pack).toOption.bind fun decision =>
      decision.priority.textOrNone?.bind fun _ => numericColumn decision.confidenceScore) =
      some 5000 := by decide +kernel
  cases hrun : PipelineOrchestrator.run none incident pack with
  | error e =>
    rw [hrun] at hcolumns
    cases hcolumns
  | ok decision =>
    rw [hrun] at hcolumns
    have hcolumns : (decision.priority.textOrNone?.bind fun _ =>
        numericColumn decision.confidenceScore) = some 5000 := hcolumns
    obtain ⟨text, htext, hscore⟩ := Option.bind_eq_some_iff.mp hcolumns
    obtain ⟨row, hrow, hread⟩ :=
      decisionToDomain_run hrun (by decide) (by decide) ⟨text, htext⟩ 0 false
    refine ⟨_, row, hrow, ?_, hread⟩
    obtain ⟨text', -, hrow⟩ := Option.bind_eq_some_iff.mp hrow
    obtain ⟨k, hk, hrow⟩ := Option.bind_eq_some_iff.mp hrow
    cases hrow
    exact hk.symm.trans hscore

/-! ## The log of the saved decisions -/

/-- The decisions that were saved, oldest first, as a repository. -/
def decisionLog : DecisionRepository (List DecisionRecord) where
  save := fun decision log => some (log ++ [decision])
  get := fun incidentId log =>
    some (log.filter fun decision => decision.incidentId == incidentId).getLast?
  listByIncident := fun incidentId log =>
    some (log.filter fun decision => decision.incidentId == incidentId)
  listAll := fun limit offset log => some ((log.reverse.drop offset).take limit)

/-- Each decision is younger than those before it. -/
def Ordered (log : List DecisionRecord) : Prop :=
  log.Pairwise fun d d' => d.createdAt < d'.createdAt

theorem Ordered.concat {log : List DecisionRecord} {decision : DecisionRecord} (h : Ordered log)
    (hlater : ∀ d ∈ log, d.createdAt < decision.createdAt) : Ordered (log ++ [decision]) := by
  refine List.pairwise_append.mpr ⟨h, List.pairwise_singleton _ _, ?_⟩
  intro d hd d' hd'
  rw [List.mem_singleton.mp hd']
  exact hlater d hd

variable {σ : Type}

/-- A repository that answers as the log does that it stands for. -/
structure Mirrors (repository : DecisionRepository σ) (Stands : σ → List DecisionRecord → Prop) :
    Prop where
  save : ∀ {s log decision}, Stands s log → decision.Storable →
    (∀ d ∈ log, d.createdAt < decision.createdAt) →
    ∃ s', repository.save decision s = some s' ∧ Stands s' (log ++ [decision])
  get : ∀ {s log} incidentId, Stands s log →
    repository.get incidentId s = decisionLog.get incidentId log
  listByIncident : ∀ {s log} incidentId, Stands s log →
    repository.listByIncident incidentId s = decisionLog.listByIncident incidentId log
  listAll : ∀ {s log} limit offset, Stands s log →
    repository.listAll limit offset s = decisionLog.listAll limit offset log

/-! ## The table -/

namespace PostgresDecisionRepository

/-- The table holds the rows of a log. -/
structure Stands (table : List DecisionRow) (log : List DecisionRecord) : Prop where
  ordered : Ordered log
  rows : List.Forall₂ (fun row d => decisionToDomain row = some d) table log

theorem createdAt_of_decisionToDomain {row : DecisionRow} {decision : DecisionRecord}
    (h : decisionToDomain row = some decision) : decision.createdAt = row.createdAt := by
  obtain ⟨matched, -, h⟩ := Option.bind_eq_some_iff.mp h
  obtain ⟨rejected, -, h⟩ := Option.bind_eq_some_iff.mp h
  cases h
  rfl

theorem incidentId_of_decisionToDomain {row : DecisionRow} {decision : DecisionRecord}
    (h : decisionToDomain row = some decision) : decision.incidentId = row.incidentId := by
  obtain ⟨matched, -, h⟩ := Option.bind_eq_some_iff.mp h
  obtain ⟨rejected, -, h⟩ := Option.bind_eq_some_iff.mp h
  cases h
  rfl

/-- The rows are in the order of their times. -/
theorem Stands.pairwise_rows {table : List DecisionRow} {log : List DecisionRecord}
    (h : Stands table log) : table.Pairwise fun a b => a.createdAt < b.createdAt := by
  obtain ⟨hordered, hrows⟩ := h
  induction hrows with
  | nil => exact .nil
  | @cons row d table log hrow hrest ih =>
    obtain ⟨hd, hlog⟩ := List.pairwise_cons.mp hordered
    refine List.pairwise_cons.mpr ⟨?_, ih hlog⟩
    intro row' hrow'
    obtain ⟨d', hd', hread⟩ := PyList.exists_of_mem_left hrest hrow'
    rw [← createdAt_of_decisionToDomain hrow, ← createdAt_of_decisionToDomain hread]
    exact hd d' hd'

/-- The rows of one incident stand for its part of the log. -/
theorem Stands.filter {table : List DecisionRow} {log : List DecisionRecord}
    (h : Stands table log) (incidentId : String) :
    Stands (table.filter fun row => row.incidentId == incidentId)
      (log.filter fun d => d.incidentId == incidentId) := by
  refine ⟨h.ordered.filter _, ?_⟩
  obtain ⟨-, hrows⟩ := h
  induction hrows with
  | nil => exact .nil
  | @cons row d table log hrow _ ih =>
    rw [List.filter_cons, List.filter_cons, incidentId_of_decisionToDomain hrow]
    split
    · exact .cons hrow ih
    · exact ih

/-- However the database takes up the rows, sorting them gives the log. -/
theorem Stands.ascending {rows table : List DecisionRow} {log : List DecisionRecord}
    (h : Stands table log) (hperm : rows.Perm table) :
    PostgresDecisionRepository.ascending rows = table :=
  PyList.insertionSort_eq_of_perm DecisionRow.createdAt hperm h.pairwise_rows

theorem Stands.descending {rows table : List DecisionRow} {log : List DecisionRecord}
    (h : Stands table log) (hperm : rows.Perm table) :
    PostgresDecisionRepository.descending rows = table.reverse :=
  PyList.insertionSort_desc_of_perm DecisionRow.createdAt hperm h.pairwise_rows

/-- The database answers as the log. -/
theorem mirrors (order : DecisionOrder) : Mirrors (postgresDecisionRepository order) Stands where
  save := by
    intro table log decision h hstorable hlater
    obtain ⟨⟨row, hrow⟩, hband⟩ := hstorable
    refine ⟨table ++ [row], ?_, h.ordered.concat hlater, ?_⟩
    · show save decision table = _
      unfold save
      rw [hrow]
      rfl
    · exact List.rel_append h.rows (.cons (decisionToDomain_toOrm hrow hband) .nil)
  get := by
    intro table log incidentId h
    have hpart := h.filter incidentId
    show get order incidentId table = some (log.filter _).getLast?
    unfold get ofIncident
    rw [hpart.descending ((order.perm table).filter _), List.head?_reverse]
    -- The last row is the last decision, if there is any.
    have hlast := PyList.forall₂_getLast? hpart.rows
    rcases PyList.rel_cases hlast with ⟨hnone, hnone'⟩ | ⟨row, d, hsome, hsome', hread⟩
    · rw [hnone, hnone']
    · rw [hsome, hsome']
      simp [hread]
  listByIncident := by
    intro table log incidentId h
    have hpart := h.filter incidentId
    show listByIncident order incidentId table = some (log.filter _)
    unfold listByIncident ofIncident
    rw [hpart.ascending ((order.perm table).filter _)]
    exact mapM_of_forall₂ hpart.rows
  listAll := by
    intro table log limit offset h
    show listAll order limit offset table = some ((log.reverse.drop offset).take limit)
    unfold listAll
    rw [h.descending (order.perm table)]
    exact mapM_of_forall₂ (List.forall₂_take _ (List.forall₂_drop _ (List.rel_reverse h.rows)))

end PostgresDecisionRepository

/-! ## The histories in memory -/

namespace InMemoryDecisionRepository

/-- The decisions that were constructed, oldest first. -/
def constructed (store : DecisionStore) : List DecisionRef := List.range store.nextRef

/-- The objects are those of a log, and each is in the history of its incident. -/
structure Stands (store : DecisionStore) (log : List DecisionRecord) : Prop where
  ordered : Ordered log
  objects : (constructed store).map store.objects = log
  histories : ∀ incidentId, refs incidentId store =
    (constructed store).filter fun ref => (store.objects ref).incidentId == incidentId

theorem stands_init : Stands init [] where
  ordered := .nil
  objects := rfl
  histories := fun _ => rfl

variable {store : DecisionStore} {log : List DecisionRecord}

/-- The history of an incident is its part of the log. -/
theorem Stands.history (h : Stands store log) (incidentId : String) :
    (refs incidentId store).map store.objects =
      log.filter fun d => d.incidentId == incidentId := by
  rw [h.histories, ← h.objects, List.filter_map]
  rfl

theorem Stands.storeInv (h : Stands store log) : StoreInv store where
  constructed := by
    intro incidentId ref href
    rw [h.histories] at href
    exact List.mem_range.mp (List.mem_of_mem_filter href)
  once := by
    intro incidentId
    rw [h.histories]
    exact List.nodup_range.filter _
  apart := by
    intro incidentId incidentId' ref href href'
    rw [h.histories] at href href'
    have hid := (List.mem_filter.mp href).2
    have hid' := (List.mem_filter.mp href').2
    exact (beq_iff_eq.mp hid).symm.trans (beq_iff_eq.mp hid')

/-- All the decisions are those that were constructed. -/
theorem Stands.all_perm (h : Stands store log) : (all store).Perm (constructed store) := by
  refine (List.perm_ext_iff_of_nodup h.storeInv.nodup_all List.nodup_range).mpr ?_
  intro ref
  rw [mem_all_iff]
  constructor
  · rintro ⟨incidentId, href⟩
    exact List.mem_range.mpr (h.storeInv.constructed incidentId ref href)
  · intro href
    refine ⟨(store.objects ref).incidentId, ?_⟩
    rw [h.histories]
    exact List.mem_filter.mpr ⟨href, by simp⟩

/-- A save adds to the log. -/
theorem Stands.save (h : Stands store log) {decision : DecisionRecord}
    (hlater : ∀ d ∈ log, d.createdAt < decision.createdAt) :
    Stands (InMemoryDecisionRepository.save decision store) (log ++ [decision]) := by
  have hsame : ∀ ref ∈ constructed store,
      (InMemoryDecisionRepository.save decision store).objects ref = store.objects ref := by
    intro ref href
    exact Function.update_of_ne (List.mem_range.mp href).ne ..
  have hnew : (InMemoryDecisionRepository.save decision store).objects store.nextRef = decision :=
    Function.update_self ..
  have hconstructed : constructed (InMemoryDecisionRepository.save decision store) =
      constructed store ++ [store.nextRef] := List.range_succ
  refine ⟨h.ordered.concat hlater, ?_, ?_⟩
  · rw [hconstructed, List.map_append, List.map_congr_left hsame, h.objects, List.map_singleton,
      hnew]
  · intro incidentId
    have hold : (constructed store).filter (fun ref =>
        ((InMemoryDecisionRepository.save decision store).objects ref).incidentId == incidentId) =
        refs incidentId store := by
      rw [h.histories]
      refine List.filter_congr fun ref href => ?_
      rw [hsame ref href]
    rw [refs_save, hconstructed, List.filter_append, hold, List.filter_singleton, hnew]
    by_cases hid : incidentId = decision.incidentId
    · simp [hid]
    · simp [hid, beq_eq_false_iff_ne.mpr (Ne.symm hid)]

/-- The histories in memory answer as the log. -/
theorem mirrors : Mirrors inMemoryDecisionRepository Stands where
  save := by
    intro store log decision h _ hlater
    exact ⟨_, rfl, h.save hlater⟩
  get := by
    intro store log incidentId h
    show some (((refs incidentId store).getLast?).map store.objects) =
      some (log.filter _).getLast?
    rw [← List.getLast?_map, h.history]
  listByIncident := by
    intro store log incidentId h
    exact congrArg some (h.history incidentId)
  listAll := by
    intro store log limit offset h
    have hpairwise : (constructed store).Pairwise fun a b =>
        (store.objects a).createdAt < (store.objects b).createdAt := by
      have hordered := h.ordered
      rw [← h.objects, Ordered, List.pairwise_map] at hordered
      exact hordered
    show some ((((InMemoryDecisionRepository.all store).insertionSort _).drop offset).take
      limit |>.map store.objects) = some ((log.reverse.drop offset).take limit)
    rw [PyList.insertionSort_desc_of_perm (fun ref => (store.objects ref).createdAt) h.all_perm
      hpairwise, List.map_take, List.map_drop, List.map_reverse, h.objects]

end InMemoryDecisionRepository

/-! ## Runs -/

namespace DecisionCall

/-- The time of an evaluation. -/
def time : DecisionCall → Option Int
  | evaluate _ _ _ _ now => some now
  | _ => none

/-- The decision that an evaluation makes, if it makes one, fits the columns: the sources can be
    counted, and the priority is a text or `None`. -/
def Fits : DecisionCall → Prop
  | evaluate useCase incident region tenant _ =>
    PipelineOrchestrator.totalSources (useCase.enrich incident).toIncident < 2 ^ 63 ∧
    0 ≤ PipelineOrchestrator.degradedSources (useCase.enrich incident).toIncident ∧
    ∀ decision, useCase.decide (useCase.enrich incident) region tenant = .ok decision →
      ∃ text, decision.priority.textOrNone? = some text
  | _ => True

/-- One call: a repository that stands for a log answers as the log does, and stands for the
    log that the call leaves. -/
theorem exec_mirrors {repository : DecisionRepository σ} {Stands : σ → List DecisionRecord → Prop}
    (hmirrors : Mirrors repository Stands) {s : σ} {log : List DecisionRecord}
    (hstands : Stands s log) {call : DecisionCall} (hfits : call.Fits)
    (hlater : ∀ now ∈ call.time, ∀ d ∈ log, d.createdAt < now) :
    ∃ answer s' log', call.exec repository s = some (answer, s') ∧
      call.exec decisionLog log = some (answer, log') ∧ Stands s' log' ∧
      ∀ d ∈ log', d ∈ log ∨ d.createdAt ∈ call.time := by
  -- An evaluation saves at most one decision, the reads leave both as they are.
  cases call with
  | evaluate useCase incident region tenant now =>
    obtain ⟨htotal, hdegraded, hpriority⟩ := hfits
    unfold exec EvaluateIncidentUseCase.executeOn
    simp only
    cases hdecide : useCase.decide (useCase.enrich incident) region tenant with
    | error e => exact ⟨_, s, log, rfl, rfl, hstands, fun d hd => .inl hd⟩
    | ok decision =>
      cases hpersists : useCase.persists with
      | false => exact ⟨_, s, log, rfl, rfl, hstands, fun d hd => .inl hd⟩
      | true =>
        obtain ⟨pack, -, hrun⟩ := Except.bind_ok_iff.mp hdecide
        have hstorable := storable_of_run hrun htotal hdegraded (hpriority decision hdecide) now
          false
        obtain ⟨s', hsave, hstands'⟩ := hmirrors.save hstands hstorable (hlater now rfl)
        refine ⟨_, s', _, ?_, rfl, hstands', ?_⟩
        · simp [hsave]
        · intro d hd
          rcases List.mem_append.mp hd with hold | hnew
          · exact .inl hold
          · rw [List.mem_singleton.mp hnew]
            exact .inr rfl
  | get incidentId =>
    have hget := hmirrors.get incidentId hstands
    exact ⟨_, s, log, by simp [exec, hget, decisionLog], rfl, hstands, fun d hd => .inl hd⟩
  | listByIncident incidentId =>
    have hlist := hmirrors.listByIncident incidentId hstands
    exact ⟨_, s, log, by simp [exec, hlist, decisionLog], rfl, hstands, fun d hd => .inl hd⟩
  | listAll limit offset =>
    have hlist := hmirrors.listAll limit offset hstands
    exact ⟨_, s, log, by simp [exec, hlist, decisionLog], rfl, hstands, fun d hd => .inl hd⟩

/-- Every answer to calls whose evaluations are later and later is the log's. -/
theorem answers_mirrors {repository : DecisionRepository σ}
    {Stands : σ → List DecisionRecord → Prop} (hmirrors : Mirrors repository Stands)
    {calls : List DecisionCall} (hfits : ∀ call ∈ calls, call.Fits)
    (htimes : (calls.filterMap time).Pairwise (· < ·)) {s : σ} {log : List DecisionRecord}
    (hstands : Stands s log)
    (hlater : ∀ now ∈ calls.filterMap time, ∀ d ∈ log, d.createdAt < now) :
    ∃ found, answers repository calls s = some found ∧
      answers decisionLog calls log = some found := by
  induction calls generalizing s log with
  | nil => exact ⟨[], rfl, rfl⟩
  | cons call calls ih =>
    obtain ⟨hcall, hcalls⟩ := List.forall_mem_cons.mp hfits
    have hnow : ∀ now ∈ call.time, ∀ d ∈ log, d.createdAt < now := by
      intro now hmem
      exact hlater now (List.mem_filterMap.mpr ⟨call, List.mem_cons_self, hmem⟩)
    obtain ⟨answer, s', log', hexec, hlog, hstands', hgrown⟩ :=
      exec_mirrors hmirrors hstands hcall hnow
    have hsplit : (call :: calls).filterMap time = call.time.toList ++ calls.filterMap time := by
      cases htime : call.time <;> simp [htime]
    rw [hsplit] at htimes hlater
    obtain ⟨-, hrest, hbetween⟩ := List.pairwise_append.mp htimes
    obtain ⟨found, hfound, hfound'⟩ := ih hcalls hrest hstands' (by
      -- What the log has gained is of the time of this call, which is before those that follow.
      intro now hmem d hd
      rcases hgrown d hd with hold | hnew
      · exact hlater now (List.mem_append_right _ hmem) d hold
      · exact hbetween _ (Option.mem_toList.mpr hnew) now hmem)
    refine ⟨answer :: found, ?_, ?_⟩
    · simp [answers, hexec, hfound]
    · simp [answers, hlog, hfound']

end DecisionCall

/-- The repositories answer alike: whatever is evaluated and read, in any order, when each
    evaluation is later than those before it and its decision fits the columns, the database
    answers everything that is asked, as the histories in memory do. -/
theorem decisions_agree (order : DecisionOrder) {calls : List DecisionCall}
    (hfits : ∀ call ∈ calls, call.Fits)
    (htimes : (calls.filterMap DecisionCall.time).Pairwise (· < ·)) :
    ∃ found, DecisionCall.answers (postgresDecisionRepository order) calls [] = some found ∧
      DecisionCall.answers inMemoryDecisionRepository calls InMemoryDecisionRepository.init =
        some found := by
  have hnone : ∀ now ∈ calls.filterMap DecisionCall.time, ∀ d ∈ ([] : List DecisionRecord),
      d.createdAt < now := by
    intro now _ d hd
    cases hd
  obtain ⟨found, hpostgres, hlog⟩ := DecisionCall.answers_mirrors
    (PostgresDecisionRepository.mirrors order) hfits htimes ⟨.nil, .nil⟩ hnone
  obtain ⟨found', hmemory, hlog'⟩ := DecisionCall.answers_mirrors
    InMemoryDecisionRepository.mirrors hfits htimes InMemoryDecisionRepository.stands_init hnone
  cases hlog.symm.trans hlog'
  exact ⟨found, hpostgres, hmemory⟩

/-- The rows as they were written. -/
def writtenDecisions : DecisionOrder where
  rows := id
  perm := fun _ => .refl _

/-- Two evaluations of one incident, then all the reads. -/
def evaluatedTwice : List DecisionCall :=
  let incident : IncidentRecord :=
    { severeIncident with status := "received", region := .none, tenantId := .none }
  [.evaluate (evaluateBy [quarterRule]) incident .none .none 1,
    .evaluate (evaluateBy [quarterRule]) incident .none .none 2,
    .get "INC-1", .listByIncident "INC-1", .listAll 1 1]

/-- Both repositories have the two decisions. -/
theorem decisions_agree_evaluatedTwice :
    ∃ found, DecisionCall.answers (postgresDecisionRepository writtenDecisions) evaluatedTwice [] =
        some found ∧
      DecisionCall.answers inMemoryDecisionRepository evaluatedTwice
        InMemoryDecisionRepository.init = some found := by
  refine decisions_agree writtenDecisions ?_ (by decide)
  have hevaluate : ∀ now, (DecisionCall.evaluate (evaluateBy [quarterRule])
      { severeIncident with status := "received", region := .none, tenantId := .none } .none .none
      now).Fits := by
    intro now
    refine ⟨by decide, by decide, ?_⟩
    intro decision hdecide
    have hsome : (((evaluateBy [quarterRule]).decide
        { severeIncident with status := "received", region := .none, tenantId := .none } .none
        .none).toOption.bind fun decision => decision.priority.textOrNone?).isSome = true := by
      decide +kernel
    have hdecide : (evaluateBy [quarterRule]).decide
        { severeIncident with status := "received", region := .none, tenantId := .none } .none
        .none = .ok decision := hdecide
    rw [hdecide] at hsome
    exact Option.isSome_iff_exists.mp hsome
  intro call hcall
  simp only [evaluatedTwice, List.mem_cons, List.not_mem_nil, or_false] at hcall
  obtain rfl | rfl | rfl | rfl | rfl := hcall
  · exact hevaluate 1
  · exact hevaluate 2
  · trivial
  · trivial
  · trivial

end PulseGuard
