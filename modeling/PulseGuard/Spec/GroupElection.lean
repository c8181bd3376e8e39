import PulseGuard.Spec.RemovedWrites

/-!
# The election in a conflict group

`_resolve_conflict_group` filters its candidates three times: by weight, by specificity among the
heaviest, by code among those. With distinct codes this is the one candidate that beats each of the
others by the three in turn (`resolveConflictGroup_elects`), so that the order of the candidates
does not matter and the entries are those of all the others, once each (`election`).
-/

namespace PulseGuard

namespace ConflictResolver

/-- The first rule wins over the second: by weight, then by specificity, then by the smaller code. -/
def Beats (a b : Rule) : Prop :=
  b.priorityWeight < a.priorityWeight ∨
    a.priorityWeight = b.priorityWeight ∧
      ∃ m n, a.conditions.specificity = .ok m ∧ b.conditions.specificity = .ok n ∧
        (n < m ∨ m = n ∧ a.ruleCode < b.ruleCode)

/-- The rule wins over each of the others. -/
def Wins (rules : List Rule) (a : Rule) : Prop := ∀ b ∈ rules, b ≠ a → Beats a b

theorem Beats.asymm {a b : Rule} (h : Beats a b) (h' : Beats b a) : False := by
  rcases h with hweight | ⟨hweight, m, n, hm, hn, hspec⟩
  · rcases h' with hweight' | ⟨hweight', -⟩ <;> omega
  · rcases h' with hweight' | ⟨-, n', m', hn', hm', hspec'⟩
    · omega
    · rw [hm] at hm'
      rw [hn] at hn'
      cases hm'
      cases hn'
      rcases hspec with hlt | ⟨heq, hcode⟩
      · rcases hspec' with hlt' | ⟨heq', -⟩ <;> omega
      · rcases hspec' with hlt' | ⟨-, hcode'⟩
        · omega
        · exact absurd (hcode.trans hcode') (lt_irrefl _)

/-- At most one rule wins over all the others. -/
theorem Wins.unique {rules : List Rule} {a b : Rule} (ha : a ∈ rules) (hb : b ∈ rules)
    (h : Wins rules a) (h' : Wins rules b) : a = b := by
  by_contra hne
  exact Beats.asymm (h b hb (Ne.symm hne)) (h' a ha hne)

/-- Two different rules of one list make it longer than one. -/
private theorem one_lt_length {rules : List Rule} {a b : Rule} (ha : a ∈ rules) (hb : b ∈ rules)
    (hne : a ≠ b) : 1 < rules.length := by
  match rules with
  | [] => cases ha
  | [x] =>
    rw [List.mem_singleton] at ha hb
    exact absurd (ha.trans hb.symm) hne
  | _ :: _ :: _ => simp

private theorem le_foldl_max (ns : List Nat) (a : Nat) : a ≤ ns.foldl max a ∧ ∀ n ∈ ns, n ≤ ns.foldl max a := by
  induction ns generalizing a with
  | nil => simp
  | cons m ms ih =>
    obtain ⟨hacc, hall⟩ := ih (max a m)
    rw [List.foldl_cons]
    refine ⟨by omega, List.forall_mem_cons.mpr ⟨by omega, hall⟩⟩

/-- A candidate at the top has the greatest weight and, among several of that weight, the greatest
    specificity; a candidate that is tied with one of the top is at the top itself. -/
theorem inTop_spec {c : Rule} {cs : List Rule} {top : Rule → Bool} (h : inTop c cs = .ok top)
    {a b : Rule} (ha : a ∈ c :: cs) (hb : b ∈ c :: cs) (hne : a ≠ b) (htop : top a = true) :
    b.priorityWeight < a.priorityWeight ∨
      a.priorityWeight = b.priorityWeight ∧ ∃ m n, a.conditions.specificity = .ok m ∧
        b.conditions.specificity = .ok n ∧ (n < m ∨ m = n ∧ top b = true) := by
  have hmax := PyList.le_maxBy Rule.priorityWeight c cs
  unfold inTop at h
  simp only at h
  generalize (PyList.maxBy Rule.priorityWeight c cs).priorityWeight = maxWeight at h hmax
  have hle := hmax b hb
  by_cases hseveral : 1 < ((c :: cs).filter fun r => r.priorityWeight == maxWeight).length
  · rw [if_pos hseveral] at h
    obtain ⟨ns, hns, h⟩ := Except.bind_ok_iff.mp h
    obtain rfl := Except.pure_ok_iff.mp h
    simp only [Bool.and_eq_true, beq_iff_eq] at htop ⊢
    -- among several of the greatest weight the specificities are compared
    by_cases hweight : b.priorityWeight = maxWeight
    · right
      have hb' : b ∈ (c :: cs).filter fun r => r.priorityWeight == maxWeight :=
        List.mem_filter.mpr ⟨hb, by simpa using hweight⟩
      obtain ⟨n, hn, hspec⟩ := Except.ok_of_mapM_ok hns b hb'
      have hle' := (le_foldl_max ns 0).2 n hn
      have hspecific := htop.2
      unfold hasSpecificity at hspecific ⊢
      rw [hspec]
      cases ha' : a.conditions.specificity with
      | error e => rw [ha'] at hspecific; cases hspecific
      | ok m =>
        rw [ha'] at hspecific
        have hm : m = ns.foldl max 0 := beq_iff_eq.mp hspecific
        refine ⟨htop.1.trans hweight.symm, m, n, rfl, rfl, ?_⟩
        by_cases hlt : n < m
        · exact Or.inl hlt
        · right
          have heq : m = n := by omega
          exact ⟨heq, hweight, by simpa using heq.symm.trans hm⟩
    · left
      omega
  · rw [if_neg hseveral] at h
    obtain rfl := Except.pure_ok_iff.mp h
    have hweight : a.priorityWeight = maxWeight := by simpa using htop
    left
    -- a second candidate of that weight would make them several
    have hother : b.priorityWeight ≠ maxWeight := by
      intro heq
      apply hseveral
      exact one_lt_length (List.mem_filter.mpr ⟨ha, by simpa using hweight⟩)
        (List.mem_filter.mpr ⟨hb, by simpa using heq⟩) hne
    omega

section

variable {c : Rule} {cs : List Rule} {top : Rule → Bool} {a b : Rule}

/-- A candidate at the top beats those that are not, and those there with a greater code. -/
theorem beats_of_inTop (h : inTop c cs = .ok top) (ha : a ∈ c :: cs) (hb : b ∈ c :: cs)
    (htop : top a = true) (hleast : top b = true → a.ruleCode ≤ b.ruleCode) :
    b = a ∨ Beats a b ∨ top b = true ∧ b.ruleCode = a.ruleCode := by
  by_cases heq : b = a
  · exact Or.inl heq
  right
  rcases inTop_spec h ha hb (Ne.symm heq) htop with hweight | ⟨hweight, m, n, hm, hn, hspec⟩
  · exact Or.inl (Or.inl hweight)
  · rcases hspec with hlt | ⟨hmn, htop'⟩
    · exact Or.inl (Or.inr ⟨hweight, m, n, hm, hn, Or.inl hlt⟩)
    · by_cases hcode : b.ruleCode = a.ruleCode
      · exact Or.inr ⟨htop', hcode⟩
      · have hlt : a.ruleCode < b.ruleCode := lt_of_le_of_ne (hleast htop') (Ne.symm hcode)
        exact Or.inl (Or.inr ⟨hweight, m, n, hm, hn, Or.inr ⟨hmn, hlt⟩⟩)

/-- A candidate at the top is beaten by none, but for those there with a smaller code. -/
theorem not_beats_of_inTop (h : inTop c cs = .ok top) (ha : a ∈ c :: cs) (hb : b ∈ c :: cs)
    (htop : top a = true) (hleast : top b = true → a.ruleCode ≤ b.ruleCode) : ¬Beats b a := by
  intro hbeat
  by_cases heq : b = a
  · rw [heq] at hbeat
    exact Beats.asymm hbeat hbeat
  rcases inTop_spec h ha hb (Ne.symm heq) htop with hweight | ⟨hweight, m, n, hm, hn, hspec⟩
  · rcases hbeat with hweight' | ⟨hweight', -⟩ <;> omega
  · rcases hbeat with hweight' | ⟨-, n', m', hn', hm', hspec'⟩
    · omega
    · -- both are of one weight, and the two specificities are the same ones in both facts
      rw [hm] at hm'
      rw [hn] at hn'
      cases hm'
      cases hn'
      rcases hspec' with hlt' | ⟨hnm, hcode⟩
      · rcases hspec with hlt | ⟨hmn, -⟩ <;> omega
      · rcases hspec with hlt | ⟨-, htop'⟩
        · omega
        · exact absurd hcode (not_lt.mpr (hleast htop'))

end

/-- The election takes the first of the candidates that none beats, and the entries are those of all
    the others, which it beats unless they have its code. -/
theorem resolveConflictGroup_picks {field : String} {c : Rule} {cs : List Rule} {winner : Rule}
    {lost : List SuppressedEntry} (h : resolveConflictGroup field c cs = .ok (winner, lost)) :
    ∃ rest, PyList.Picks (fun r => ∀ x ∈ c :: cs, ¬Beats x r) (c :: cs) winner rest ∧
      lost = rest.map (fun r => ⟨r.ruleCode, field, "lost conflict group to " ++ winner.ruleCode⟩) ∧
      ∀ b ∈ c :: cs, b = winner ∨ Beats winner b ∨ b.ruleCode = winner.ruleCode := by
  unfold resolveConflictGroup at h
  obtain ⟨top, htop, h⟩ := Except.bind_ok_iff.mp h
  cases hfilter : (c :: cs).filter top with
  | nil =>
    rw [hfilter] at h
    cases h
  | cons t ts =>
    rw [hfilter] at h
    obtain ⟨rfl, rfl⟩ := Prod.mk.inj (Except.pure_ok_iff.mp h)
    have hmem : PyList.minBy Rule.ruleCode t ts ∈ (c :: cs).filter top := by
      rw [hfilter]
      exact PyList.minBy_mem Rule.ruleCode t ts
    have hleast := PyList.minBy_le Rule.ruleCode t ts
    have hfirst := PyList.head?_filter_minBy Rule.ruleCode t ts
    rw [← hfilter] at hfirst hleast
    generalize PyList.minBy Rule.ruleCode t ts = winner at hmem hleast hfirst
    obtain ⟨hwinner, hwinnerTop⟩ := List.mem_filter.mp hmem
    have hleast : ∀ b ∈ c :: cs, top b = true → winner.ruleCode ≤ b.ruleCode :=
      fun b hb htopb => hleast b (List.mem_filter.mpr ⟨hb, htopb⟩)
    have hbeats : ∀ b ∈ c :: cs,
        b = winner ∨ Beats winner b ∨ top b = true ∧ b.ruleCode = winner.ruleCode :=
      fun b hb => beats_of_inTop htop hwinner hb hwinnerTop (hleast b hb)
    -- `eraseP` takes out the first candidate at the top with the least code
    refine ⟨_, (PyList.picks_eraseP ?_).congr ?_, rfl, ?_⟩
    · rw [List.filter_filter] at hfirst
      rw [← hfirst]
      congr 2
      funext r
      rw [Bool.and_comm]
      rfl
    · intro r hr
      rw [Bool.and_eq_true, beq_iff_eq]
      constructor
      · intro htopr x hx
        apply not_beats_of_inTop htop hr hx htopr.1
        intro htopx
        rw [htopr.2]
        exact hleast x hx htopx
      · intro hunbeaten
        rcases hbeats r hr with rfl | hbeat | htopr
        · exact ⟨hwinnerTop, rfl⟩
        · exact absurd hbeat (hunbeaten winner hwinner)
        · exact htopr
    · intro b hb
      rcases hbeats b hb with heq | hbeat | htopb
      · exact Or.inl heq
      · exact Or.inr (Or.inl hbeat)
      · exact Or.inr (Or.inr htopb.2)

/-- With distinct codes the election takes the candidate that wins over all the others, and the
    entries are those of the others. -/
theorem resolveConflictGroup_elects {field : String} {c : Rule} {cs : List Rule} {winner : Rule}
    {lost : List SuppressedEntry} (hcodes : ((c :: cs).map Rule.ruleCode).Nodup)
    (h : resolveConflictGroup field c cs = .ok (winner, lost)) :
    winner ∈ c :: cs ∧ Wins (c :: cs) winner ∧
      ∃ others, (c :: cs).Perm (winner :: others) ∧
        lost = others.map fun r => ⟨r.ruleCode, field, "lost conflict group to " ++ winner.ruleCode⟩ := by
  obtain ⟨rest, hpicks, hlost, hbeats⟩ := resolveConflictGroup_picks h
  have hwinner : winner ∈ c :: cs := hpicks.perm.mem_iff.mpr List.mem_cons_self
  refine ⟨hwinner, ?_, rest, hpicks.perm, hlost⟩
  intro b hb hne
  rcases hbeats b hb with heq | hbeat | hcode
  · exact absurd heq hne
  · exact hbeat
  · exact absurd (List.inj_on_of_nodup_map hcodes hb hwinner hcode) hne

/-! ## Fields whose writers are one group -/

/-- The writers all write what one of them writes. -/
def AllAgree (field : String) (rules : List Rule) : Prop :=
  ∃ c ∈ rules, ∀ r ∈ rules, (written field r).beq (written field c) = true

/-- Writers of one group that do not all agree hold an election. -/
theorem conclude_elects {field : String} {ws : List Rule}
    {result : Option PyVal × List SuppressedEntry} (hcodes : (ws.map Rule.ruleCode).Nodup)
    (hne : ws ≠ []) (hgroup : ∃ g, ∀ r ∈ ws, r.conflictGroup = some g)
    (hdisagree : ¬AllAgree field ws) (h : conclude field ws = .ok result) :
    ∃ winner ∈ ws, Wins ws winner ∧ result.1 = some (written field winner) ∧
      ∃ others reason, ws.Perm (winner :: others) ∧
        result.2 = others.map fun r => ⟨r.ruleCode, field, reason⟩ := by
  match ws, hne with
  | [c], _ =>
    cases h
    refine ⟨c, List.mem_cons_self, ?_, rfl, [], "", .refl _, rfl⟩
    intro b hb hne
    exact absurd (List.mem_singleton.mp hb) hne
  | c :: c' :: cs, _ =>
    have hall : ¬∀ r ∈ c :: c' :: cs, (written field r).beq (written field c) = true :=
      fun hall => hdisagree ⟨c, List.mem_cons_self, hall⟩
    rw [conclude_disagree (List.cons_ne_nil _ _) hall, if_pos (sameGroup_iff.mpr hgroup)] at h
    obtain ⟨⟨winner, lost⟩, hwon, rfl⟩ := Except.map_ok_iff.mp h
    obtain ⟨hwinner, hwins, others, hperm, hlost⟩ := resolveConflictGroup_elects hcodes hwon
    exact ⟨winner, hwinner, hwins, rfl, others, _, hperm, hlost⟩

/-- A field on which no suppressor writes, and whose writers are one group that does not agree. -/
structure Contested (field : String) (matched : List Rule) : Prop where
  written : writers field matched ≠ []
  free : ∀ r ∈ writers field matched, r.isSuppressor = false
  group : ∃ g, ∀ r ∈ writers field matched, r.conflictGroup = some g
  disagree : ¬AllAgree field (writers field matched)

theorem Contested.perm {field : String} {matched matched' : List Rule}
    (h : Contested field matched) (hperm : matched.Perm matched') : Contested field matched' := by
  have hwriters : (writers field matched).Perm (writers field matched') := hperm.filter _
  constructor
  · intro hnil
    rw [hnil] at hwriters
    exact h.written hwriters.eq_nil
  · intro r hr
    exact h.free r (hwriters.mem_iff.mpr hr)
  · obtain ⟨g, hg⟩ := h.group
    exact ⟨g, fun r hr => hg r (hwriters.mem_iff.mpr hr)⟩
  · intro hagree
    obtain ⟨c, hc, hall⟩ := hagree
    exact h.disagree ⟨c, hwriters.mem_iff.mpr hc, fun r hr => hall r (hwriters.mem_iff.mp hr)⟩

/-- A rule is in a list with distinct codes once, by its code. -/
private theorem countP_ruleCode {rules : List Rule} (hcodes : (rules.map Rule.ruleCode).Nodup)
    {r : Rule} (hr : r ∈ rules) : rules.countP (fun x => x.ruleCode == r.ruleCode) = 1 := by
  have hmem : r.ruleCode ∈ rules.map Rule.ruleCode := List.mem_map_of_mem hr
  have hcount := List.count_eq_one_of_mem hcodes hmem
  rw [List.count_eq_countP, List.countP_map] at hcount
  exact hcount

/-- The election on one field of a resolution. -/
theorem elected {matched : List Rule} (hcodes : (matched.map Rule.ruleCode).Nodup) {res : Resolution}
    (hres : resolve matched = .ok res) {f : String} (hmod : f ∉ modifierFields)
    (hpriority : f ≠ "priority") (h : Contested f matched) :
    ∃ winner ∈ writers f matched, Wins (writers f matched) winner ∧
      res.actions.get? f = some (written f winner) ∧
      ∀ r ∈ writers f matched,
        res.suppressed.countP (fun entry => entry.field == f && entry.ruleCode == r.ruleCode) =
          if r.ruleCode = winner.ruleCode then 0 else 1 := by
  have hstanding : standing f matched = writers f matched := standing_of_no_suppressor h.free
  have hnodup : ((writers f matched).map Rule.ruleCode).Nodup :=
    hcodes.sublist (List.filter_sublist.map _)
  have hdecides := allDecided_of_resolve hres f hmod
  obtain ⟨lost, hconclude, hpassed⟩ := decides_writers_iff.mp hdecides
  rw [hstanding] at hconclude
  obtain ⟨winner, hwinner, hwins, hvalue, others, reason, hperm, hlost⟩ :=
    conclude_elects hnodup h.written h.group h.disagree hconclude
  refine ⟨winner, hwinner, hwins, (get?_resolve hres hmod hpriority).trans hvalue, ?_⟩
  -- nobody is suppressed, so that all the entries are those of the election
  have hentries : passedOver f matched = others.map fun r => ⟨r.ruleCode, f, reason⟩ := by
    have hnone : (applySuppression f (writers f matched)).2 = [] := by
      rcases applySuppression_cases f (writers f matched) with
        ⟨-, heq⟩ | ⟨⟨r, hr, hsup⟩, -⟩ | ⟨s, ss, hsuppressors, -⟩
      · rw [heq]
      · rw [h.free r hr] at hsup
        cases hsup
      · have hs : s ∈ (writers f matched).filter Rule.isSuppressor := by
          rw [hsuppressors]
          exact List.mem_cons_self
        have hsup := h.free s (List.mem_filter.mp hs).1
        rw [(List.mem_filter.mp hs).2] at hsup
        cases hsup
    have hlost : lost = others.map fun r => ⟨r.ruleCode, f, reason⟩ := hlost
    rw [hpassed, hnone, List.nil_append, hlost]
  intro r hr
  have hone := countP_ruleCode hnodup hr
  rw [hperm.countP_eq, List.countP_cons] at hone
  have hcount : res.suppressed.countP (fun entry => entry.field == f && entry.ruleCode == r.ruleCode) =
      others.countP fun x => x.ruleCode == r.ruleCode := by
    have hswap : (fun entry : SuppressedEntry => entry.field == f && entry.ruleCode == r.ruleCode) =
        fun entry => entry.ruleCode == r.ruleCode && entry.field == f := by
      funext entry
      exact Bool.and_comm _ _
    rw [hswap, ← List.countP_filter, filter_suppressed hres hmod, hentries, List.countP_map]
    rfl
  rw [hcount]
  by_cases hcode : r.ruleCode = winner.ruleCode
  · rw [if_pos hcode]
    rw [if_pos (by simp [hcode])] at hone
    omega
  · rw [if_neg hcode]
    rw [if_neg (by simpa using Ne.symm hcode)] at hone
    omega

/-- Inside one conflict group the field has the value of the one writer that wins over all the
    others, in every order of the list; the entries of the field name the others, once each. -/
theorem election (matched : List Rule) (hcodes : (matched.map Rule.ruleCode).Nodup)
    (res : Resolution) (hres : resolve matched = .ok res) (f : String) (hmod : f ∉ modifierFields)
    (hpriority : f ≠ "priority") (h : Contested f matched) :
    ∃ winner ∈ writers f matched, Wins (writers f matched) winner ∧
      (∀ r ∈ writers f matched, Wins (writers f matched) r → r = winner) ∧
      res.actions.get? f = some (written f winner) ∧
      (∀ matched' res', matched.Perm matched' → resolve matched' = .ok res' →
        res'.actions.get? f = some (written f winner)) ∧
      ∀ r ∈ writers f matched,
        res.suppressed.countP (fun entry => entry.field == f && entry.ruleCode == r.ruleCode) =
          if r.ruleCode = winner.ruleCode then 0 else 1 := by
  obtain ⟨winner, hwinner, hwins, hvalue, hcount⟩ := elected hcodes hres hmod hpriority h
  refine ⟨winner, hwinner, hwins, ?_, hvalue, ?_, hcount⟩
  · intro r hr hwins'
    exact hwins'.unique hr hwinner hwins
  · intro matched' res' hperm hres'
    have hcodes' : (matched'.map Rule.ruleCode).Nodup := (hperm.map _).nodup_iff.mp hcodes
    have hwriters : (writers f matched).Perm (writers f matched') := hperm.filter _
    obtain ⟨winner', hwinner', hwins', hvalue', -⟩ :=
      elected hcodes' hres' hmod hpriority (h.perm hperm)
    -- the same candidate wins in the other order
    have hsame : winner' = winner := by
      apply Wins.unique (hwriters.mem_iff.mpr hwinner') hwinner _ hwins
      intro b hb hne
      exact hwins' b (hwriters.mem_iff.mp hb) hne
    rw [hvalue', hsame]

/-! ## Examples -/

/-- A rule of the reroute group. -/
def groupRule (ruleCode : String) (priorityWeight : Int) (value : PyVal) : Rule :=
  { PipelineOrchestrator.fieldRule ruleCode "rerouteTraffic" value with
    priorityWeight, conflictGroup := some "reroute" }

theorem election_reroute :
    ∃ res, resolve [groupRule "R2" 50 (.str "north"), groupRule "R1" 50 (.str "south")] = .ok res ∧
      res.actions.get? "rerouteTraffic" = some (.str "south") := by
  let rules := [groupRule "R2" 50 (.str "north"), groupRule "R1" 50 (.str "south")]
  have hresolve : (resolve rules).isOk = true := by decide +kernel
  obtain ⟨res, hres⟩ := Except.isOk_iff.mp hresolve
  have hwriters : writers "rerouteTraffic" rules = rules := rfl
  have hcontested : Contested "rerouteTraffic" rules := by
    constructor
    · rw [hwriters]
      simp [rules]
    · rw [hwriters]
      intro r hr
      cases List.mem_pair.mp hr with
      | inl hfirst => rw [hfirst]; rfl
      | inr hsecond => rw [hsecond]; rfl
    · rw [hwriters]
      refine ⟨"reroute", ?_⟩
      intro r hr
      cases List.mem_pair.mp hr with
      | inl hfirst => rw [hfirst]; rfl
      | inr hsecond => rw [hsecond]; rfl
    · rw [hwriters]
      intro hagree
      obtain ⟨c, hc, hall⟩ := hagree
      have hnorth := hall (groupRule "R2" 50 (.str "north")) List.mem_cons_self
      have hsouth := hall (groupRule "R1" 50 (.str "south")) (List.mem_cons_of_mem _ List.mem_cons_self)
      cases List.mem_pair.mp hc with
      | inl hfirst => rw [hfirst] at hsouth; revert hsouth; decide
      | inr hsecond => rw [hsecond] at hnorth; revert hnorth; decide
  obtain ⟨winner, hwinner, hwins, -, hvalue, -⟩ :=
    election rules (by decide) res hres "rerouteTraffic" (by decide) (by decide) hcontested
  refine ⟨res, hres, ?_⟩
  rw [hwriters] at hwinner hwins
  cases List.mem_pair.mp hwinner with
  | inr hsecond =>
    rw [hvalue, hsecond]
    rfl
  | inl hfirst =>
    -- R1 comes first by its code
    have hbeats := hwins (groupRule "R1" 50 (.str "south")) (List.mem_cons_of_mem _ List.mem_cons_self)
      (by rw [hfirst]; intro heq; exact absurd (congrArg Rule.ruleCode heq) (by decide))
    rw [hfirst] at hbeats
    rcases hbeats with hweight | ⟨-, m, n, hm, hn, hspec⟩
    · exact absurd hweight (by decide)
    · have hm' : m = 1 := (Except.ok.inj hm).symm
      have hn' : n = 1 := (Except.ok.inj hn).symm
      rcases hspec with hlt | ⟨-, hcode⟩
      · omega
      · exact absurd hcode (by decide)

end ConflictResolver

end PulseGuard
