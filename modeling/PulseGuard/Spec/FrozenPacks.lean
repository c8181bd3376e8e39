import PulseGuard.Spec.RequestSections

/-!
# Published packs under interleaved requests

Rule edits, publications and activations of one pack, in any interleaving of their sections.
As long as no section comes too late, a pack that was reported published or active keeps that
status and the rules that were validated (`published_packs_frozen`). Nothing makes sure of
that: `delete_undoes_publish` is an edit that saves after the publication of the pack it read.
-/

namespace PulseGuard

open Interleaving PostgresRulePackRepository

variable {ι : Type} {order : RowOrder} {u : Uuid}

/-- The publications and activations are of the pack `u`. -/
def PackRequest.ReleasesOnly (u : Uuid) : PackRequest → Prop
  | edit _ => True
  | publish packId => packId = u
  | activate packId _ => packId = u

/-- No write comes too late for the pack `u`: a save that takes its row finds it a Draft, a
    publication finds the rules that it validated and no activation in between, and the key of
    an activation still leads to the pack. -/
structure InTime (order : RowOrder) (u : Uuid) (x : PackConfig ι) (i : ι) : Prop where
  save : ∀ pack rules q, x.phase i = .holds (.save pack rules) →
    Under (postgresRulePackRepository order) x.state pack.name pack.version u →
    catalogue x.state u = some q → q.status = .draft
  publish : ∀ packId pack q, x.phase i = .holds (.publish packId pack) →
    catalogue x.state u = some q → q.rules = pack.rules ∧ q.status ≠ .active
  activate : ∀ pack lock, x.phase i = .holds (.activate pack lock) →
    Under (postgresRulePackRepository order) x.state pack.name pack.version u

theorem InTime.of_ready {x : PackConfig ι} {i : ι} (h : x.phase i = .ready) : InTime order u x i := by
  constructor <;> simp [h]

/-- An activation has been reported. -/
def SomeActivated (x : PackConfig ι) : Prop :=
  ∃ j pack lock, x.phase j = .wrote (.activate pack lock) (.ok ())

/-- The pack `u` has the status that was reported, and the rules that were validated. -/
structure Frozen (u : Uuid) (x : PackConfig ι) : Prop where
  published : ∀ i packId pack, x.phase i = .wrote (.publish packId pack) (.ok ()) →
    (ValidateRulePackUseCase.execute pack).isValid = true ∧
      ∃ q, catalogue x.state u = some q ∧ q.rules = pack.rules ∧
        (q.status = .published ∨ q.status = .active ∧ SomeActivated x)
  activated : ∀ i pack lock, x.phase i = .wrote (.activate pack lock) (.ok ()) →
    ∃ q, catalogue x.state u = some q ∧ q.rules = pack.rules ∧ q.status = .active

/-- What the phase of a request says of the pack `u` in a state. A pack held for an activation
    is past its Draft, and the rules that were read stay; `activated` says that an activation
    has been reported. -/
def Fits (u : Uuid) (activated : Prop) (s : PostgresStore) : Phase PyError HeldPack Unit → Prop
  | .holds (.save pack _) => pack.status = .draft
  | .holds (.publish packId pack) =>
    packId = u ∧ (ValidateRulePackUseCase.execute pack).isValid = true
  | .holds (.activate pack _) =>
    ∃ q, catalogue s u = some q ∧ q.rules = pack.rules ∧ q.status ≠ .draft
  | .wrote (.publish _ pack) (.ok _) =>
    (ValidateRulePackUseCase.execute pack).isValid = true ∧
      ∃ q, catalogue s u = some q ∧ q.rules = pack.rules ∧
        (q.status = .published ∨ q.status = .active ∧ activated)
  | .wrote (.activate pack _) (.ok _) =>
    ∃ q, catalogue s u = some q ∧ q.rules = pack.rules ∧ q.status = .active
  | _ => True

/-- The invariant of a schedule. -/
structure Freezing (u : Uuid) (x : PackConfig ι) : Prop where
  inv : Inv x.state
  fits : ∀ i, Fits u (SomeActivated x) x.state (x.phase i)

/-- What a section keeps of the pack `u` once it is past its Draft. -/
def Keeps (u : Uuid) (activated : Prop) (s t : PostgresStore) : Prop :=
  ∀ q, catalogue s u = some q → q.status ≠ .draft →
    ∃ q', catalogue t u = some q' ∧ q'.rules = q.rules ∧ q'.status ≠ .draft ∧
      (q.status = .active → q'.status = .active) ∧
      (q.status = .published → q'.status = .published ∨ q'.status = .active ∧ activated)

variable {a b : Prop} {s t : PostgresStore}

theorem Keeps.of_same (h : ∀ q, catalogue s u = some q → q.status ≠ .draft →
    catalogue t u = some q) : Keeps u a s t := by
  intro q hq hdraft
  exact ⟨q, h q hq hdraft, rfl, hdraft, id, Or.inl⟩

/-- What a phase says stays true. -/
theorem Fits.keep {phase : Phase PyError HeldPack Unit} (h : Fits u a s phase) (hab : a → b)
    (hkeeps : Keeps u b s t) : Fits u b t phase := by
  cases phase with
  | ready => trivial
  | refused e => trivial
  | holds held =>
    cases held with
    | save pack rules => exact h
    | publish packId pack => exact h
    | activate pack lock =>
      obtain ⟨q, hq, hrules, hdraft⟩ := h
      obtain ⟨q', hq', hrules', hdraft', -, -⟩ := hkeeps q hq hdraft
      exact ⟨q', hq', hrules'.trans hrules, hdraft'⟩
  | wrote held result =>
    cases result with
    | error e => cases held <;> trivial
    | ok r =>
      cases held with
      | save pack rules => trivial
      | publish packId pack =>
        obtain ⟨hvalid, q, hq, hrules, hstatus⟩ := h
        have hdraft : q.status ≠ .draft := by
          rcases hstatus with hp | ⟨hp, -⟩ <;> rw [hp] <;> decide
        obtain ⟨q', hq', hrules', -, hactive, hpublished⟩ := hkeeps q hq hdraft
        refine ⟨hvalid, q', hq', hrules'.trans hrules, ?_⟩
        rcases hstatus with hp | ⟨hp, ha⟩
        · exact hpublished hp
        · exact Or.inr ⟨hactive hp, hab ha⟩
      | activate pack lock =>
        obtain ⟨q, hq, hrules, hstatus⟩ := h
        have hdraft : q.status ≠ .draft := by
          rw [hstatus]
          decide
        obtain ⟨q', hq', hrules', -, hactive, -⟩ := hkeeps q hq hdraft
        exact ⟨q', hq', hrules'.trans hrules, hactive hstatus⟩

variable [DecidableEq ι] {requests : ι → PackRequest} {x y : PackConfig ι} {i : ι}

/-- A section that leaves request `i` in a phase that fits, and keeps the pack. -/
theorem Freezing.advance (h : Freezing u x) {phase : Phase PyError HeldPack Unit}
    (hopen : ∀ held result, x.phase i ≠ .wrote held result)
    (hInv : Inv t)
    (hkeeps : Keeps u (SomeActivated { state := t, phase := Function.update x.phase i phase })
      x.state t)
    (hfits : Fits u (SomeActivated { state := t, phase := Function.update x.phase i phase }) t
      phase) :
    Freezing u { state := t, phase := Function.update x.phase i phase } := by
  have hreported : SomeActivated x →
      SomeActivated { state := t, phase := Function.update x.phase i phase } := by
    intro ⟨j, pack, lock, hj⟩
    have hji : j ≠ i := by
      intro heq
      exact hopen _ _ (heq ▸ hj)
    exact ⟨j, pack, lock, (Function.update_of_ne hji ..).trans hj⟩
  refine ⟨hInv, fun j => ?_⟩
  show Fits u _ t (Function.update x.phase i phase j)
  by_cases hj : j = i
  · subst hj
    rw [Function.update_self]
    exact hfits
  · rw [Function.update_of_ne hj]
    exact (h.fits j).keep hreported hkeeps

/-- Reading keeps the pack, and what is read fits. -/
theorem fits_of_read {request : PackRequest} {pack : RulePack} {held : HeldPack} {v : Uuid}
    (hrequest : request.ReleasesOnly u) (hpack : catalogue s v = some pack)
    (h : ReadsAs order s v pack request held t) : Fits u a t (.holds held) := by
  cases h with
  | createRule hdraft => exact hdraft
  | updateRule hdraft => exact hdraft
  | deleteRule hdraft => exact hdraft
  | publish _ hvalid => exact ⟨hrequest, hvalid⟩
  | activate htransition =>
    have huv : v = u := hrequest
    refine ⟨pack, huv ▸ hpack, rfl, ?_⟩
    intro hdraft
    rw [hdraft] at htransition
    revert htransition
    decide

/-- A save keeps the pack, when it finds a Draft or takes another row. -/
theorem keeps_of_save {pack : RulePack} {rules : List Rule}
    (hdraft : ∀ q, Under (postgresRulePackRepository order) s pack.name pack.version u →
      catalogue s u = some q → q.status = .draft)
    (h : WritesAs order s (.save pack rules) t) : Keeps u a s t := by
  apply Keeps.of_same
  intro q hq hpast
  cases h with
  | @overwrite _ _ _ _ v _ hunder hv hq' hrules ht =>
    have hne : u ≠ v := by
      intro huv
      subst huv
      exact hpast (hdraft q hunder hq)
    rw [ht, Catalogue.put_of_ne hne, hq]
  | @insert _ _ _ v _ hfirst hnew ht =>
    have hne : u ≠ v := by
      intro huv
      rw [← huv, hq] at hnew
      cases hnew
    rw [ht, Catalogue.put_of_ne hne, hq]

/-- A publication that finds the rules it validated keeps the pack, and is what it reports. -/
theorem keeps_of_publish {pack : RulePack}
    (hvalid : (ValidateRulePackUseCase.execute pack).isValid = true)
    (hintime : ∀ q, catalogue s u = some q → q.rules = pack.rules ∧ q.status ≠ .active)
    (h : WritesAs order s (.publish u pack) t) :
    Keeps u a s t ∧ Fits u a t (.wrote (.publish u pack) (.ok ())) := by
  cases h with
  | @publish _ q _ n _ hq ht =>
    obtain ⟨hrules, hactive⟩ := hintime q hq
    have hnow : catalogue t u = some { q with status := .published, lockVersion := n } := by
      rw [ht, Catalogue.put_self]
    constructor
    · intro q' hq' hdraft
      rw [hq] at hq'
      cases hq'
      exact ⟨_, hnow, rfl, by simp, fun hstatus => absurd hstatus hactive, fun _ => Or.inl rfl⟩
    · exact ⟨hvalid, _, hnow, hrules, Or.inl rfl⟩

/-- An activation whose key leads to the pack keeps it, and is what it reports. -/
theorem keeps_of_activate {pack : RulePack} {lock : Option Nat} (ha : a)
    (hunder : Under (postgresRulePackRepository order) s pack.name pack.version u)
    (hread : ∃ q, catalogue s u = some q ∧ q.rules = pack.rules ∧ q.status ≠ .draft)
    (h : WritesAs order s (.activate pack lock) t) :
    Keeps u a s t ∧ Fits u a t (.wrote (.activate pack lock) (.ok ())) := by
  cases h with
  | @activate _ q _ v n _ hv hq ht =>
    obtain rfl := Under.unique hv hunder
    obtain ⟨q', hq', hrules, -⟩ := hread
    rw [hq] at hq'
    cases hq'
    have hnow : catalogue t u = some { q with status := .active, lockVersion := n } := by
      rw [ht, Catalogue.activate_self]
    constructor
    · intro q' hq' hdraft
      rw [hq] at hq'
      cases hq'
      exact ⟨_, hnow, rfl, by simp, fun _ => rfl, fun _ => Or.inr ⟨rfl, ha⟩⟩
    · exact ⟨_, hnow, hrules, rfl⟩

/-- Every section that comes in time keeps the invariant. -/
theorem Freezing.step (h : Freezing u x) (hrequests : ∀ i, (requests i).ReleasesOnly u)
    (hstep : (packRequests order requests).Step x i y) (hintime : InTime order u x i) :
    Freezing u y := by
  cases hstep with
  | @read held t hphase hread =>
    -- what a request reads leaves every pack as it was
    obtain ⟨v, pack, hpack, hreads⟩ := PackRequest.read_ok h.inv hread
    have hsame : catalogue t = catalogue x.state ∧ Inv t := by
      rcases hreads.state with rfl | rfl
      · exact ⟨rfl, h.inv⟩
      · exact ⟨rfl, (lawful order).inv_uuid4 h.inv⟩
    apply h.advance (by simp [hphase]) hsame.2
    · apply Keeps.of_same
      intro q hq _
      rw [hsame.1, hq]
    · exact fits_of_read (hrequests i) hpack hreads
  | refuse hphase hread =>
    apply h.advance (by simp [hphase]) h.inv
    · exact Keeps.of_same fun q hq _ => hq
    · trivial
  | fail hphase hwrite =>
    apply h.advance (by simp [hphase]) h.inv
    · exact Keeps.of_same fun q hq _ => hq
    · rename_i held _
      cases held <;> trivial
  | idle => exact h
  | @write held r t hphase hwrite =>
    obtain ⟨hInv, hwrites⟩ := HeldPack.write_ok h.inv hwrite
    have hheld : Fits u (SomeActivated x) x.state (.holds held) := hphase ▸ h.fits i
    cases held with
    | save pack rules =>
      -- only a write can touch the pack, and it is in time
      have hdraft := fun q => hintime.save pack rules q hphase
      apply h.advance (by simp [hphase]) hInv
      · exact keeps_of_save hdraft hwrites
      · trivial
    | publish packId pack =>
      obtain ⟨rfl, hvalid⟩ := hheld
      obtain ⟨hkeeps, hfits⟩ :=
        keeps_of_publish hvalid (fun q => hintime.publish _ pack q hphase) hwrites
      exact h.advance (by simp [hphase]) hInv hkeeps hfits
    | activate pack lock =>
      have hreported : SomeActivated
          ⟨t, Function.update x.phase i (.wrote (.activate pack lock) (.ok r))⟩ :=
        ⟨i, pack, lock, Function.update_self ..⟩
      obtain ⟨hkeeps, hfits⟩ :=
        keeps_of_activate hreported (hintime.activate pack lock hphase) hheld hwrites
      exact h.advance (by simp [hphase]) hInv hkeeps hfits

omit [DecidableEq ι] in
theorem Freezing.frozen (h : Freezing u x) : Frozen u x where
  published i packId pack hi := by
    have hfits := h.fits i
    rw [hi] at hfits
    exact hfits
  activated i pack lock hi := by
    have hfits := h.fits i
    rw [hi] at hfits
    exact hfits

/-- From any state that calls lead to: in every interleaving of rule edits with publications and
    activations of a pack in which every write comes in time, the pack keeps the status that was
    reported, and the rules that were validated. -/
theorem published_packs_frozen (order : RowOrder) (calls : List Call) (u : Uuid)
    (requests : ι → PackRequest) (schedule : List ι)
    (hrequests : ∀ i, (requests i).ReleasesOnly u) :
    let repo := postgresRulePackRepository order
    let start : PackConfig ι := .start (runCalls repo calls postgresStart).repository
    let sys := packRequests order requests
    sys.Meets (InTime order u) schedule start → Frozen u (sys.run schedule start) := by
  intro repo start sys hintime
  have hstart : Freezing u start := ⟨inv_runCalls order calls, fun _ => trivial⟩
  have hstep : ∀ x i y, sys.Step x i y → InTime order u x i → Freezing u x → Freezing u y :=
    fun _ _ _ hstep hP h => h.step hrequests hstep hP
  exact ((sys.run_where hintime).invariant _ hstep hstart).frozen

/-- A rule is deleted, and the pack published and activated, by one request each. -/
def releaseAfter (edit : RuleEdit) : Nat → PackRequest
  | 0 => .edit edit
  | 1 => .publish 0
  | _ => .activate 0 none

/-- A rule is deleted, then the pack is published, then it is activated. -/
theorem published_packs_frozen_sequential :
    Frozen 0 ((packRequests writtenOrder (releaseAfter (.deleteRule 1))).run [0, 0, 1, 1, 2, 2]
      (.start onePack)) := by
  have hrequests : ∀ i, (releaseAfter (.deleteRule 1) i).ReleasesOnly 0 := by
    intro i
    match i with
    | 0 => trivial
    | 1 => rfl
    | _ + 2 => rfl
  have hintime : (packRequests writtenOrder (releaseAfter (.deleteRule 1))).Meets
      (InTime writtenOrder 0) [0, 0, 1, 1, 2, 2] (.start onePack) := by
    refine ⟨.of_ready rfl, ⟨?_, ?_, ?_⟩, .of_ready rfl, ⟨?_, ?_, ?_⟩, .of_ready rfl, ⟨?_, ?_, ?_⟩,
      trivial⟩
    · -- the save finds the Draft
      intro pack rules q hheld _ hq
      cases hq
      rfl
    · intro packId pack q hheld
      cases hheld
    · intro pack lock hheld
      cases hheld
    · intro pack rules q hheld
      cases hheld
    · -- the publication finds the rules without the deleted one
      intro packId pack q hheld hq
      cases hheld
      cases hq
      exact ⟨rfl, by decide⟩
    · intro pack lock hheld
      cases hheld
    · intro pack rules q hheld
      cases hheld
    · intro packId pack q hheld
      cases hheld
    · -- the key still leads to the pack
      intro pack lock hheld
      cases hheld
      exact ⟨_, rfl, rfl⟩
  exact published_packs_frozen writtenOrder [createPlain "noc" none] 0 (releaseAfter (.deleteRule 1))
    [0, 0, 1, 1, 2, 2] hrequests hintime

/-- A deletion reads the Draft, the pack is published, and the deletion saves: the pack is a
    Draft again. -/
theorem delete_undoes_publish :
    ¬∀ (edit : RuleEdit) (schedule : List Nat),
      Frozen 0 ((packRequests writtenOrder (releaseAfter edit)).run schedule (.start onePack)) := by
  intro h
  obtain ⟨-, q, hq, -, hstatus⟩ := (h (.deleteRule 1) [0, 1, 1, 0]).published 1 _ _ rfl
  cases hq
  rcases hstatus with hstatus | ⟨hstatus, -⟩
  · cases hstatus
  · cases hstatus

end PulseGuard
