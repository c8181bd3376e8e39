import PulseGuard.Spec.RollbackUndoes
import PulseGuard.Spec.RuleEntries

/-!
# The audit trail

What the entries of a pack say of its status. An activation writes one entry, for the pack it was
asked for, and deprecates whatever else of the name was active; a rollback shows, before, the
status of the version it rolls back from. So the entries of every pack form a chain up to its
status as long as no activation or rollback finds such packs (`audit_chain`);
`deprecation_unaudited` is an activation that does.
-/

namespace PulseGuard

variable {σ ρ : Type}

/-- The status that a snapshot of a pack shows. -/
def AuditSnapshot.status : AuditSnapshot → Option PackStatus
  | pack _ _ _ status => some status
  | rollback _ _ status => some status
  | rule _ _ => none

/-- The entries of one pack: `list_by_entity("rule_pack", str(pack_id))`. -/
def packEntries (u : Uuid) (audit : List AuditLogEntry) : List AuditLogEntry :=
  audit.filter fun entry => entry.entityType == "rule_pack" && entry.entityId == toString u

/-- Every entry shows, before, what the one before it shows after: the first `start`, and the last
    entry shows `current` after. -/
def StatusChain : Option PackStatus → List AuditLogEntry → Option PackStatus → Prop
  | start, [], current => start = current
  | start, entry :: rest, current => entry.before.bind AuditSnapshot.status = start ∧
    StatusChain (entry.after.bind AuditSnapshot.status) rest current

/-- The status of a pack of the catalogue, if it is there. -/
def Catalogue.status (c : Catalogue) (u : Uuid) : Option PackStatus := (c u).map RulePack.status

theorem Catalogue.status_of_eq {c : Catalogue} {u : Uuid} {p : RulePack} (h : c u = some p) :
    c.status u = some p.status := congrArg (Option.map RulePack.status) h

/-- No pack with a name is active but `v`. -/
def NoOtherActive (c : Catalogue) (name : String) (v : Uuid) : Prop :=
  ∀ w q, c w = some q → q.name = name → q.status = .active → w = v

/-- The calls that move packs through their lifecycle. -/
def Call.OfLifecycle : Call → Prop
  | createRulePack .. | importRulePack .. | updateMetadata .. | publish .. | activate ..
  | rollback .. | softDelete .. => True
  | _ => False

/-- The condition on a call. An activation that goes through finds the pack it was asked for under
    its name and version, and nothing else of the name is active. A rollback that goes through finds
    nothing but the parent active, whose status the version it rolls back from has too; in memory,
    where the statuses before are read after the activation, a version that is its own parent is
    active already. An update of metadata in memory sets metadata only. -/
def Call.Audited (repo : RulePackRepository σ ρ) (V : StoreView σ) : Call → App σ → Prop
  | updateMetadata _ _ _ fields, _ => V.inPlace → fields.all PackAttr.isMetadata = true
  | activate packId _ _ lock, app => ∀ ref v p, repo.getById packId app.repository = some ref →
    canTransition (repo.pack app.repository ref).status .active = true →
    Under repo app.repository (repo.pack app.repository ref).name
      (repo.pack app.repository ref).version v →
    V.catalogue app.repository v = some p → LockMatches lock p →
    v = packId ∧ NoOtherActive (V.catalogue app.repository) (repo.pack app.repository ref).name v
  | rollback name currentVersion _ _ lock, app => ∀ ref parentVersion v p,
    repo.get name currentVersion app.repository = some ref →
    (repo.pack app.repository ref).parentVersion = some parentVersion →
    LockMatches lock (repo.pack app.repository ref) →
    Under repo app.repository name parentVersion v → V.catalogue app.repository v = some p →
    (repo.pack app.repository ref).status = p.status ∧
      (V.inPlace → (repo.pack app.repository ref).id = some v → p.status = .active) ∧
      NoOtherActive (V.catalogue app.repository) name v
  | _, _ => True

/-- The entries that a call adds form a chain for every pack that is there after it, from its
    status before the call to that after it. -/
def Chains (V : StoreView σ) (app app' : App σ) : Prop :=
  ∃ new, app'.audit = app.audit ++ new ∧ ∀ u q, V.catalogue app'.repository u = some q →
    StatusChain ((V.catalogue app.repository).status u) (packEntries u new) (some q.status)

/-- All entries of a pack form a chain from nothing to its status. -/
def Trail (V : StoreView σ) (app : App σ) : Prop :=
  ∀ u q, V.catalogue app.repository u = some q →
    StatusChain none (packEntries u app.audit) (some q.status)

/-! ## Chains -/

section

variable {a b c : Option PackStatus} {entries rest : List AuditLogEntry}

theorem StatusChain.append (h : StatusChain a entries b) (h' : StatusChain b rest c) :
    StatusChain a (entries ++ rest) c := by
  induction entries generalizing a with
  | nil =>
    cases h
    exact h'
  | cons entry entries ih => exact ⟨h.1, ih h.2⟩

/-- The last entry shows the status at the end. -/
theorem StatusChain.last (h : StatusChain a entries c) :
    (entries.getLast?.map fun entry => entry.after.bind AuditSnapshot.status).getD a = c := by
  induction entries generalizing a with
  | nil => exact h
  | cons entry rest ih =>
    have hrest := ih h.2
    rw [List.getLast?_cons, Option.map_some, Option.getD_some]
    cases hlast : rest.getLast? with
    | none =>
      rw [hlast] at hrest
      exact hrest
    | some last =>
      rw [hlast] at hrest
      exact hrest

/-- Identifiers are told apart by their text. -/
theorem toString_uuid_inj {u v : Uuid} (h : toString u = toString v) : u = v := by
  have hdigits : (Nat.repr u).toList = (Nat.repr v).toList := congrArg String.toList h
  rw [Nat.toList_repr, Nat.toList_repr] at hdigits
  have hvalue := congrArg (Nat.ofDigitChars 10 · 0) hdigits
  simp only [Nat.ofDigitChars_ten_toDigits] at hvalue
  exact hvalue

theorem packEntries_append (u : Uuid) (audit rest : List AuditLogEntry) :
    packEntries u (audit ++ rest) = packEntries u audit ++ packEntries u rest :=
  List.filter_append ..

end

/-! ## What one entry says of a write -/

variable {repo : RulePackRepository σ ρ} {V : StoreView σ} {s t : σ} {u v : Uuid}
  {entry : AuditLogEntry}

/-- An entry says how the status of one pack changed, and no other pack that is there afterwards
    had another status. -/
structure Records (V : StoreView σ) (s t : σ) (u : Uuid) (entry : AuditLogEntry) : Prop where
  entityType : entry.entityType = "rule_pack"
  entityId : entry.entityId = toString u
  before : entry.before.bind AuditSnapshot.status = (V.catalogue s).status u
  after : entry.after.bind AuditSnapshot.status = (V.catalogue t).status u
  stored : ((V.catalogue t).status u).isSome = true
  others : ∀ v ≠ u, ∀ q, V.catalogue t v = some q → (V.catalogue s).status v = some q.status

theorem Records.entries (h : Records V s t u entry) (v : Uuid) :
    packEntries v [entry] = if v = u then [entry] else [] := by
  unfold packEntries
  rw [List.filter_singleton, h.entityType, h.entityId]
  by_cases hv : v = u
  · simp [hv]
  · have hne : (toString u == toString v) = false :=
      beq_false_of_ne fun heq => hv (toString_uuid_inj heq).symm
    rw [hne, Bool.and_false, if_neg hv]
    rfl

/-- The entry is a chain from the status before a write to that after it, for every pack. -/
theorem Records.chain (h : Records V s t u entry) {q : RulePack} (hq : V.catalogue t v = some q) :
    StatusChain ((V.catalogue s).status v) (packEntries v [entry]) (some q.status) := by
  rw [h.entries]
  split
  · rename_i hv
    subst hv
    exact ⟨h.before, h.after.trans (Catalogue.status_of_eq hq)⟩
  · rename_i hv
    exact h.others v hv q hq

/-- The invariant: the entries of every pack lead up to its status, and identifiers that were not
    drawn have none. -/
structure Chained (V : StoreView σ) (app : App σ) : Prop where
  chain : Trail V app
  fresh : ∀ u, V.supply app.repository ≤ u → packEntries u app.audit = []

/-- A write with its entry keeps it. -/
theorem Chained.step {L : Lawful repo V} {app : App σ} {w : Write} (h : Chained V app)
    (hInv : L.Inv app.repository) (hInv' : L.Inv t) (hstep : WriteStep repo V app.repository w t)
    (hentry : Records V app.repository t u entry) : Chained V (writeAudit app t entry) := by
  constructor
  · intro v q hq
    have hq : V.catalogue t v = some q := hq
    have hnew := hentry.chain hq
    show StatusChain none (packEntries v (app.audit ++ [entry])) (some q.status)
    rw [packEntries_append]
    rcases hstep.sighting hq with ⟨p, -, hsupply, -⟩ | ⟨p, hp, -⟩
    · -- a pack that came in was not there, and has no entries
      have hnone : V.catalogue app.repository v = none := by
        by_contra hsome
        obtain ⟨p', hp'⟩ := Option.ne_none_iff_exists'.mp hsome
        exact absurd (L.bound hInv hp') (Nat.not_lt.mpr hsupply)
      rw [h.fresh v hsupply, List.nil_append]
      unfold Catalogue.status at hnew
      rwa [hnone, Option.map_none] at hnew
    · have hold := h.chain v p hp
      rw [Catalogue.status_of_eq hp] at hnew
      exact hold.append hnew
  · intro v hv
    have hv : V.supply t ≤ v := hv
    show packEntries v (app.audit ++ [entry]) = []
    have hne : v ≠ u := by
      rintro rfl
      obtain ⟨status, hstatus⟩ := Option.isSome_iff_exists.mp hentry.stored
      obtain ⟨q, hq, -⟩ := Option.map_eq_some_iff.mp hstatus
      exact absurd (L.bound hInv' hq) (Nat.not_lt.mpr hv)
    rw [packEntries_append, h.fresh v (le_trans hstep.1 hv), hentry.entries, if_neg hne,
      List.nil_append]

/-! ## What the operations return -/

/-- A pack that was returned has the identifier of a stored one, and shows its status. -/
def Shows (repo : RulePackRepository σ ρ) (V : StoreView σ) (s : σ) (ref : ρ) (u : Uuid) : Prop :=
  (repo.pack s ref).id = some u ∧ (V.catalogue s).status u = some (repo.pack s ref).status

/-- What the use cases read of the packs that the operations of a lawful repository return, and of
    a pack they hold while another is activated. -/
structure Lawful.Reports (L : Lawful repo V) : Prop where
  saveNew : ∀ {s p r t}, L.Inv s → p.id = none →
    (∀ ref ∈ repo.listVersions p.name s, (repo.pack s ref).version ≠ p.version) ∨
      repo.get p.name p.version s = none →
    repo.save (repo.new p s).1 (repo.new p s).2 = .ok (r, t) →
    ∃ u, V.catalogue s u = none ∧ Shows repo V t r u
  updateMetadata : ∀ {s u p lock fields r t}, L.Inv s → V.catalogue s u = some p →
    p.status = .draft → (V.inPlace → fields.all PackAttr.isMetadata = true) →
    repo.updateMetadata u lock fields s = .ok (r, t) → Shows repo V t r u
  publish : ∀ {s u p r t}, L.Inv s → V.catalogue s u = some p → p.status = .draft →
    (ValidateRulePackUseCase.execute p).isValid = true →
    repo.updateStatus u .published none s = .ok (r, t) → Shows repo V t r u
  softDelete : ∀ {s u p lock r t}, L.Inv s → V.catalogue s u = some p → p.status ≠ .active →
    repo.softDelete u lock s = .ok (r, t) → Shows repo V t r u
  activate : ∀ {s name version lock r t}, L.Inv s →
    repo.activate name version lock s = .ok (r, t) →
    ∃ u, Under repo s name version u ∧ Shows repo V t r u
  held : ∀ {s ref u name version lock r t}, L.Inv s → L.Reads s ref u →
    repo.activate name version lock s = .ok (r, t) →
    ¬V.inPlace ∧ repo.pack t ref = repo.pack s ref ∨
      V.inPlace ∧ V.catalogue t u = some (repo.pack t ref)

/-! ## One call -/

/-- An entry of one pack, before and after. -/
theorem Records.of_put {p p' : RulePack} (hp : V.catalogue s u = some p)
    (ht : V.catalogue t = (V.catalogue s).put u p') (htype : entry.entityType = "rule_pack")
    (hid : entry.entityId = toString u)
    (hbefore : entry.before.bind AuditSnapshot.status = some p.status)
    (hafter : entry.after.bind AuditSnapshot.status = (V.catalogue t).status u) :
    Records V s t u entry := by
  refine ⟨htype, hid, hbefore.trans (Catalogue.status_of_eq hp).symm, hafter, ?_,
    fun v hv q hq => ?_⟩
  · unfold Catalogue.status
    rw [ht, Catalogue.put_self]
    rfl
  · rw [ht, Catalogue.put_of_ne hv] at hq
    exact Catalogue.status_of_eq hq

/-- An activation that finds nothing else of the name active leaves the other statuses. -/
theorem status_of_activate {c : Catalogue} {name : String} {p q : RulePack}
    (hothers : NoOtherActive c name u) (hv : v ≠ u) (hq : c.activate name u p v = some q) :
    c.status v = some q.status := by
  rcases Catalogue.activate_eq_some hq with ⟨rfl, -⟩ | ⟨-, p', hp', rfl⟩
  · exact absurd rfl hv
  · have hkept : Catalogue.deprecateNamed name p' = p' := by
      unfold Catalogue.deprecateNamed
      exact if_neg fun hcond => hv (hothers v p' hp' hcond.1 hcond.2)
    rw [hkept]
    exact Catalogue.status_of_eq hp'

namespace Lawful

variable {L : Lawful repo V} {app app' : App σ} {r : ρ} {actor : String}

/-- A call wrote once, and recorded it. -/
def Recorded (L : Lawful repo V) (app app' : App σ) : Prop :=
  ∃ t w u entry, app' = writeAudit app t entry ∧ L.Inv t ∧ WriteStep repo V app.repository w t ∧
    Records V app.repository t u entry

/-- A write of one pack, recorded with the pack before and after. -/
theorem Recorded.of_update {packId : Uuid} {ref : ρ} {p' : RulePack} {w : Write} {action : String}
    {reason : Option String} (hInv : L.Inv app.repository)
    (hget : repo.getById packId app.repository = some ref) (hInv' : L.Inv t)
    (hstep : WriteStep repo V app.repository w t)
    (ht : V.catalogue t = (V.catalogue app.repository).put packId p')
    (hshows : Shows repo V t r packId) :
    L.Recorded app (writeAudit app t
      (changeEntry packId action actor (repo.pack app.repository ref) (repo.pack t r) reason)) := by
  have hp := (L.reads hInv (L.getById hInv hget)).1
  exact ⟨t, w, packId, _, rfl, hInv', hstep, .of_put hp ht rfl rfl rfl hshows.2.symm⟩

namespace Reports

variable (R : L.Reports)
include R

/-- A new pack, recorded with what the save returned. -/
theorem recorded_saveNew {p : RulePack} {action : String} (hInv : L.Inv app.repository)
    (hid : p.id = none)
    (hfree : (∀ ref ∈ repo.listVersions p.name app.repository,
      (repo.pack app.repository ref).version ≠ p.version) ∨
        repo.get p.name p.version app.repository = none)
    (hsave : repo.save (repo.new p app.repository).1 (repo.new p app.repository).2 = .ok (r, t)) :
    L.Recorded app (writeAudit app t (arrivalEntry action actor (repo.pack t r))) := by
  obtain ⟨u, hnone, hid', hshown⟩ := R.saveNew hInv hid hfree hsave
  obtain ⟨hInv', hstep, -⟩ := L.saveNew hInv hid hfree hsave
  refine ⟨t, _, u, _, rfl, hInv', hstep, rfl, ?_, ?_, hshown.symm, ?_, fun v hv q hq => ?_⟩
  · simp only [arrivalEntry, idText, hid', Option.map_some, Option.getD_some]
  · unfold Catalogue.status
    rw [hnone]
    rfl
  · rw [hshown]
    rfl
  · obtain ⟨-, heffect⟩ := hstep
    cases heffect with
    | @saveNew _ p' u' lost _ hsupply hu hname hversion hstatus hregion hrules hlost ht =>
      -- the pack that came in is the one that was returned
      have hu' : u = u' := by
        obtain ⟨q', hq', -⟩ := Option.map_eq_some_iff.mp hshown
        rw [ht] at hq'
        rcases Catalogue.put_eq_some hq' with ⟨heq, -⟩ | ⟨-, hq'⟩
        · exact heq
        · have hold := (Catalogue.drop_eq_some hq').2
          rw [hnone] at hold
          cases hold
      rw [ht, Catalogue.put_of_ne (hu' ▸ hv)] at hq
      exact Catalogue.status_of_eq (Catalogue.drop_eq_some hq).2

theorem recorded_createRulePack {name : String} {region tenantId : Option String} {rules : List Rule}
    (hInv : L.Inv app.repository)
    (h : CreateRulePackUseCase.execute repo name region tenantId rules actor app = .ok (r, app')) :
    L.Recorded app app' := by
  have hperforms := L.createRulePack_performs h
  obtain ⟨t, hsave, rfl⟩ := CreateRulePackUseCase.execute_ok h
  cases hperforms with
  | saveNew hid hfree _ => exact R.recorded_saveNew hInv hid hfree hsave

theorem recorded_importRulePack {document : RulePackDocument} (hInv : L.Inv app.repository)
    (h : ImportRulePackUseCase.execute repo document actor app = .ok (r, app')) :
    L.Recorded app app' := by
  obtain ⟨name', rules', hname', hrules', -, hperforms⟩ := L.importRulePack_performs h
  obtain ⟨name, rules, t, hname, hrules, -, hsave, rfl⟩ := ImportRulePackUseCase.execute_ok h
  rw [hname] at hname'
  cases hname'
  cases hrules.symm.trans hrules'
  cases hperforms with
  | saveNew hid hfree _ => exact R.recorded_saveNew hInv hid hfree hsave

theorem recorded_updateMetadata {packId : Uuid} {lock : Option Nat} {fields : List PackAttr}
    (hInv : L.Inv app.repository) (hmeta : V.inPlace → fields.all PackAttr.isMetadata = true)
    (h : UpdateRulePackMetadataUseCase.execute repo packId actor lock fields app = .ok (r, app')) :
    L.Recorded app app' := by
  obtain ⟨ref, t, hget, hdraft, hupdate, rfl⟩ := UpdateRulePackMetadataUseCase.execute_ok h
  have hp := (L.reads hInv (L.getById hInv hget)).1
  obtain ⟨hInv', hstep⟩ := L.updateMetadata hInv hp hdraft hmeta hupdate
  have hshows := R.updateMetadata hInv hp hdraft hmeta hupdate
  obtain ⟨-, heffect⟩ := id hstep
  cases heffect with
  | updateMetadata _ _ _ _ _ _ ht => exact .of_update hInv hget hInv' hstep ht hshows

theorem recorded_softDelete {packId : Uuid} {reason : Option String} {lock : Option Nat}
    (hInv : L.Inv app.repository)
    (h : SoftDeleteRulePackUseCase.execute repo packId actor reason lock app = .ok (r, app')) :
    L.Recorded app app' := by
  obtain ⟨ref, t, hget, hactive, hdelete, rfl⟩ := SoftDeleteRulePackUseCase.execute_ok h
  have hp := (L.reads hInv (L.getById hInv hget)).1
  obtain ⟨hInv', hstep⟩ := L.softDelete hInv hp hactive hdelete
  have hshows := R.softDelete hInv hp hactive hdelete
  obtain ⟨-, heffect⟩ := id hstep
  cases heffect with
  | softDelete _ _ _ ht => exact .of_update hInv hget hInv' hstep ht hshows

theorem recorded_publish {packId : Uuid} (hInv : L.Inv app.repository)
    (h : PublishRulePackUseCase.execute repo packId actor app = .ok (r, app')) :
    L.Recorded app app' := by
  obtain ⟨ref, t, hget, htransition, hvalid, hupdate, rfl⟩ := PublishRulePackUseCase.execute_ok h
  have hp := (L.reads hInv (L.getById hInv hget)).1
  have hdraft := draft_of_canTransition_published htransition
  obtain ⟨hInv', hstep⟩ := L.publish hInv hp hdraft hvalid hupdate
  have hshows := R.publish hInv hp hdraft hvalid hupdate
  obtain ⟨-, heffect⟩ := id hstep
  cases heffect with
  | publish _ _ _ ht => exact .of_update hInv hget hInv' hstep ht hshows

theorem recorded_activate {packId : Uuid} {reason : Option String} {lock : Option Nat}
    (hInv : L.Inv app.repository)
    (hcall : (Call.activate packId actor reason lock).Audited repo V app)
    (h : ActivateRulePackUseCase.execute repo packId actor reason lock app = .ok (r, app')) :
    L.Recorded app app' := by
  obtain ⟨ref, t, hget, htransition, hactivate, rfl⟩ := ActivateRulePackUseCase.execute_ok h
  have hcurrent := (L.reads hInv (L.getById hInv hget)).1
  obtain ⟨u, hunder, hid, hshown⟩ := R.activate hInv hactivate
  obtain ⟨hInv', hstep⟩ : L.Inv t ∧ WriteStep repo V app.repository
    (.activate (some packId) _ _ lock) t := L.activate hInv hactivate
  obtain ⟨-, heffect⟩ := id hstep
  cases heffect with
  | @activate p p' _ v _ _ _ _ hp hunder' hlock hp' _ ht =>
    obtain rfl := hunder.unique hunder'
    obtain ⟨rfl, hothers⟩ := hcall ref v p hget htransition hunder hp hlock
    refine ⟨t, _, v, _, rfl, hInv', hstep, rfl, rfl, ?_, hshown.symm, ?_, fun w hw q hq => ?_⟩
    · rw [Catalogue.status_of_eq hcurrent]
      rfl
    · rw [hshown]
      rfl
    · rw [ht] at hq
      exact status_of_activate hothers hw hq

theorem recorded_rollback {name : String} {currentVersion : Int} {reason : Option String}
    {lock : Option Nat} (hInv : L.Inv app.repository)
    (hcall : (Call.rollback name currentVersion actor reason lock).Audited repo V app)
    (h : RollbackRulePackUseCase.execute repo name currentVersion actor reason lock app =
      .ok (r, app')) : L.Recorded app app' := by
  obtain ⟨ref, parentVersion, t, hget, hparent, hlock, hactivate, rfl⟩ :=
    RollbackRulePackUseCase.execute_ok h
  obtain ⟨w, hreads⟩ := L.get hInv hget
  obtain ⟨hcurrent, hcurrentId⟩ := L.reads hInv hreads
  obtain ⟨u, hunder, hid, hshown⟩ := R.activate hInv hactivate
  obtain ⟨hInv', hstep⟩ : L.Inv t ∧ WriteStep repo V app.repository
    (.activate none name parentVersion none) t := L.activate hInv hactivate
  obtain ⟨-, heffect⟩ := id hstep
  cases heffect with
  | @activate p p' _ v _ _ _ _ hp hunder' _ hp' _ ht =>
    obtain rfl := hunder.unique hunder'
    obtain ⟨hsame, hown, hothers⟩ := hcall ref parentVersion v p hget hparent hlock hunder hp
    have hbefore : (repo.pack t ref).status = p.status := by
      rcases R.held hInv hreads hactivate with ⟨-, hkept⟩ | ⟨hinPlace, hnow⟩
      · rw [hkept, hsame]
      · by_cases hw : w = v
        · -- the version is its own parent, and read after it went live
          subst hw
          rw [ht, Catalogue.activate_self] at hnow
          cases hnow
          rw [hown hinPlace hcurrentId, hp']
        · rw [ht] at hnow
          have hkept := status_of_activate hothers hw hnow
          rw [Catalogue.status_of_eq hcurrent] at hkept
          rw [← hsame, Option.some.inj hkept]
    refine ⟨t, _, v, _, rfl, hInv', hstep, rfl, ?_, ?_, hshown.symm, ?_, fun w hw q hq => ?_⟩
    · simp only [hid, Option.map_some, Option.getD_some]
    · rw [Catalogue.status_of_eq hp, ← hbefore]
      rfl
    · rw [hshown]
      rfl
    · rw [ht] at hq
      exact status_of_activate hothers hw hq

omit R in
/-- A call that raises leaves what was there. -/
theorem kept_or_recorded_outcome {α : Type} {result : Except PyError (α × App σ)}
    (hok : ∀ a app', result = .ok (a, app') → L.Recorded app app') :
    (outcome app result).2 = app ∨ L.Recorded app (outcome app result).2 := by
  unfold outcome
  split
  · exact Or.inr (hok _ _ rfl)
  · exact Or.inl rfl

/-- A call of the lifecycle leaves what was there, or writes once and records it. -/
theorem kept_or_recorded {call : Call} (hInv : L.Inv app.repository) (hlifecycle : call.OfLifecycle)
    (hcall : call.Audited repo V app) :
    (call.exec repo app).2 = app ∨ L.Recorded app (call.exec repo app).2 := by
  cases call with
  | createRulePack => exact kept_or_recorded_outcome fun _ _ h => R.recorded_createRulePack hInv h
  | importRulePack => exact kept_or_recorded_outcome fun _ _ h => R.recorded_importRulePack hInv h
  | updateMetadata =>
    exact kept_or_recorded_outcome fun _ _ h => R.recorded_updateMetadata hInv hcall h
  | publish => exact kept_or_recorded_outcome fun _ _ h => R.recorded_publish hInv h
  | activate => exact kept_or_recorded_outcome fun _ _ h => R.recorded_activate hInv hcall h
  | rollback => exact kept_or_recorded_outcome fun _ _ h => R.recorded_rollback hInv hcall h
  | softDelete => exact kept_or_recorded_outcome fun _ _ h => R.recorded_softDelete hInv h
  | _ => exact absurd hlifecycle id

/-- A call that meets the condition keeps the chains, and adds to them from the statuses before it
    to those after it. -/
theorem chained_exec {call : Call} (hInv : L.Inv app.repository) (h : Chained V app)
    (hlifecycle : call.OfLifecycle) (hcall : call.Audited repo V app) :
    let app' := (call.exec repo app).2
    L.Inv app'.repository ∧ Chained V app' ∧ Chains V app app' := by
  rcases R.kept_or_recorded hInv hlifecycle hcall with hsame | hrecorded
  · simp only [hsame]
    refine ⟨hInv, h, [], (List.append_nil _).symm, fun u q hq => ?_⟩
    exact Catalogue.status_of_eq hq
  · obtain ⟨t, w, u, entry, hwrote, hInv', hstep, hentry⟩ := hrecorded
    simp only [hwrote]
    exact ⟨hInv', h.step hInv hInv' hstep hentry, [entry], rfl, fun u q hq => hentry.chain hq⟩

/-- So do calls one after another. -/
theorem chained_runCalls {calls : List Call} {app : App σ} (hInv : L.Inv app.repository)
    (h : Chained V app) (hlifecycle : ∀ call ∈ calls, call.OfLifecycle)
    (hcalls : CallsMeet repo (Call.Audited repo V) calls app) :
    L.Inv (runCalls repo calls app).repository ∧ Chained V (runCalls repo calls app) := by
  induction calls generalizing app with
  | nil => exact ⟨hInv, h⟩
  | cons call rest ih =>
    rw [List.forall_mem_cons] at hlifecycle
    obtain ⟨hInv', h', -⟩ := R.chained_exec hInv h hlifecycle.1 hcalls.1
    exact ih hInv' h' hlifecycle.2 hcalls.2

/-- The last of a list of calls, with all that is recorded then. -/
theorem chained_last {calls : List Call} {call : Call} {app : App σ} (hInv : L.Inv app.repository)
    (h : Chained V app) (hlifecycle : ∀ c ∈ calls ++ [call], c.OfLifecycle)
    (hcalls : CallsMeet repo (Call.Audited repo V) (calls ++ [call]) app) :
    let app := runCalls repo calls app
    let app' := (call.exec repo app).2
    Chains V app app' ∧ Trail V app' := by
  rw [CallsMeet.append] at hcalls
  rw [List.forall_mem_append, List.forall_mem_singleton] at hlifecycle
  obtain ⟨hInv', h'⟩ := R.chained_runCalls hInv h hlifecycle.1 hcalls.1
  obtain ⟨-, hall, hnew⟩ := R.chained_exec hInv' h' hlifecycle.2 hcalls.2.1
  exact ⟨hnew, hall.chain⟩

end Reports

end Lawful

/-! ## The two backends -/

namespace InMemoryRulePackRepository

variable {s t : InMemoryStore} {ref r : PackRef} {u : Uuid}

theorem shows_of_mem (hInv : Inv t) (hmem : ref ∈ refs t) (hid : (t.objects ref).id = some u) :
    Shows inMemoryRulePackRepository view t ref u := by
  have hread : catalogue t u = some (t.objects ref) :=
    (catalogue_eq_some_iff hInv).mpr ⟨ref, hmem, hid, rfl⟩
  refine ⟨hid, ?_⟩
  show (catalogue t u).map RulePack.status = some (t.objects ref).status
  rw [hread, Option.map_some]

theorem shows_updateById {lock : Option Nat} {f : RulePack → RulePack} {p : RulePack}
    (hInv : Inv s) (hp : catalogue s u = some p) (hid : (f p).id = p.id)
    (h : updateById u lock f s = .ok (r, t)) : Shows inMemoryRulePackRepository view t r u := by
  obtain ⟨hInv', -, -, ht⟩ := updateById_effect hInv hp hid h
  obtain ⟨ref, hget, -, rfl⟩ := updateById_ok h
  have hr : r = ref := by
    unfold updateById at h
    rw [hget] at h
    obtain ⟨_, -, h⟩ := Except.bind_ok_iff.mp h
    cases h
    rfl
  subst hr
  obtain ⟨hmem, hu⟩ := getById_mem hget
  have hpr : s.objects r = p := by
    rw [catalogue, hget] at hp
    exact Option.some.inj hp
  refine shows_of_mem hInv' hmem ?_
  simp only [assign, Function.update_self]
  rw [hpr, hid, ← hpr]
  exact hu

/-- An activation changes the stored objects in place. -/
theorem held_activate {name : String} {version : Int} {lock : Option Nat} (hInv : Inv s)
    (hmem : ref ∈ refs s) (hid : (s.objects ref).id = some u)
    (h : activate name version lock s = .ok (r, t)) :
    Inv t ∧ ref ∈ refs t ∧ (t.objects ref).id = some u := by
  obtain ⟨hInv', -⟩ := activate_effect none hInv h
  obtain ⟨hstore, hobjects⟩ := activate_objects h
  refine ⟨hInv', ?_, ?_⟩
  · unfold refs
    rw [hstore]
    exact hmem
  · rw [hobjects ref]
    exact hid

theorem reports : lawful.Reports where
  saveNew := by
    intro s p r t hInv hid _ h
    have hr : r = s.nextRef := by
      cases h
      rfl
    subst hr
    obtain ⟨hInv', -⟩ := saveNew_effect hInv hid h
    obtain ⟨hstore, hobjects⟩ := saveNew_ok hid h
    have hmem : s.nextRef ∈ refs t :=
      (Dict.mem_values_iff t.store).mpr ⟨_, by rw [hstore, Dict.get?_set_self]⟩
    refine ⟨s.nextUuid, ?_, shows_of_mem hInv' hmem (by rw [hobjects, Function.update_self])⟩
    -- the identifier is the next of the supply, so no pack had it
    cases hold : catalogue s s.nextUuid with
    | none => exact hold
    | some q => exact absurd (lawful.bound hInv hold) (lt_irrefl _)
  updateMetadata := by
    intro s u p lock fields r t hInv hp _ hmeta h
    obtain ⟨-, -, hid, -⟩ := foldl_set_metadata fields (hmeta trivial) p
    change updateMetadata u lock fields s = .ok (r, t) at h
    unfold updateMetadata at h
    exact shows_updateById hInv hp hid h
  publish := fun hInv hp _ _ h =>
    shows_updateById (f := fun p => { p with status := .published }) hInv hp rfl h
  softDelete := fun hInv hp _ h =>
    shows_updateById (f := fun p => { p with status := .archived }) hInv hp rfl h
  activate := by
    intro s name version lock r t hInv h
    have hget : get name version s = some r := by
      have h : activate name version lock s = .ok (r, t) := h
      unfold activate at h
      split at h
      · cases h
      · rename_i target hget
        obtain ⟨_, -, h⟩ := Except.bind_ok_iff.mp h
        cases h
        exact hget
    have hmem := mem_refs_of_get hget
    obtain ⟨u, hid, -⟩ := hInv.identified r hmem
    obtain ⟨hInv', hmem', hid'⟩ := held_activate hInv hmem hid h
    exact ⟨u, ⟨r, hget, hid⟩, shows_of_mem hInv' hmem' hid'⟩
  held := by
    intro s ref u name version lock r t hInv hreads h
    obtain ⟨hInv', hmem', hid'⟩ := held_activate hInv hreads.1 hreads.2 h
    exact Or.inr ⟨trivial, (catalogue_eq_some_iff hInv').mpr ⟨ref, hmem', hid', rfl⟩⟩

end InMemoryRulePackRepository

namespace PostgresRulePackRepository

variable {order : RowOrder} {s t : PostgresStore} {r : RulePack} {u : Uuid}

theorem shows_of_catalogue (h : catalogue t u = some r) :
    Shows (postgresRulePackRepository order) view t r u := by
  obtain ⟨row, hrow, rfl⟩ := exists_row h
  refine ⟨congrArg some (row?_mem hrow).2, ?_⟩
  show (catalogue t u).map RulePack.status = some (toDomain t row).status
  rw [h, Option.map_some]

theorem reports (order : RowOrder) : (lawful order).Reports where
  saveNew := by
    intro s p r t hInv hid hfree h
    have hnone := first_none_of_free hfree
    change save order p s = .ok (r, t) at h
    rw [save, hnone] at h
    obtain ⟨row, hrowid, -, rfl, -, -, hstatus, -, -, -, -, -, -, ht⟩ := saveNew_effect hInv h
    refine ⟨row.id, ?_, rfl, ?_⟩
    · rw [hrowid]
      cases hold : catalogue s s.nextUuid with
      | none => exact hold
      | some q => exact absurd ((lawful order).bound hInv hold) (lt_irrefl _)
    · show (catalogue t row.id).map RulePack.status = some p.status
      rw [ht, Catalogue.put_self, Option.map_some]
      exact congrArg some hstatus
  updateMetadata := by
    intro s u p lock fields r t hInv hp hdraft hmeta h
    obtain ⟨hInv', -⟩ := (lawful order).updateMetadata hInv hp hdraft hmeta h
    have hkeep := fun row => (foldl_setColumn fields false row).1
    exact shows_of_catalogue (updateById_returns hkeep hInv' h)
  publish := by
    intro s u p r t hInv hp hdraft hvalid h
    obtain ⟨hInv', -⟩ := (lawful order).publish hInv hp hdraft hvalid h
    exact shows_of_catalogue (updateById_returns
      (f := fun row => (_, { row with status := .published })) (fun _ => rfl) hInv' h)
  softDelete := by
    intro s u p lock r t hInv hp hactive h
    obtain ⟨hInv', -⟩ := (lawful order).softDelete hInv hp hactive h
    exact shows_of_catalogue (updateById_returns
      (f := fun row => (true, { row with status := .archived })) (fun _ => rfl) hInv' h)
  activate := by
    intro s name version lock r t hInv h
    obtain ⟨hInv', -⟩ := activate_effect none hInv h
    obtain ⟨target, hfirst, hread⟩ := activate_returns hInv' h
    have hget : get order name version s = some (toDomain s target) := by
      unfold get
      rw [hfirst, Option.map_some]
    exact ⟨target.id, ⟨toDomain s target, hget, rfl⟩, shows_of_catalogue hread⟩
  held := fun _ _ _ => Or.inl ⟨id, rfl⟩

end PostgresRulePackRepository

open InMemoryRulePackRepository in
/-- The audit trail as a chain, on either backend: after calls of the lifecycle of which no
    activation or rollback finds other packs of the name active, the entries of every pack lead from
    nothing to its status, and those of the last call from its status before to that after. -/
theorem audit_chain (order : RowOrder) (calls : List Call) (call : Call)
    (hlifecycle : ∀ c ∈ calls ++ [call], c.OfLifecycle) :
    (CallsMeet inMemoryRulePackRepository (Call.Audited inMemoryRulePackRepository view)
        (calls ++ [call]) inMemoryStart →
      let app := runCalls inMemoryRulePackRepository calls inMemoryStart
      let app' := (call.exec inMemoryRulePackRepository app).2
      Chains view app app' ∧ Trail view app') ∧
    let repo := postgresRulePackRepository order
    (CallsMeet repo (Call.Audited repo PostgresRulePackRepository.view) (calls ++ [call])
        postgresStart →
      let app := runCalls repo calls postgresStart
      let app' := (call.exec repo app).2
      Chains PostgresRulePackRepository.view app app' ∧ Trail PostgresRulePackRepository.view app') := by
  constructor
  · intro hcalls
    exact reports.chained_last inv_init ⟨fun u q hq => (by cases hq), fun _ _ => rfl⟩ hlifecycle hcalls
  · intro repo hcalls
    exact (PostgresRulePackRepository.reports order).chained_last PostgresRulePackRepository.inv_init
      ⟨fun u q hq => (by cases hq), fun _ _ => rfl⟩ hlifecycle hcalls

open InMemoryRulePackRepository in
/-- A pack that is created, published and activated. -/
theorem audit_chain_activated :
    Trail view (runCalls inMemoryRulePackRepository
      [createPlain "noc" none, .publish 0 "admin", .activate 0 "admin" none none] inMemoryStart) := by
  have hlifecycle : ∀ c ∈ [createPlain "noc" none, .publish 0 "admin"] ++
      [.activate 0 "admin" none none], c.OfLifecycle := by
    simp [createPlain, Call.OfLifecycle]
  refine ((audit_chain writtenOrder _ _ hlifecycle).1 ⟨trivial, trivial, ?_, trivial⟩).2
  intro ref v p hget _ hunder hp _
  obtain ⟨ref', hget', hid⟩ := hunder
  cases hget
  cases hget'
  cases hid
  refine ⟨rfl, fun w q hq hname hactive => ?_⟩
  obtain ⟨ref, hget, rfl⟩ := Option.map_eq_some_iff.mp hq
  obtain rfl : ref = 0 := List.mem_singleton.mp (getById_mem hget).1
  cases hactive

/-- A version that is live, and a second one that is published. -/
def publishedAfterLive : List Call :=
  [createPlain "noc" none, .publish 0 "admin", .activate 0 "admin" none none,
    createPlain "noc" none, .publish 1 "admin"]

open InMemoryRulePackRepository in
/-- The second version goes live and the first is deprecated, which no entry says. -/
theorem deprecation_unaudited :
    ¬∀ calls call, (∀ c ∈ calls ++ [call], c.OfLifecycle) →
      let app := runCalls inMemoryRulePackRepository calls inMemoryStart
      let app' := (call.exec inMemoryRulePackRepository app).2
      Chains view app app' ∧ Trail view app' := by
  intro h
  have hlifecycle : ∀ c ∈ publishedAfterLive ++ [.activate 1 "admin" none none], c.OfLifecycle := by
    simp [publishedAfterLive, createPlain, Call.OfLifecycle]
  have htrail := (h _ _ hlifecycle).2
  have hdeprecated : catalogue ((Call.activate 1 "admin" none none).exec inMemoryRulePackRepository
      (runCalls inMemoryRulePackRepository publishedAfterLive inMemoryStart)).2.repository 0 =
      some (plainVersion 1 none .deprecated 0 4) := rfl
  have hactivated : (((packEntries 0 ((Call.activate 1 "admin" none none).exec
      inMemoryRulePackRepository (runCalls inMemoryRulePackRepository publishedAfterLive
        inMemoryStart)).2.audit).getLast?).map fun entry =>
      entry.after.bind AuditSnapshot.status).getD none = some .active := rfl
  have hlast := (htrail 0 _ hdeprecated).last
  cases hactivated.symm.trans hlast

end PulseGuard
