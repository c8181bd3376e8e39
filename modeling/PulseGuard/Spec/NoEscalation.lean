import PulseGuard.ForStd.Except
import PulseGuard.Native.Api
import PulseGuard.Native.InMemoryRulePackRepository

/-!
# What a self-registered caller may do

A caller sends requests among those of others, with the tokens it was given and the passwords of the
accounts it registered. Registration grants every known role that is asked for, so a caller that asks
for an administrator's role gets one (`self_registered_admin`). One that asks for no more than the
default role never holds a token with another permission, and changes no rule pack
(`no_escalation`).
-/

namespace PulseGuard

variable {σ ρ υ : Type}

/-! ## The caller among others -/

/-- What the caller has: the accounts it registered, and the tokens it was given. -/
structure Caller where
  accounts : List Uuid
  held : List String

/-- A caller that was never given anything. -/
def Caller.unknown : Caller where
  accounts := []
  held := []

/-- What the response to a request adds. -/
def Caller.learn (caller : Caller) : Request → Response → Caller
  | .register _, .user body => { caller with accounts := body.id :: caller.accounts }
  | _, .tokens body =>
    { caller with held := body.accessToken :: body.refreshToken :: caller.held }
  | _, _ => caller

/-- The server, and what the caller has. -/
structure World (σ υ : Type) where
  server : Server σ υ
  caller : Caller

/-- A request at a time, of the caller or of someone else. -/
structure Event where
  byCaller : Bool
  now : Nat
  request : Request

/-- The permissions of the role that a registration without roles gets. -/
def defaultPermissions : List String := resolvePermissions (requestedRoles none)

/-- Roles with no permission beyond those of the default role. -/
def Modest (roles : List String) : Prop := ∀ code ∈ resolvePermissions roles, code ∈ defaultPermissions

/-- The caller registers with such roles only. -/
def Event.Modest (e : Event) : Prop :=
  e.byCaller = true → ∀ body, e.request = .register body → PulseGuard.Modest (requestedRoles body.roles)

namespace Platform

variable (P : Platform σ ρ υ)

/-- What one request does. -/
def step (w : World σ υ) (e : Event) : World σ υ :=
  let (response, server) := P.handle e.now e.request w.server
  { server, caller := if e.byCaller then w.caller.learn e.request response else w.caller }

/-- What requests do one after another. -/
def run : List Event → World σ υ → World σ υ
  | [], w => w
  | e :: rest, w => run rest (P.step w e)

/-- A token that the caller can present: one it was given, or one that is not accepted. -/
def CanPresent (caller : Caller) (now : Nat) (expectedType token : String) : Prop :=
  token ∈ caller.held ∨
    ∀ payload, decodeToken P.libraries now token P.settings expectedType ≠ .ok payload

/-- A request of the caller uses what the caller has: tokens it can present, and the passwords of no
    accounts but its own. -/
def OwnMeans (w : World σ υ) (e : Event) : Prop :=
  e.byCaller = true →
    match e.request with
    | .register _ => True
    | .login email password => ∀ user,
      P.users.getByEmail (PyStr.lower (PyStr.strip email)) w.server.accounts.users = .ok (some user) →
      verifyPassword P.libraries password user.hashedPassword = .ok true →
      user.id ∈ w.caller.accounts
    | .refresh token => P.CanPresent w.caller e.now "refresh" token
    | .me authorization | .rules authorization _ => ∀ token, bearerToken authorization = some token →
      P.CanPresent w.caller e.now "access" token

/-- Every request of a list does, in the state it is made in. -/
def AllOwnMeans : List Event → World σ υ → Prop
  | [], _ => True
  | e :: rest, w => P.OwnMeans w e ∧ AllOwnMeans rest (P.step w e)

/-- No token that the caller holds has a permission beyond those of the default role, and no request
    of the caller changes the rule packs. -/
structure Unprivileged (w : World σ υ) : Prop where
  held : ∀ token ∈ w.caller.held, ∀ now payload,
    decodeToken P.libraries now token P.settings "access" = .ok payload →
    Modest (payload.roles.getD [])
  packs : ∀ e : Event, e.byCaller = true → P.OwnMeans w e →
    (P.step w e).server.app = w.server.app

end Platform

/-- A token that was issued decodes to what it was issued for, if at all. -/
def Libraries.Signs (lib : Libraries) : Prop :=
  ∀ payload now secret algorithm payload',
    lib.decode now (lib.encode payload secret algorithm) secret algorithm = .ok payload' →
    payload' = payload

/-- What the use cases need of a user repository. -/
structure LawfulUsers (repo : UserRepository υ) where
  Inv : υ → Prop
  getById : ∀ {s id user}, Inv s → repo.getById id s = some user → user.id = id
  getByEmail : ∀ {s email user}, Inv s → repo.getByEmail email s = .ok (some user) →
    repo.getById user.id s = some user
  save : ∀ {s user saved t}, Inv s → repo.save user s = .ok (saved, t) → Inv t ∧ saved = user ∧
    ∀ id, repo.getById id t = if id = user.id then some user else repo.getById id s

/-! ## Users -/

namespace LawfulUsers

variable {lib : Libraries} {repo : UserRepository υ} (L : LawfulUsers repo) {s t : Accounts υ}
  {user : User}

/-- Every identifier of an account was drawn. -/
structure Sound (L : LawfulUsers repo) (s : Accounts υ) : Prop where
  inv : L.Inv s.users
  drawn : ∀ id user, repo.getById id s.users = some user → id < s.drawn

/-- Accounts that were there stay as they were. -/
structure Extends (L : LawfulUsers repo) (s t : Accounts υ) : Prop where
  sound : L.Sound t
  drawn : s.drawn ≤ t.drawn
  old : ∀ id < s.drawn, repo.getById id t.users = repo.getById id s.users

variable {L}

theorem Extends.refl (h : L.Sound s) : L.Extends s s := ⟨h, Nat.le_refl _, fun _ _ => rfl⟩

/-- Drawing more identifiers leaves the accounts. -/
theorem Sound.draw (h : L.Sound s) (n : Nat) : L.Extends s { s with drawn := s.drawn + n } := by
  refine ⟨⟨h.inv, fun id user hget => ?_⟩, Nat.le_add_right _ _, fun _ _ => rfl⟩
  exact Nat.lt_of_lt_of_le (h.drawn id user hget) (Nat.le_add_right _ _)

theorem Extends.trans {r : Accounts υ} (h : L.Extends r s) (h' : L.Extends s t) : L.Extends r t := by
  refine ⟨h'.sound, Nat.le_trans h.drawn h'.drawn, fun id hid => ?_⟩
  rw [h'.old id (Nat.lt_of_lt_of_le hid h.drawn), h.old id hid]

/-- A registration brings in one account, under a new identifier, with the roles asked for. -/
theorem Sound.register {email password fullName : String} {roles : Option (List String)}
    (hs : L.Sound s)
    (h : RegisterUserUseCase.execute lib repo email password fullName roles s = .ok (user, t)) :
    L.Extends s t ∧ user.id = s.drawn ∧ s.drawn < t.drawn ∧ user.roles = requestedRoles roles ∧
      repo.getById user.id t.users = some user := by
  unfold RegisterUserUseCase.execute at h
  simp only at h
  split at h
  · cases h
  · split at h
    · cases h
    · obtain ⟨existing, -, h⟩ := Except.bind_ok_iff.mp h
      cases existing with
      | some existing => cases h
      | none =>
        simp only at h
        split at h
        · cases h
        · obtain ⟨⟨saved, users⟩, hsave, h⟩ := Except.bind_ok_iff.mp h
          rw [Except.pure_ok_iff] at h
          cases h
          obtain ⟨hInv, rfl, hget⟩ := L.save hs.inv hsave
          refine ⟨⟨⟨hInv, fun id user hid => ?_⟩, Nat.le_add_right _ _, fun id hid => ?_⟩, rfl, ?_, rfl, ?_⟩
          · rw [hget] at hid
            split at hid
            · rename_i heq
              rw [heq]
              exact Nat.lt_add_of_pos_right Nat.two_pos
            · exact Nat.lt_of_lt_of_le (hs.drawn id user hid) (Nat.le_add_right _ _)
          · rw [hget, if_neg (Nat.ne_of_lt hid)]
          · show s.drawn < s.drawn + 2
            omega
          · rw [hget, if_pos rfl]

/-- A login is to an account that is there, whose password was given, and leaves the accounts. -/
theorem Sound.authenticate {email password : String} (hs : L.Sound s)
    (h : AuthenticateUserUseCase.execute lib repo email password s = .ok (user, t)) :
    L.Extends s t ∧ repo.getById user.id s.users = some user ∧
      repo.getByEmail (PyStr.lower (PyStr.strip email)) s.users = .ok (some user) ∧
      verifyPassword lib password user.hashedPassword = .ok true := by
  unfold AuthenticateUserUseCase.execute at h
  obtain ⟨found, hfound, h⟩ := Except.bind_ok_iff.mp h
  cases found with
  | none => cases h
  | some account =>
    obtain ⟨verified, hverified, h⟩ := Except.bind_ok_iff.mp h
    simp only at h
    split at h
    · cases h
    · rename_i htrue
      split at h
      · cases h
      · obtain ⟨⟨saved, users⟩, hsave, h⟩ := Except.bind_ok_iff.mp h
        rw [Except.pure_ok_iff] at h
        cases h
        obtain ⟨hInv, rfl, hget⟩ := L.save hs.inv hsave
        have hread := L.getByEmail hs.inv hfound
        have hsame : ∀ id, repo.getById id users = repo.getById id s.users := by
          intro id
          rw [hget]
          split
          · rename_i heq
            rw [heq, hread]
          · rfl
        refine ⟨⟨⟨hInv, fun id user hid => ?_⟩, Nat.le_refl _, fun id _ => hsame id⟩, hread, hfound, ?_⟩
        · exact hs.drawn id user (hsame id ▸ hid)
        · have hval : verified = true := by simpa using htrue
          rw [hverified, hval]

end LawfulUsers

/-! ## One request -/

/-- A token as the server issues them: with modest roles, or to renew one of some accounts. -/
def Platform.Harmless (P : Platform σ ρ υ) (accounts : List Uuid) (token : String) : Prop :=
  ∃ payload, token = P.libraries.encode payload P.settings.jwtSecret P.settings.jwtAlgorithm ∧
    (payload.type = "access" ∧ Modest (payload.roles.getD []) ∨
      payload.type = "refresh" ∧ payload.sub ∈ accounts)

/-- The invariant: the accounts of the caller have modest roles, and its tokens are harmless. -/
structure Confined (P : Platform σ ρ υ) (L : LawfulUsers P.users) (w : World σ υ) : Prop where
  sound : L.Sound w.server.accounts
  drawn : ∀ id ∈ w.caller.accounts, id < w.server.accounts.drawn
  modest : ∀ id ∈ w.caller.accounts, ∀ user,
    P.users.getById id w.server.accounts.users = some user → Modest user.roles
  held : ∀ token ∈ w.caller.held, P.Harmless w.caller.accounts token

section

variable {P : Platform σ ρ υ} {L : LawfulUsers P.users} {w : World σ υ} {s : Accounts υ}

theorem Platform.Harmless.mono {accounts accounts' : List Uuid} {token : String}
    (h : P.Harmless accounts token) (hsub : accounts ⊆ accounts') : P.Harmless accounts' token := by
  obtain ⟨payload, htoken, haccess | ⟨htype, hsubject⟩⟩ := h
  · exact ⟨payload, htoken, Or.inl haccess⟩
  · exact ⟨payload, htoken, Or.inr ⟨htype, hsub hsubject⟩⟩

/-- What a harmless token decodes to. -/
theorem Platform.Harmless.decode {accounts : List Uuid} {token expectedType : String} {now : Nat}
    {payload : Payload} (hsigns : P.libraries.Signs) (h : P.Harmless accounts token)
    (hdecode : decodeToken P.libraries now token P.settings expectedType = .ok payload) :
    (expectedType = "access" → Modest (payload.roles.getD [])) ∧
      (expectedType = "refresh" → payload.sub ∈ accounts) := by
  obtain ⟨issued, rfl, hissued⟩ := h
  obtain ⟨decoded, hdecoded, hchecked⟩ := Except.bind_ok_iff.mp hdecode
  obtain rfl := hsigns _ _ _ _ _ hdecoded
  split at hchecked
  · cases hchecked
  · rename_i htype
    rw [Except.pure_ok_iff] at hchecked
    cases hchecked
    have htype : payload.type = expectedType := by simpa using htype
    rw [← htype]
    rcases hissued with ⟨haccess, hmodest⟩ | ⟨hrefresh, hsub⟩
    · refine ⟨fun _ => hmodest, fun hrefresh => ?_⟩
      rw [haccess] at hrefresh
      exact absurd hrefresh (by decide)
    · refine ⟨fun haccess => ?_, fun _ => hsub⟩
      rw [hrefresh] at haccess
      exact absurd haccess (by decide)

/-- The two tokens that are issued to a modest account. -/
theorem harmless_issueTokens {accounts : List Uuid} {userId : Uuid} {roles : List String}
    (hmodest : Modest roles) (hmem : userId ∈ accounts) (now : Nat) :
    P.Harmless accounts (P.issueTokens now userId roles s).1.accessToken ∧
      P.Harmless accounts (P.issueTokens now userId roles s).1.refreshToken :=
  ⟨⟨_, rfl, Or.inl ⟨rfl, hmodest⟩⟩, ⟨_, rfl, Or.inr ⟨rfl, hmem⟩⟩⟩

/-- No request changes the accounts that were there. -/
theorem extends_handle {server : Server σ υ} (hs : L.Sound server.accounts) (now : Nat)
    (request : Request) :
    L.Extends server.accounts (P.handle now request server).2.accounts := by
  cases request with
  | register body =>
    simp only [Platform.handle, Platform.register]
    split
    · rename_i user t h
      exact (hs.register h).1
    · exact .refl hs
  | login email password =>
    simp only [Platform.handle, Platform.login]
    split
    · rename_i user t h
      obtain ⟨hextends, -⟩ := hs.authenticate h
      exact hextends.trans (hextends.sound.draw 2)
    · exact .refl hs
  | refresh token =>
    simp only [Platform.handle, Platform.refresh]
    split
    · exact .refl hs
    · split
      · exact .refl hs
      · split
        · exact .refl hs
        · exact hs.draw 2
  | me authorization => exact .refl hs
  | rules authorization route => exact .refl hs

/-- The invariant, after a request that extends the accounts, when the caller has more accounts and
    tokens of the kind. -/
theorem Confined.extend (h : Confined P L w) {server : Server σ υ} {caller : Caller}
    (hserver : L.Extends w.server.accounts server.accounts)
    (hsub : w.caller.accounts ⊆ caller.accounts)
    (haccounts : ∀ id ∈ caller.accounts, id ∈ w.caller.accounts ∨ id < server.accounts.drawn ∧
      ∀ user, P.users.getById id server.accounts.users = some user → Modest user.roles)
    (hheld : ∀ token ∈ caller.held, token ∈ w.caller.held ∨ P.Harmless caller.accounts token) :
    Confined P L { server, caller } := by
  constructor
  · exact hserver.sound
  · intro id hid
    rcases haccounts id hid with hold | ⟨hdrawn, -⟩
    · exact Nat.lt_of_lt_of_le (h.drawn id hold) hserver.drawn
    · exact hdrawn
  · intro id hid user hget
    rcases haccounts id hid with hold | ⟨-, hmodest⟩
    · have hsame := hserver.old id (h.drawn id hold)
      exact h.modest id hold user (hsame.symm.trans hget)
    · exact hmodest user hget
  · intro token htoken
    rcases hheld token htoken with hold | hnew
    · exact (h.held token hold).mono hsub
    · exact hnew

/-- A request from which the caller learns nothing. -/
theorem Confined.unchanged (h : Confined P L w) {server : Server σ υ}
    (hserver : L.Extends w.server.accounts server.accounts) :
    Confined P L { server, caller := w.caller } :=
  h.extend hserver (List.Subset.refl _) (fun _ hid => Or.inl hid) (fun _ htoken => Or.inl htoken)

/-- Tokens that are issued to an account of the caller. -/
theorem Confined.issued (h : Confined P L w) {server : Server σ υ} {user : User} {t : Accounts υ}
    (hserver : L.Extends w.server.accounts server.accounts) (hmem : user.id ∈ w.caller.accounts)
    (hget : P.users.getById user.id w.server.accounts.users = some user) (now : Nat) :
    let body := (P.issueTokens now user.id user.roles t).1
    Confined P L {
      server
      caller := { w.caller with held := body.accessToken :: body.refreshToken :: w.caller.held } } := by
  intro body
  obtain ⟨haccess, hrefresh⟩ :=
    harmless_issueTokens (P := P) (s := t) (h.modest user.id hmem user hget) hmem now
  refine h.extend hserver (List.Subset.refl _) (fun _ hid => Or.inl hid) fun token htoken => ?_
  rcases List.mem_cons.mp htoken with rfl | htoken
  · exact Or.inr haccess
  · rcases List.mem_cons.mp htoken with rfl | htoken
    · exact Or.inr hrefresh
    · exact Or.inl htoken

/-- An exception teaches the caller nothing. -/
theorem learn_raised (caller : Caller) (request : Request) (statusCode : Nat) (e : PyError) :
    caller.learn request (raised statusCode e) = caller := by
  cases e <;> cases request <;> rfl

/-- A request of someone else. -/
theorem Confined.step_other (h : Confined P L w) {e : Event} (hother : e.byCaller = false) :
    Confined P L (P.step w e) := by
  have hserver := extends_handle h.sound e.now e.request
  simp only [Platform.step, hother]
  exact h.unchanged hserver

/-- A request of the caller, with means of its own and for no more than the default role. -/
theorem Confined.step_own (hsigns : P.libraries.Signs) (h : Confined P L w) {e : Event}
    (hcaller : e.byCaller = true) (hmeans : P.OwnMeans w e) (hmodest : e.Modest) :
    Confined P L (P.step w e) := by
  obtain ⟨byCaller, now, request⟩ := e
  subst hcaller
  have hserver := extends_handle h.sound now request
  have hmeans := hmeans rfl
  cases request with
  | register body =>
    simp only [Platform.step, Platform.handle, Platform.register] at hserver ⊢
    cases hexecute : RegisterUserUseCase.execute P.libraries P.users body.email body.password
        body.fullName body.roles w.server.accounts with
    | error e =>
      simp only [hexecute, learn_raised] at hserver ⊢
      exact h.unchanged hserver
    | ok result =>
      obtain ⟨user, t⟩ := result
      simp only [hexecute] at hserver ⊢
      obtain ⟨-, hid, hdrawn, hroles, hget⟩ := h.sound.register hexecute
      have hgranted := hmodest rfl body rfl
      rw [← hroles] at hgranted
      refine h.extend hserver (List.subset_cons_self _ _) ?_ fun _ htoken => Or.inl htoken
      intro id hmem
      rcases List.mem_cons.mp hmem with rfl | hmem
      · right
        refine ⟨lt_of_eq_of_lt hid hdrawn, fun user' hget' => ?_⟩
        cases hget.symm.trans hget'
        exact hgranted
      · exact Or.inl hmem
  | login email password =>
    simp only [Platform.step, Platform.handle, Platform.login] at hserver ⊢
    cases hexecute : AuthenticateUserUseCase.execute P.libraries P.users email password
        w.server.accounts with
    | error e =>
      simp only [hexecute, learn_raised] at hserver ⊢
      exact h.unchanged hserver
    | ok result =>
      obtain ⟨user, t⟩ := result
      simp only [hexecute] at hserver ⊢
      obtain ⟨-, hget, hfound, hverified⟩ := h.sound.authenticate hexecute
      exact h.issued hserver (hmeans user hfound hverified) hget now
  | refresh token =>
    simp only [Platform.step, Platform.handle, Platform.refresh] at hserver ⊢
    cases hdecode : decodeToken P.libraries now token P.settings "refresh" with
    | error text =>
      simp only [hdecode] at hserver ⊢
      exact h.unchanged hserver
    | ok payload =>
      -- the token was accepted, so it is one that the caller was given
      have hheld : token ∈ w.caller.held := by
        rcases hmeans with hheld | hrefused
        · exact hheld
        · exact absurd hdecode (hrefused payload)
      have hmem := ((h.held token hheld).decode hsigns hdecode).2 rfl
      simp only [hdecode] at hserver ⊢
      cases hget : P.users.getById payload.sub w.server.accounts.users with
      | none =>
        simp only [hget] at hserver ⊢
        exact h.unchanged hserver
      | some user =>
        have hid := L.getById h.sound.inv hget
        simp only [hget] at hserver ⊢
        split at hserver
        · rename_i hinactive
          simp only [hinactive, if_true] at hserver ⊢
          exact h.unchanged hserver
        · rename_i hactive
          simp only [hactive] at hserver ⊢
          exact h.issued hserver (hid ▸ hmem) (hid ▸ hget) now
  | me authorization =>
    have hlearn : w.caller.learn (.me authorization) (P.me now authorization w.server.accounts) =
        w.caller := by
      unfold Platform.me
      split
      · rfl
      · split
        · rfl
        · split <;> rfl
    simp only [Platform.step, Platform.handle, hlearn]
    exact h.unchanged hserver
  | rules authorization route =>
    have hlearn : w.caller.learn (.rules authorization route)
        (P.rules now authorization route w.server.app).1 = w.caller := by
      unfold Platform.rules
      split <;> rfl
    simp only [Platform.step, Platform.handle, hlearn]
    exact h.unchanged hserver

/-! ## The routes -/

/-- Roles within the default one open no route that writes. -/
theorem run_of_permission {route : RuleRoute} {code : String} (hcode : route.permission = some code)
    (hdefault : code ∈ defaultPermissions) (repo : RulePackRepository σ ρ) (actor : String)
    (app : App σ) : (route.run repo actor app).2 = app := by
  cases route with
  | read => rfl
  | validateRule => rfl
  | _ =>
    cases hcode
    exact absurd hdefault (by decide)

/-- A principal whose roles are within the default one changes no rule pack. -/
theorem rules_of_modest {now : Nat} {authorization : Option String} {route : RuleRoute} {app : App σ}
    (hauth : P.settings.authRequired = true)
    (hmodest : ∀ principal,
      getCurrentPrincipal P.libraries P.settings now authorization = .ok principal →
      ∀ code ∈ principal.permissions, code ∈ defaultPermissions) :
    (P.rules now authorization route app).2 = app := by
  unfold Platform.rules
  cases hpermission : route.permission with
  | none =>
    cases route <;> first | rfl | cases hpermission
  | some code =>
    cases hauthorize : P.authorize now authorization route with
    | error error => rfl
    | ok granted =>
      unfold Platform.authorize at hauthorize
      rw [hpermission] at hauthorize
      obtain ⟨principal, hprincipal, hrequire⟩ := Except.bind_ok_iff.mp hauthorize
      have hmem : code ∈ principal.permissions := by
        unfold requirePermission at hrequire
        rw [hauth] at hrequire
        simp only [Bool.not_true, Bool.false_and, Bool.false_eq_true, if_false] at hrequire
        split at hrequire
        · cases hrequire
        · rename_i hcontains
          simpa using hcontains
      exact run_of_permission hpermission (hmodest principal hprincipal code hmem) _ _ _

theorem Confined.unprivileged (hsigns : P.libraries.Signs) (hauth : P.settings.authRequired = true)
    (h : Confined P L w) : P.Unprivileged w := by
  constructor
  · intro token htoken now payload hdecode
    exact ((h.held token htoken).decode hsigns hdecode).1 rfl
  · intro e hcaller hmeans
    have hmeans := hmeans hcaller
    obtain ⟨byCaller, now, request⟩ := e
    cases request with
    | rules authorization route =>
      refine rules_of_modest hauth fun principal hprincipal => ?_
      unfold getCurrentPrincipal at hprincipal
      cases hbearer : bearerToken authorization with
      | none =>
        rw [hbearer] at hprincipal
        simp only [hauth, if_true] at hprincipal
        cases hprincipal
      | some token =>
        rw [hbearer] at hprincipal
        cases hdecode : decodeToken P.libraries now token P.settings "access" with
        | error text =>
          simp only [hdecode] at hprincipal
          cases hprincipal
        | ok payload =>
          simp only [hdecode] at hprincipal
          cases hprincipal
          -- the token was accepted, so it is one that the caller was given
          rcases hmeans token hbearer with hheld | hrefused
          · exact ((h.held token hheld).decode hsigns hdecode).1 rfl
          · exact absurd hdecode (hrefused payload)
    | _ => simp only [Platform.step, Platform.handle]

/-- The invariant over any requests. -/
theorem Confined.run (hsigns : P.libraries.Signs) {events : List Event} {w : World σ υ}
    (h : Confined P L w) (hmeans : P.AllOwnMeans events w) (hmodest : ∀ e ∈ events, e.Modest) :
    Confined P L (P.run events w) := by
  induction events generalizing w with
  | nil => exact h
  | cons e rest ih =>
    rw [List.forall_mem_cons] at hmodest
    refine ih ?_ hmeans.2 hmodest.2
    cases hcaller : e.byCaller with
    | false => exact h.step_other hcaller
    | true => exact h.step_own hsigns hcaller hmeans.1 hmodest.1

/-- A caller that was given nothing is confined. -/
theorem confined_unknown (hs : L.Sound s) (app : App σ) :
    Confined P L { server := { app, accounts := s }, caller := .unknown } :=
  ⟨hs, fun _ hid => (nomatch hid), fun _ hid => (nomatch hid), fun _ htoken => (nomatch htoken)⟩

end

/-! ## The two repositories -/

/-- `InMemoryUserRepository` is lawful. -/
def inMemoryUsers : LawfulUsers inMemoryUserRepository where
  Inv s := ∀ id user, s.byId.get? id = some user → user.id = id
  getById := fun hInv h => hInv _ _ h
  getByEmail := by
    intro s email user hInv h
    have h : InMemoryUserRepository.getByEmail email s = .ok (some user) := h
    unfold InMemoryUserRepository.getByEmail at h
    split at h
    · rename_i userId _
      have hget : s.byId.get? userId = some user := Except.ok.inj h
      rw [hInv _ _ hget]
      exact hget
    · cases h
  save := by
    intro s user saved t hInv h
    cases h
    have hget : ∀ id, (s.byId.set user.id user).get? id =
        if id = user.id then some user else s.byId.get? id := by
      intro id
      rw [Dict.get?_set]
      by_cases hid : user.id = id
      · rw [if_pos hid, if_pos hid.symm]
      · rw [if_neg hid, if_neg fun heq => hid heq.symm]
    refine ⟨fun id other hother => ?_, rfl, hget⟩
    rw [hget] at hother
    split at hother
    · rename_i hid
      cases hother
      exact hid.symm
    · exact hInv id other hother

namespace PostgresUserRepository

variable {users : List User} {user : User} {id : Uuid}

theorem getById_eq_some_iff (hnodup : (users.map User.id).Nodup) :
    getById id users = some user ↔ user ∈ users ∧ user.id = id :=
  PyList.find?_key_eq_some_iff hnodup

/-- The row of one user is written, and the others stay. -/
theorem getById_written {written : List User} (hnodup : (users.map User.id).Nodup)
    (hnodup' : (written.map User.id).Nodup) (hmem : user ∈ written)
    (hothers : ∀ other : User, other.id ≠ user.id → (other ∈ written ↔ other ∈ users)) (id : Uuid) :
    getById id written = if id = user.id then some user else getById id users := by
  by_cases hid : id = user.id
  · rw [if_pos hid]
    exact (getById_eq_some_iff hnodup').mpr ⟨hmem, hid.symm⟩
  · rw [if_neg hid]
    apply Option.ext
    intro other
    rw [getById_eq_some_iff hnodup', getById_eq_some_iff hnodup]
    constructor
    · intro h
      obtain ⟨hother, rfl⟩ := h
      exact ⟨(hothers other hid).mp hother, rfl⟩
    · intro h
      obtain ⟨hother, rfl⟩ := h
      exact ⟨(hothers other hid).mpr hother, rfl⟩

end PostgresUserRepository

open PostgresUserRepository in
/-- `PostgresUserRepository` is lawful, whatever the database makes of the case of an email. -/
def postgresUsers (lower : String → String) : LawfulUsers (postgresUserRepository lower) where
  Inv users := (users.map User.id).Nodup
  getById := fun hInv h => ((getById_eq_some_iff hInv).mp h).2
  getByEmail := by
    intro users email user hInv h
    have h : PostgresUserRepository.getByEmail lower email users = .ok (some user) := h
    unfold PostgresUserRepository.getByEmail at h
    split at h
    · cases h
    · rename_i row hrows
      cases h
      have hmem : user ∈ users.filter fun row => lower row.email == PyStr.lower email := by
        rw [hrows]
        exact List.mem_cons_self
      exact (getById_eq_some_iff hInv).mpr ⟨List.mem_of_mem_filter hmem, rfl⟩
    · cases h
  save := by
    intro users user saved t hInv h
    have h : PostgresUserRepository.save user users = .ok (saved, t) := h
    unfold PostgresUserRepository.save at h
    split at h
    · cases h
    · split at h
      · -- an update keeps the identifiers of the rows
        rename_i row hrow
        cases h
        have hids : (users.map fun row => if row.id == user.id then user else row).map User.id =
            users.map User.id := by
          rw [List.map_map]
          apply List.map_congr_left
          intro r _
          rw [Function.comp_apply]
          split
          · rename_i heq
            exact (beq_iff_eq.mp heq).symm
          · rfl
        have hnodup : ((users.map fun row => if row.id == user.id then user else row).map
            User.id).Nodup := hids ▸ hInv
        obtain ⟨hrow, hid⟩ := (getById_eq_some_iff hInv).mp hrow
        refine ⟨hnodup, rfl, getById_written hInv hnodup ?_ fun other hne => ?_⟩
        · refine List.mem_map.mpr ⟨row, hrow, ?_⟩
          rw [hid, beq_self_eq_true, if_pos rfl]
        · rw [List.mem_map]
          constructor
          · intro h
            obtain ⟨r, hr, rfl⟩ := h
            split at hne
            · exact absurd rfl hne
            · rename_i hkept
              rw [if_neg hkept]
              exact hr
          · intro hother
            exact ⟨other, hother, if_neg (by simpa using hne)⟩
      · rename_i hnone
        cases h
        have hnew : ∀ row ∈ users, row.id ≠ user.id := by
          intro row hrow heq
          have hfound := (getById_eq_some_iff hInv).mpr ⟨hrow, heq⟩
          rw [hnone] at hfound
          cases hfound
        have hnodup : ((users ++ [user]).map User.id).Nodup := by
          rw [List.map_append, List.map_singleton, List.nodup_append]
          refine ⟨hInv, List.nodup_singleton _, fun id hid id' hid' heq => ?_⟩
          obtain ⟨row, hrow, rfl⟩ := List.mem_map.mp hid
          exact hnew row hrow (heq.trans (List.mem_singleton.mp hid'))
        refine ⟨hnodup, rfl, getById_written hInv hnodup (by simp) fun other hne => ?_⟩
        rw [List.mem_append, List.mem_singleton]
        exact or_iff_left fun heq => hne (congrArg User.id heq)

/-- No escalation, on either backend: among the requests of others, with auth required, a caller that
    was given nothing before, and that asks for no role beyond the default one when it registers,
    never holds a token with a permission beyond the default role's, and changes no rule pack. -/
theorem no_escalation (libraries : Libraries) (settings : Settings) (packs : RulePackRepository σ ρ)
    (lower : String → String) (app : App σ) (events : List Event)
    (hsigns : libraries.Signs) (hauth : settings.authRequired = true)
    (hmodest : ∀ e ∈ events, e.Modest) :
    (∀ accounts, inMemoryUsers.Sound accounts →
      let P : Platform σ ρ InMemoryUsers := { libraries, settings, users := inMemoryUserRepository, packs }
      let w := { server := { app, accounts }, caller := .unknown }
      P.AllOwnMeans events w → P.Unprivileged (P.run events w)) ∧
    ∀ accounts, (postgresUsers lower).Sound accounts →
      let P : Platform σ ρ (List User) := { libraries, settings, users := postgresUserRepository lower, packs }
      let w := { server := { app, accounts }, caller := .unknown }
      P.AllOwnMeans events w → P.Unprivileged (P.run events w) := by
  constructor
  · intro accounts hs P w hmeans
    have hstart := confined_unknown (P := P) hs app
    exact (hstart.run hsigns hmeans hmodest).unprivileged hsigns hauth
  · intro accounts hs P w hmeans
    have hstart := confined_unknown (P := P) hs app
    exact (hstart.run hsigns hmeans hmodest).unprivileged hsigns hauth

/-! ## Two runs -/

/-- The claims of an access token with some roles, and of the refresh token with it. -/
def accessClaims (roles : List String) : Payload where
  sub := 0
  roles := some roles
  type := "access"
  jti := 2
  iat := 1767225600
  exp := 1767226500

def refreshClaims : Payload where
  sub := 0
  roles := none
  type := "refresh"
  jti := 3
  iat := 1767225600
  exp := 1767830400

/-- Claims and their tokens, where identifier `n` is written as the UUID of that number. -/
def issuedTokens : List (Payload × String) :=
  [(accessClaims ["viewer"],
      "eyJhbGciOiJIUzI1NiIsInR5cCI6IkpXVCJ9.eyJzdWIiOiIwMDAwMDAwMC0wMDAwLTAwMDAtMDAwMC0wMDA" ++
      "wMDAwMDAwMDAiLCJyb2xlcyI6WyJ2aWV3ZXIiXSwidHlwZSI6ImFjY2VzcyIsImp0aSI6IjAwMDAwMDAwMDA" ++
      "wMDAwMDAwMDAwMDAwMDAwMDAwMDAyIiwiaWF0IjoxNzY3MjI1NjAwLCJleHAiOjE3NjcyMjY1MDB9.rseOs-" ++
      "jQqoU4g7Nif1dqoky6VGnBxLi2epNF2i91r4I"),
    (accessClaims ["admin"],
      "eyJhbGciOiJIUzI1NiIsInR5cCI6IkpXVCJ9.eyJzdWIiOiIwMDAwMDAwMC0wMDAwLTAwMDAtMDAwMC0wMDA" ++
      "wMDAwMDAwMDAiLCJyb2xlcyI6WyJhZG1pbiJdLCJ0eXBlIjoiYWNjZXNzIiwianRpIjoiMDAwMDAwMDAwMDA" ++
      "wMDAwMDAwMDAwMDAwMDAwMDAwMDIiLCJpYXQiOjE3NjcyMjU2MDAsImV4cCI6MTc2NzIyNjUwMH0.oD9kbzs" ++
      "XqE-N02ftirTFsM_g9571hMFPgCgVRSa94m4"),
    (refreshClaims,
      "eyJhbGciOiJIUzI1NiIsInR5cCI6IkpXVCJ9.eyJzdWIiOiIwMDAwMDAwMC0wMDAwLTAwMDAtMDAwMC0wMDA" ++
      "wMDAwMDAwMDAiLCJ0eXBlIjoicmVmcmVzaCIsImp0aSI6IjAwMDAwMDAwMDAwMDAwMDAwMDAwMDAwMDAwMDA" ++
      "wMDAzIiwiaWF0IjoxNzY3MjI1NjAwLCJleHAiOjE3Njc4MzA0MDB9._rJOK1gHrT2UWE4gPO2hbf__kWLMax" ++
      "zIaUj7xZ0dM0M")]

/-- The token of some claims. -/
def tokenOf (payload : Payload) : String := (issuedTokens.lookup payload).getD ""

/-- The libraries on one password, one salt and these tokens. -/
def recordedLibraries : Libraries where
  urandom _ := "000102030405060708090a0b0c0d0e0f"
  pbkdf2Hmac password salt iterations :=
    if password == "correcthorse123" && salt == "000102030405060708090a0b0c0d0e0f" &&
        iterations == 310000 then
      "8d923756a74c63a570acf72b39665d3a51d8d979f19d55a00ee99915965d82f6"
    else ""
  encode payload _ _ := tokenOf payload
  decode now token _ _ :=
    match issuedTokens.find? fun issued => issued.2 == token with
    | some (payload, _) =>
      if now < payload.exp then .ok payload else .error "Signature has expired"
    | none => .error "Not enough segments"

theorem signs_recordedLibraries : recordedLibraries.Signs := by
  have hdistinct : (issuedTokens.map Prod.snd).Nodup := by decide +kernel
  have hnonempty : "" ∉ issuedTokens.map Prod.snd := by decide +kernel
  intro payload now secret algorithm payload' h
  simp only [recordedLibraries, tokenOf] at h
  split at h
  · rename_i found token hfind
    have hmem := List.mem_of_find?_eq_some hfind
    have htoken : token = (issuedTokens.lookup payload).getD "" := by
      simpa using List.find?_some hfind
    cases hlookup : issuedTokens.lookup payload with
    | none =>
      rw [hlookup] at htoken
      exact absurd (List.mem_map.mpr ⟨_, hmem, htoken⟩) hnonempty
    | some text =>
      rw [hlookup, Option.getD_some] at htoken
      obtain ⟨before, after, hsplit, -⟩ := List.lookup_eq_some_iff.mp hlookup
      have hmem' : (payload, text) ∈ issuedTokens := by
        rw [hsplit]
        simp
      have hpair := List.inj_on_of_nodup_map hdistinct hmem hmem' htoken
      split at h
      · cases h
        exact congrArg Prod.fst hpair
      · cases h
  · cases h

/-- The API over what is kept in memory, with auth required. -/
def inMemoryPlatform : Platform InMemoryStore PackRef InMemoryUsers where
  libraries := recordedLibraries
  settings := { authRequired := true }
  users := inMemoryUserRepository
  packs := inMemoryRulePackRepository

/-- No packs, no accounts, and a caller that has nothing. -/
def emptyWorld : World InMemoryStore InMemoryUsers where
  server := {
    app := { repository := InMemoryRulePackRepository.init, audit := [] }
    accounts := { users := InMemoryUserRepository.init, drawn := 0 } }
  caller := .unknown

/-- The caller registers with some roles. -/
def registration (roles : Option (List String)) : Event where
  byCaller := true
  now := 1767225600
  request := .register { email := "you@example.com", password := "correcthorse123", roles }

/-- The caller logs in. -/
def firstLogin : Event where
  byCaller := true
  now := 1767225600
  request := .login "you@example.com" "correcthorse123"

/-- The account that a registration with some roles makes. -/
def registeredUser (roles : List String) : User where
  id := 0
  email := "you@example.com"
  hashedPassword := hashPassword recordedLibraries "correcthorse123" (recordedLibraries.urandom 1)
  fullName := ""
  roles := roles
  isActive := true

/-- A login to an account of the caller is by means of its own. -/
theorem ownMeans_login {P : Platform σ ρ υ} {w : World σ υ} {e : Event} {email password : String}
    {account : User} (he : e.request = .login email password)
    (hfound : P.users.getByEmail (PyStr.lower (PyStr.strip email)) w.server.accounts.users =
      .ok (some account)) (hmem : account.id ∈ w.caller.accounts) : P.OwnMeans w e := by
  intro _
  rw [he]
  intro user hfound' _
  cases hfound.symm.trans hfound'
  exact hmem

/-- A caller that registers without roles and logs in has its two tokens, and is unprivileged. -/
theorem no_escalation_viewer :
    let w := inMemoryPlatform.run [registration none, firstLogin] emptyWorld
    w.caller.held.length = 2 ∧ inMemoryPlatform.Unprivileged w := by
  have hlogin : inMemoryPlatform.OwnMeans (inMemoryPlatform.step emptyWorld (registration none))
      firstLogin :=
    @ownMeans_login _ _ _ _ _ _ _ _ (registeredUser ["viewer"]) rfl (by decide +kernel)
      (by decide +kernel)
  have hmeans : inMemoryPlatform.AllOwnMeans [registration none, firstLogin] emptyWorld :=
    ⟨fun _ => trivial, hlogin, trivial⟩
  have hmodest : ∀ e ∈ [registration none, firstLogin], e.Modest := by
    intro e he _ body hbody code hcode
    rcases List.mem_pair.mp he with rfl | rfl
    · cases hbody
      exact hcode
    · cases hbody
  have hsound : inMemoryUsers.Sound emptyWorld.server.accounts :=
    ⟨fun _ _ hget => (nomatch hget), fun _ _ hget => (nomatch hget)⟩
  have hheld : (inMemoryPlatform.run [registration none, firstLogin] emptyWorld).caller.held.length =
      2 := by decide +kernel
  exact ⟨hheld, (no_escalation recordedLibraries { authRequired := true } inMemoryRulePackRepository
    PyStr.lower _ _ signs_recordedLibraries rfl hmodest).1 _ hsound hmeans⟩

/-- A caller that registers as an administrator gets a token with every permission. -/
theorem self_registered_admin :
    ¬∀ events, inMemoryPlatform.AllOwnMeans events emptyWorld →
      inMemoryPlatform.Unprivileged (inMemoryPlatform.run events emptyWorld) := by
  intro h
  have hlogin : inMemoryPlatform.OwnMeans
      (inMemoryPlatform.step emptyWorld (registration (some ["admin"]))) firstLogin :=
    @ownMeans_login _ _ _ _ _ _ _ _ (registeredUser ["admin"]) rfl (by decide +kernel)
      (by decide +kernel)
  have hmeans : inMemoryPlatform.AllOwnMeans [registration (some ["admin"]), firstLogin] emptyWorld :=
    ⟨fun _ => trivial, hlogin, trivial⟩
  have hheld : tokenOf (accessClaims ["admin"]) ∈ (inMemoryPlatform.run
      [registration (some ["admin"]), firstLogin] emptyWorld).caller.held := by decide +kernel
  have hdecode : decodeToken recordedLibraries 1767225600 (tokenOf (accessClaims ["admin"]))
      { authRequired := true } "access" = .ok (accessClaims ["admin"]) := by decide +kernel
  have hmodest := (h _ hmeans).held _ hheld _ _ hdecode
  exact absurd (hmodest "rules:activate" (by decide)) (by decide)

end PulseGuard
