import PulseGuard.Native.Auth
import PulseGuard.Native.Calls

/-!
# The routes of accounts, rules and rule packs

`auth_router.py`, `rule_router.py` and `rule_pack_router.py` (`app/interfaces/api/`): what a request
must be allowed to do, what it does, and the response as far as it shows accounts and tokens.
Requests are taken one at a time, and their bodies as the schemas have accepted them. What a route
of rules or packs answers, and the status it makes of an error, are left out.
-/

namespace PulseGuard

variable {σ ρ υ : Type}

/-- What the API works on. -/
structure Server (σ υ : Type) where
  app : App σ
  accounts : Accounts υ

/-- What the API is built with. -/
structure Platform (σ ρ υ : Type) where
  libraries : Libraries
  settings : Settings
  users : UserRepository υ
  packs : RulePackRepository σ ρ

/-! ## Rules and rule packs -/

/-- A request to a route of `rule_router.py` or `rule_pack_router.py`. The seven routes that list,
    show or export are `read`. -/
inductive RuleRoute where
  | importRulePack (document : RulePackDocument)
  | createRulePack (name : String) (region tenantId : Option String) (rules : List RuleData)
  | updateRulePack (packId : Uuid) (name region tenantId : Option String)
      (expectedLockVersion : Option Nat)
  | deleteRulePack (packId : Uuid) (reason : Option String) (expectedLockVersion : Option Nat)
  | publishRulePack (packId : Uuid)
  | activateRulePack (packId : Uuid) (reason : Option String) (expectedLockVersion : Option Nat)
  | rollbackRulePack (packId : Uuid) (reason : Option String) (expectedLockVersion : Option Nat)
  | createRule (rulePackId : Uuid) (body : RuleData)
  | bulkCreateRules (rulePackId : Uuid) (rules : List RuleData)
  | updateRule (ruleId : Uuid) (fields : RuleData)
  | deleteRule (ruleId : Uuid)
  | validateRule (body : RuleData)
  | read

namespace RuleRoute

/-- The permission that the route requires: `Depends(require_permission(...))`. -/
def permission : RuleRoute → Option String
  | importRulePack .. | createRulePack .. | updateRulePack .. => some "rules:edit"
  | deleteRulePack .. => some "rules:delete"
  | publishRulePack .. => some "rules:publish"
  | activateRulePack .. => some "rules:activate"
  | rollbackRulePack .. => some "rules:rollback"
  | createRule .. | bulkCreateRules .. | updateRule .. | deleteRule .. => some "rules:edit"
  | validateRule .. => none
  | read => some "rules:read"

/-- The fields of `update_rule_pack` that are not `None`. -/
def metadataFields (name region tenantId : Option String) : List PackAttr :=
  (name.map PackAttr.name).toList ++ (region.map fun value => .region (some value)).toList ++
    (tenantId.map fun value => .tenantId (some value)).toList

/-- The body of the route, for an actor. -/
def run (repo : RulePackRepository σ ρ) (actor : String) :
    RuleRoute → App σ → Except PyError Unit × App σ
  | importRulePack document, app => (Call.importRulePack document actor).exec repo app
  | createRulePack name region tenantId rules, app =>
    match rules.mapM ruleFromJson with
    | .error e => (.error e, app)
    | .ok rules => (Call.createRulePack name region tenantId rules actor).exec repo app
  | updateRulePack packId name region tenantId expectedLockVersion, app =>
    (Call.updateMetadata packId actor expectedLockVersion
      (metadataFields name region tenantId)).exec repo app
  | deleteRulePack packId reason expectedLockVersion, app =>
    (Call.softDelete packId actor reason expectedLockVersion).exec repo app
  | publishRulePack packId, app => (Call.publish packId actor).exec repo app
  | activateRulePack packId reason expectedLockVersion, app =>
    (Call.activate packId actor reason expectedLockVersion).exec repo app
  | rollbackRulePack packId reason expectedLockVersion, app =>
    match repo.getById packId app.repository with
    | none => (.error (noSuchPack packId), app)
    | some ref =>
      let pack := repo.pack app.repository ref
      (Call.rollback pack.name pack.version actor reason expectedLockVersion).exec repo app
  | createRule rulePackId body, app => (Call.createRule rulePackId body actor).exec repo app
  | bulkCreateRules rulePackId rules, app =>
    (Call.bulkCreateRules rulePackId rules actor).exec repo app
  | updateRule ruleId fields, app => (Call.updateRule ruleId fields actor).exec repo app
  | deleteRule ruleId, app => (Call.deleteRule ruleId actor none).exec repo app
  | validateRule _, app => (.ok (), app)
  | read, app => (.ok (), app)

end RuleRoute

/-! ## Requests -/

/-- `UserResponse` -/
structure UserResponse where
  id : Uuid
  email : String
  fullName : String
  roles : List String
  isActive : Bool

/-- `TokenResponse` -/
structure TokenResponse where
  accessToken : String
  refreshToken : String
  tokenType : String
  expiresInMinutes : Nat

/-- `RegisterRequest` -/
structure RegisterRequest where
  email : String
  password : String
  fullName : String := ""
  roles : Option (List String) := none

/-- A request: to the routes of `auth_router.py`, or to one of rules and packs. -/
inductive Request where
  | register (body : RegisterRequest)
  | login (email password : String)
  | refresh (refreshToken : String)
  | me (authorization : Option String)
  | rules (authorization : Option String) (route : RuleRoute)

/-- A response: an account, tokens, what a route of rules came to, an `HTTPException`, or an
    exception that nothing catches. -/
inductive Response where
  | user (body : UserResponse)
  | tokens (body : TokenResponse)
  | done (result : Except PyError Unit)
  | failed (error : HttpError)
  | crashed (e : PyError)

/-- `UserResponse(...)` of a user. -/
def userResponse (user : User) : UserResponse :=
  { id := user.id, email := user.email, fullName := user.fullName, roles := user.roles
    isActive := user.isActive }

/-- An exception of a use case, where the route catches `ValueError`. -/
def raised (statusCode : Nat) : PyError → Response
  | .valueError message => .failed { statusCode, detail := message }
  | e => .crashed e

/-- `_actor` -/
def actorOf (principal : Principal) : String :=
  match principal.subject with
  | some id => toString id
  | none => "anonymous"

namespace Platform

variable (P : Platform σ ρ υ)

/-- `_issue_tokens`; the two tokens draw an identifier each. -/
def issueTokens (now : Nat) (userId : Uuid) (roles : List String) (s : Accounts υ) :
    TokenResponse × Accounts υ :=
  ({ accessToken := createAccessToken P.libraries now userId roles P.settings s.drawn
     refreshToken := createRefreshToken P.libraries now userId P.settings (s.drawn + 1)
     tokenType := "bearer"
     expiresInMinutes := P.settings.jwtAccessTokenMinutes }, { s with drawn := s.drawn + 2 })

/-- `register` -/
def register (body : RegisterRequest) (s : Accounts υ) : Response × Accounts υ :=
  match RegisterUserUseCase.execute P.libraries P.users body.email body.password body.fullName
    body.roles s with
  | .ok (user, s) => (.user (userResponse user), s)
  | .error e => (raised 400 e, s)

/-- `login` -/
def login (now : Nat) (email password : String) (s : Accounts υ) : Response × Accounts υ :=
  match AuthenticateUserUseCase.execute P.libraries P.users email password s with
  | .ok (user, s) =>
    let (body, s) := P.issueTokens now user.id user.roles s
    (.tokens body, s)
  | .error e => (raised 401 e, s)

/-- `refresh` -/
def refresh (now : Nat) (refreshToken : String) (s : Accounts υ) : Response × Accounts υ :=
  match decodeToken P.libraries now refreshToken P.settings "refresh" with
  | .error text => (.failed {
      statusCode := 401, detail := "Invalid or expired refresh token: " ++ text }, s)
  | .ok payload =>
    let inactive := Response.failed {
      statusCode := 401, detail := "User no longer exists or is inactive" }
    match P.users.getById payload.sub s.users with
    | none => (inactive, s)
    | some user =>
      if !user.isActive then (inactive, s)
      else
        let (body, s) := P.issueTokens now user.id user.roles s
        (.tokens body, s)

/-- `me` -/
def me (now : Nat) (authorization : Option String) (s : Accounts υ) : Response :=
  match getCurrentPrincipal P.libraries P.settings now authorization with
  | .error error => .failed error
  | .ok principal =>
    match principal.subject with
    | none => .failed { statusCode := 401, detail := "No credentials presented" }
    | some id =>
      match P.users.getById id s.users with
      | none => .failed { statusCode := 404, detail := "User not found" }
      | some user => .user (userResponse user)

/-- The principal that a route of rules gets, when it requires a permission. -/
def authorize (now : Nat) (authorization : Option String) (route : RuleRoute) :
    Except HttpError (Option Principal) :=
  match route.permission with
  | none => .ok none
  | some code => do
    let principal ← getCurrentPrincipal P.libraries P.settings now authorization
    some <$> requirePermission P.settings code principal

/-- A route of rules or packs, behind its permission. -/
def rules (now : Nat) (authorization : Option String) (route : RuleRoute) (app : App σ) :
    Response × App σ :=
  match P.authorize now authorization route with
  | .error error => (.failed error, app)
  | .ok principal =>
    let (result, app) := route.run P.packs ((principal.map actorOf).getD "anonymous") app
    (.done result, app)

/-- What a request does at a time. -/
def handle (now : Nat) (request : Request) (s : Server σ υ) : Response × Server σ υ :=
  match request with
  | .register body =>
    let (response, accounts) := P.register body s.accounts
    (response, { s with accounts })
  | .login email password =>
    let (response, accounts) := P.login now email password s.accounts
    (response, { s with accounts })
  | .refresh refreshToken =>
    let (response, accounts) := P.refresh now refreshToken s.accounts
    (response, { s with accounts })
  | .me authorization => (P.me now authorization s.accounts, s)
  | .rules authorization route =>
    let (response, app) := P.rules now authorization route s.app
    (response, { s with app })

end Platform

end PulseGuard
