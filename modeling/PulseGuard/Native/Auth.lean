import PulseGuard.ForStd.PyStr
import PulseGuard.Native.PostgresRulePackRepository

/-!
# Accounts, tokens and permissions

Roles and users with their repositories (`in_memory_role_repository.py`,
`in_memory_user_repository.py`, `postgres_user_repository.py`), registration and login
(`register_user.py`, `authenticate_user.py`), tokens and passwords (`app/core/security.py`), and the
principal of a request with its permissions (`app/interfaces/api/security.py`).

PyJWT, the key derivation and the random bytes are parameters. Time is in seconds. Names and
descriptions of roles and the timestamps of accounts, which nothing here reads, are left out.
-/

namespace PulseGuard

/-! ## Roles -/

/-- `Role` -/
structure Role where
  code : String
  permissions : List String

namespace InMemoryRoleRepository

/-- `_ALL_PERMISSIONS` -/
def allPermissions : List String :=
  ["incidents:evaluate", "incidents:create", "incidents:read",
    "decisions:read", "decisions:override",
    "rules:manage", "rules:edit", "rules:read", "rules:publish", "rules:activate", "rules:rollback",
    "rules:delete",
    "escalations:acknowledge", "users:manage", "apikeys:manage",
    "simulation:run"]

/-- `_DEFAULT_ROLES`, which a script seeds in Postgres too. No route saves a role. -/
def defaultRoles : List Role :=
  [{ code := "admin", permissions := allPermissions },
    { code := "operator", permissions := ["incidents:evaluate", "incidents:create",
      "incidents:read", "decisions:read", "decisions:override", "escalations:acknowledge",
      "rules:read", "simulation:run"] },
    { code := "viewer", permissions := ["decisions:read", "rules:read", "incidents:read"] },
    { code := "editor", permissions := ["rules:edit", "rules:read", "simulation:run"] },
    { code := "policy_admin", permissions := ["rules:edit", "rules:read", "rules:publish",
      "rules:activate", "rules:rollback", "rules:delete", "simulation:run"] }]

/-- `get_by_code` -/
def getByCode (code : String) : Option Role := defaultRoles.find? fun role => role.code == code

end InMemoryRoleRepository

/-! ## Users -/

/-- `User` -/
structure User where
  id : Uuid
  email : String
  hashedPassword : String
  fullName : String
  roles : List String
  isActive : Bool
deriving DecidableEq

/-- `UserRepository`, over a state `υ`. -/
structure UserRepository (υ : Type) where
  save : User → υ → Except PyError (User × υ)
  getById : Uuid → υ → Option User
  getByEmail : String → υ → Except PyError (Option User)

/-- The state of `InMemoryUserRepository`: `_by_id` and `_by_email`. -/
structure InMemoryUsers where
  byId : Dict Uuid User
  byEmail : Dict String Uuid

namespace InMemoryUserRepository

/-- `__init__` -/
def init : InMemoryUsers where
  byId := Dict.empty
  byEmail := Dict.empty

/-- `save` -/
def save (user : User) (s : InMemoryUsers) : Except PyError (User × InMemoryUsers) :=
  .ok (user, {
    byId := s.byId.set user.id user
    byEmail := s.byEmail.set (PyStr.lower user.email) user.id })

/-- `get_by_id` -/
def getById (userId : Uuid) (s : InMemoryUsers) : Option User := s.byId.get? userId

/-- `get_by_email` -/
def getByEmail (email : String) (s : InMemoryUsers) : Except PyError (Option User) :=
  match s.byEmail.get? (PyStr.lower email) with
  | some userId => .ok (s.byId.get? userId)
  | none => .ok none

end InMemoryUserRepository

/-- `InMemoryUserRepository` behind the interface. -/
def inMemoryUserRepository : UserRepository InMemoryUsers where
  save := InMemoryUserRepository.save
  getById := InMemoryUserRepository.getById
  getByEmail := InMemoryUserRepository.getByEmail

namespace PostgresUserRepository

/-- `session.get(UserORM, user_id)`, on the rows of `users`. -/
def getById (userId : Uuid) (users : List User) : Option User :=
  users.find? fun row => row.id == userId

/-- `save`: an `UPDATE` of the row with the identifier or an `INSERT`, under the constraint that
    emails are unique. -/
def save (user : User) (users : List User) : Except PyError (User × List User) :=
  if users.any fun row => row.id != user.id && row.email == user.email then
    .error (integrityError "users_email_key")
  else
    match getById user.id users with
    | some _ => .ok (user, users.map fun row => if row.id == user.id then user else row)
    | none => .ok (user, users ++ [user])

/-- `get_by_email`: `.one_or_none()` on the rows whose email is the same in lower case, where
    `lower` is that of the database. -/
def getByEmail (lower : String → String) (email : String) (users : List User) :
    Except PyError (Option User) :=
  match users.filter fun row => lower row.email == PyStr.lower email with
  | [] => .ok none
  | [row] => .ok (some row)
  | _ => .error (.userError "MultipleResultsFound"
      "Multiple rows were found when one or none was required")

end PostgresUserRepository

/-- `PostgresUserRepository` behind the interface. -/
def postgresUserRepository (lower : String → String) : UserRepository (List User) where
  save := PostgresUserRepository.save
  getById := PostgresUserRepository.getById
  getByEmail := PostgresUserRepository.getByEmail lower

/-! ## Passwords and tokens -/

/-- The claims of a token; a refresh token carries no roles. -/
structure Payload where
  sub : Uuid
  roles : Option (List String)
  type : String
  jti : Uuid
  iat : Nat
  exp : Nat
deriving DecidableEq

/-- What comes from outside: `os.urandom(16)` as hexadecimal text, by number of the draw,
    `hashlib.pbkdf2_hmac` on a password, such a salt and a number of iterations, and `jwt.encode` and
    `jwt.decode` under a secret and an algorithm; the latter at a time, and a `PyJWTError` as its
    text. -/
structure Libraries where
  urandom : Nat → String
  pbkdf2Hmac : String → String → Nat → String
  encode : Payload → String → String → String
  decode : Nat → String → String → String → Except String Payload

/-- `Settings`, its part on authentication. -/
structure Settings where
  jwtSecret : String := "dev-only-insecure-secret-change-in-production"
  jwtAlgorithm : String := "HS256"
  jwtAccessTokenMinutes : Nat := 15
  jwtRefreshTokenDays : Nat := 7
  authRequired : Bool := false

/-- `_PBKDF2_ITERATIONS` -/
def pbkdf2Iterations : Nat := 310000

/-- `hash_password`, with the salt it draws. -/
def hashPassword (lib : Libraries) (plainPassword salt : String) : String :=
  "pbkdf2_sha256$" ++ toString pbkdf2Iterations ++ "$" ++ salt ++ "$" ++
    lib.pbkdf2Hmac plainPassword salt pbkdf2Iterations

/-- `verify_password`. The salt and the key are compared as the text that `hash_password` writes. -/
def verifyPassword (lib : Libraries) (plainPassword hashed : String) : Except PyError Bool :=
  match PyStr.splitOn '$' hashed with
  | [scheme, iterations, salt, expected] =>
    if scheme != "pbkdf2_sha256" then .ok false
    else
      match PyStr.int? iterations with
      | some n => .ok (lib.pbkdf2Hmac plainPassword salt n.toNat == expected)
      | none => .error (.valueError ("invalid literal for int() with base 10: '" ++ iterations ++ "'"))
  | _ => .ok false

/-- `create_access_token` -/
def createAccessToken (lib : Libraries) (now : Nat) (subject : Uuid) (roles : List String)
    (settings : Settings) (jti : Uuid) : String :=
  lib.encode {
    sub := subject, roles := some roles, type := "access", jti, iat := now
    exp := now + 60 * settings.jwtAccessTokenMinutes } settings.jwtSecret settings.jwtAlgorithm

/-- `create_refresh_token` -/
def createRefreshToken (lib : Libraries) (now : Nat) (subject : Uuid) (settings : Settings)
    (jti : Uuid) : String :=
  lib.encode {
    sub := subject, roles := none, type := "refresh", jti, iat := now
    exp := now + 86400 * settings.jwtRefreshTokenDays } settings.jwtSecret settings.jwtAlgorithm

/-- `decode_token` -/
def decodeToken (lib : Libraries) (now : Nat) (token : String) (settings : Settings)
    (expectedType : String) : Except String Payload := do
  let payload ← lib.decode now token settings.jwtSecret settings.jwtAlgorithm
  if payload.type != expectedType then
    .error ("expected a '" ++ expectedType ++ "' token, got '" ++ payload.type ++ "'")
  else
    return payload

/-! ## Registration and login -/

/-- The users, and how many identifiers and salts were drawn. -/
structure Accounts (υ : Type) where
  users : υ
  drawn : Nat

section

variable {υ : Type}

/-- `roles or ["viewer"]` -/
def requestedRoles (roles : Option (List String)) : List String :=
  match roles with
  | none | some [] => ["viewer"]
  | some codes => codes

/-- `RegisterUserUseCase.execute` -/
def RegisterUserUseCase.execute (lib : Libraries) (repo : UserRepository υ)
    (email password fullName : String) (roles : Option (List String)) (s : Accounts υ) :
    Except PyError (User × Accounts υ) := do
  let email := PyStr.lower (PyStr.strip email)
  if email == "" || !PyStr.contains email "@" then
    .error (.valueError "A valid email address is required")
  else if password.length < 8 then
    .error (.valueError "Password must be at least 8 characters")
  else
    match ← repo.getByEmail email s.users with
    | some _ => .error (.valueError ("A user with email '" ++ email ++ "' already exists"))
    | none =>
      let requested := requestedRoles roles
      match requested.find? fun code => (InMemoryRoleRepository.getByCode code).isNone with
      | some code => .error (.valueError ("Unknown role code: '" ++ code ++ "'"))
      | none =>
        let (user, users) ← repo.save {
          id := s.drawn, email, hashedPassword := hashPassword lib password (lib.urandom (s.drawn + 1))
          fullName, roles := requested, isActive := true } s.users
        return (user, { users, drawn := s.drawn + 2 })

/-- `AuthenticateUserUseCase.execute` -/
def AuthenticateUserUseCase.execute (lib : Libraries) (repo : UserRepository υ)
    (email password : String) (s : Accounts υ) : Except PyError (User × Accounts υ) := do
  match ← repo.getByEmail (PyStr.lower (PyStr.strip email)) s.users with
  | none => .error (.valueError "Invalid email or password")
  | some user =>
    if !(← verifyPassword lib password user.hashedPassword) then
      .error (.valueError "Invalid email or password")
    else if !user.isActive then
      .error (.valueError "This account has been deactivated")
    else
      let (user, users) ← repo.save user s.users
      return (user, { s with users })

end

/-! ## The principal of a request -/

/-- `Principal`; the subject of an anonymous one is none. -/
structure Principal where
  subject : Option Uuid
  roles : List String
  permissions : List String
  isAuthenticated : Bool

/-- An `HTTPException`. -/
structure HttpError where
  statusCode : Nat
  detail : String

/-- `_resolve_permissions`; the set as a list. -/
def resolvePermissions (roles : List String) : List String :=
  roles.flatMap fun code =>
    match InMemoryRoleRepository.getByCode code with
    | some role => role.permissions
    | none => []

/-- The token of an `Authorization` header that starts with `bearer `, in any case. -/
def bearerToken (authorization : Option String) : Option String := do
  let header ← authorization
  if "bearer ".toList.isPrefixOf (PyStr.lower header).toList then
    return PyStr.strip (PyStr.partition ' ' header).2
  else
    none

/-- `get_current_principal` -/
def getCurrentPrincipal (lib : Libraries) (settings : Settings) (now : Nat)
    (authorization : Option String) : Except HttpError Principal :=
  match bearerToken authorization with
  | some token =>
    match decodeToken lib now token settings "access" with
    | .error text => .error {
        statusCode := 401, detail := "Invalid or expired access token: " ++ text }
    | .ok payload =>
      let roles := payload.roles.getD []
      .ok {
        subject := some payload.sub, roles, permissions := resolvePermissions roles
        isAuthenticated := true }
  | none =>
    if settings.authRequired then
      .error { statusCode := 401, detail := "Authentication required" }
    else
      .ok { subject := none, roles := [], permissions := [], isAuthenticated := false }

/-- `require_permission` -/
def requirePermission (settings : Settings) (permissionCode : String) (principal : Principal) :
    Except HttpError Principal :=
  if !settings.authRequired && !principal.isAuthenticated then .ok principal
  else if !principal.permissions.contains permissionCode then
    .error {
      statusCode := 403, detail := "Missing required permission: '" ++ permissionCode ++ "'" }
  else .ok principal

end PulseGuard
