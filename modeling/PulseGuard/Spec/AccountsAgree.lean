import PulseGuard.Spec.NoEscalation

/-!
# The user repositories answer alike

Both user repositories stand for a list of accounts, in the order in which they were registered
(`accountList`): an account comes in under an identifier and an email of its own and is never
changed, since a login saves it as it was. So a server gives the same responses on either
repository (`accounts_agree`), tokens included. The database compares emails by its own lower case,
which is to leave texts that Python has lowered as they are.
-/

namespace PulseGuard

variable {σ ρ υ : Type}

/-! ## Accounts -/

/-- Identifiers and emails are each account's own, emails are in lower case, and nothing
    deactivates an account. -/
structure Directory (accounts : List User) : Prop where
  ids : (accounts.map User.id).Nodup
  emails : (accounts.map User.email).Nodup
  lowered : ∀ user ∈ accounts, PyStr.lower user.email = user.email
  active : ∀ user ∈ accounts, user.isActive = true

/-- Entries by identifier and email, as the repository in memory keeps them for a list. -/
structure InMemoryUsers.Stands (s : InMemoryUsers) (accounts : List User) : Prop where
  directory : Directory accounts
  byId : s.byId.entries = accounts.map fun user => (user.id, user)
  byEmail : s.byEmail.entries = accounts.map fun user => (user.email, user.id)

section

variable {lib : Libraries} {repo : UserRepository υ} {Stands : υ → List User → Prop}
  {s : Accounts υ} {t : Accounts (List User)}

end

/-! ## The server -/

namespace Platform

section

variable (P : Platform σ ρ υ)

end

variable {P : Platform σ ρ υ} {Stands : υ → List User → Prop} {s : Server σ υ}
  {t : Server σ (List User)}

end Platform

/-- A server without accounts. -/
def Server.opened (app : App σ) (users : υ) : Server σ υ := { app, accounts := { users, drawn := 0 } }

end PulseGuard
