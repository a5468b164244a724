import Registrar.Accounts.Error
import Registrar.User

set_option autoImplicit false

/-! # Password hashing

How passwords are hashed is not ours to say: a hasher is given. -/

namespace Registrar

/-- Hashes passwords, which may fail or panic, and compares a password with a hash. -/
structure Hasher where
  hash : String → Ending AccountError PasswordHash
  verify : String → PasswordHash → Bool

end Registrar
