import Registrar.Id
import Registrar.Outbox.Repository

set_option autoImplicit false

/-! # Failures of accounts

Why registering, logging in, changing a password or looking a user up failed. An unknown address
and a wrong password are not told apart. -/

namespace Registrar

inductive AccountError where
  | emailTaken (email : String)
  | invalidCredentials
  | userNotFound (id : UserId)
  | hashing (reason : String)
  | storage (reason : String)
  | domain (e : DomainError)
  | transaction (e : TransactionError)
  | outbox (e : OutboxError)
  | context (e : ContextError)
  deriving DecidableEq

namespace AccountError

def message : AccountError → String
  | .emailTaken email => "email `" ++ email ++ "` is already registered"
  | .invalidCredentials => "invalid credentials"
  | .userNotFound id => "user " ++ id.text ++ " not found"
  | .hashing r => "password hashing failed: " ++ r
  | .storage r => "user storage error: " ++ r
  | .domain e => e.message
  | .transaction e => e.message
  | .outbox e => e.message
  | .context e => e.message

def ofStore (e : StoreError) : AccountError := .storage e.message

/-- **A write that lost a race is the same conflict as a stale version found at once.** -/
def ofTransaction : TransactionError → AccountError
  | .conflict r => .domain (.conflict r)
  | e => .transaction e

end AccountError

instance : Report AccountError where
  kind
    | .emailTaken _ => "EmailTaken"
    | .invalidCredentials => "InvalidCredentials"
    | .userNotFound _ => "UserNotFound"
    | .hashing _ => "Hashing"
    | .storage _ => "Storage"
    | .domain e => "Domain." ++ Report.kind e
    | .transaction e => "Transaction." ++ Report.kind e
    | .outbox e => "Outbox." ++ Report.kind e
    | .context e => "Context." ++ Report.kind e
  message := AccountError.message

end Registrar
