import Registrar.Email
import Registrar.Event

set_option autoImplicit false

/-! # The events of a user

Three things happen to a user. Each is announced by an event of its own name whose payload is a
small JSON record. -/

namespace Registrar

/-- The payload of `user.created`. -/
structure UserCreated where
  userId : UserId
  email : Email
  occurredAt : Instant
  deriving DecidableEq

/-- The payload of `user.logged_in`. -/
structure UserLoggedIn where
  userId : UserId
  occurredAt : Instant
  deriving DecidableEq

/-- The payload of `user.password_changed`. -/
structure UserPasswordChanged where
  userId : UserId
  occurredAt : Instant
  deriving DecidableEq

namespace UserCreated

def eventName : String := "user.created"

def toJson (e : UserCreated) : Json :=
  .obj [("user_id", e.userId.toJson), ("email", e.email.toJson),
    ("occurred_at", e.occurredAt.toJson)]

def ofJson? (j : Json) : Option UserCreated := do
  match ← j.record? ["user_id", "email", "occurred_at"] with
  | [userId, email, occurredAt] =>
      return {
        userId := ← Json.required? Id.ofJson? userId
        email := ← Json.required? Email.ofJson? email
        occurredAt := ← Json.required? Instant.ofJson? occurredAt }
  | _ => none

end UserCreated

/-- The record of a user and a time that two of the payloads have. -/
def userTimeToJson (userId : UserId) (occurredAt : Instant) : Json :=
  .obj [("user_id", userId.toJson), ("occurred_at", occurredAt.toJson)]

def userTimeOfJson? (j : Json) : Option (UserId × Instant) := do
  match ← j.record? ["user_id", "occurred_at"] with
  | [userId, occurredAt] =>
      return (← Json.required? Id.ofJson? userId, ← Json.required? Instant.ofJson? occurredAt)
  | _ => none

namespace UserLoggedIn

def eventName : String := "user.logged_in"

def toJson (e : UserLoggedIn) : Json := userTimeToJson e.userId e.occurredAt

def ofJson? (j : Json) : Option UserLoggedIn := (userTimeOfJson? j).map fun (u, t) => ⟨u, t⟩

end UserLoggedIn

namespace UserPasswordChanged

def eventName : String := "user.password_changed"

def toJson (e : UserPasswordChanged) : Json := userTimeToJson e.userId e.occurredAt

def ofJson? (j : Json) : Option UserPasswordChanged := (userTimeOfJson? j).map fun (u, t) => ⟨u, t⟩

end UserPasswordChanged

end Registrar
