import Registrar.History
import Registrar.User.Events

set_option autoImplicit false

/-! # Users

A user is an aggregate: registering, logging in and changing the password each record an event.
What is stored of a user is its record; what is shown is its view, which leaves the password's
hash out. -/

namespace Registrar

/-- An encoded password. Its diagnostics never show it. -/
structure PasswordHash where
  encoded : String
  deriving DecidableEq

def PasswordHash.debug (_ : PasswordHash) : String := "PasswordHash(***)"

/-- What is stored of a user. -/
structure UserRecord where
  id : UserId
  email : Email
  passwordHash : PasswordHash
  createdAt : Instant
  lastLoginAt : Option Instant
  passwordChangedAt : Option Instant
  version : UInt64
  deriving DecidableEq

namespace UserRecord

def toJson (r : UserRecord) : Json :=
  .obj [("id", r.id.toJson), ("email", r.email.toJson),
    ("password_hash", .str r.passwordHash.encoded), ("created_at", r.createdAt.toJson),
    ("last_login_at", Json.ofOption Instant.toJson r.lastLoginAt),
    ("password_changed_at", Json.ofOption Instant.toJson r.passwordChangedAt),
    ("version", Json.ofUInt64 r.version)]

def fieldNames : List String :=
  ["id", "email", "password_hash", "created_at", "last_login_at", "password_changed_at", "version"]

def ofJson? (j : Json) : Option UserRecord := do
  match ← j.record? fieldNames with
  | [id, email, hash, createdAt, lastLoginAt, passwordChangedAt, version] =>
      return {
        id := ← Json.required? Id.ofJson? id
        email := ← Json.required? Email.ofJson? email
        passwordHash := ⟨← Json.required? Json.asString? hash⟩
        createdAt := ← Json.required? Instant.ofJson? createdAt
        lastLoginAt := ← Json.optional? Instant.ofJson? lastLoginAt
        passwordChangedAt := ← Json.optional? Instant.ofJson? passwordChangedAt
        version := ← Json.required? Json.asUInt64? version }
  | _ => none

end UserRecord

/-- What is shown of a user. -/
structure UserView where
  id : UserId
  email : Email
  createdAt : Instant
  lastLoginAt : Option Instant
  passwordChangedAt : Option Instant
  version : UInt64
  deriving DecidableEq

def UserView.toJson (v : UserView) : Json :=
  .obj [("id", v.id.toJson), ("email", v.email.toJson), ("created_at", v.createdAt.toJson),
    ("last_login_at", Json.ofOption Instant.toJson v.lastLoginAt),
    ("password_changed_at", Json.ofOption Instant.toJson v.passwordChangedAt),
    ("version", Json.ofUInt64 v.version)]

/-- A user and the events it recorded. -/
structure User where
  id : UserId
  email : Email
  passwordHash : PasswordHash
  createdAt : Instant
  lastLoginAt : Option Instant
  passwordChangedAt : Option Instant
  history : History
  deriving DecidableEq

namespace User

/-! ## Storing and showing -/

def toRecord (u : User) : UserRecord :=
  ⟨u.id, u.email, u.passwordHash, u.createdAt, u.lastLoginAt, u.passwordChangedAt,
    u.history.version⟩

/-- A stored user, with no events pending. -/
def restore (r : UserRecord) : User :=
  ⟨r.id, r.email, r.passwordHash, r.createdAt, r.lastLoginAt, r.passwordChangedAt,
    .stored r.version⟩

def view (u : User) : UserView :=
  ⟨u.id, u.email, u.createdAt, u.lastLoginAt, u.passwordChangedAt, u.history.version⟩

def version (u : User) : UInt64 := u.history.version

def pending (u : User) : List Event := u.history.pending

def persistedVersion (u : User) : UInt64 := u.history.persistedVersion

/-- Takes the pending events out. -/
def takeEvents (u : User) : List Event × User :=
  (u.history.take.1, { u with history := u.history.take.2 })

/-! ## What happens to a user

Each operation takes the time it happens at and the identifier of the event it records. -/

/-- What happened to the user with this identifier. -/
def happening (id : UserId) (eventId : EventId) (name : String) (payload : Json) (at_ : Instant) :
    Event :=
  (Event.ofPayload eventId at_ name id.toAggregate payload).withOccurredAt at_

/-- Records an event. -/
def record {ε : Type} (u : User) (e : Event) : Ending ε User :=
  match u.history.record e with
  | .ok history => .returned { u with history }
  | .error p => .panicked p

def register (id : UserId) (email : Email) (hash : PasswordHash) (at_ : Instant)
    (eventId : EventId) : User :=
  ⟨id, email, hash, at_, none, none, .begun
    (happening id eventId UserCreated.eventName (UserCreated.toJson ⟨id, email, at_⟩) at_)⟩

def login {ε : Type} (u : User) (at_ : Instant) (eventId : EventId) : Ending ε User :=
  { u with lastLoginAt := some at_ }.record
    (happening u.id eventId UserLoggedIn.eventName (UserLoggedIn.toJson ⟨u.id, at_⟩) at_)

/-- **The new password must have another hash**; otherwise nothing changes. -/
def changePassword (u : User) (hash : PasswordHash) (at_ : Instant) (eventId : EventId) :
    Ending DomainError User :=
  if hash = u.passwordHash then
    .failed (.invariantViolation "new password must differ from the current one")
  else { u with passwordHash := hash, passwordChangedAt := some at_ }.record
    (happening u.id eventId UserPasswordChanged.eventName
      (UserPasswordChanged.toJson ⟨u.id, at_⟩) at_)

end User

end Registrar
