import Registrar.Accounts.Hasher
import Registrar.Accounts.Message
import Registrar.Accounts.Repository
import Registrar.Outbox.Writer
import Registrar.UnitOfWork

set_option autoImplicit false

/-! # The services of accounts

Registering, logging in and changing a password. Each loads what is committed, decides, and stores
the user together with the events that it recorded in one unit of work. The decisions are functions
of what was loaded alone, so that the loading, the deciding, the staging and the commit can be
looked at one by one. -/

namespace Registrar.Accounts

/-- The storage that the services run on; all of it shares one type of transactions. -/
structure Backend (S T : Type) where
  manager : Manager S T
  users : Repository S T
  outbox : Outbox.Repository S T

/-- Everything in a store. -/
def Backend.store : Backend Store Transaction := ⟨.store, .store, .store⟩

/-- What a command cannot choose: new identifiers and readings of the wall clock. -/
structure Draws where
  userId : UserId
  eventId : EventId
  now : Reading
  stamps : Nat → Outbox.Stamp

structure Service (S T : Type) where
  backend : Backend S T
  hasher : Hasher

/-! ## Decisions -/

/-- Goes on with what was computed, or ends as it failed. -/
def orFail {α β : Type} (r : Except AccountError α) (go : α → Ending AccountError β) :
    Ending AccountError β :=
  match r with
  | .ok a => go a
  | .error e => .failed e

/-- A rule that a password breaks. -/
def badPassword (reason : String) : AccountError := .domain (.validation reason)

/-- The user that a registration makes. -/
def newUser (hasher : Hasher) (cmd : RegisterUser) (d : Draws) : Ending AccountError User :=
  orFail ((Email.parse cmd.email).mapError AccountError.domain) fun email =>
    if cmd.password.isEmpty then .failed (badPassword "password must not be empty")
    else match hasher.hash cmd.password with
      | .returned hash => .returned (User.register d.userId email hash d.now d.eventId)
      | .failed e => .failed e
      | .panicked p => .panicked p

/-- The user after a login with this password. -/
def loggedIn (hasher : Hasher) (password : String) (found : Option User) (d : Draws) :
    Ending AccountError User :=
  match found with
  | none => .failed .invalidCredentials
  | some u =>
      if hasher.verify password u.passwordHash then u.login d.now d.eventId
      else .failed .invalidCredentials

/-- The user after a change of the password. -/
def withNewPassword (hasher : Hasher) (cmd : ChangePassword) (found : Option User) (d : Draws) :
    Ending AccountError User :=
  match found with
  | none => .failed (.userNotFound cmd.userId)
  | some u =>
      if !hasher.verify cmd.current u.passwordHash then .failed .invalidCredentials
      else if cmd.new.isEmpty then .failed (badPassword "password must not be empty")
      else if hasher.verify cmd.new u.passwordHash then
        .failed (badPassword "new password must differ from the current one")
      else match hasher.hash cmd.new with
        | .returned hash =>
            (u.changePassword hash d.now d.eventId).mapError AccountError.domain
        | .failed e => .failed e
        | .panicked p => .panicked p

/-! ## Storing -/

/-- Whether a user is new to the store. -/
inductive Storing where
  | new
  | changed
  deriving DecidableEq, Repr

namespace Service

variable {S T : Type}

/-- Stages a user and the events it recorded; stops at the first refusal. The context is asked
before each step. -/
def stage (s : Service S T) (watch : Watch) (mode : Storing) (u : User)
    (stamps : Nat → Outbox.Stamp) (state : S) (tx : Option T) :
    Except AccountError Unit × Option T :=
  let write := match mode with
    | .new => s.backend.users.save
    | .changed => s.backend.users.update
  match write (watch 0) u state tx with
  | (.error e, tx) => (.error e, tx)
  | (.ok (), tx) =>
      match Outbox.write .json s.backend.outbox (watch.later 1) stamps u.pending state tx with
      | (.error e, tx) => (.error (.outbox e), tx)
      | (.ok _, tx) => (.ok (), tx)

/-- **Stores a user and the events it recorded, together or not at all.** -/
def persist (s : Service S T) (watch : Watch) (mode : Storing) (u : User)
    (stamps : Nat → Outbox.Stamp) (room : Room S T) : Except AccountError Unit × Room S T :=
  UnitOfWork.alone s.backend.manager (watch 0) AccountError.ofTransaction
    (s.stage (watch.later 1) mode u stamps) room

/-- Stores what was decided, if it was, and answers. -/
def storing {α : Type} (s : Service S T) (watch : Watch) (mode : Storing)
    (decided : Ending AccountError User) (d : Draws) (answer : User → α) (room : Room S T) :
    Ending AccountError α × Room S T :=
  match decided with
  | .failed e => (.failed e, room)
  | .panicked p => (.panicked p, room)
  | .returned u => match s.persist watch mode u d.stamps room with
      | (.ok (), room) => (.returned (answer u), room)
      | (.error e, room) => (.failed e, room)

/-! ## Commands -/

def register (s : Service S T) (watch : Watch) (cmd : RegisterUser) (d : Draws)
    (room : Room S T) : Ending AccountError UserId × Room S T :=
  s.storing watch .new (newUser s.hasher cmd d) d (·.id) room

/-- The user that a login is about. An address that is none is like one that nobody has. -/
def loginTarget (s : Service S T) (watch : Watch) (cmd : Login) (state : S) :
    Except AccountError (Option User) :=
  match Email.parse cmd.email with
  | .error _ => .ok none
  | .ok email => s.backend.users.findByEmail (watch 0) email state

def login (s : Service S T) (watch : Watch) (cmd : Login) (d : Draws) (room : Room S T) :
    Ending AccountError LoginResult × Room S T :=
  let decided := orFail (s.loginTarget watch cmd room.manager) fun found =>
    loggedIn s.hasher cmd.password found d
  s.storing (watch.later 1) .changed decided d
    (fun u => ⟨u.id, u.email, d.now⟩) room

def changePassword (s : Service S T) (watch : Watch) (cmd : ChangePassword) (d : Draws)
    (room : Room S T) : Ending AccountError Unit × Room S T :=
  let decided := orFail (s.backend.users.findById (watch 0) cmd.userId room.manager) fun found =>
    withNewPassword s.hasher cmd found d
  s.storing (watch.later 1) .changed decided d (fun _ => ()) room

/-! ## Queries -/

def getUser (s : Service S T) (watch : Watch) (q : GetUser) (state : S) :
    Except AccountError UserView := do
  match ← s.backend.users.findById (watch 0) q.userId state with
  | some u => return u.view
  | none => .error (.userNotFound q.userId)

def findUserByEmail (s : Service S T) (watch : Watch) (q : FindUserByEmail) (state : S) :
    Except AccountError (Option UserView) := do
  let email ← (Email.parse q.email).mapError AccountError.domain
  return (← s.backend.users.findByEmail (watch 0) email state).map User.view

end Service

end Registrar.Accounts
