import Registrar.Accounts.Error
import Registrar.User

set_option autoImplicit false

/-! # Users in the store

Two tables hold the users: `users` has the record of each under its id, and `users_by_email` the id
under the address, which makes addresses unique. Both are written in the caller's transaction;
reading sees committed rows only. **An address never changes**, so its entry stays valid. -/

namespace Registrar.Accounts

/-- The operations on stored users over a state `S`, whose transactions are of type `T`. The first
argument of each says whether the context is active; a transaction that is not there is closed. -/
structure Repository (S T : Type) where
  save : Except ContextError Unit → User → S → Option T → Except AccountError Unit × Option T
  update : Except ContextError Unit → User → S → Option T → Except AccountError Unit × Option T
  findById : Except ContextError Unit → UserId → S → Except AccountError (Option User)
  findByEmail : Except ContextError Unit → Email → S → Except AccountError (Option User)

/-! ## Over tables -/

def usersTable : String := "users"

def emailsTable : String := "users_by_email"

/-- Stages the address of a new user, which must be free. -/
def stageEmail (u : User) (ts : Tables) (tx : Transaction) : Except AccountError Transaction :=
  match tx.insert ts emailsTable u.email.text (.str u.id.text) with
  | .ok tx => .ok tx
  | .error (.duplicateKey ..) => .error (.emailTaken u.email.text)
  | .error e => .error (.ofStore e)

/-- Stages the record of a new user. -/
def stageRecord (u : User) (ts : Tables) (tx : Transaction) : Except AccountError Transaction :=
  (tx.insert ts usersTable u.id.text u.toRecord.toJson).mapError AccountError.ofStore

/-- Stages a new user; when the record is refused, the address stays staged. -/
def stageNew (u : User) (ts : Tables) (tx : Transaction) :
    Except AccountError Unit × Transaction :=
  match stageEmail u ts tx with
  | .error e => (.error e, tx)
  | .ok tx => match stageRecord u ts tx with
      | .error e => (.error e, tx)
      | .ok tx => (.ok (), tx)

/-- The stored record that a changed user replaces. -/
def recordFor (u : User) (ts : Tables) (tx : Transaction) : Except AccountError UserRecord := do
  match ← (tx.get UserRecord.ofJson? ts usersTable u.id.text).mapError AccountError.ofStore with
  | some stored => return stored
  | none => .error (.userNotFound u.id)

/-- Stages a changed user. **Its record must be at the version at which the user was loaded**, now
and at commit. -/
def stageChange (u : User) (ts : Tables) (tx : Transaction) : Except AccountError Transaction := do
  let stored ← recordFor u ts tx
  ((ExpectedVersion.exactly u.persistedVersion).check stored.version).mapError AccountError.domain
  (tx.putVersioned ts usersTable u.id.text u.toRecord.toJson "version" stored.version).mapError
    AccountError.ofStore

/-- The committed user with an id. -/
def userAt (key : String) (ts : Tables) : Except AccountError (Option User) :=
  ((ts.get UserRecord.ofJson? usersTable key).mapError AccountError.ofStore).map
    (·.map User.restore)

/-- The committed user with an address. -/
def userWithEmail (email : Email) (ts : Tables) : Except AccountError (Option User) := do
  match ← (ts.get Json.asString? emailsTable email.text).mapError AccountError.ofStore with
  | some key => userAt key ts
  | none => return none

/-! ## Over a store -/

/-- Stages something through a handle's transaction, which must be open, in an active context. -/
def staging (context : Except ContextError Unit) (tx : Option Transaction)
    (go : Transaction → Except AccountError Unit × Transaction) :
    Except AccountError Unit × Option Transaction :=
  match context, tx with
  | .error e, tx => (.error (.context e), tx)
  | .ok (), none => (.error (.ofTransaction .closed), none)
  | .ok (), some tx =>
      let (result, tx) := go tx
      (result, some tx)

/-- Reads in an active context. -/
def reading {α : Type} (context : Except ContextError Unit) (go : Except AccountError α) :
    Except AccountError α :=
  match context with
  | .error e => .error (.context e)
  | .ok () => go

/-- The users of a store. -/
def Repository.store : Repository Store Transaction where
  save context u s tx := staging context tx (stageNew u s.tables)
  update context u s tx := staging context tx fun tx =>
    match stageChange u s.tables tx with
    | .ok tx => (.ok (), tx)
    | .error e => (.error e, tx)
  findById context id s := reading context (userAt id.text s.tables)
  findByEmail context email s := reading context (userWithEmail email s.tables)

end Registrar.Accounts
