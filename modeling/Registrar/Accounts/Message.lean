import Registrar.Accounts.Error
import Registrar.Bus.Message
import Registrar.User

set_option autoImplicit false

/-! # Commands and queries on accounts -/

namespace Registrar

/-! ## Commands -/

/-- Create an account. -/
structure RegisterUser where
  email : String
  password : String
  deriving DecidableEq

/-- Check credentials and record the login. -/
structure Login where
  email : String
  password : String
  deriving DecidableEq

structure ChangePassword where
  userId : UserId
  current : String
  new : String
  deriving DecidableEq

/-- Who logged in, and when. -/
structure LoginResult where
  userId : UserId
  email : Email
  at_ : Instant
  deriving DecidableEq

/-! ## Queries -/

structure GetUser where
  userId : UserId
  deriving DecidableEq

structure FindUserByEmail where
  email : String
  deriving DecidableEq

/-! ## Written form -/

/-- The record of an address and a password that two of the commands have. -/
def credentialsToJson (email password : String) : Json :=
  .obj [("email", .str email), ("password", .str password)]

def credentialsOfJson? (j : Json) : Option (String × String) := do
  match ← j.record? ["email", "password"] with
  | [email, password] =>
      return (← Json.required? Json.asString? email, ← Json.required? Json.asString? password)
  | _ => none

def RegisterUser.toJson (c : RegisterUser) : Json := credentialsToJson c.email c.password

def RegisterUser.ofJson? (j : Json) : Option RegisterUser :=
  (credentialsOfJson? j).map fun (email, password) => ⟨email, password⟩

def Login.toJson (c : Login) : Json := credentialsToJson c.email c.password

def Login.ofJson? (j : Json) : Option Login :=
  (credentialsOfJson? j).map fun (email, password) => ⟨email, password⟩

def ChangePassword.toJson (c : ChangePassword) : Json :=
  .obj [("user_id", c.userId.toJson), ("current_password", .str c.current),
    ("new_password", .str c.new)]

def ChangePassword.ofJson? (j : Json) : Option ChangePassword := do
  match ← j.record? ["user_id", "current_password", "new_password"] with
  | [userId, current, new] =>
      return {
        userId := ← Json.required? Id.ofJson? userId
        current := ← Json.required? Json.asString? current
        new := ← Json.required? Json.asString? new }
  | _ => none

/-! ## Catalogues -/

namespace Accounts

inductive CommandTopic where
  | registerUser
  | login
  | changePassword
  deriving DecidableEq, Repr

inductive QueryTopic where
  | getUser
  | findUserByEmail
  deriving DecidableEq, Repr

/-- Each command has a form of answer of its own. -/
def commands : Catalogue where
  Topic := CommandTopic
  Body
    | .registerUser => RegisterUser
    | .login => Login
    | .changePassword => ChangePassword
  Form := CommandTopic
  Value
    | .registerUser => UserId
    | .login => LoginResult
    | .changePassword => Unit
  Failure := AccountError
  name
    | .registerUser => "register_user"
    | .login => "login"
    | .changePassword => "change_password"
  isNil
    | .registerUser, c => c.email.isEmpty && c.password.isEmpty
    | .login, c => c.email.isEmpty && c.password.isEmpty
    | .changePassword, c => c.userId.isNil
  form := id
  describe := AccountError.message

/-- Each query has a form of answer of its own. -/
def queries : Catalogue where
  Topic := QueryTopic
  Body
    | .getUser => GetUser
    | .findUserByEmail => FindUserByEmail
  Form := QueryTopic
  Value
    | .getUser => UserView
    | .findUserByEmail => Option UserView
  Failure := AccountError
  name
    | .getUser => "get_user"
    | .findUserByEmail => "find_user_by_email"
  isNil _ _ := false
  form := id
  describe := AccountError.message

end Accounts

instance : Report (BusError AccountError) where
  kind := BusError.kind fun e => "Handler." ++ Report.kind e
  message := BusError.message AccountError.message

end Registrar
