import Registrar.Proofs.Accounts.Requests
import Registrar.Proofs.Keyed

set_option autoImplicit false

/-! # The ledger of accounts

What the answers of a system come down to: a map from addresses, as they are normalised, to
accounts. An account has an identifier, the current password in clear, a version, and the times of
what happened to it. There are no hashes, rows, transactions or events here; of the hasher the
ledger only uses whether a password can be hashed. A decision of the ledger is an answer together
with the accounts that it leaves, so **what fails leaves the accounts as they were**. -/

namespace Registrar.Accounts

/-! ## Accounts -/

structure Account where
  id : UserId
  password : String
  version : Nat
  createdAt : Instant
  lastLoginAt : Option Instant
  passwordChangedAt : Option Instant
  deriving DecidableEq

namespace Account

/-- The account of a user that has just registered. -/
def opened (id : UserId) (password : String) (now : Instant) : Account :=
  ⟨id, password, 1, now, none, none⟩

/-- What is shown of an account. -/
def view (a : Account) (address : String) : UserView :=
  ⟨a.id, ⟨address⟩, a.createdAt, a.lastLoginAt, a.passwordChangedAt, .ofNat a.version⟩

/-- Adds one to the version. There is a greatest version, which only as many commands can reach. -/
def next (a : Account) : Ending AccountError Account :=
  if a.version + 1 < UInt64.size then .returned { a with version := a.version + 1 }
  else .panicked .countOverflow

end Account

/-! ## Decisions -/

structure Ledger where
  accounts : Keyed Account
  /-- How many commands were served. -/
  served : Nat

namespace Ledger

def empty : Ledger := ⟨Keyed.empty, 0⟩

/-- An answer, and the accounts after it. -/
abbrev Decision (α : Type) : Type := Ending AccountError (α × Keyed Account)

/-- The account with an identifier, and its address. -/
def withId? (accounts : Keyed Account) (id : UserId) : Option (String × Account) :=
  accounts.entries.find? fun e => e.2.id = id

/-- Goes on if a password can be hashed. -/
def ifHashed {α : Type} (hasher : Hasher) (password : String) (go : Ending AccountError α) :
    Ending AccountError α :=
  match hasher.hash password with
  | .returned _ => go
  | .failed e => .failed e
  | .panicked p => .panicked p

/-- Puts an account, to which one more thing happened, back under its address. -/
def amend {α : Type} (accounts : Keyed Account) (address : String) (a : Account) (answer : α) :
    Decision α :=
  a.next.map fun a => (answer, accounts.insert address a)

/-- **A registration** needs an address, a password that is not empty and can be hashed, and that
nobody has the address. -/
def register (hasher : Hasher) (cmd : RegisterUser) (d : Draws) (accounts : Keyed Account) :
    Decision UserId :=
  match Email.parse cmd.email with
  | .error e => .failed (.domain e)
  | .ok email =>
      if cmd.password.isEmpty then .failed (badPassword "password must not be empty")
      else ifHashed hasher cmd.password
        (if accounts.contains email.text then .failed (.emailTaken email.text)
        else .returned (d.userId, accounts.insert email.text (.opened d.userId cmd.password d.now)))

/-- **A login** needs the address of an account and its current password. -/
def login (cmd : Login) (d : Draws) (accounts : Keyed Account) : Decision LoginResult :=
  match Email.parse cmd.email with
  | .error _ => .failed .invalidCredentials
  | .ok email => match accounts.get? email.text with
      | none => .failed .invalidCredentials
      | some a =>
          if cmd.password = a.password then
            amend accounts email.text { a with lastLoginAt := some d.now } ⟨a.id, email, d.now⟩
          else .failed .invalidCredentials

/-- **A change of the password** needs the identifier of an account, its current password, and
another that is not empty and can be hashed. -/
def changePassword (hasher : Hasher) (cmd : ChangePassword) (d : Draws) (accounts : Keyed Account) :
    Decision Unit :=
  match withId? accounts cmd.userId with
  | none => .failed (.userNotFound cmd.userId)
  | some (address, a) =>
      if cmd.current ≠ a.password then .failed .invalidCredentials
      else if cmd.new.isEmpty then .failed (badPassword "password must not be empty")
      else if cmd.new = a.password then
        .failed (badPassword "new password must differ from the current one")
      else ifHashed hasher cmd.new
        (amend accounts address { a with password := cmd.new, passwordChangedAt := some d.now } ())

/-! ### What succeeds -/

section Successes

variable {accounts accounts' : Keyed Account} {d : Draws}

theorem ifHashed_eq_returned_iff {α : Type} {hasher : Hasher} {password : String}
    {go : Ending AccountError α} {a : α} :
    ifHashed hasher password go = .returned a ↔
      (∃ hash, hasher.hash password = .returned hash) ∧ go = .returned a := by
  unfold ifHashed
  cases hasher.hash password <;> simp

theorem amend_eq_returned_iff {α : Type} {address : String} {a : Account} {answer answer' : α} :
    amend accounts address a answer = .returned (answer', accounts') ↔
      a.version + 1 < UInt64.size ∧ answer' = answer ∧
        accounts' = accounts.insert address { a with version := a.version + 1 } := by
  unfold amend Account.next
  split
  · next hroom => simp [Ending.map, hroom, eq_comm]
  · next hfull => simp [Ending.map, hfull]

/-- **Who registers**, and that the new account is at version 1. -/
theorem register_eq_returned_iff {hasher : Hasher} {cmd : RegisterUser} {id : UserId} :
    register hasher cmd d accounts = .returned (id, accounts') ↔
      ∃ email, Email.parse cmd.email = .ok email ∧ cmd.password ≠ "" ∧
        (∃ hash, hasher.hash cmd.password = .returned hash) ∧ accounts.get? email.text = none ∧
        id = d.userId ∧
        accounts' = accounts.insert email.text (.opened d.userId cmd.password d.now) := by
  unfold register
  cases Email.parse cmd.email with
  | error e => simp
  | ok email =>
      by_cases hempty : cmd.password = ""
      · simp [hempty]
      · have hnotEmpty : cmd.password.isEmpty = false := by simp [hempty]
        simp only [hnotEmpty, Bool.false_eq_true, if_false, ifHashed_eq_returned_iff]
        cases hget : accounts.get? email.text with
        | none => simp [Keyed.contains, hget, hempty, eq_comm]
        | some a => simp [Keyed.contains, hget]

/-- **Who logs in**, and that the version goes up by one. -/
theorem login_eq_returned_iff {cmd : Login} {answer : LoginResult} :
    login cmd d accounts = .returned (answer, accounts') ↔
      ∃ email a, Email.parse cmd.email = .ok email ∧ accounts.get? email.text = some a ∧
        cmd.password = a.password ∧ a.version + 1 < UInt64.size ∧
        answer = ⟨a.id, email, d.now⟩ ∧ accounts' = accounts.insert email.text
          { a with lastLoginAt := some d.now, version := a.version + 1 } := by
  unfold login
  cases Email.parse cmd.email with
  | error e => simp
  | ok email =>
      cases hget : accounts.get? email.text with
      | none => simp [hget]
      | some a =>
          by_cases hpassword : cmd.password = a.password
          · simp [hget, hpassword, amend_eq_returned_iff]
          · simp [hget, hpassword]

/-- **Who changes the password**, and that the version goes up by one. -/
theorem changePassword_eq_returned_iff {hasher : Hasher} {cmd : ChangePassword} :
    changePassword hasher cmd d accounts = .returned ((), accounts') ↔
      ∃ address a, withId? accounts cmd.userId = some (address, a) ∧ cmd.current = a.password ∧
        cmd.new ≠ "" ∧ cmd.new ≠ a.password ∧ (∃ hash, hasher.hash cmd.new = .returned hash) ∧
        a.version + 1 < UInt64.size ∧ accounts' = accounts.insert address
          { a with
            password := cmd.new, passwordChangedAt := some d.now, version := a.version + 1 } := by
  unfold changePassword
  cases hfound : withId? accounts cmd.userId with
  | none => simp
  | some entry =>
      obtain ⟨address, a⟩ := entry
      by_cases hcurrent : cmd.current = a.password
      · by_cases hempty : cmd.new = ""
        · simp [hcurrent, hempty]
        · by_cases hold : cmd.new = a.password
          · rw [hold] at hempty
            simp [hcurrent, hold, hempty]
          · simp [hcurrent, hempty, hold, ifHashed_eq_returned_iff, amend_eq_returned_iff]
      · simp [hcurrent]

end Successes

/-! ### Queries -/

def getUser (q : GetUser) (accounts : Keyed Account) : Except AccountError UserView :=
  match withId? accounts q.userId with
  | none => .error (.userNotFound q.userId)
  | some (address, a) => .ok (a.view address)

def findUserByEmail (q : FindUserByEmail) (accounts : Keyed Account) :
    Except AccountError (Option UserView) :=
  match Email.parse q.email with
  | .error e => .error (.domain e)
  | .ok email => .ok ((accounts.get? email.text).map (·.view email.text))

/-! ## Answers -/

/-- The accounts that a decision leaves. -/
def Decision.left {α : Type} (accounts : Keyed Account) : Decision α → Keyed Account
  | .returned (_, after) => after
  | .failed _ | .panicked _ => accounts

/-- Answers a command as it was decided, unless it is about nothing. -/
def command (l : Ledger) (t : CommandTopic) (nothing : Prop) [Decidable nothing]
    (decision : Decision (commands.Value t)) :
    Except (BusError AccountError) (commands.Value t) × Ledger :=
  if nothing then (.error (.nilCommand (commands.name t)), l)
  else (Bus.told (L := commands) .command t (decision.map Prod.fst),
    ⟨decision.left l.accounts, l.served + 1⟩)

/-- **Answers a request.** A command about nothing, with two empty fields or the nil identifier, is
refused before anything else. -/
def answer (hasher : Hasher) (supply : Nat → Draws) (l : Ledger) : (r : Request) → r.Answer × Ledger
  | .registerUser cmd => l.command .registerUser (cmd.email = "" ∧ cmd.password = "")
      (register hasher cmd (supply l.served) l.accounts)
  | .login cmd => l.command .login (cmd.email = "" ∧ cmd.password = "")
      (login cmd (supply l.served) l.accounts)
  | .changePassword cmd => l.command .changePassword (cmd.userId.uuid = Uuid.nil)
      (changePassword hasher cmd (supply l.served) l.accounts)
  | .getUser q => ((getUser q l.accounts).mapError .handler, l)
  | .findUserByEmail q => ((findUserByEmail q l.accounts).mapError .handler, l)

/-- The answers to requests, one after another. -/
def answerAll (hasher : Hasher) (supply : Nat → Draws) :
    List Request → Ledger → List Answered × Ledger
  | [], l => ([], l)
  | r :: requests, l =>
      let (a, l) := l.answer hasher supply r
      let (as, l) := answerAll hasher supply requests l
      (⟨r, a⟩ :: as, l)

/-! ## Versions -/

/-- No version is above a bound. -/
def Within (accounts : Keyed Account) (bound : Nat) : Prop :=
  ∀ address a, accounts.get? address = some a → a.version ≤ bound

variable {α : Type} {accounts : Keyed Account} {bound : Nat}

theorem Within.succ (h : Within accounts bound) : Within accounts (bound + 1) :=
  fun address a ha => Nat.le_succ_of_le (h address a ha)

theorem Within.insert (h : Within accounts bound) {b : Account} (hb : b.version ≤ bound)
    (address : String) : Within (accounts.insert address b) bound := by
  intro address' a ha
  rw [Keyed.get?_insert] at ha
  by_cases haddress : address' = address
  · rw [if_pos haddress] at ha
    rw [← Option.some.inj ha]
    exact hb
  · rw [if_neg haddress] at ha
    exact h address' a ha

/-- A decision keeps to the next bound if the accounts do that it leaves when it succeeds. -/
theorem Within.left (h : Within accounts bound) {decision : Decision α}
    (hreturned : ∀ a after, decision = .returned (a, after) → Within after (bound + 1)) :
    Within (decision.left accounts) (bound + 1) := by
  cases decision with
  | returned r => exact hreturned r.1 r.2 rfl
  | failed e => exact h.succ
  | panicked p => exact h.succ

theorem Within.register (h : Within accounts bound) (hasher : Hasher) (cmd : RegisterUser)
    (d : Draws) : Within ((Ledger.register hasher cmd d accounts).left accounts) (bound + 1) := by
  refine h.left fun id after hdecision => ?_
  obtain ⟨email, -, -, -, -, -, rfl⟩ := register_eq_returned_iff.1 hdecision
  exact h.succ.insert (Nat.le_add_left 1 bound) email.text

theorem Within.login (h : Within accounts bound) (cmd : Login) (d : Draws) :
    Within ((Ledger.login cmd d accounts).left accounts) (bound + 1) := by
  refine h.left fun answer after hdecision => ?_
  obtain ⟨email, a, -, hget, -, -, -, rfl⟩ := login_eq_returned_iff.1 hdecision
  exact h.succ.insert (Nat.succ_le_succ (h email.text a hget)) email.text

theorem Within.changePassword (h : Within accounts bound) (hasher : Hasher) (cmd : ChangePassword)
    (d : Draws) :
    Within ((Ledger.changePassword hasher cmd d accounts).left accounts) (bound + 1) := by
  refine h.left fun _ after hdecision => ?_
  obtain ⟨address, a, hfound, -, -, -, -, -, rfl⟩ := changePassword_eq_returned_iff.1 hdecision
  have hget : accounts.get? address = some a :=
    Keyed.mem_entries_iff.1 (List.mem_of_find?_eq_some hfound)
  exact h.succ.insert (Nat.succ_le_succ (h address a hget)) address

theorem within_command {l : Ledger} (h : Within l.accounts l.served) (t : CommandTopic)
    (nothing : Prop) [Decidable nothing] {decision : Decision (commands.Value t)}
    (hdecision : Within (decision.left l.accounts) (l.served + 1)) :
    Within (l.command t nothing decision).2.accounts (l.command t nothing decision).2.served ∧
      (l.command t nothing decision).2.served ≤ l.served + 1 := by
  unfold command
  split
  · exact ⟨h, Nat.le_succ _⟩
  · exact ⟨hdecision, Nat.le_refl _⟩

/-- **A version is at most the number of commands served**, and each request serves one at most. -/
theorem within_answer {l : Ledger} (h : Within l.accounts l.served) (hasher : Hasher)
    (supply : Nat → Draws) (r : Request) :
    Within (l.answer hasher supply r).2.accounts (l.answer hasher supply r).2.served ∧
      (l.answer hasher supply r).2.served ≤ l.served + 1 := by
  cases r with
  | registerUser cmd => exact within_command h _ _ (h.register hasher cmd _)
  | login cmd => exact within_command h _ _ (h.login cmd _)
  | changePassword cmd => exact within_command h _ _ (h.changePassword hasher cmd _)
  | getUser q => exact ⟨h, Nat.le_succ _⟩
  | findUserByEmail q => exact ⟨h, Nat.le_succ _⟩

theorem within_answerAll (hasher : Hasher) (supply : Nat → Draws) (requests : List Request)
    {l : Ledger} (h : Within l.accounts l.served) :
    Within (answerAll hasher supply requests l).2.accounts (l.served + requests.length) := by
  induction requests generalizing l with
  | nil => exact h
  | cons r requests ih =>
      obtain ⟨hnext, hserved⟩ := within_answer h hasher supply r
      intro address a ha
      have hversion := ih hnext address a ha
      rw [List.length_cons]
      omega

end Ledger

end Registrar.Accounts
