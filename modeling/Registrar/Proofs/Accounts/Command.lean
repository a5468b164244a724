import Registrar.Accounts.Service
import Registrar.Proofs.Codec.Record
import Registrar.Proofs.Store.Transaction

set_option autoImplicit false

/-! # Commands as what they load and decide

Every command on accounts loads at most one committed user, decides on it, and stores what it
decided. `Command` gathers the three commands in that form (`serve_eq_storing`). A decision records
exactly one event, and it makes a user at version 1 or moves the loaded one on by one version
(`decide_spec`). Its times were read off clocks or from stored rows, so they are civil. -/

namespace Registrar.Accounts

/-- The services over a store. -/
def Service.over (hasher : Hasher) : Service Store Transaction := ⟨.store, hasher⟩

/-- A command that changes accounts. -/
inductive Command where
  | register (cmd : RegisterUser)
  | login (cmd : Login)
  | changePassword (cmd : ChangePassword)

namespace Command

/-- Whether the command makes a user or changes one. -/
def mode : Command → Storing
  | .register _ => .new
  | .login _ | .changePassword _ => .changed

/-- The name of the event that the command records. -/
def eventName : Command → String
  | .register _ => UserCreated.eventName
  | .login _ => UserLoggedIn.eventName
  | .changePassword _ => UserPasswordChanged.eventName

/-- What the command reads first: the committed user that it is about. -/
def load (hasher : Hasher) (watch : Watch) (store : Store) :
    Command → Except AccountError (Option User)
  | .register _ => .ok none
  | .login cmd => (Service.over hasher).loginTarget watch cmd store
  | .changePassword cmd => Repository.store.findById (watch 0) cmd.userId store

/-- What the command makes of what it read. -/
def decide (hasher : Hasher) (found : Option User) (d : Draws) : Command → Ending AccountError User
  | .register cmd => newUser hasher cmd d
  | .login cmd => loggedIn hasher cmd.password found d
  | .changePassword cmd => withNewPassword hasher cmd found d

/-- Loads and decides. -/
def decideAt (hasher : Hasher) (watch : Watch) (d : Draws) (store : Store) (c : Command) :
    Ending AccountError User :=
  orFail (c.load hasher watch store) fun found => c.decide hasher found d

/-- The answers of the context that are left after loading. -/
def afterLoad (watch : Watch) : Command → Watch
  | .register _ => watch
  | .login _ | .changePassword _ => watch.later 1

/-- An answer and what it leaves, reduced to whether there is an answer. -/
def answered {α : Type} (r : Ending AccountError α × Room Store Transaction) :
    Ending AccountError Unit × Room Store Transaction :=
  (r.1.map fun _ => (), r.2)

/-- **The whole service call.** -/
def serve (hasher : Hasher) (watch : Watch) (d : Draws) (room : Room Store Transaction) :
    Command → Ending AccountError Unit × Room Store Transaction
  | .register cmd => answered ((Service.over hasher).register watch cmd d room)
  | .login cmd => answered ((Service.over hasher).login watch cmd d room)
  | .changePassword cmd => (Service.over hasher).changePassword watch cmd d room

theorem answered_storing {α : Type} (s : Service Store Transaction) (watch : Watch) (mode : Storing)
    (decided : Ending AccountError User) (d : Draws) (answer : User → α)
    (room : Room Store Transaction) :
    answered (s.storing watch mode decided d answer room) =
      s.storing watch mode decided d (fun _ => ()) room := by
  cases decided with
  | failed e => rfl
  | panicked p => rfl
  | returned u =>
      simp only [Service.storing]
      cases h : s.persist watch mode u d.stamps room with
      | mk result room' => cases result <;> rfl

theorem serve_eq_storing (hasher : Hasher) (watch : Watch) (d : Draws)
    (room : Room Store Transaction) (c : Command) :
    c.serve hasher watch d room =
      (Service.over hasher).storing (c.afterLoad watch) c.mode
        (c.decideAt hasher watch d room.manager) d (fun _ => ()) room := by
  cases c with
  | register cmd =>
      simp only [serve, Service.register, answered_storing, decideAt, load, orFail, decide]
      rfl
  | login cmd =>
      simp only [serve, Service.login, answered_storing]
      rfl
  | changePassword cmd => rfl

end Command

/-! ## Loading -/

theorem userAt_eq_some_iff {key : String} {ts : Tables} {u : User} :
    userAt key ts = .ok (some u) ↔
      ∃ row r, ts.row? usersTable key = some row ∧ UserRecord.ofJson? row = some r ∧
        u = .restore r := by
  unfold userAt
  rw [map_succeeds_iff]
  constructor
  · rintro ⟨found, hget, hrestore⟩
    obtain ⟨r, rfl, rfl⟩ := Option.map_eq_some_iff.1 hrestore
    obtain ⟨row, hrow, hread⟩ := Tables.get_succeeds_iff.1 (mapError_succeeds_iff.1 hget)
    exact ⟨row, r, hrow, hread, rfl⟩
  · rintro ⟨row, r, hrow, hread, rfl⟩
    exact ⟨some r, mapError_succeeds_iff.2 (Tables.get_succeeds_iff.2 ⟨row, hrow, hread⟩), rfl⟩

theorem userWithEmail_eq_some_iff {email : Email} {ts : Tables} {u : User} :
    userWithEmail email ts = .ok (some u) ↔
      ∃ key, ts.row? emailsTable email.text = some (.str key) ∧ userAt key ts = .ok (some u) := by
  unfold userWithEmail
  rw [bind_succeeds_iff]
  constructor
  · rintro ⟨found, hget, huser⟩
    cases found with
    | none => cases huser
    | some key =>
        obtain ⟨row, hrow, hread⟩ := Tables.get_succeeds_iff.1 (mapError_succeeds_iff.1 hget)
        -- Only a string is read as a string.
        cases row with
        | str s =>
            obtain rfl : s = key := Option.some.inj hread
            exact ⟨s, hrow, huser⟩
        | _ => cases hread
  · rintro ⟨key, hrow, huser⟩
    exact ⟨some key, mapError_succeeds_iff.2 (Tables.get_succeeds_iff.2 ⟨_, hrow, rfl⟩), huser⟩

/-- Only an active context lets a reading through. -/
theorem reading_eq_ok_iff {α : Type} {context : Except ContextError Unit}
    {go : Except AccountError α} {a : α} :
    reading context go = .ok a ↔ context = .ok () ∧ go = .ok a := by
  cases context with
  | error e => simp [reading]
  | ok _ => simp [reading]

/-- A command loads a user from its record. -/
theorem Command.load_spec {hasher : Hasher} {watch : Watch} {store : Store} {c : Command} {u : User}
    (h : c.load hasher watch store = .ok (some u)) :
    c.mode = .changed ∧ ∃ key, userAt key store.tables = .ok (some u) := by
  cases c with
  | register cmd => cases h
  | login cmd =>
      refine ⟨rfl, ?_⟩
      have htarget : (Service.over hasher).loginTarget watch cmd store = .ok (some u) := h
      unfold Service.loginTarget at htarget
      cases hemail : Email.parse cmd.email with
      | error e =>
          -- What is no address has no user.
          rw [hemail] at htarget
          cases htarget
      | ok email =>
          rw [hemail] at htarget
          have hread : reading (watch 0) (userWithEmail email store.tables) = .ok (some u) :=
            htarget
          obtain ⟨-, hfound⟩ := reading_eq_ok_iff.1 hread
          obtain ⟨key, -, hkey⟩ := userWithEmail_eq_some_iff.1 hfound
          exact ⟨key, hkey⟩
  | changePassword cmd =>
      have hread : reading (watch 0) (userAt cmd.userId.text store.tables) = .ok (some u) := h
      exact ⟨rfl, cmd.userId.text, (reading_eq_ok_iff.1 hread).2⟩

/-! ## Deciding -/

/-- One event happened to a stored user. -/
structure Succeeds (u : User) (r : UserRecord) : Prop where
  id : u.id = r.id
  email : u.email = r.email
  loaded : u.persistedVersion = r.version
  next : u.version.toNat = r.version.toNat + 1

/-- **What a decision is**: one event, of the command's name and about the user, which is new at
version 1 or succeeds the record that was loaded; all of it in civil time. -/
structure Decided (c : Command) (found : Option User) (u : User) (e : Event) : Prop where
  recorded : u.pending = [e]
  name : e.name = c.eventName
  aggregate : e.aggregateId = u.id.toAggregate
  civil : u.toRecord.IsCivil ∧ e.occurredAt.IsCivil
  origin : (c.mode = .new ∧ found = none ∧ u.version = 1) ∨
    (c.mode = .changed ∧ ∃ r, found = some (.restore r) ∧ Succeeds u r)

/-- Recording an event on a stored history counts it and leaves it as the only one pending. -/
theorem record_stored {v : UInt64} {e : Event} {h : History}
    (hrec : (History.stored v).record e = .ok h) :
    h.pending = [e] ∧ h.persistedVersion = v ∧ h.version.toNat = v.toNat + 1 := by
  unfold History.record at hrec
  split at hrec
  · next room =>
      obtain rfl : { (History.stored v).push e with version := v + 1 } = h := by
        simpa [History.stored] using hrec
      have hnext : (v + 1).toNat = v.toNat + 1 := History.toNat_version_succ room
      exact ⟨rfl, History.persistedVersion_of_counted hnext, hnext⟩
  · cases hrec

/-- What happens to a loaded user changes its history alone. -/
theorem record_spec {ε : Type} {u u' : User} {e : Event} {v : UInt64}
    (hstored : u.history = .stored v) (h : (u.record e : Ending ε User) = .returned u') :
    ∃ history : History, u' = { u with history } ∧ history.pending = [e] ∧
      history.persistedVersion = v ∧ history.version.toNat = v.toNat + 1 := by
  unfold User.record at h
  rw [hstored] at h
  cases hrec : (History.stored v).record e with
  | error p => simp [hrec] at h
  | ok history =>
      simp only [hrec, Ending.returned.injEq] at h
      exact ⟨history, h.symm, record_stored hrec⟩

/-! What clocks stamp on a record is civil, like the record that was loaded. -/

theorem isCivil_registered (id : UserId) (email : Email) (hash : PasswordHash) (now : Reading) :
    UserRecord.IsCivil ⟨id, email, hash, now, none, none, 1⟩ :=
  ⟨now.civil, Instant.isCivil_of_mem_none, Instant.isCivil_of_mem_none⟩

theorem isCivil_loggedIn {r : UserRecord} (h : r.IsCivil) (now : Reading) (version : UInt64) :
    UserRecord.IsCivil { r with lastLoginAt := some now, version } :=
  ⟨h.createdAt, Instant.isCivil_of_mem_some now.civil, h.passwordChangedAt⟩

theorem isCivil_changed {r : UserRecord} (h : r.IsCivil) (hash : PasswordHash) (now : Reading)
    (version : UInt64) :
    UserRecord.IsCivil { r with passwordHash := hash, passwordChangedAt := some now, version } :=
  ⟨h.createdAt, h.lastLoginAt, Instant.isCivil_of_mem_some now.civil⟩

theorem Command.decide_register {hasher : Hasher} {cmd : RegisterUser} {d : Draws} {u : User}
    (h : newUser hasher cmd d = .returned u) : ∃ e, Decided (.register cmd) none u e := by
  unfold newUser orFail at h
  split at h
  · split at h
    · cases h
    · split at h
      · obtain rfl := Ending.returned.inj h
        exact ⟨_, rfl, rfl, rfl, ⟨isCivil_registered .., d.now.civil⟩, .inl ⟨rfl, rfl, rfl⟩⟩
      · cases h
      · cases h
  · cases h

theorem Command.decide_login {hasher : Hasher} {cmd : Login} {r : UserRecord} {d : Draws} {u : User}
    (hr : r.IsCivil) (h : loggedIn hasher cmd.password (some (.restore r)) d = .returned u) :
    ∃ e, Decided (.login cmd) (some (.restore r)) u e := by
  simp only [loggedIn] at h
  split at h
  · obtain ⟨history, rfl, hpending, hversion, hnext⟩ := record_spec (v := r.version) rfl h
    exact ⟨_, hpending, rfl, rfl, ⟨isCivil_loggedIn hr d.now _, d.now.civil⟩,
      .inr ⟨rfl, r, rfl, rfl, rfl, hversion, hnext⟩⟩
  · cases h

/-- A change of the password of a loaded user is recorded under its own name. -/
theorem changePassword_spec {r : UserRecord} {hash : PasswordHash} {now : Reading} {id : EventId}
    {u : User} (hr : r.IsCivil) (h : (User.restore r).changePassword hash now id = .returned u) :
    ∃ e, u.pending = [e] ∧ e.name = UserPasswordChanged.eventName ∧
      e.aggregateId = u.id.toAggregate ∧ (u.toRecord.IsCivil ∧ e.occurredAt.IsCivil) ∧
      Succeeds u r := by
  unfold User.changePassword at h
  split at h
  · cases h
  · obtain ⟨history, rfl, hpending, hversion, hnext⟩ := record_spec (v := r.version) rfl h
    exact ⟨_, hpending, rfl, rfl, ⟨isCivil_changed hr hash now _, now.civil⟩, rfl, rfl, hversion,
      hnext⟩

theorem Command.decide_changePassword {hasher : Hasher} {cmd : ChangePassword} {r : UserRecord}
    {d : Draws} {u : User} (hr : r.IsCivil)
    (h : withNewPassword hasher cmd (some (.restore r)) d = .returned u) :
    ∃ e, Decided (.changePassword cmd) (some (.restore r)) u e := by
  -- Refused before the change: a wrong old password, an empty new one, the old one once more, and
  -- one that cannot be hashed.
  simp only [withNewPassword] at h
  split at h
  · cases h
  · split at h
    · cases h
    · split at h
      · cases h
      · split at h
        · next hash _ =>
            cases hchange : (User.restore r).changePassword hash d.now d.eventId with
            | failed e => simp [hchange, Ending.mapError] at h
            | panicked p => simp [hchange, Ending.mapError] at h
            | returned u' =>
                rw [hchange] at h
                obtain rfl : u' = u := by simpa [Ending.mapError] using h
                obtain ⟨e, hpending, hname, haggregate, hcivil, hnext⟩ :=
                  changePassword_spec hr hchange
                exact ⟨e, hpending, hname, haggregate, hcivil, .inr ⟨rfl, r, rfl, hnext⟩⟩
        · cases h
        · cases h

/-- **Whatever a command decides on what it loaded, is a decision.** -/
theorem Command.decide_spec {hasher : Hasher} {watch : Watch} {store : Store} {c : Command}
    {found : Option User} {d : Draws} {u : User} (hload : c.load hasher watch store = .ok found)
    (h : c.decide hasher found d = .returned u) : ∃ e, Decided c found u e := by
  have hrestored : ∀ old, found = some old → ∃ r : UserRecord, r.IsCivil ∧ old = .restore r := by
    rintro old rfl
    obtain ⟨-, key, hkey⟩ := load_spec hload
    obtain ⟨row, r, -, hread, rfl⟩ := userAt_eq_some_iff.1 hkey
    exact ⟨r, UserRecord.isCivil_of_ofJson? hread, rfl⟩
  cases c with
  | register cmd =>
      obtain rfl : none = found := by simpa [load] using hload
      exact decide_register h
  | login cmd =>
      cases found with
      | none => simp [decide, loggedIn] at h
      | some old =>
          obtain ⟨r, hr, rfl⟩ := hrestored old rfl
          exact decide_login hr h
  | changePassword cmd =>
      cases found with
      | none => simp [decide, withNewPassword] at h
      | some old =>
          obtain ⟨r, hr, rfl⟩ := hrestored old rfl
          exact decide_changePassword hr h

theorem Command.decideAt_spec {hasher : Hasher} {watch : Watch} {d : Draws} {store : Store}
    {c : Command} {u : User} (h : c.decideAt hasher watch d store = .returned u) :
    ∃ found e, c.load hasher watch store = .ok found ∧ Decided c found u e := by
  unfold decideAt orFail at h
  cases hload : c.load hasher watch store with
  | error e => simp [hload] at h
  | ok found =>
      rw [hload] at h
      obtain ⟨e, he⟩ := decide_spec hload h
      exact ⟨found, e, rfl, he⟩

end Registrar.Accounts
