import Registrar.Proofs.Accounts.Mirror

set_option autoImplicit false

/-! # The system answers like the ledger

Over any requests, in any order, a system over an empty store answers what the ledger of accounts
answers (`answers_of_ledger`). Each service call agrees with a decision of the ledger (`Agrees`):
both give the same answer, and the store mirrors the accounts that the decision leaves. -/

namespace Registrar.Accounts

/-! ## Agreement -/

/-- **A service call agrees with a decision of the ledger.** -/
structure Agrees {α : Type} (hasher : Hasher) (supply : Nat → Draws) (accounts : Keyed Account)
    (served : Nat) (decision : Ledger.Decision α)
    (called : Ending AccountError α × Room Store Transaction) : Prop where
  answer : called.1 = decision.map Prod.fst
  mirrors : Mirrors hasher supply (decision.left accounts) (served + 1) called.2.manager

section Commands

variable {α : Type} {hasher : Hasher} {supply : Nat → Draws} {accounts : Keyed Account}
  {served count : Nat} {room : Room Store Transaction}

theorem Agrees.failed (h : Mirrors hasher supply accounts served room.manager) (e : AccountError) :
    Agrees (α := α) hasher supply accounts served (.failed e) (.failed e, room) :=
  ⟨rfl, h.refused rfl rfl⟩

theorem Agrees.panicked (h : Mirrors hasher supply accounts served room.manager)
    (p : PanicPayload) :
    Agrees (α := α) hasher supply accounts served (.panicked p) (.panicked p, room) :=
  ⟨rfl, h.refused rfl rfl⟩

/-! ## Registering -/

/-- **A new user is stored and entered in the ledger**, unless somebody has the address. -/
theorem Mirrors.opened (h : Mirrors hasher supply accounts served room.manager)
    (hfresh : Fresh supply count) (hserved : served < count) {u : User} {e : Event} {b : Account}
    (hcivil : u.toRecord.IsCivil) (hpending : u.pending = [e]) (hid : u.id = (supply served).userId)
    (hb : b.StoredAs hasher u.email.text u.toRecord) :
    Agrees hasher supply accounts served
      (if accounts.contains u.email.text then .failed (.emailTaken u.email.text)
      else .returned (u.id, accounts.insert u.email.text b))
      ((Service.over hasher).storing .active .new (.returned u) (supply served) (·.id) room) := by
  rcases h.byEmail u.email with ⟨hnone, hrow, -⟩ | ⟨a, r, hget, hrow, -⟩
  · have hcontains : accounts.contains u.email.text = false := by simp [Keyed.contains, hnone]
    -- An identifier that was just drawn is nobody's.
    have hfree : recordAt room.manager.tables u.id = none := by
      rw [hid]
      exact h.user_free hfresh hserved
    obtain ⟨room', hpersist, hwritable, hstored⟩ := persist_new hasher hpending h.writable
      (h.row_free hfresh hserved) hrow ((recordAt_eq_none_iff h.filed).1 hfree)
    rw [hcontains, storing_of_persisted hpersist]
    exact ⟨rfl, h.registered hcivil hstored hwritable hb hid.symm⟩
  · have hcontains : accounts.contains u.email.text = true := by simp [Keyed.contains, hget]
    obtain ⟨room', hpersist, htables, hwritable⟩ := persist_taken hasher hpending hrow
    rw [hcontains, storing_of_refused hpersist]
    exact ⟨rfl, h.refused htables hwritable⟩

/-- **Registering agrees with the ledger.** -/
theorem Mirrors.register (h : Mirrors hasher supply accounts served room.manager)
    (hfresh : Fresh supply count) (hserved : served < count) (cmd : RegisterUser) :
    Agrees hasher supply accounts served
      (Ledger.register hasher cmd (supply served) accounts)
      ((Service.over hasher).register .active cmd (supply served) room) := by
  have hhasher : (Service.over hasher).hasher = hasher := rfl
  unfold Service.register Ledger.register newUser
  rw [hhasher]
  cases Email.parse cmd.email with
  | error e => exact .failed h _
  | ok email =>
      simp only [Except.mapError, orFail]
      cases cmd.password.isEmpty with
      | true => exact .failed h _
      | false =>
          simp only [Bool.false_eq_true, if_false, Ledger.ifHashed]
          cases hhash : hasher.hash cmd.password with
          | failed e => exact .failed h _
          | panicked p => exact .panicked h _
          | returned hash =>
              exact h.opened hfresh hserved
                (u := User.register (supply served).userId email hash (supply served).now
                  (supply served).eventId) (isCivil_registered ..) rfl rfl ⟨rfl, hhash, rfl⟩

/-! ## Changing -/

/-- Recording an event counts it, until the greatest version. -/
theorem record_cases (ε : Type) {u : User} {v : UInt64} (hstored : u.history = .stored v)
    (e : Event) :
    (v.toNat + 1 < UInt64.size ∧ ∃ history : History,
      (u.record e : Ending ε User) = .returned { u with history } ∧
        history.version.toNat = v.toNat + 1) ∨
    (¬ v.toNat + 1 < UInt64.size ∧ (u.record e : Ending ε User) = .panicked .countOverflow) := by
  unfold User.record
  rw [hstored]
  cases hrec : (History.stored v).record e with
  | ok history =>
      obtain ⟨-, -, hversion⟩ := record_stored hrec
      refine .inl ⟨?_, history, rfl, hversion⟩
      rw [← hversion]
      exact history.version.toNat_lt_size
  | error p =>
      obtain ⟨hfull, rfl⟩ := History.record_eq_error_iff.1 hrec
      have hlast : v.toNat + 1 = UInt64.size := hfull
      exact .inr ⟨by omega, rfl⟩

theorem mapError_record {ε ε' : Type} (f : ε → ε') (u : User) (e : Event) :
    (u.record e : Ending ε User).mapError f = u.record e := by
  unfold User.record
  cases u.history.record e <;> rfl

/-- **A change of a stored user is stored and entered in the ledger**, unless the version is the
greatest already. -/
theorem Mirrors.amended (h : Mirrors hasher supply accounts served room.manager)
    (hfresh : Fresh supply count) (hserved : served < count) {address : String} {a b : Account}
    {r : UserRecord} {u : User} (hcivil : u.toRecord.IsCivil)
    (hget : accounts.get? address = some a) (ha : a.StoredAs hasher address r)
    (hr : recordAt room.manager.tables a.id = some r) (hhistory : u.history = .stored r.version)
    (hid : u.id = r.id) (hemail : u.email = r.email) (hb : b.StoredAs hasher address u.toRecord)
    (e : Event) {answer : α} {answered : User → α}
    (hanswer : ∀ history, answered { u with history } = answer) :
    Agrees hasher supply accounts served (Ledger.amend accounts address b answer)
      ((Service.over hasher).storing .active .changed (u.record e) (supply served) answered
        room) := by
  have hversion : b.version = r.version.toNat := by
    rw [hb.same]
    simp [Account.ofRecord, User.toRecord, hhistory, History.stored]
  rw [Ledger.amend, Account.next, hversion]
  rcases record_cases AccountError hhistory e with
    ⟨hroom, history, hrecord, hnext⟩ | ⟨hfull, hrecord⟩
  · rw [if_pos hroom, hrecord]
    obtain ⟨_, hrecorded, hpending, hloaded, -⟩ := record_spec hhistory hrecord
    obtain rfl := congrArg User.history hrecorded
    have hrow : room.manager.tables.row? usersTable { u with history }.id.text =
        some r.toJson.canonical := by
      show room.manager.tables.row? usersTable u.id.text = _
      rw [hid]
      exact ((recordAt_eq_some_iff h.filed).1 (ha.id ▸ hr)).2.1
    obtain ⟨room', hpersist, hwritable, hstored⟩ :=
      persist_changed hasher hpending h.writable (h.row_free hfresh hserved) hrow hloaded
    rw [storing_of_persisted hpersist, hanswer]
    have hcivil' : ({ u with history } : User).toRecord.IsCivil :=
      ⟨hcivil.createdAt, hcivil.lastLoginAt, hcivil.passwordChangedAt⟩
    refine ⟨rfl, h.changed hcivil' hstored hwritable hget ha hr ⟨hid, hemail, hloaded, hnext⟩
      ⟨hb.address, hb.hashed, ?_⟩⟩
    rw [hb.same]
    simp [Account.ofRecord, User.toRecord, hnext]
  · rw [if_neg hfull, hrecord]
    exact .panicked h _

/-- **Logging in agrees with the ledger.** -/
theorem Mirrors.login (h : Mirrors hasher supply accounts served room.manager)
    (hfaithful : hasher.Faithful) (hfresh : Fresh supply count) (hserved : served < count)
    (cmd : Login) :
    Agrees hasher supply accounts served (Ledger.login cmd (supply served) accounts)
      ((Service.over hasher).login .active cmd (supply served) room) := by
  have hhasher : (Service.over hasher).hasher = hasher := rfl
  unfold Service.login Ledger.login Service.loginTarget
  rw [hhasher]
  cases Email.parse cmd.email with
  | error e => exact .failed h _
  | ok email =>
      rcases h.byEmail email with ⟨hnone, -, hfind⟩ | ⟨a, r, hget, -, ha, hr, hfind⟩
      · have hfound : (Service.over hasher).backend.users.findByEmail (Watch.active 0) email
            room.manager = .ok none := hfind
        simp only [hfound, hnone, orFail, loggedIn]
        exact .failed h _
      · have hfound : (Service.over hasher).backend.users.findByEmail (Watch.active 0) email
            room.manager = .ok (some (.restore r)) := hfind
        have hverify : hasher.verify cmd.password (User.restore r).passwordHash = true ↔
            cmd.password = a.password := verify_iff hfaithful ha.hashed cmd.password
        simp only [hfound, hget, orFail, loggedIn, hverify]
        by_cases hpassword : cmd.password = a.password
        · rw [if_pos hpassword, if_pos hpassword]
          have hloaded := ((recordAt_eq_some_iff h.filed).1 hr).1
          refine h.amended hfresh hserved
            (u := { User.restore r with lastLoginAt := some (supply served).now })
            (b := { a with lastLoginAt := some (supply served).now })
            (isCivil_loggedIn hloaded (supply served).now _) hget ha hr rfl rfl rfl
            ⟨ha.address, ha.hashed, ?_⟩ _ ?_
          · rw [ha.same]
            rfl
          · intro history
            have hemail : r.email = email := congrArg Email.mk ha.address
            rw [ha.id, ← hemail]
            rfl
        · rw [if_neg hpassword, if_neg hpassword]
          exact .failed h _

/-- **Changing the password agrees with the ledger.** -/
theorem Mirrors.changePassword (h : Mirrors hasher supply accounts served room.manager)
    (hfaithful : hasher.Faithful) (hfresh : Fresh supply count) (hserved : served < count)
    (cmd : ChangePassword) :
    Agrees hasher supply accounts served (Ledger.changePassword hasher cmd (supply served) accounts)
      ((Service.over hasher).changePassword .active cmd (supply served) room) := by
  have hhasher : (Service.over hasher).hasher = hasher := rfl
  unfold Service.changePassword Ledger.changePassword
  rw [hhasher]
  rcases h.byId cmd.userId with ⟨hnone, hfind⟩ | ⟨address, a, r, hlookup, hget, ha, hr, hfind⟩
  · have hfound : (Service.over hasher).backend.users.findById (Watch.active 0) cmd.userId
        room.manager = .ok none := hfind
    simp only [hfound, hnone, orFail, withNewPassword]
    exact .failed h _
  · have hfound : (Service.over hasher).backend.users.findById (Watch.active 0) cmd.userId
        room.manager = .ok (some (.restore r)) := hfind
    have hverify : ∀ password, hasher.verify password (User.restore r).passwordHash = true ↔
        password = a.password := verify_iff hfaithful ha.hashed
    obtain ⟨hloaded, -, hsame⟩ := (recordAt_eq_some_iff h.filed).1 hr
    have hid : recordAt room.manager.tables a.id = some r := by
      rw [ha.id, hsame]
      exact hr
    have hwrong : hasher.verify cmd.current (User.restore r).passwordHash = false ↔
        cmd.current ≠ a.password := by
      rw [← Bool.not_eq_true, hverify]
    simp only [hfound, hlookup, orFail, withNewPassword, Bool.not_eq_true', hwrong, hverify]
    by_cases hcurrent : cmd.current ≠ a.password
    · rw [if_pos hcurrent, if_pos hcurrent]
      exact .failed h _
    rw [if_neg hcurrent, if_neg hcurrent]
    cases cmd.new.isEmpty with
    | true => exact .failed h _
    | false =>
        simp only [Bool.false_eq_true, if_false]
        by_cases hold : cmd.new = a.password
        · rw [if_pos hold, if_pos hold]
          exact .failed h _
        rw [if_neg hold, if_neg hold, Ledger.ifHashed]
        cases hhash : hasher.hash cmd.new with
        | failed e => exact .failed h _
        | panicked p => exact .panicked h _
        | returned hash =>
            -- Another password has another hash, so the user accepts it.
            have hother : hash ≠ (User.restore r).passwordHash := by
              rintro rfl
              exact hold (hfaithful.distinct _ _ _ hhash ha.hashed)
            simp only [User.changePassword, if_neg hother, mapError_record]
            refine h.amended hfresh hserved
              (u := { User.restore r with
                passwordHash := hash, passwordChangedAt := some (supply served).now })
              (b := { a with password := cmd.new, passwordChangedAt := some (supply served).now })
              (isCivil_changed hloaded hash (supply served).now _)
              hget ha hid rfl rfl rfl ⟨ha.address, hhash, ?_⟩ _ fun _ => rfl
            rw [ha.same]
            rfl

/-! ## Queries -/

theorem Mirrors.getUser (h : Mirrors hasher supply accounts served room.manager) (q : GetUser) :
    (Service.over hasher).getUser .active q room.manager = Ledger.getUser q accounts := by
  unfold Service.getUser Ledger.getUser
  have husers : (Service.over hasher).backend.users.findById (Watch.active 0) =
      Repository.store.findById (.ok ()) := rfl
  rw [husers]
  rcases h.byId q.userId with ⟨hnone, hfind⟩ | ⟨address, a, r, hlookup, -, ha, -, hfind⟩
  · rw [hfind, hnone]
    rfl
  · rw [hfind, hlookup]
    exact congrArg Except.ok ha.view

theorem Mirrors.findUserByEmail (h : Mirrors hasher supply accounts served room.manager)
    (q : FindUserByEmail) :
    (Service.over hasher).findUserByEmail .active q room.manager =
      Ledger.findUserByEmail q accounts := by
  unfold Service.findUserByEmail Ledger.findUserByEmail
  cases Email.parse q.email with
  | error e => rfl
  | ok email =>
      show (Repository.store.findByEmail (.ok ()) email room.manager >>= fun found =>
        pure (found.map User.view)) = .ok ((accounts.get? email.text).map (·.view email.text))
      rcases h.byEmail email with ⟨hnone, -, hfind⟩ | ⟨a, r, hget, -, ha, -, hfind⟩
      · rw [hfind, hnone]
        rfl
      · rw [hfind, hget]
        exact congrArg (fun v => Except.ok (some v)) ha.view

end Commands

/-! ## Visits -/

/-- A request and what it arrives in: its context, the flags that are raised by then, and what the
clock reads. -/
structure Visit where
  request : Request
  context : Context
  signals : Signals
  clock : Nat

def Visit.Active (v : Visit) : Prop := ActiveFor v.context v.signals v.clock

/-- The world in which a request arrives. -/
def Visit.enter {S T ρ : Type} (v : Visit) (w : World (Desk S T ρ)) : World (Desk S T ρ) :=
  { w with scene := ⟨v.signals, v.clock, w.scene.own⟩ }

/-- The answers of a system to visits, one after another. -/
def Assembly.serveAll {S T ρ : Type} (sys : Assembly S T ρ) :
    List Visit → World (Desk S T ρ) → List Answered × World (Desk S T ρ)
  | [], w => ([], w)
  | v :: visits, w =>
      let (a, w) := sys.send v.context v.request (v.enter w)
      let (as, w) := sys.serveAll visits w
      (⟨v.request, a⟩ :: as, w)

/-- A system stands where a ledger stands. -/
structure Simulates {ρ : Type} (hasher : Hasher) (supply : Nat → Draws) (l : Ledger)
    (w : World (Desk Store Transaction ρ)) : Prop where
  served : w.scene.own.served = l.served
  mirrors : Mirrors hasher supply l.accounts l.served w.scene.own.room.manager

namespace Simulates

variable {ρ : Type} {hasher : Hasher} {supply : Nat → Draws} {l : Ledger}
  {w w' : World (Desk Store Transaction ρ)} {sys : Assembly Store Transaction ρ} {c : Context}

theorem of_work (h : Simulates hasher supply l w) (hwork : w'.scene.own.work = w.scene.own.work) :
    Simulates hasher supply l w' where
  served := (congrArg Prod.snd hwork).trans h.served
  mirrors := by
    rw [show w'.scene.own.room = w.scene.own.room from congrArg Prod.fst hwork]
    exact h.mirrors

/-- A command whose service call agrees with a decision is answered as the ledger answers it. -/
theorem command (h : Simulates hasher supply l w) (hwired : Wired sys (Service.over hasher) supply)
    (hactive : ActiveFor c w.scene.signals w.scene.clock) (t : CommandTopic)
    (body : commands.Body t) {nothing : Prop} [Decidable nothing]
    (hnil : commands.isNil t body = true ↔ nothing) {decision : Ledger.Decision (commands.Value t)}
    (hagrees : Agrees hasher supply l.accounts l.served decision
      ((Service.over hasher).call .active t body (supply l.served) w.scene.own.room)) :
    (sys.commands.execute c ⟨t, body⟩ w).1 = (l.command t nothing decision).1 ∧
      Simulates hasher supply (l.command t nothing decision).2
        (sys.commands.execute c ⟨t, body⟩ w).2 := by
  unfold Ledger.command
  by_cases hnothing : nothing
  · rw [if_pos hnothing, hwired.refuse t body (hnil.2 hnothing)]
    exact ⟨rfl, h⟩
  · have hbody : commands.isNil t body = false := by
      rw [← Bool.not_eq_true, hnil]
      exact hnothing
    obtain ⟨hanswer, hwork⟩ := hwired.send_command hactive t body hbody
    rw [h.served] at hanswer hwork
    rw [if_neg hnothing]
    refine ⟨?_, congrArg Prod.snd hwork, ?_⟩
    · rw [hanswer, hagrees.answer]
      rfl
    · have hroom : (sys.commands.execute c ⟨t, body⟩ w).2.scene.own.room = _ :=
        congrArg Prod.fst hwork
      rw [hroom]
      exact hagrees.mirrors

/-- A query is answered from the accounts. -/
theorem query (h : Simulates hasher supply l w) (hwired : Wired sys (Service.over hasher) supply)
    (hactive : ActiveFor c w.scene.signals w.scene.clock) (t : QueryTopic) (body : queries.Body t)
    {found : Except AccountError (queries.Value t)}
    (hfound : (Service.over hasher).ask .active t body w.scene.own.room.manager = found) :
    (sys.queries.execute c ⟨t, body⟩ w).1 = found.mapError .handler ∧
      Simulates hasher supply l (sys.queries.execute c ⟨t, body⟩ w).2 := by
  obtain ⟨hanswer, hwork⟩ := hwired.send_query hactive t body
  rw [hanswer, hfound]
  exact ⟨rfl, h.of_work hwork⟩

/-- **One request**: the system and the ledger give the same answer and go on alike. -/
theorem send (h : Simulates hasher supply l w) (hwired : Wired sys (Service.over hasher) supply)
    (hfaithful : hasher.Faithful) {count : Nat} (hfresh : Fresh supply count)
    (hserved : l.served < count) (hactive : ActiveFor c w.scene.signals w.scene.clock)
    (r : Request) :
    (sys.send c r w).1 = (l.answer hasher supply r).1 ∧
      Simulates hasher supply (l.answer hasher supply r).2 (sys.send c r w).2 := by
  cases r with
  | registerUser cmd =>
      exact h.command hwired hactive .registerUser cmd (by simp [commands])
        (h.mirrors.register hfresh hserved cmd)
  | login cmd =>
      exact h.command hwired hactive .login cmd (by simp [commands])
        (h.mirrors.login hfaithful hfresh hserved cmd)
  | changePassword cmd =>
      exact h.command hwired hactive .changePassword cmd
        (by simp [commands, Id.isNil]) (h.mirrors.changePassword hfaithful hfresh hserved cmd)
  | getUser q => exact h.query hwired hactive .getUser q (h.mirrors.getUser q)
  | findUserByEmail q =>
      have hfound := h.mirrors.findUserByEmail q
      rw [Ledger.answer]
      -- What was found is not looked into, or the address would be parsed.
      generalize Ledger.findUserByEmail q l.accounts = found at hfound ⊢
      exact h.query hwired hactive .findUserByEmail q hfound

/-- **All requests of a run**: both give the same answers, for as many commands as draws
are fresh. -/
theorem serveAll (hwired : Wired sys (Service.over hasher) supply) (hfaithful : hasher.Faithful)
    {count : Nat} (hfresh : Fresh supply count) {visits : List Visit}
    (hactive : ∀ v ∈ visits, v.Active) (h : Simulates hasher supply l w)
    (hwithin : Ledger.Within l.accounts l.served) (hcount : l.served + visits.length ≤ count) :
    (sys.serveAll visits w).1 = (l.answerAll hasher supply (visits.map (·.request))).1 := by
  induction visits generalizing l w with
  | nil => rfl
  | cons v visits ih =>
      rw [List.length_cons] at hcount
      have henter : Simulates hasher supply l (v.enter w) := h.of_work rfl
      obtain ⟨hanswer, hnext⟩ := henter.send hwired hfaithful hfresh (by omega)
        (hactive v List.mem_cons_self) v.request
      obtain ⟨hwithin', hserved⟩ := Ledger.within_answer hwithin hasher supply v.request
      have hrest := ih (fun v' hv' => hactive v' (List.mem_cons_of_mem _ hv')) hnext hwithin'
        (by omega)
      simp only [Assembly.serveAll, List.map_cons, Ledger.answerAll, hanswer, hrest]

end Simulates

/-! ## The theorem -/

/-- Nobody has an account and nothing has been served. -/
def opening {ρ : Type} (own : ρ) : World (Desk Store Transaction ρ) :=
  .start ⟨.none, 0, ⟨⟨.empty, []⟩, 0, own⟩⟩

theorem simulates_opening {ρ : Type} (hasher : Hasher) (supply : Nat → Draws) (own : ρ) :
    Simulates hasher supply .empty (opening own) :=
  ⟨rfl, .empty⟩

/-- **The system answers like the ledger**, whatever its configuration and its observers: to any
requests in any order, with contexts that are active until they are answered and with fresh draws.
No version exceeds the number of requests, so counting cannot end among the first `2 ^ 64 - 1`. -/
theorem answers_of_ledger {ρ : Type} (hasher : Hasher) (hfaithful : hasher.Faithful)
    (supply : Nat → Draws) (visits : List Visit) (hfresh : Fresh supply visits.length)
    (hactive : ∀ v ∈ visits, v.Active) (config : Config) (tracer : Tracer ρ) (own : ρ) :
    ∃ sys w, Assembly.assemble config tracer.onDesk (Service.over hasher) supply (opening own) =
        (.ok sys, w) ∧
      (sys.serveAll visits w).1 =
        (Ledger.empty.answerAll hasher supply (visits.map (·.request))).1 ∧
      Ledger.Within (Ledger.empty.answerAll hasher supply (visits.map (·.request))).2.accounts
        visits.length := by
  obtain ⟨sys, w, hassemble, hwired, hscene⟩ :=
    assemble_wired config tracer (Service.over hasher) supply (opening own)
  have hstart : Simulates hasher supply .empty w :=
    (simulates_opening hasher supply own).of_work (by rw [hscene])
  have hempty : Ledger.Within Ledger.empty.accounts Ledger.empty.served := by
    intro address a ha
    cases ha
  refine ⟨sys, w, hassemble, ?_, ?_⟩
  · refine hstart.serveAll hwired hfaithful hfresh hactive hempty ?_
    rw [show Ledger.empty.served = 0 from rfl, Nat.zero_add]
  · have hwithin := Ledger.within_answerAll hasher supply (visits.map (·.request)) hempty
    rw [List.length_map, show Ledger.empty.served = 0 from rfl, Nat.zero_add] at hwithin
    exact hwithin

/-! ### A day

Somebody registers, logs in and changes the password, while others ask for an address that is taken
and for a password that cannot be hashed. -/

/-- Leaves passwords as they are, and refuses one. -/
def pickyHasher : Hasher where
  hash password :=
    if password = "secret" then .failed (.hashing "guessed") else .returned ⟨password⟩
  verify password h := password ≠ "secret" && password == h.encoded

def numberedDraws (n : Nat) : Draws :=
  ⟨⟨.ofNat (n + 1)⟩, ⟨.ofNat n⟩, .epoch, fun _ => ⟨.ofNat n, .epoch⟩⟩

/-- The outcome of a request: the kind of the error, if there is one. -/
def Answered.outcome (a : Answered) : Option String :=
  match a.2 with
  | .ok _ => none
  | .error e => some (Report.kind e)

/-- Visits a minute apart, each in a context of its own that may take a second. -/
def minutes (requests : List Request) : List Visit :=
  requests.zipIdx.map fun (request, n) =>
    ⟨request, ⟨n, .nil, some (60 * n * nanosPerSecond + nanosPerSecond), Keyed.empty⟩, .none,
      60 * n * nanosPerSecond⟩

def day : List Request :=
  [.registerUser ⟨" Ada@Home", "one"⟩, .registerUser ⟨"ada@home", "two"⟩,
    .registerUser ⟨"bob@home", "secret"⟩, .login ⟨"ADA@HOME", "one"⟩,
    .changePassword ⟨⟨.ofNat 1⟩, "one", "two"⟩, .login ⟨"ada@home", "one"⟩,
    .login ⟨"ada@home", "two"⟩, .login ⟨"", ""⟩, .getUser ⟨⟨.ofNat 1⟩⟩, .getUser ⟨⟨.ofNat 2⟩⟩]

theorem pickyHasher_faithful : pickyHasher.Faithful where
  verify password h := by
    by_cases hsecret : password = "secret"
    · simp [pickyHasher, hsecret]
    · cases h
      simp [pickyHasher, hsecret]
  distinct p q h hp hq := by
    simp only [pickyHasher] at hp hq
    split at hp
    · cases hp
    · split at hq
      · cases hq
      · simpa using (Ending.returned.inj hp).trans (Ending.returned.inj hq).symm

theorem fresh_numberedDraws : Fresh numberedDraws (minutes day).length where
  users := by decide
  rows := by decide

theorem active_minutes (requests : List Request) : ∀ v ∈ minutes requests, v.Active := by
  intro v hv
  obtain ⟨⟨request, n⟩, -, rfl⟩ := List.mem_map.1 hv
  refine ⟨rfl, fun d hd => ?_⟩
  rw [← Option.some.inj hd]
  have hsecond : 3 < nanosPerSecond := by decide
  exact Nat.add_lt_add_left hsecond _

theorem answers_of_ledger_day :
    ∃ sys w, Assembly.assemble .standard (Tracer.silent : Tracer Unit).onDesk
        (Service.over pickyHasher) numberedDraws (opening ()) = (.ok sys, w) ∧
      (sys.serveAll (minutes day) w).1.map (·.outcome) =
        [none, some "Handler.EmailTaken", some "Handler.Hashing", none, none,
          some "Handler.InvalidCredentials", none, some "NilCommand", none,
          some "Handler.UserNotFound"] := by
  obtain ⟨sys, w, hassemble, hanswers, -⟩ := answers_of_ledger pickyHasher pickyHasher_faithful
    numberedDraws (minutes day) fresh_numberedDraws (active_minutes day) .standard .silent ()
  refine ⟨sys, w, hassemble, ?_⟩
  rw [hanswers]
  decide +kernel

end Registrar.Accounts
