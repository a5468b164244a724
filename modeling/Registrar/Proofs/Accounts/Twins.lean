import Registrar.Proofs.Accounts.Mirror
import Registrar.Proofs.Accounts.Requests
import Registrar.Proofs.Outbox.InStep

set_option autoImplicit false

/-! # Services in step

Two hashers are kin if both are faithful and they differ in their hashes alone. Whatever a service
does with a hash, it does the same with the hash of the same password by kin: it verifies the same
passwords (`Hasher.Kin.verify`) and finds the same hashes equal (`Hasher.Kin.eq_iff`). So services
over kin make twin users of twin users, which have the same events and the same view, and stage twin
rows. A command is served in step and a query answered alike (`call_inStep`, `ask_same`). -/

namespace Registrar

/-! ## Hashers -/

/-- **Faithful hashers that differ in their hashes alone**: they hash the same passwords, and they
fail or panic alike at the others. -/
structure Hasher.Kin (hasher hasher' : Hasher) : Prop where
  faithful : hasher.Faithful
  faithful' : hasher'.Faithful
  alike : ∀ password,
    (hasher.hash password).map (fun _ => ()) = (hasher'.hash password).map (fun _ => ())

/-- Hashes of one password. -/
def Hasher.Twins (hasher hasher' : Hasher) (h h' : PasswordHash) : Prop :=
  ∃ password, hasher.hash password = .returned h ∧ hasher'.hash password = .returned h'

variable {hasher hasher' : Hasher}

namespace Hasher.Kin

/-- A password is hashed by both, to twins, or refused alike. -/
theorem hash (hkin : hasher.Kin hasher') (password : String) :
    (∃ e, hasher.hash password = .failed e ∧ hasher'.hash password = .failed e) ∨
    (∃ p, hasher.hash password = .panicked p ∧ hasher'.hash password = .panicked p) ∨
    ∃ h h', hasher.hash password = .returned h ∧ hasher'.hash password = .returned h' ∧
      hasher.Twins hasher' h h' := by
  rcases (SameEnding.of_map_eq (hkin.alike password)).either with
    hfailed | hpanicked | ⟨h, h', hhash, hhash', -⟩
  · exact .inl hfailed
  · exact .inr (.inl hpanicked)
  · exact .inr (.inr ⟨h, h', hhash, hhash', password, hhash, hhash'⟩)

/-- Twin hashes fit the same passwords. -/
theorem verify (hkin : hasher.Kin hasher') {h h' : PasswordHash} (hh : hasher.Twins hasher' h h')
    (password : String) : hasher.verify password h = hasher'.verify password h' := by
  obtain ⟨current, hhash, hhash'⟩ := hh
  rw [Bool.eq_iff_iff, Accounts.verify_iff hkin.faithful hhash,
    Accounts.verify_iff hkin.faithful' hhash']

/-- The same twins are equal. -/
theorem eq_iff (hkin : hasher.Kin hasher') {h h' old old' : PasswordHash}
    (hh : hasher.Twins hasher' h h') (hold : hasher.Twins hasher' old old') :
    h = old ↔ h' = old' := by
  obtain ⟨p, hp, hp'⟩ := hh
  obtain ⟨q, hq, hq'⟩ := hold
  constructor
  · rintro rfl
    obtain rfl := hkin.faithful.distinct p q h hp hq
    exact Ending.returned.inj (hp'.symm.trans hq')
  · rintro rfl
    obtain rfl := hkin.faithful'.distinct p q h' hp' hq'
    exact Ending.returned.inj (hp.symm.trans hq)

end Hasher.Kin

/-! ## Users -/

/-- Users with twin hashes and nothing else that differs. -/
inductive User.Twins (hasher hasher' : Hasher) : User → User → Prop
  | intro (u : User) {h' : PasswordHash} (hh : hasher.Twins hasher' u.passwordHash h') :
      Twins hasher hasher' u { u with passwordHash := h' }

/-- Records with twin hashes and nothing else that differs. -/
inductive UserRecord.Twins (hasher hasher' : Hasher) : UserRecord → UserRecord → Prop
  | intro (r : UserRecord) {h' : PasswordHash} (hh : hasher.Twins hasher' r.passwordHash h') :
      Twins hasher hasher' r { r with passwordHash := h' }

namespace User.Twins

variable {u u' : User}

theorem record {ε : Type} (h : u.Twins hasher hasher' u') (e : Event) :
    SameEnding (User.Twins hasher hasher') (u.record e : Ending ε User) (u'.record e) := by
  obtain ⟨hh⟩ := h
  unfold User.record
  simp only
  cases u.history.record e with
  | error p => exact .panicked p
  | ok history => exact .returned (.intro { u with history } hh)

theorem login {ε : Type} (h : u.Twins hasher hasher' u') (at_ : Instant) (eventId : EventId) :
    SameEnding (User.Twins hasher hasher') (u.login at_ eventId : Ending ε User)
      (u'.login at_ eventId) := by
  obtain ⟨hh⟩ := h
  exact (User.Twins.intro { u with lastLoginAt := some at_ } hh).record _

theorem changePassword (hkin : hasher.Kin hasher') (h : u.Twins hasher hasher' u')
    {new new' : PasswordHash} (hnew : hasher.Twins hasher' new new') (at_ : Instant)
    (eventId : EventId) :
    SameEnding (User.Twins hasher hasher') (u.changePassword new at_ eventId)
      (u'.changePassword new' at_ eventId) := by
  obtain ⟨hh⟩ := h
  unfold User.changePassword
  by_cases hsame : new = u.passwordHash
  · rw [if_pos hsame, if_pos ((hkin.eq_iff hnew hh).1 hsame)]
    exact .failed _
  · rw [if_neg hsame, if_neg fun hc => hsame ((hkin.eq_iff hnew hh).2 hc)]
    let changed : User := { u with passwordHash := new, passwordChangedAt := some at_ }
    exact (User.Twins.intro changed hnew).record _

end User.Twins

namespace UserRecord

variable {r r' : UserRecord}

theorem Twins.restore (h : r.Twins hasher hasher' r') :
    (User.restore r).Twins hasher hasher' (User.restore r') := by
  obtain ⟨hh⟩ := h
  exact .intro (User.restore r) hh

theorem Twins.asRead (h : r.Twins hasher hasher' r') : r.asRead.Twins hasher hasher' r'.asRead := by
  obtain ⟨hh⟩ := h
  exact .intro r.asRead hh

/-- Whatever field is read as a number is the same: a hash is none. -/
theorem Twins.versionOf_eq (h : r.Twins hasher hasher' r') (field : String) :
    versionOf field (some r.toJson.canonical) = versionOf field (some r'.toJson.canonical) := by
  obtain ⟨hh⟩ := h
  by_cases hfield : field = "password_hash"
  · subst hfield
    simp [versionOf, toJson, Json.field?_canonical, Json.canonicalFields_eq_map, Keyed.find?,
      Json.asUInt64?, Json.asNat?]
  · simp [versionOf, toJson, Json.field?_canonical, Json.canonicalFields_eq_map, Keyed.find?,
      hfield]

end UserRecord

namespace Accounts

/-! ## Rows -/

/-- **Rows that differ in a hash alone**: records of twins in the table of users, and nothing that
differs in any other table. -/
inductive RowTwins (hasher hasher' : Hasher) : String → Json → Json → Prop
  | users {r r' : UserRecord} (h : r.Twins hasher hasher' r') :
      RowTwins hasher hasher' usersTable r.toJson.canonical r'.toJson.canonical
  | others {table : String} (htable : table ≠ usersTable) (row : Json) :
      RowTwins hasher hasher' table row row

theorem RowTwins.eq {table : String} {row row' : Json} (h : RowTwins hasher hasher' table row row')
    (htable : table ≠ usersTable) : row = row' := by
  cases h with
  | users _ => exact absurd rfl htable
  | others _ _ => rfl

/-- A key of the users table has no row in either run, or the records of twins. -/
theorem RowTwins.users_cases {row row' : Option Json}
    (h : Option.Rel (RowTwins hasher hasher' usersTable) row row') :
    (row = none ∧ row' = none) ∨ ∃ r r' : UserRecord, row = some r.toJson.canonical ∧
      row' = some r'.toJson.canonical ∧ r.Twins hasher hasher' r' := by
  cases h with
  | none => exact .inl ⟨rfl, rfl⟩
  | some hrow =>
      cases hrow with
      | users hr => exact .inr ⟨_, _, rfl, rfl, hr⟩
      | others htable _ => exact absurd rfl htable

theorem guardBlind_rowTwins : GuardBlind (RowTwins hasher hasher') := by
  intro table row row' h field
  cases h with
  | users hr => exact hr.versionOf_eq field
  | others _ _ => rfl

theorem plain_rowTwins : Outbox.Plain (RowTwins hasher hasher') := by
  intro row row'
  have htable : Outbox.tableName ≠ usersTable := by decide
  constructor
  · exact fun h => h.eq htable
  · rintro rfl
    exact .others htable row

/-- The store of one run, and that of the other. -/
abbrev StoreTwins (hasher hasher' : Hasher) : Store → Store → Prop :=
  Store.Twins (RowTwins hasher hasher')

abbrev RoomTwins (hasher hasher' : Hasher) :
    Room Store Transaction → Room Store Transaction → Prop :=
  Room.Twins (RowTwins hasher hasher')

/-! ## Loading -/

/-- Both found nobody, or twins. -/
abbrev FoundTwins (hasher hasher' : Hasher) : Option User → Option User → Prop :=
  Option.Rel (User.Twins hasher hasher')

section Services

variable {s s' : Store} {ts ts' : Tables}

theorem userAt_same (hts : ts.Twins (RowTwins hasher hasher') ts') (key : String) :
    SameResult (FoundTwins hasher hasher') (userAt key ts) (userAt key ts') := by
  unfold userAt Tables.get
  rcases RowTwins.users_cases (hts usersTable key) with ⟨hrow, hrow'⟩ | ⟨r, r', hrow, hrow', hr⟩
  · rw [hrow, hrow']
    exact .ok .none
  · simp only [hrow, hrow', Tables.decode, UserRecord.ofJson?_canonical]
    exact .ok (.some hr.asRead.restore)

theorem userWithEmail_same (hts : ts.Twins (RowTwins hasher hasher') ts') (email : Email) :
    SameResult (FoundTwins hasher hasher') (userWithEmail email ts) (userWithEmail email ts') := by
  have hrow : ts.row? emailsTable email.text = ts'.row? emailsTable email.text :=
    eq_of_rel (hts emailsTable email.text) fun h => h.eq (by decide)
  unfold userWithEmail Tables.get
  rw [hrow]
  refine (SameResult.self _).bind ?_
  rintro key _ rfl
  cases key with
  | none => exact .ok .none
  | some key => exact userAt_same hts key

theorem reading_same {α : Type} {Q : α → α → Prop} (context : Except ContextError Unit)
    {go go' : Except AccountError α} (h : SameResult Q go go') :
    SameResult Q (reading context go) (reading context go') := by
  cases context with
  | error e => exact .error _
  | ok _ => exact h

/-! ## Deciding -/

variable {found found' : Option User}

theorem newUser_same (hkin : hasher.Kin hasher') (cmd : RegisterUser) (d : Draws) :
    SameEnding (User.Twins hasher hasher') (newUser hasher cmd d) (newUser hasher' cmd d) := by
  unfold newUser
  cases (Email.parse cmd.email).mapError AccountError.domain with
  | error e => exact .failed e
  | ok email =>
      simp only [orFail]
      split
      · exact .failed _
      · rcases hkin.hash cmd.password with
          ⟨e, he, he'⟩ | ⟨p, hp, hp'⟩ | ⟨h, h', hhash, hhash', hh⟩
        · rw [he, he']
          exact .failed e
        · rw [hp, hp']
          exact .panicked p
        · rw [hhash, hhash']
          exact .returned (.intro (.register d.userId email h d.now d.eventId) hh)

theorem loggedIn_same (hkin : hasher.Kin hasher') (hfound : FoundTwins hasher hasher' found found')
    (password : String) (d : Draws) :
    SameEnding (User.Twins hasher hasher') (loggedIn hasher password found d)
      (loggedIn hasher' password found' d) := by
  cases hfound with
  | none => exact .failed _
  | some hu =>
      have hlogin := hu.login (ε := AccountError) d.now d.eventId
      obtain ⟨hh⟩ := hu
      simp only [loggedIn, hkin.verify hh]
      split
      · exact hlogin
      · exact .failed _

theorem withNewPassword_same (hkin : hasher.Kin hasher')
    (hfound : FoundTwins hasher hasher' found found') (cmd : ChangePassword) (d : Draws) :
    SameEnding (User.Twins hasher hasher') (withNewPassword hasher cmd found d)
      (withNewPassword hasher' cmd found' d) := by
  cases hfound with
  | none => exact .failed _
  | some hu =>
      have hchange := fun {new new'} (hnew : hasher.Twins hasher' new new') =>
        hu.changePassword hkin hnew d.now d.eventId
      obtain ⟨hh⟩ := hu
      simp only [withNewPassword, hkin.verify hh]
      split
      · exact .failed _
      split
      · exact .failed _
      split
      · exact .failed _
      rcases hkin.hash cmd.new with ⟨e, he, he'⟩ | ⟨p, hp, hp'⟩ | ⟨h, h', hhash, hhash', hnew⟩
      · rw [he, he']
        exact .failed e
      · rw [hp, hp']
        exact .panicked p
      · rw [hhash, hhash']
        exact (hchange hnew).mapError _

/-! ## Staging -/

variable {tx tx' : Transaction} {u u' : User}

/-- The rows of twins. -/
theorem row_twins (hu : u.Twins hasher hasher' u') :
    RowTwins hasher hasher' usersTable u.toRecord.toJson.canonical
      u'.toRecord.toJson.canonical := by
  obtain ⟨hh⟩ := hu
  exact .users (.intro u.toRecord hh)

theorem stageEmail_same (hts : ts.Twins (RowTwins hasher hasher') ts')
    (htx : tx.Twins (RowTwins hasher hasher') tx') (hu : u.Twins hasher hasher' u') :
    SameResult (Transaction.Twins (RowTwins hasher hasher')) (stageEmail u ts tx)
      (stageEmail u' ts' tx') := by
  obtain ⟨hh⟩ := hu
  have hrow : RowTwins hasher hasher' emailsTable (Json.str u.id.text).canonical
      (Json.str u.id.text).canonical := .others (by decide) _
  simp only [stageEmail]
  rcases (htx.insert hts u.email.text hrow).either with
    ⟨e, he, he'⟩ | ⟨_, _, hstaged, hstaged', hleft⟩
  · simp only [he, he']
    cases e <;> exact .error _
  · simp only [hstaged, hstaged']
    exact .ok hleft

theorem stageRecord_same (hts : ts.Twins (RowTwins hasher hasher') ts')
    (htx : tx.Twins (RowTwins hasher hasher') tx') (hu : u.Twins hasher hasher' u') :
    SameResult (Transaction.Twins (RowTwins hasher hasher')) (stageRecord u ts tx)
      (stageRecord u' ts' tx') := by
  have hrow := row_twins hu
  obtain ⟨hh⟩ := hu
  exact (htx.insert hts u.id.text hrow).mapError _

theorem stageNew_inStep (hts : ts.Twins (RowTwins hasher hasher') ts')
    (htx : tx.Twins (RowTwins hasher hasher') tx') (hu : u.Twins hasher hasher' u') :
    InStep (Transaction.Twins (RowTwins hasher hasher')) (stageNew u ts tx)
      (stageNew u' ts' tx') := by
  unfold stageNew
  rcases (stageEmail_same hts htx hu).either with
    ⟨e, he, he'⟩ | ⟨tx₁, tx₁', hemail, hemail', hleft⟩
  · rw [he, he']
    exact .still htx _
  · simp only [hemail, hemail']
    rcases (stageRecord_same hts hleft hu).either with
      ⟨e, he, he'⟩ | ⟨tx₂, tx₂', hrecord, hrecord', hstaged⟩
    · rw [he, he']
      exact .still hleft _
    · rw [hrecord, hrecord']
      exact .still hstaged _

theorem recordFor_same (hts : ts.Twins (RowTwins hasher hasher') ts')
    (htx : tx.Twins (RowTwins hasher hasher') tx') (hu : u.Twins hasher hasher' u') :
    SameResult (UserRecord.Twins hasher hasher') (recordFor u ts tx) (recordFor u' ts' tx') := by
  obtain ⟨hh⟩ := hu
  simp only [recordFor, Transaction.get]
  rcases RowTwins.users_cases (htx.row? hts usersTable u.id.text) with
    ⟨hrow, hrow'⟩ | ⟨r, r', hrow, hrow', hr⟩
  · rw [hrow, hrow']
    exact .error _
  · simp only [hrow, hrow', Tables.decode, UserRecord.ofJson?_canonical]
    exact .ok hr.asRead

theorem stageChange_same (hts : ts.Twins (RowTwins hasher hasher') ts')
    (htx : tx.Twins (RowTwins hasher hasher') tx') (hu : u.Twins hasher hasher' u') :
    SameResult (Transaction.Twins (RowTwins hasher hasher')) (stageChange u ts tx)
      (stageChange u' ts' tx') := by
  have hrow := row_twins hu
  refine (recordFor_same hts htx hu).bind fun hr => ?_
  obtain ⟨hh⟩ := hu
  obtain ⟨_⟩ := hr
  refine (SameResult.self _).bind ?_
  rintro ⟨⟩ _ rfl
  exact (htx.putVersioned guardBlind_rowTwins hts u.id.text hrow "version" _).mapError _

theorem writeUser_inStep (hs : StoreTwins hasher hasher' s s')
    (htx : tx.Twins (RowTwins hasher hasher') tx') (hu : u.Twins hasher hasher' u')
    (mode : Storing) (context : Except ContextError Unit) :
    InStep (Transaction.Open (RowTwins hasher hasher')) (writeUser mode context u s (some tx))
      (writeUser mode context u' s' (some tx')) := by
  cases context with
  | error e => cases mode <;> exact .still ⟨htx⟩ _
  | ok _ =>
      cases mode with
      | new =>
          have hnew := stageNew_inStep hs.tables htx hu
          exact ⟨hnew.answer, ⟨hnew.left⟩⟩
      | changed =>
          rcases (stageChange_same hs.tables htx hu).either with
            ⟨e, he, he'⟩ | ⟨_, _, hchange, hchange', hleft⟩
          · simp only [writeUser, Repository.store, staging, he, he']
            exact .still ⟨htx⟩ _
          · simp only [writeUser, Repository.store, staging, hchange, hchange']
            exact .still ⟨hleft⟩ _

/-- **Twins are staged in step**: with the same events, and refused alike. -/
theorem stage_inStep (hs : StoreTwins hasher hasher' s s')
    (htx : tx.Twins (RowTwins hasher hasher') tx') (hu : u.Twins hasher hasher' u') (watch : Watch)
    (mode : Storing) (stamps : Nat → Outbox.Stamp) :
    InStep (Transaction.Open (RowTwins hasher hasher'))
      ((Service.over hasher).stage watch mode u stamps s (some tx))
      ((Service.over hasher').stage watch mode u' stamps s' (some tx')) := by
  obtain ⟨written, _, _, huser, huser', ⟨htx⟩⟩ :=
    (writeUser_inStep hs htx hu mode (watch 0)).spread
  have hpending : u'.pending = u.pending := by
    obtain ⟨_⟩ := hu
    rfl
  cases written with
  | error e =>
      rw [stage_of_refused hasher huser, stage_of_refused hasher' huser']
      exact .still ⟨htx⟩ _
  | ok _ =>
      obtain ⟨count, _, _, hevents, hevents', hopen⟩ := (Outbox.write_inStep plain_rowTwins .json hs
        (watch.later 1) stamps u.pending htx).spread
      rw [← hpending] at hevents'
      rw [stage_of_user hasher huser hevents, stage_of_user hasher' huser' hevents']
      exact .still hopen _

/-! ## Serving -/

variable {room room' : Room Store Transaction}

theorem persist_inStep (hroom : RoomTwins hasher hasher' room room')
    (hu : u.Twins hasher hasher' u') (watch : Watch) (mode : Storing)
    (stamps : Nat → Outbox.Stamp) :
    InStep (RoomTwins hasher hasher') ((Service.over hasher).persist watch mode u stamps room)
      ((Service.over hasher').persist watch mode u' stamps room') :=
  UnitOfWork.alone_inStep guardBlind_rowTwins _ _ hroom fun hs =>
    stage_inStep hs .empty hu (watch.later 1) mode stamps

theorem storing_inStep {α : Type} (hroom : RoomTwins hasher hasher' room room')
    {decided decided' : Ending AccountError User}
    (hdecided : SameEnding (User.Twins hasher hasher') decided decided') (watch : Watch)
    (mode : Storing) (d : Draws) {answer : User → α}
    (hanswer : ∀ {u u'}, User.Twins hasher hasher' u u' → answer u = answer u') :
    InStep (RoomTwins hasher hasher')
      ((Service.over hasher).storing watch mode decided d answer room)
      ((Service.over hasher').storing watch mode decided' d answer room') := by
  cases hdecided with
  | failed e => exact .still hroom _
  | panicked p => exact .still hroom _
  | returned hu =>
      obtain ⟨stored, _, _, hpersist, hpersist', hleft⟩ :=
        (persist_inStep hroom hu watch mode d.stamps).spread
      simp only [Service.storing, hpersist, hpersist']
      cases stored with
      | error e => exact .still hleft _
      | ok _ =>
          rw [hanswer hu]
          exact .still hleft _

/-- What is decided on what was found. -/
theorem orFail_same {found found' : Except AccountError (Option User)}
    (hfound : SameResult (FoundTwins hasher hasher') found found')
    {decide decide' : Option User → Ending AccountError User}
    (hdecide : ∀ {o o'}, FoundTwins hasher hasher' o o' →
      SameEnding (User.Twins hasher hasher') (decide o) (decide' o')) :
    SameEnding (User.Twins hasher hasher') (orFail found decide) (orFail found' decide') := by
  cases hfound with
  | error e => exact .failed e
  | ok ho => exact hdecide ho

theorem findById_same (hs : StoreTwins hasher hasher' s s') (context : Except ContextError Unit)
    (id : UserId) :
    SameResult (FoundTwins hasher hasher')
      ((Service.over hasher).backend.users.findById context id s)
      ((Service.over hasher').backend.users.findById context id s') :=
  reading_same context (userAt_same hs.tables id.text)

theorem findByEmail_same (hs : StoreTwins hasher hasher' s s') (context : Except ContextError Unit)
    (email : Email) :
    SameResult (FoundTwins hasher hasher')
      ((Service.over hasher).backend.users.findByEmail context email s)
      ((Service.over hasher').backend.users.findByEmail context email s') :=
  reading_same context (userWithEmail_same hs.tables email)

theorem loginTarget_same (hs : StoreTwins hasher hasher' s s') (watch : Watch) (cmd : Login) :
    SameResult (FoundTwins hasher hasher') ((Service.over hasher).loginTarget watch cmd s)
      ((Service.over hasher').loginTarget watch cmd s') := by
  unfold Service.loginTarget
  cases Email.parse cmd.email with
  | error e => exact .ok .none
  | ok email => exact findByEmail_same hs (watch 0) email

theorem register_inStep (hkin : hasher.Kin hasher') (hroom : RoomTwins hasher hasher' room room')
    (watch : Watch) (cmd : RegisterUser) (d : Draws) :
    InStep (RoomTwins hasher hasher') ((Service.over hasher).register watch cmd d room)
      ((Service.over hasher').register watch cmd d room') := by
  unfold Service.register
  refine storing_inStep hroom (newUser_same hkin cmd d) watch .new d fun hu => ?_
  obtain ⟨_⟩ := hu
  rfl

theorem login_inStep (hkin : hasher.Kin hasher') (hroom : RoomTwins hasher hasher' room room')
    (watch : Watch) (cmd : Login) (d : Draws) :
    InStep (RoomTwins hasher hasher') ((Service.over hasher).login watch cmd d room)
      ((Service.over hasher').login watch cmd d room') := by
  have hdecided := orFail_same (loginTarget_same hroom.manager watch cmd) fun ho =>
    loggedIn_same hkin ho cmd.password d
  unfold Service.login
  refine storing_inStep hroom hdecided (watch.later 1) .changed d fun hu => ?_
  obtain ⟨_⟩ := hu
  rfl

theorem changePassword_inStep (hkin : hasher.Kin hasher')
    (hroom : RoomTwins hasher hasher' room room') (watch : Watch) (cmd : ChangePassword)
    (d : Draws) :
    InStep (RoomTwins hasher hasher') ((Service.over hasher).changePassword watch cmd d room)
      ((Service.over hasher').changePassword watch cmd d room') := by
  have hdecided := orFail_same (findById_same hroom.manager (watch 0) cmd.userId) fun ho =>
    withNewPassword_same hkin ho cmd d
  unfold Service.changePassword
  exact storing_inStep hroom hdecided (watch.later 1) .changed d fun _ => rfl

/-- **A command is served in step.** -/
theorem call_inStep (hkin : hasher.Kin hasher') (hroom : RoomTwins hasher hasher' room room')
    (watch : Watch) (t : CommandTopic) (body : commands.Body t) (d : Draws) :
    InStep (RoomTwins hasher hasher') ((Service.over hasher).call watch t body d room)
      ((Service.over hasher').call watch t body d room') := by
  cases t with
  | registerUser => exact register_inStep hkin hroom watch body d
  | login => exact login_inStep hkin hroom watch body d
  | changePassword => exact changePassword_inStep hkin hroom watch body d

/-- A view leaves the hash out. -/
theorem view_eq (hu : u.Twins hasher hasher' u') : u.view = u'.view := by
  obtain ⟨_⟩ := hu
  rfl

theorem getUser_same (hs : StoreTwins hasher hasher' s s') (watch : Watch) (q : GetUser) :
    (Service.over hasher).getUser watch q s = (Service.over hasher').getUser watch q s' := by
  unfold Service.getUser
  refine ((findById_same hs (watch 0) q.userId).bind fun ho => ?_).eq id
  cases ho with
  | none => exact .error _
  | some hu => exact .ok (view_eq hu)

theorem findUserByEmail_same (hs : StoreTwins hasher hasher' s s') (watch : Watch)
    (q : FindUserByEmail) :
    (Service.over hasher).findUserByEmail watch q s =
      (Service.over hasher').findUserByEmail watch q s' := by
  unfold Service.findUserByEmail
  refine ((SameResult.self _).bind ?_).eq id
  rintro email _ rfl
  refine (findByEmail_same hs (watch 0) email).bind fun ho => ?_
  cases ho with
  | none => exact .ok rfl
  | some hu => exact .ok (congrArg some (view_eq hu))

/-- **A query is answered alike.** -/
theorem ask_same (hs : StoreTwins hasher hasher' s s') (watch : Watch) (t : QueryTopic)
    (body : queries.Body t) :
    (Service.over hasher).ask watch t body s = (Service.over hasher').ask watch t body s' := by
  cases t with
  | getUser => exact getUser_same hs watch body
  | findUserByEmail => exact findUserByEmail_same hs watch body

end Services

end Accounts

end Registrar
