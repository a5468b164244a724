import Registrar.Proofs.Accounts.Chronicle

set_option autoImplicit false

/-! # When storing succeeds

In an active context, with no commit failure injected, a decision is stored whenever the keys of its
plan are free and the record that it replaces is at the version that was loaded (`persist_new`,
`persist_changed`). An address that somebody has is found while staging, before anything is
committed (`persist_taken`). In any context, what was stored without an error is in the tables
(`stored_of_persist`). -/

namespace Registrar.Accounts

/-! ## Staging -/

/-- The version in a stored record, as guards see it. -/
theorem versionOf_record (r : UserRecord) :
    versionOf "version" (some r.toJson.canonical) = some r.version := by
  rw [versionOf, Option.bind_some, UserRecord.field?_version, Option.bind_some,
    Json.asUInt64?_ofUInt64]

/-- A transaction that wrote nothing reads the committed record. -/
theorem get_record {ts : Tables} {r : UserRecord} {key : String}
    (hrow : ts.row? usersTable key = some r.toJson.canonical) :
    Transaction.empty.get UserRecord.ofJson? ts usersTable key = .ok (some r.asRead) := by
  simp [Transaction.get, hrow, Tables.decode, Except.map]

/-- The row of an event is staged when its key is free. -/
theorem write_of_free {stamps : Nat → Outbox.Stamp} {store : Store} {tx : Transaction} (e : Event)
    (hfree : tx.row? store.tables Outbox.tableName (stamps 0).id.text = none) :
    Outbox.write .json .store .active stamps [e] store (some tx) =
      (.ok 1, some ⟨tx.writes ++ [eventWrite (stamps 0) e]⟩) := by
  have hinsert : tx.insert store.tables Outbox.tableName (outboxRow (stamps 0) e).id.text
      (outboxRow (stamps 0) e).toJson = .ok ⟨tx.writes ++ [eventWrite (stamps 0) e]⟩ :=
    Transaction.insert_eq_ok_iff.2 ⟨hfree, rfl⟩
  have hrow : Outbox.Repository.store.insert (Watch.active 0)
      (.pending (stamps 0).id (stamps 0).now e e.serialize) store (some tx) =
      (.ok (), some ⟨tx.writes ++ [eventWrite (stamps 0) e]⟩) := by
    show Outbox.insertRow (.ok ()) (outboxRow (stamps 0) e) store (some tx) = _
    simp only [Outbox.insertRow, hinsert]
  simp only [Outbox.write, Outbox.writeFrom, Serializer.json, hrow]
  rfl

/-- The rows of a user are no rows of the outbox. -/
theorem row?_userWrites (u : User) (mode : Storing) (ts : Tables) (k : String) :
    (Transaction.mk (userWrites u mode)).row? ts Outbox.tableName k =
      ts.row? Outbox.tableName k := by
  cases mode <;> rfl

/-- Staging goes through when both its parts do. -/
theorem stage_of_parts {hasher : Hasher} {mode : Storing} {u : User} {e : Event}
    {stamps : Nat → Outbox.Stamp} {store : Store} (hpending : u.pending = [e])
    (huser : writeUser mode (Watch.active 0) u store (some .empty) =
      (.ok (), some ⟨userWrites u mode⟩))
    (hfree : store.tables.row? Outbox.tableName (stamps 0).id.text = none) :
    (Service.over hasher).stage .active mode u stamps store (some .empty) =
      (.ok (), some (plan mode u e (stamps 0))) := by
  have hrow : (Transaction.mk (userWrites u mode)).row? store.tables Outbox.tableName
      (stamps 0).id.text = none := by
    rw [row?_userWrites]
    exact hfree
  have hevents : Outbox.write .json .store (Watch.active.later 1) stamps u.pending store
      (some ⟨userWrites u mode⟩) = (.ok 1, some (plan mode u e (stamps 0))) := by
    rw [hpending]
    exact write_of_free e hrow
  exact stage_of_user hasher huser hevents

theorem stageAt_active {hasher : Hasher} {mode : Storing} {u : User} {stamps : Nat → Outbox.Stamp}
    {store : Store} {result : Except AccountError Unit} {tx : Transaction}
    (hstage : (Service.over hasher).stage .active mode u stamps store (some .empty) =
      (result, some tx)) :
    stageAt hasher .active mode u stamps store = .ok (result, tx) := by
  have hlater : Watch.active.later 1 = Watch.active := rfl
  simp only [stageAt, hlater, hstage]
  rfl

/-- In an active context a unit of work begins. -/
theorem stageAt_begins (hasher : Hasher) (mode : Storing) (u : User) (stamps : Nat → Outbox.Stamp)
    (store : Store) : ∃ staged, stageAt hasher .active mode u stamps store = .ok staged :=
  ⟨_, rfl⟩

/-- A new user is staged when nobody has its address, its identifier or its event's. -/
theorem stageAt_new (hasher : Hasher) {u : User} {e : Event} {stamps : Nat → Outbox.Stamp}
    {store : Store} (hpending : u.pending = [e])
    (haddress : store.tables.row? emailsTable u.email.text = none)
    (huser : store.tables.row? usersTable u.id.text = none)
    (hfree : store.tables.row? Outbox.tableName (stamps 0).id.text = none) :
    stageAt hasher .active .new u stamps store = .ok (.ok (), plan .new u e (stamps 0)) := by
  have hsave : writeUser .new (.ok ()) u store (some .empty) =
      (.ok (), some ⟨userWrites u .new⟩) := by
    have hstage : stageNew u store.tables .empty = (.ok (), ⟨userWrites u .new⟩) :=
      stageNew_eq_ok_iff.2 ⟨haddress, huser, rfl⟩
    simp only [writeUser, Repository.store, staging, hstage]
  exact stageAt_active (stage_of_parts hpending hsave hfree)

/-- A new user with the address of another is refused before anything is staged. -/
theorem stageAt_taken (hasher : Hasher) {u : User} {stamps : Nat → Outbox.Stamp} {store : Store}
    {row : Json} (haddress : store.tables.row? emailsTable u.email.text = some row) :
    stageAt hasher .active .new u stamps store =
      .ok (.error (.emailTaken u.email.text), .empty) := by
  have hsave : writeUser .new (Watch.active 0) u store (some .empty) =
      (.error (.emailTaken u.email.text), some .empty) := by
    have hstage : stageNew u store.tables .empty =
        (.error (.emailTaken u.email.text), .empty) := stageNew_of_taken haddress
    simp only [writeUser, Repository.store, Watch.active, staging, hstage]
  exact stageAt_active (stage_of_refused hasher hsave)

/-! ## Committing -/

/-- The guards of a new user and its event. -/
theorem checkGuards_new_iff {u : User} {e : Event} {stamp : Outbox.Stamp} {ts : Tables} :
    Transaction.checkGuards ts (plan .new u e stamp).writes = .ok () ↔
      ts.row? emailsTable u.email.text = none ∧ ts.row? usersTable u.id.text = none ∧
        ts.row? Outbox.tableName stamp.id.text = none := by
  rw [Transaction.checkGuards_eq_ok_iff]
  simp only [plan, userWrites, eventWrite, List.cons_append, List.nil_append, List.forall_mem_cons,
    Guard.check_absent_eq_ok_iff, List.not_mem_nil, false_imp_iff, implies_true, and_true]

/-- The guards of a changed user and its event. -/
theorem checkGuards_changed_iff {u : User} {e : Event} {stamp : Outbox.Stamp} {ts : Tables} :
    Transaction.checkGuards ts (plan .changed u e stamp).writes = .ok () ↔
      versionOf "version" (ts.row? usersTable u.id.text) = some u.persistedVersion ∧
        ts.row? Outbox.tableName stamp.id.text = none := by
  rw [Transaction.checkGuards_eq_ok_iff]
  simp only [plan, userWrites, eventWrite, List.cons_append, List.nil_append, List.forall_mem_cons,
    Guard.check_absent_eq_ok_iff, Guard.check_version_eq_ok_iff, List.not_mem_nil, false_imp_iff,
    implies_true, and_true]

/-! ## Storing -/

/-- What was staged without an error is stored, if its guards hold. -/
theorem persist_of_staged {hasher : Hasher} {mode : Storing} {u : User} {e : Event}
    {stamps : Nat → Outbox.Stamp} {room : Room Store Transaction} (hpending : u.pending = [e])
    (hstage : stageAt hasher .active mode u stamps room.manager =
      .ok (.ok (), plan mode u e (stamps 0)))
    (hguards :
      Transaction.checkGuards room.manager.tables (plan mode u e (stamps 0)).writes = .ok ())
    (hwritable : room.manager.failNextCommit = false) :
    ∃ room', (Service.over hasher).persist .active mode u stamps room = (.ok (), room') ∧
      room'.manager.failNextCommit = false ∧
      Stored mode u e (stamps 0) room.manager.tables room'.manager.tables := by
  have hcommit : (plan mode u e (stamps 0)).commit room.manager = (.ok (), { room.manager with
      tables := Transaction.applyWrites room.manager.tables (plan mode u e (stamps 0)).writes
      commits := room.manager.commits + 1 }) := by
    simp only [Transaction.commit, hwritable, Bool.false_eq_true, if_false, Transaction.apply,
      hguards]
    rfl
  rw [persist_eq hasher .active mode stamps room hpending, hstage]
  simp only [UnitOfWork.settle, hcommit]
  exact ⟨_, rfl, hwritable, stored_applyWrites hguards⟩

/-- **A new user is stored** when nobody has its address, its identifier or its event's. -/
theorem persist_new (hasher : Hasher) {u : User} {e : Event} {stamps : Nat → Outbox.Stamp}
    {room : Room Store Transaction} (hpending : u.pending = [e])
    (hwritable : room.manager.failNextCommit = false)
    (hfree : room.manager.tables.row? Outbox.tableName (stamps 0).id.text = none)
    (haddress : room.manager.tables.row? emailsTable u.email.text = none)
    (huser : room.manager.tables.row? usersTable u.id.text = none) :
    ∃ room', (Service.over hasher).persist .active .new u stamps room = (.ok (), room') ∧
      room'.manager.failNextCommit = false ∧
      Stored .new u e (stamps 0) room.manager.tables room'.manager.tables :=
  persist_of_staged hpending (stageAt_new hasher hpending haddress huser hfree)
    (checkGuards_new_iff.2 ⟨haddress, huser, hfree⟩) hwritable

/-- **A changed user is stored** when its record is at the version at which it was loaded. -/
theorem persist_changed (hasher : Hasher) {u : User} {e : Event} {stamps : Nat → Outbox.Stamp}
    {room : Room Store Transaction} {r : UserRecord} (hpending : u.pending = [e])
    (hwritable : room.manager.failNextCommit = false)
    (hfree : room.manager.tables.row? Outbox.tableName (stamps 0).id.text = none)
    (hrow : room.manager.tables.row? usersTable u.id.text = some r.toJson.canonical)
    (hversion : u.persistedVersion = r.version) :
    ∃ room', (Service.over hasher).persist .active .changed u stamps room = (.ok (), room') ∧
      room'.manager.failNextCommit = false ∧
      Stored .changed u e (stamps 0) room.manager.tables room'.manager.tables := by
  have hguard : versionOf "version" (room.manager.tables.row? usersTable u.id.text) =
      some u.persistedVersion := by
    rw [hrow, versionOf_record, hversion]
  have hupdate : writeUser .changed (.ok ()) u room.manager (some .empty) =
      (.ok (), some ⟨userWrites u .changed⟩) := by
    have hstage : stageChange u room.manager.tables .empty = .ok ⟨userWrites u .changed⟩ :=
      stageChange_eq_ok_iff.2 ⟨⟨r.asRead, get_record hrow, hversion⟩, hguard, rfl⟩
    simp only [writeUser, Repository.store, staging, hstage]
  exact persist_of_staged hpending (stageAt_active (stage_of_parts hpending hupdate hfree))
    (checkGuards_changed_iff.2 ⟨hguard, hfree⟩) hwritable

/-- **A new user with the address of another is refused**, and no table changes. -/
theorem persist_taken (hasher : Hasher) {u : User} {e : Event} {stamps : Nat → Outbox.Stamp}
    {room : Room Store Transaction} {row : Json} (hpending : u.pending = [e])
    (haddress : room.manager.tables.row? emailsTable u.email.text = some row) :
    ∃ room', (Service.over hasher).persist .active .new u stamps room =
        (.error (.emailTaken u.email.text), room') ∧
      room'.manager.tables = room.manager.tables ∧
      room'.manager.failNextCommit = room.manager.failNextCommit := by
  rw [persist_eq hasher .active .new stamps room hpending, stageAt_taken hasher haddress]
  exact ⟨_, rfl, rfl, rfl⟩

/-- What was stored without an error is in the tables. -/
theorem stored_of_persist {hasher : Hasher} {watch : Watch} {mode : Storing} {u : User} {e : Event}
    {stamps : Nat → Outbox.Stamp} {room room' : Room Store Transaction} (hpending : u.pending = [e])
    (h : (Service.over hasher).persist watch mode u stamps room = (.ok (), room')) :
    Stored mode u e (stamps 0) room.manager.tables room'.manager.tables := by
  rw [persist_eq hasher watch mode stamps room hpending] at h
  cases hstage : stageAt hasher watch mode u stamps room.manager with
  | error err =>
      rw [hstage] at h
      cases congrArg Prod.fst h
  | ok staged =>
      rw [hstage] at h
      rcases settle_plan (stageAt_spec hpending hstage) AccountError.ofTransaction room.manager with
        ⟨err, s', hsettle, -⟩ | ⟨s', hsettle, -, hstored⟩
      · simp only [hsettle] at h
        cases congrArg Prod.fst h
      · simp only [hsettle] at h
        have hroom : room'.manager = s' := congrArg Room.manager (congrArg Prod.snd h).symm
        rw [hroom]
        exact hstored

/-! ## Answering -/

section

variable {α : Type} {hasher : Hasher} {watch : Watch} {mode : Storing} {u : User} {d : Draws}
  {room room' : Room Store Transaction}

theorem storing_of_persisted
    (h : (Service.over hasher).persist watch mode u d.stamps room = (.ok (), room'))
    (answered : User → α) :
    (Service.over hasher).storing watch mode (.returned u) d answered room =
      (.returned (answered u), room') := by
  simp only [Service.storing, h]

theorem storing_of_refused {e : AccountError}
    (h : (Service.over hasher).persist watch mode u d.stamps room = (.error e, room'))
    (answered : User → α) :
    (Service.over hasher).storing watch mode (.returned u) d answered room =
      (.failed e, room') := by
  simp only [Service.storing, h]

end

end Registrar.Accounts
