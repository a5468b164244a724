import Registrar.Proofs.Accounts.Command
import Registrar.Proofs.Store.Transaction
import Registrar.Proofs.UnitOfWork

set_option autoImplicit false

/-! # What a command stages

Only one shape of transaction is ever staged for a decision (`stage_spec`): the rows of its user,
each under its guard, then the outbox row of its event (`plan`). Settling it either changes no
table or stores exactly these rows (`settle_plan`). -/

namespace Registrar.Accounts

/-! ## The plan -/

/-- The rows of a user. **A new user's keys must be free; a changed user's record must be at the
version at which it was loaded.** -/
def userWrites (u : User) : Storing → List Write
  | .new => [⟨emailsTable, u.email.text, .str u.id.text, .absent⟩,
      ⟨usersTable, u.id.text, u.toRecord.toJson.canonical, .absent⟩]
  | .changed => [⟨usersTable, u.id.text, u.toRecord.toJson.canonical,
      .version "version" u.persistedVersion⟩]

/-- The outbox row of an event. -/
def outboxRow (stamp : Outbox.Stamp) (e : Event) : Outbox.Row :=
  .pending stamp.id stamp.now e e.serialize

def eventWrite (stamp : Outbox.Stamp) (e : Event) : Write :=
  ⟨Outbox.tableName, stamp.id.text, (outboxRow stamp e).toJson.canonical, .absent⟩

/-- All that is staged for a user and its event. -/
def plan (mode : Storing) (u : User) (e : Event) (stamp : Outbox.Stamp) : Transaction :=
  ⟨userWrites u mode ++ [eventWrite stamp e]⟩

/-! ## Staging follows the plan -/

theorem stageEmail_eq_ok_iff {u : User} {ts : Tables} {tx tx' : Transaction} :
    stageEmail u ts tx = .ok tx' ↔ tx.row? ts emailsTable u.email.text = none ∧
      tx' = tx.stage emailsTable u.email.text (.str u.id.text) .absent := by
  rw [← Transaction.insert_eq_ok_iff]
  unfold stageEmail
  cases hinsert : tx.insert ts emailsTable u.email.text (.str u.id.text) with
  | error e => cases e <;> simp
  | ok tx₁ => simp

theorem stageRecord_eq_ok_iff {u : User} {ts : Tables} {tx tx' : Transaction} :
    stageRecord u ts tx = .ok tx' ↔ tx.row? ts usersTable u.id.text = none ∧
      tx' = tx.stage usersTable u.id.text u.toRecord.toJson .absent :=
  mapError_succeeds_iff.trans Transaction.insert_eq_ok_iff

/-- A new user is staged when its address and its identifier are free, in the store and in the
transaction. -/
theorem stageNew_eq_ok_iff {u : User} {ts : Tables} {tx tx' : Transaction} :
    stageNew u ts tx = (.ok (), tx') ↔ tx.row? ts emailsTable u.email.text = none ∧
      tx.row? ts usersTable u.id.text = none ∧ tx' = ⟨tx.writes ++ userWrites u .new⟩ := by
  -- The staged address is a row of another table.
  have hother : ∀ row : Json, (tx.stage emailsTable u.email.text row .absent).row? ts usersTable
      u.id.text = tx.row? ts usersTable u.id.text := fun row => by
    rw [Transaction.row?_stage, if_neg fun hc => absurd hc.1 (by decide)]
  have hplan : (tx.stage emailsTable u.email.text (.str u.id.text) .absent).stage usersTable
      u.id.text u.toRecord.toJson .absent = ⟨tx.writes ++ userWrites u .new⟩ := by
    simp [Transaction.stage, userWrites]
  unfold stageNew
  constructor
  · intro h
    cases hemail : stageEmail u ts tx with
    | error e => simp [hemail] at h
    | ok tx₁ =>
        rw [hemail] at h
        cases hrecord : stageRecord u ts tx₁ with
        | error e => simp [hrecord] at h
        | ok tx₂ =>
            obtain rfl : tx₂ = tx' := by simpa [hrecord] using h
            obtain ⟨haddress, rfl⟩ := stageEmail_eq_ok_iff.1 hemail
            obtain ⟨huser, rfl⟩ := stageRecord_eq_ok_iff.1 hrecord
            exact ⟨haddress, by rwa [hother] at huser, hplan⟩
  · rintro ⟨haddress, huser, rfl⟩
    have hrecord := stageRecord_eq_ok_iff.2 ⟨(hother (.str u.id.text)).trans huser, rfl⟩
    simp only [stageEmail_eq_ok_iff.2 ⟨haddress, rfl⟩, hrecord, hplan]

/-- A new user with an address that is taken, in the store or in the transaction, is refused. -/
theorem stageNew_of_taken {u : User} {ts : Tables} {tx : Transaction} {row : Json}
    (haddress : tx.row? ts emailsTable u.email.text = some row) :
    stageNew u ts tx = (.error (.emailTaken u.email.text), tx) := by
  have hinsert : tx.insert ts emailsTable u.email.text (.str u.id.text) =
      .error (.duplicateKey emailsTable u.email.text) := by
    simp [Transaction.insert, haddress]
  simp only [stageNew, stageEmail, hinsert]

/-- The record that the transaction reads is at the version at which the user was loaded. -/
theorem stageChange_of_read {u : User} {ts : Tables} {tx : Transaction} {r : UserRecord}
    (hread : tx.get UserRecord.ofJson? ts usersTable u.id.text = .ok (some r))
    (hloaded : u.persistedVersion = r.version) :
    stageChange u ts tx = (tx.putVersioned ts usersTable u.id.text u.toRecord.toJson "version"
      r.version).mapError AccountError.ofStore := by
  have hfound : recordFor u ts tx = .ok r := by
    unfold recordFor
    rw [hread]
    rfl
  have hcheck : (ExpectedVersion.exactly u.persistedVersion).check r.version = .ok () := by
    simp [ExpectedVersion.check, ExpectedVersion.accepts, hloaded]
  unfold stageChange
  rw [hfound]
  show ((ExpectedVersion.exactly u.persistedVersion).check r.version).mapError _ >>= _ = _
  rw [hcheck]
  rfl

/-- A changed user is staged when both the record that the transaction reads and the committed one
are at the version at which it was loaded. -/
theorem stageChange_eq_ok_iff {u : User} {ts : Tables} {tx tx' : Transaction} :
    stageChange u ts tx = .ok tx' ↔
      (∃ r, tx.get UserRecord.ofJson? ts usersTable u.id.text = .ok (some r) ∧
        u.persistedVersion = r.version) ∧
      versionOf "version" (ts.row? usersTable u.id.text) = some u.persistedVersion ∧
      tx' = ⟨tx.writes ++ userWrites u .changed⟩ := by
  constructor
  · intro h
    obtain ⟨r, hfound, hrest⟩ := bind_succeeds_iff.1 h
    obtain ⟨hcheck, hput⟩ := check_succeeds_iff.1 hrest
    obtain ⟨found, hget, hsome⟩ := bind_succeeds_iff.1 hfound
    have hloaded : u.persistedVersion = r.version := by
      simpa [ExpectedVersion.check, ExpectedVersion.accepts] using mapError_succeeds_iff.1 hcheck
    cases found with
    | none => cases hsome
    | some stored =>
        obtain rfl := pure_succeeds_iff.1 hsome
        -- The version in the guard is the one that was read, which is the loaded one.
        rw [← hloaded] at hput
        exact ⟨⟨stored, mapError_succeeds_iff.1 hget, hloaded⟩,
          Transaction.putVersioned_eq_ok_iff.1 (mapError_succeeds_iff.1 hput)⟩
  · rintro ⟨⟨r, hread, hloaded⟩, hguard, rfl⟩
    rw [stageChange_of_read hread hloaded, ← hloaded, mapError_succeeds_iff]
    exact Transaction.putVersioned_eq_ok_iff.2 ⟨hguard, rfl⟩

/-- The user part of staging. -/
def writeUser : Storing →
    Except ContextError Unit → User → Store → Option Transaction →
      Except AccountError Unit × Option Transaction
  | .new => Repository.store.save
  | .changed => Repository.store.update

theorem writeUser_spec (mode : Storing) (context : Except ContextError Unit) (u : User)
    (store : Store) :
    ∃ result tx, writeUser mode context u store (some .empty) = (result, some tx) ∧
      (result = .ok () → tx = ⟨userWrites u mode⟩) := by
  cases context with
  | error e => cases mode <;> exact ⟨.error (.context e), .empty, rfl, by simp⟩
  | ok _ =>
      cases mode with
      | new =>
          -- A refusal may leave the address staged. That is why only a success follows the plan.
          exact ⟨(stageNew u store.tables .empty).1, (stageNew u store.tables .empty).2, rfl,
            fun hok => (stageNew_eq_ok_iff.1 (Prod.ext hok rfl)).2.2⟩
      | changed =>
          simp only [writeUser, Repository.store, staging]
          cases hchange : stageChange u store.tables .empty with
          | error e => exact ⟨.error e, .empty, rfl, by simp⟩
          | ok tx => exact ⟨.ok (), tx, rfl, fun _ => (stageChange_eq_ok_iff.1 hchange).2.2⟩

theorem insertRow_spec (context : Except ContextError Unit) (r : Outbox.Row) (store : Store)
    (tx : Transaction) :
    ∃ result tx', Outbox.insertRow context r store (some tx) = (result, some tx') ∧
      (result = .ok () →
        tx' = ⟨tx.writes ++ [⟨Outbox.tableName, r.id.text, r.toJson.canonical, .absent⟩]⟩) := by
  cases context with
  | error e => exact ⟨.error (.context e), tx, rfl, by simp⟩
  | ok _ =>
      simp only [Outbox.insertRow]
      cases hinsert : tx.insert store.tables Outbox.tableName r.id.text r.toJson with
      | error e => exact ⟨.error (.ofStore e), tx, rfl, by simp⟩
      | ok tx' => exact ⟨.ok (), tx', rfl, fun _ => (Transaction.insert_eq_ok_iff.1 hinsert).2⟩

/-- The event part of staging. -/
theorem write_spec (watch : Watch) (stamps : Nat → Outbox.Stamp) (e : Event) (store : Store)
    (tx : Transaction) :
    ∃ result tx', Outbox.write .json .store watch stamps [e] store (some tx) = (result, some tx') ∧
      (∀ n, result = .ok n → tx' = ⟨tx.writes ++ [eventWrite (stamps 0) e]⟩) := by
  obtain ⟨result, tx', hinsert, hwrites⟩ :=
    insertRow_spec (watch 0) (outboxRow (stamps 0) e) store tx
  refine ⟨result.map fun _ => 1, tx', ?_, ?_⟩
  · have hrow : Outbox.Repository.store.insert (watch 0)
        (.pending (stamps 0).id (stamps 0).now e e.serialize) store (some tx) =
        (result, some tx') := hinsert
    simp only [Outbox.write, Outbox.writeFrom, Serializer.json, hrow]
    cases result <;> rfl
  · intro n hn
    cases result with
    | error err => simp [Except.map] at hn
    | ok _ => exact hwrites rfl

/-- A staging is refused where its user part is. -/
theorem stage_of_refused (hasher : Hasher) {watch : Watch} {mode : Storing} {u : User}
    {stamps : Nat → Outbox.Stamp} {store : Store} {tx tx' : Option Transaction} {e : AccountError}
    (huser : writeUser mode (watch 0) u store tx = (.error e, tx')) :
    (Service.over hasher).stage watch mode u stamps store tx = (.error e, tx') := by
  cases mode with
  | new =>
      have hsave : (Service.over hasher).backend.users.save (watch 0) u store tx =
          (.error e, tx') := huser
      simp only [Service.stage, hsave]
  | changed =>
      have hupdate : (Service.over hasher).backend.users.update (watch 0) u store tx =
          (.error e, tx') := huser
      simp only [Service.stage, hupdate]

/-- A staging goes on with its event part after its user part. -/
theorem stage_of_user (hasher : Hasher) {watch : Watch} {mode : Storing} {u : User}
    {stamps : Nat → Outbox.Stamp} {store : Store} {tx tx' tx'' : Option Transaction}
    {result : Except OutboxError Nat}
    (huser : writeUser mode (watch 0) u store tx = (.ok (), tx'))
    (hevents :
      Outbox.write .json .store (watch.later 1) stamps u.pending store tx' = (result, tx'')) :
    (Service.over hasher).stage watch mode u stamps store tx =
      ((result.mapError AccountError.outbox).map fun _ => (), tx'') := by
  have hevents' : Outbox.write .json (Service.over hasher).backend.outbox (watch.later 1) stamps
      u.pending store tx' = (result, tx'') := hevents
  cases mode with
  | new =>
      have hsave : (Service.over hasher).backend.users.save (watch 0) u store tx = (.ok (), tx') :=
        huser
      simp only [Service.stage, hsave, hevents']
      cases result <;> rfl
  | changed =>
      have hupdate : (Service.over hasher).backend.users.update (watch 0) u store tx =
          (.ok (), tx') := huser
      simp only [Service.stage, hupdate, hevents']
      cases result <;> rfl

/-- **A staging that succeeds stages the plan.** -/
theorem stage_spec (hasher : Hasher) (watch : Watch) (mode : Storing) {u : User} {e : Event}
    (stamps : Nat → Outbox.Stamp) (store : Store) (hpending : u.pending = [e]) :
    ∃ result tx, (Service.over hasher).stage watch mode u stamps store (some .empty) =
        (result, some tx) ∧ (result = .ok () → tx = plan mode u e (stamps 0)) := by
  obtain ⟨result₁, tx₁, huser, hplan₁⟩ := writeUser_spec mode (watch 0) u store
  obtain ⟨result₂, tx₂, hevents, hplan₂⟩ := write_spec (watch.later 1) stamps e store tx₁
  rw [← hpending] at hevents
  cases result₁ with
  | error err => exact ⟨.error err, tx₁, stage_of_refused hasher huser, by simp⟩
  | ok _ =>
      refine ⟨_, tx₂, stage_of_user hasher huser hevents, fun hok => ?_⟩
      cases result₂ with
      | error err => simp [Except.mapError, Except.map] at hok
      | ok n =>
          rw [hplan₂ n rfl, hplan₁ rfl]
          rfl

/-! ## Units of work -/

/-- Begins a unit of work, if the context allows it, and stages what was decided. -/
def stageAt (hasher : Hasher) (watch : Watch) (mode : Storing) (u : User)
    (stamps : Nat → Outbox.Stamp) (store : Store) :
    Except AccountError (Except AccountError Unit × Transaction) :=
  match watch 0 with
  | .error e => .error (.ofTransaction (.context e))
  | .ok () =>
      let staged := (Service.over hasher).stage (watch.later 1) mode u stamps store (some .empty)
      .ok (staged.1, staged.2.getD .empty)

theorem stageAt_spec {hasher : Hasher} {watch : Watch} {mode : Storing} {u : User} {e : Event}
    {stamps : Nat → Outbox.Stamp} {store : Store} {result : Except AccountError Unit}
    {tx : Transaction} (hpending : u.pending = [e])
    (h : stageAt hasher watch mode u stamps store = .ok (result, tx)) :
    result = .ok () → tx = plan mode u e (stamps 0) := by
  obtain ⟨result', tx', hstage, hplan⟩ :=
    stage_spec hasher (watch.later 1) mode stamps store hpending
  unfold stageAt at h
  cases hcontext : watch 0 with
  | error err => simp [hcontext] at h
  | ok _ =>
      simp only [hcontext, hstage, Option.getD_some, Except.ok.injEq, Prod.mk.injEq] at h
      rw [← h.1, ← h.2]
      exact hplan

/-- **Storing is staging, then settling.** -/
theorem persist_eq (hasher : Hasher) (watch : Watch) (mode : Storing) {u : User} {e : Event}
    (stamps : Nat → Outbox.Stamp) (room : Room Store Transaction) (hpending : u.pending = [e]) :
    (Service.over hasher).persist watch mode u stamps room =
      match stageAt hasher watch mode u stamps room.manager with
      | .error err => (.error err, room)
      | .ok staged =>
          ((UnitOfWork.settle .ofTransaction staged.1 staged.2 room.manager).1,
            ⟨(UnitOfWork.settle .ofTransaction staged.1 staged.2 room.manager).2,
              room.cells ++ [none]⟩) := by
  obtain ⟨result, tx, hstage, -⟩ :=
    stage_spec hasher (watch.later 1) mode stamps room.manager hpending
  rw [show (Service.over hasher).persist watch mode u stamps room = _ from
    UnitOfWork.alone_store hstage (watch 0)]
  unfold stageAt
  cases watch 0 with
  | error err => rfl
  | ok _ => simp only [hstage, Option.getD_some]

/-! ## Settling the plan -/

/-- **What storing a decision does to the tables.** One outbox row is new; one users row is new or
replaces one at the version that was loaded; for a new user its address is new; nothing else
changes. -/
structure Stored (mode : Storing) (u : User) (e : Event) (stamp : Outbox.Stamp)
    (before after : Tables) : Prop where
  event_free : before.row? Outbox.tableName stamp.id.text = none
  event : after.row? Outbox.tableName stamp.id.text = some (outboxRow stamp e).toJson.canonical
  user_free : mode = .new → before.row? usersTable u.id.text = none
  user_loaded : mode = .changed →
    versionOf "version" (before.row? usersTable u.id.text) = some u.persistedVersion
  user : after.row? usersTable u.id.text = some u.toRecord.toJson.canonical
  address_free : mode = .new → before.row? emailsTable u.email.text = none
  address : mode = .new → after.row? emailsTable u.email.text = some (.str u.id.text)
  others : ∀ t k, ¬ (t = Outbox.tableName ∧ k = stamp.id.text) →
    ¬ (t = usersTable ∧ k = u.id.text) → ¬ (mode = .new ∧ t = emailsTable ∧ k = u.email.text) →
    after.row? t k = before.row? t k

namespace Stored

variable {mode : Storing} {u : User} {e : Event} {stamp : Outbox.Stamp} {before after : Tables}

/-- The outbox afterwards. -/
theorem row?_outbox (h : Stored mode u e stamp before after) (k : String) :
    after.row? Outbox.tableName k =
      if k = stamp.id.text then some (outboxRow stamp e).toJson.canonical
      else before.row? Outbox.tableName k := by
  by_cases hk : k = stamp.id.text
  · rw [if_pos hk, hk, h.event]
  · have huser : Outbox.tableName ≠ usersTable := by decide
    have haddress : Outbox.tableName ≠ emailsTable := by decide
    rw [if_neg hk, h.others _ _ (fun hc => hk hc.2) (fun hc => huser hc.1)
      (fun hc => haddress hc.2.1)]

/-- The users afterwards. -/
theorem row?_users (h : Stored mode u e stamp before after) (k : String) :
    after.row? usersTable k =
      if k = u.id.text then some u.toRecord.toJson.canonical else before.row? usersTable k := by
  by_cases hk : k = u.id.text
  · rw [if_pos hk, hk, h.user]
  · have hevent : usersTable ≠ Outbox.tableName := by decide
    have haddress : usersTable ≠ emailsTable := by decide
    rw [if_neg hk, h.others _ _ (fun hc => hevent hc.1) (fun hc => hk hc.2)
      (fun hc => haddress hc.2.1)]

/-- The addresses afterwards. -/
theorem row?_emails (h : Stored mode u e stamp before after) (k : String) :
    after.row? emailsTable k =
      if mode = .new ∧ k = u.email.text then some (.str u.id.text)
      else before.row? emailsTable k := by
  by_cases hk : mode = .new ∧ k = u.email.text
  · rw [if_pos hk, hk.2, h.address hk.1]
  · have hevent : emailsTable ≠ Outbox.tableName := by decide
    have huser : emailsTable ≠ usersTable := by decide
    rw [if_neg hk, h.others _ _ (fun hc => hevent hc.1) (fun hc => huser hc.1)
      (fun hc => hk ⟨hc.1, hc.2.2⟩)]

end Stored

/-- The rows after the plan was applied. -/
theorem row?_applyWrites_plan (mode : Storing) (u : User) (e : Event) (stamp : Outbox.Stamp)
    (ts : Tables) (t k : String) :
    (Transaction.applyWrites ts (plan mode u e stamp).writes).row? t k =
      if t = Outbox.tableName ∧ k = stamp.id.text then
        some (outboxRow stamp e).toJson.canonical
      else if t = usersTable ∧ k = u.id.text then some u.toRecord.toJson.canonical
      else if mode = .new ∧ t = emailsTable ∧ k = u.email.text then some (.str u.id.text)
      else ts.row? t k := by
  cases mode with
  | new =>
      simp only [plan, userWrites, eventWrite, List.cons_append, List.nil_append,
        Transaction.applyWrites, Tables.row?_set, true_and]
  | changed =>
      simp only [plan, userWrites, eventWrite, List.cons_append, List.nil_append,
        Transaction.applyWrites, Tables.row?_set, reduceCtorEq, false_and, if_false]

/-- Applying the plan under its guards stores the decision. -/
theorem stored_applyWrites {mode : Storing} {u : User} {e : Event} {stamp : Outbox.Stamp}
    {ts : Tables} (h : Transaction.checkGuards ts (plan mode u e stamp).writes = .ok ()) :
    Stored mode u e stamp ts (Transaction.applyWrites ts (plan mode u e stamp).writes) := by
  rw [Transaction.checkGuards_eq_ok_iff] at h
  have hguard : ∀ w ∈ userWrites u mode,
      w.guard.check w.table w.key (ts.row? w.table w.key) = .ok () :=
    fun w hw => h w (List.mem_append_left _ hw)
  -- The rows go to three tables, so none of them hides another.
  have htables : usersTable ≠ Outbox.tableName ∧ emailsTable ≠ Outbox.tableName ∧
      emailsTable ≠ usersTable := by decide
  constructor
  · exact Guard.check_absent_eq_ok_iff.1 (h (eventWrite stamp e) (by simp [plan]))
  · rw [row?_applyWrites_plan, if_pos ⟨rfl, rfl⟩]
  · rintro rfl
    exact Guard.check_absent_eq_ok_iff.1 (hguard _ (List.mem_cons_of_mem _ List.mem_cons_self))
  · rintro rfl
    exact Guard.check_version_eq_ok_iff.1 (hguard _ List.mem_cons_self)
  · rw [row?_applyWrites_plan, if_neg fun hc => htables.1 hc.1, if_pos ⟨rfl, rfl⟩]
  · rintro rfl
    exact Guard.check_absent_eq_ok_iff.1 (hguard _ List.mem_cons_self)
  · rintro rfl
    rw [row?_applyWrites_plan, if_neg fun hc => htables.2.1 hc.1, if_neg fun hc => htables.2.2 hc.1,
      if_pos ⟨rfl, rfl, rfl⟩]
  · intro t k hevent huser haddress
    rw [row?_applyWrites_plan, if_neg hevent, if_neg huser, if_neg haddress]

/-- **Settling what was staged stores the decision or changes no table.** -/
theorem settle_plan {ε : Type} {mode : Storing} {u : User} {e : Event} {stamp : Outbox.Stamp}
    {result : Except ε Unit} {tx : Transaction} (hplan : result = .ok () → tx = plan mode u e stamp)
    (refused : TransactionError → ε) (s : Store) :
    (∃ err s', UnitOfWork.settle refused result tx s = (.error err, s') ∧ s'.tables = s.tables) ∨
    (∃ s', UnitOfWork.settle refused result tx s = (.ok (), s') ∧ result = .ok () ∧
      Stored mode u e stamp s.tables s'.tables) := by
  cases result with
  | error err => exact .inl ⟨err, _, rfl, rfl⟩
  | ok _ =>
      obtain rfl := hplan rfl
      simp only [UnitOfWork.settle]
      rcases (plan mode u e stamp).commit_cases s with
        ⟨err, s', hcommit, htables⟩ | ⟨s', hcommit, hguards, htables⟩
      · rw [hcommit]
        exact .inl ⟨refused err, s', rfl, htables⟩
      · rw [hcommit]
        refine .inr ⟨s', rfl, trivial, ?_⟩
        rw [htables]
        exact stored_applyWrites hguards

end Registrar.Accounts
