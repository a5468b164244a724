import Registrar.Proofs.Accounts.Staging
import Registrar.Proofs.Codec.Record

set_option autoImplicit false

/-! # Writing a user twice in one transaction

An update reads the record as its transaction sees it, staged or not, but the guard of what it
stages is on the committed row. Both have the loaded version only as long as the transaction has
left the version of the user alone. So a user that the transaction saved, or changed, is written by
it once: a second write is refused, and where one got by because of what somebody else committed
meanwhile, the transaction cannot be committed any more (`second_write`). -/

namespace Registrar.Accounts

/-! ## Drafts -/

/-- A transaction, and the users that were written in it, oldest first. -/
structure Draft where
  tx : Transaction
  written : List (Storing × User)

/-- What is done to an open transaction: a user is written through the repository, over the rows
that are committed by then, or a row of another table is staged. -/
inductive Stroke where
  | user (mode : Storing) (context : Except ContextError Unit) (u : User) (s : Store)
  | row (table key : String) (row : Json) (guard : Guard)

/-- A write that left the version of its user as it was. -/
def Idle (w : Storing × User) : Prop := w.1 = .changed ∧ w.2.version = w.2.persistedVersion

namespace Draft

def empty : Draft := ⟨.empty, []⟩

def step (d : Draft) : Stroke → Draft
  | .user mode context u s => match writeUser mode context u s (some d.tx) with
      | (.ok (), some tx) => ⟨tx, d.written ++ [(mode, u)]⟩
      | (_, tx) => { d with tx := tx.getD d.tx }
  | .row table key row guard =>
      if table = usersTable then d else { d with tx := d.tx.stage table key row guard }

def run (strokes : List Stroke) : Draft := strokes.foldl step empty

/-- How a user was last written. -/
def last? (d : Draft) (id : UserId) : Option (Storing × User) :=
  d.written.reverse.find? fun w => w.2.id = id

theorem last?_append {d d' : Draft} {w : Storing × User} (h : d'.written = d.written ++ [w])
    (id : UserId) : d'.last? id = if w.2.id = id then some w else d.last? id := by
  unfold last?
  rw [h, List.reverse_append, List.reverse_singleton, List.singleton_append, List.find?_cons]
  by_cases hid : w.2.id = id <;> simp [hid]

theorem last?_isSome {d : Draft} {id : UserId} (h : ∃ w ∈ d.written, w.2.id = id) :
    ∃ w, d.last? id = some w := by
  obtain ⟨w, hw, hid⟩ := h
  refine Option.isSome_iff_exists.1 (List.find?_isSome.2 ⟨w, List.mem_reverse.2 hw, ?_⟩)
  exact decide_eq_true hid

theorem last?_spec {d : Draft} {id : UserId} {w : Storing × User} (h : d.last? id = some w) :
    w ∈ d.written ∧ w.2.id = id :=
  ⟨List.mem_reverse.1 (List.mem_of_find?_eq_some h), of_decide_eq_true (List.find?_some h :)⟩

end Draft

/-! ## What a stroke can do -/

/-- Whatever a refused user leaves staged is no row of the users. -/
theorem stageNew_refused {u : User} {ts : Tables} {tx tx' : Transaction} {e : AccountError}
    (h : stageNew u ts tx = (.error e, tx')) :
    ∃ ws, tx' = ⟨tx.writes ++ ws⟩ ∧ ∀ w ∈ ws, w.table ≠ usersTable := by
  unfold stageNew at h
  cases hemail : stageEmail u ts tx with
  | error e' =>
      obtain ⟨-, rfl⟩ : e' = e ∧ tx = tx' := by simpa [hemail] using h
      exact ⟨[], by simp, by simp⟩
  | ok tx₁ =>
      rw [hemail] at h
      obtain ⟨-, rfl⟩ := stageEmail_eq_ok_iff.1 hemail
      cases hrecord :
          stageRecord u ts (tx.stage emailsTable u.email.text (.str u.id.text) .absent) with
      | ok tx₂ => simp [hrecord] at h
      | error e' =>
          obtain ⟨-, rfl⟩ :
              e' = e ∧ tx.stage emailsTable u.email.text (.str u.id.text) .absent = tx' := by
            simpa [hrecord] using h
          exact ⟨_, rfl, by simp; decide⟩

/-- What the repository demands of a transaction in which it writes a user: no record of a new user,
and of a changed one no record but that which was loaded. -/
structure Follows (tx : Transaction) (mode : Storing) (u : User) : Prop where
  new : mode = .new → tx.staged? usersTable u.id.text = none
  changed : mode = .changed → ∀ row, tx.staged? usersTable u.id.text = some row →
    ∃ r, UserRecord.ofJson? row = some r ∧ u.persistedVersion = r.version

/-- A user is written when the transaction allows it. -/
theorem writeUser_succeeds {mode : Storing} {context : Except ContextError Unit} {u : User}
    {s : Store} {tx : Transaction} {tx' : Option Transaction}
    (h : writeUser mode context u s (some tx) = (.ok (), tx')) :
    Follows tx mode u ∧ tx' = some ⟨tx.writes ++ userWrites u mode⟩ := by
  cases context with
  | error e => cases mode <;> simp [writeUser, Repository.store, staging] at h
  | ok _ =>
      cases mode with
      | new =>
          obtain ⟨hok, rfl⟩ := Prod.ext_iff.1 h
          obtain ⟨-, hfree, htx⟩ := stageNew_eq_ok_iff.1 (Prod.ext hok rfl)
          refine ⟨⟨fun _ => ?_, fun hmode => (by cases hmode)⟩, congrArg some htx⟩
          unfold Transaction.row? at hfree
          cases hstaged : tx.staged? usersTable u.id.text with
          | none => rfl
          | some row => simp [hstaged] at hfree
      | changed =>
          simp only [writeUser, Repository.store, staging] at h
          cases hchange : stageChange u s.tables tx with
          | error e => simp [hchange] at h
          | ok tx₁ =>
              obtain ⟨⟨r, hread, hloaded⟩, -, rfl⟩ := stageChange_eq_ok_iff.1 hchange
              refine ⟨⟨fun hmode => (by cases hmode), fun _ row hrow => ⟨r, ?_, hloaded⟩⟩, ?_⟩
              · rw [Transaction.get, Transaction.row?, hrow] at hread
                obtain ⟨r', hdecode, hr⟩ := map_succeeds_iff.1 hread
                obtain rfl := Option.some.inj hr
                exact Tables.decode_succeeds_iff.1 hdecode
              · simpa [hchange] using h.symm

theorem writeUser_refused {mode : Storing} {context : Except ContextError Unit} {u : User}
    {s : Store} {tx : Transaction} {tx' : Option Transaction} {e : AccountError}
    (h : writeUser mode context u s (some tx) = (.error e, tx')) :
    ∃ ws, tx' = some ⟨tx.writes ++ ws⟩ ∧ ∀ w ∈ ws, w.table ≠ usersTable := by
  have hsame : tx' = some tx →
      ∃ ws, tx' = some ⟨tx.writes ++ ws⟩ ∧ ∀ w ∈ ws, w.table ≠ usersTable := by
    rintro rfl
    exact ⟨[], by simp, by simp⟩
  cases context with
  | error e => cases mode <;> exact hsame (congrArg Prod.snd h).symm
  | ok _ =>
      cases mode with
      | new =>
          obtain ⟨hrefused, rfl⟩ := Prod.ext_iff.1 h
          obtain ⟨ws, htx, hws⟩ := stageNew_refused (Prod.ext hrefused rfl)
          exact ⟨ws, congrArg some htx, hws⟩
      | changed =>
          simp only [writeUser, Repository.store, staging] at h
          cases hchange : stageChange u s.tables tx with
          | error e => exact hsame (by simpa [hchange] using (congrArg Prod.snd h).symm)
          | ok tx₁ => simp [hchange] at h

/-- The guard of a changed user. -/
theorem checkGuards_userWrites_iff {ts : Tables} {u : User} :
    Transaction.checkGuards ts (userWrites u .changed) = .ok () ↔
      versionOf "version" (ts.row? usersTable u.id.text) = some u.persistedVersion := by
  rw [Transaction.checkGuards_eq_ok_iff, ← Guard.check_version_eq_ok_iff]
  exact List.forall_mem_singleton

namespace Draft

/-- **All that a stroke can do**: it stages rows that are none of the users, or it writes one user
that the transaction allows. -/
theorem step_cases (d : Draft) (x : Stroke) :
    ((d.step x).written = d.written ∧ ∃ ws, (d.step x).tx = ⟨d.tx.writes ++ ws⟩ ∧
      ∀ w ∈ ws, w.table ≠ usersTable) ∨
    ∃ w : Storing × User, (d.step x).written = d.written ++ [w] ∧
      (d.step x).tx = ⟨d.tx.writes ++ userWrites w.2 w.1⟩ ∧ Follows d.tx w.1 w.2 := by
  cases x with
  | row table key row guard =>
      by_cases htable : table = usersTable
      · exact .inl ⟨by simp [step, htable], [], by simp [step, htable], by simp⟩
      · refine .inl ⟨by simp [step, htable], _, by simp only [step, if_neg htable]; rfl, ?_⟩
        simpa using htable
  | user mode context u s =>
      cases hwrite : writeUser mode context u s (some d.tx) with
      | mk result tx' =>
          cases result with
          | error e =>
              obtain ⟨ws, rfl, hws⟩ := writeUser_refused hwrite
              exact .inl ⟨by simp only [step, hwrite], ws, by simp only [step, hwrite]; rfl, hws⟩
          | ok _ =>
              obtain ⟨hfollows, rfl⟩ := writeUser_succeeds hwrite
              exact .inr
                ⟨(mode, u), by simp only [step, hwrite], by simp only [step, hwrite], hfollows⟩

/-! ## What drafts keep -/

/-- The row of a user that the repository writes. -/
def row (u : User) : Json := u.toRecord.toJson.canonical

/-- **What holds of every draft.** The writes of its users are staged, the last one of each is what
the transaction reads, and where the guards hold and a user's committed version is that of its last
write, no write changed the version. -/
structure Sound (d : Draft) : Prop where
  listed : ∀ w ∈ d.written, ∀ x ∈ userWrites w.2 w.1, x ∈ d.tx.writes
  staged : ∀ id, d.tx.staged? usersTable id.text = (d.last? id).map fun w => row w.2
  steady : ∀ ts id w, Transaction.checkGuards ts d.tx.writes = .ok () → d.last? id = some w →
    versionOf "version" (ts.row? usersTable id.text) = some w.2.version →
    ∀ w' ∈ d.written, w'.2.id = id → Idle w'

theorem sound_empty : empty.Sound where
  listed := fun w hw => by cases hw
  staged := fun id => rfl
  steady := fun ts id w hguards hlast => by cases hlast

theorem staged?_userWrites (w : Storing × User) (id : UserId) :
    (Transaction.mk (userWrites w.2 w.1)).staged? usersTable id.text =
      if w.2.id = id then some (row w.2) else none := by
  obtain ⟨mode, u⟩ := w
  have htable : emailsTable ≠ usersTable := by decide
  cases mode <;> by_cases hid : u.id = id <;>
    simp [Transaction.staged?, userWrites, row, htable, hid, Id.text_inj]

/-- Where the guards of a write hold, the version that it stores is there already only if it left
the version alone. -/
theorem idle_of_guards {ts : Tables} {w : Storing × User}
    (hguards : Transaction.checkGuards ts (userWrites w.2 w.1) = .ok ())
    (hversion : versionOf "version" (ts.row? usersTable w.2.id.text) = some w.2.version) :
    Idle w := by
  obtain ⟨mode, u⟩ := w
  cases mode with
  | new =>
      have hfree : ts.row? usersTable u.id.text = none := Guard.check_absent_eq_ok_iff.1
        (Transaction.checkGuards_eq_ok_iff.1 hguards _ (List.mem_cons_of_mem _ List.mem_cons_self))
      rw [hfree] at hversion
      cases hversion
  | changed =>
      exact ⟨rfl, Option.some.inj (hversion.symm.trans (checkGuards_userWrites_iff.1 hguards))⟩

/-- The guards of a draft include those of each user's write. -/
theorem Sound.guards_of_written {d : Draft} (h : d.Sound) {ts : Tables}
    (hguards : Transaction.checkGuards ts d.tx.writes = .ok ()) {w : Storing × User}
    (hw : w ∈ d.written) : Transaction.checkGuards ts (userWrites w.2 w.1) = .ok () := by
  rw [Transaction.checkGuards_eq_ok_iff] at hguards ⊢
  exact fun x hx => hguards x (h.listed w hw x hx)

/-- What the transaction reads of a user that it wrote. -/
theorem Sound.read_last {d : Draft} (h : d.Sound) {id : UserId} {w : Storing × User} {ts : Tables}
    (hlast : d.last? id = some w) :
    d.tx.get UserRecord.ofJson? ts usersTable id.text = .ok (some w.2.toRecord.asRead) := by
  rw [Transaction.get, Transaction.row?, h.staged, hlast]
  exact map_succeeds_iff.2 ⟨_, Tables.decode_succeeds_iff.2 (UserRecord.ofJson?_canonical _), rfl⟩

/-- A user that the transaction allows to change was loaded at the version of its last write. -/
theorem Sound.loaded_last {d : Draft} (h : d.Sound) {u : User} {w : Storing × User}
    (hfollows : Follows d.tx .changed u) (hlast : d.last? u.id = some w) :
    u.persistedVersion = w.2.version := by
  have hstaged : d.tx.staged? usersTable u.id.text = some (row w.2) := by
    rw [h.staged, hlast]
    rfl
  obtain ⟨r, hread, hloaded⟩ := hfollows.changed rfl _ hstaged
  obtain rfl : w.2.toRecord.asRead = r :=
    Option.some.inj ((UserRecord.ofJson?_canonical _).symm.trans hread)
  exact hloaded

theorem Sound.step {d : Draft} (h : d.Sound) (x : Stroke) : (d.step x).Sound := by
  rcases d.step_cases x with ⟨hwritten, ws, htx, hother⟩ | ⟨w, hwritten, htx, hfollows⟩
  · -- No user is written, and no row of a user is staged.
    have hlast : ∀ id, (d.step x).last? id = d.last? id := fun id => by rw [last?, hwritten, last?]
    refine ⟨fun w hw y hy => ?_, fun id => ?_, fun ts id w hguards hw hversion => ?_⟩
    · rw [hwritten] at hw
      rw [htx]
      exact List.mem_append_left _ (h.listed w hw y hy)
    · rw [htx, Transaction.staged?_append, Transaction.staged?_of_other hother, hlast]
      exact h.staged id
    · rw [hlast] at hw
      rw [htx] at hguards
      rw [hwritten]
      exact h.steady ts id w (Transaction.checkGuards_append.1 hguards).1 hw hversion
  · have hlast := fun id => last?_append hwritten id
    refine ⟨fun w' hw' y hy => ?_, fun id => ?_, fun ts id w' hguards hw' hversion => ?_⟩
    · rw [htx]
      rw [hwritten] at hw'
      rcases List.mem_append.1 hw' with hw' | hw'
      · exact List.mem_append_left _ (h.listed w' hw' y hy)
      · obtain rfl := List.mem_singleton.1 hw'
        exact List.mem_append_right _ hy
    · rw [htx, Transaction.staged?_append, staged?_userWrites, hlast, h.staged]
      by_cases hid : w.2.id = id <;> simp [hid]
    · rw [htx] at hguards
      obtain ⟨hold, hnew⟩ := Transaction.checkGuards_append.1 hguards
      rw [hlast] at hw'
      rw [hwritten]
      by_cases hid : w.2.id = id
      · rw [if_pos hid] at hw'
        obtain rfl := Option.some.inj hw'
        subst hid
        have hidle := idle_of_guards hnew hversion
        intro w'' hw'' hsame
        rcases List.mem_append.1 hw'' with hw'' | hw''
        · -- The write before was at the version that this one was loaded at, and left.
          obtain ⟨w₀, hlast₀⟩ := last?_isSome ⟨w'', hw'', hsame⟩
          rw [hidle.1] at hfollows
          rw [hidle.2, h.loaded_last hfollows hlast₀] at hversion
          exact h.steady ts w.2.id w₀ hold hlast₀ hversion w'' hw'' hsame
        · rw [List.mem_singleton.1 hw'']
          exact hidle
      · rw [if_neg hid] at hw'
        intro w'' hw'' hsame
        rcases List.mem_append.1 hw'' with hw'' | hw''
        · exact h.steady ts id w' hold hw' hversion w'' hw'' hsame
        · rw [List.mem_singleton.1 hw''] at hsame
          exact absurd hsame hid

theorem sound_run (strokes : List Stroke) : (run strokes).Sound := by
  -- The induction is on the strokes, from any sound draft.
  have hfrom : ∀ d : Draft, d.Sound → (strokes.foldl Draft.step d).Sound := by
    induction strokes with
    | nil => exact fun d h => h
    | cons x strokes ih => exact fun d h => ih _ (h.step x)
  exact hfrom empty sound_empty

end Draft

/-! ## Writing again -/

section Update

variable {s : Store} {tx : Transaction} {u : User} {r : UserRecord}

/-- The update of a user at the version that the transaction reads goes by the committed version. -/
theorem update_of_read
    (hread : tx.get UserRecord.ofJson? s.tables usersTable u.id.text = .ok (some r))
    (hloaded : u.persistedVersion = r.version) :
    let committed := versionOf "version" (s.tables.row? usersTable u.id.text)
    Repository.store.update (.ok ()) u s (some tx) =
      if committed = some r.version then (.ok (), some ⟨tx.writes ++ userWrites u .changed⟩)
      else (.error (.ofStore (.versionMismatch usersTable u.id.text "version" r.version committed)),
        some tx) := by
  simp only [Repository.store, staging, stageChange_of_read hread hloaded]
  by_cases hcommitted :
      versionOf "version" (s.tables.row? usersTable u.id.text) = some r.version
  · rw [Transaction.putVersioned_eq_ok_iff.2 ⟨hcommitted, rfl⟩, if_pos hcommitted, ← hloaded]
    rfl
  · have hrefused : tx.putVersioned s.tables usersTable u.id.text u.toRecord.toJson "version"
        r.version = .error (.versionMismatch usersTable u.id.text "version" r.version
          (versionOf "version" (s.tables.row? usersTable u.id.text))) := by
      simp only [Transaction.putVersioned, Guard.check, if_neg hcommitted]
      rfl
    rw [hrefused, if_neg hcommitted]
    rfl

/-- A transaction that could be committed still can be after an update, which is stored then, if the
user's committed row stays as it was. -/
theorem commit_update {later : Store} (hwritable : later.failNextCommit = false)
    (hguards : Transaction.checkGuards later.tables tx.writes = .ok ())
    (hversion : versionOf "version" (later.tables.row? usersTable u.id.text) =
      some u.persistedVersion) :
    let commit := (Transaction.mk (tx.writes ++ userWrites u .changed)).commit later
    commit.1 = .ok () ∧
      commit.2.tables.row? usersTable u.id.text = some u.toRecord.toJson.canonical := by
  have hcommit := (Transaction.commit_succeeds_iff ⟨tx.writes ++ userWrites u .changed⟩ later).2
    ⟨hwritable, Transaction.checkGuards_append.2 ⟨hguards, checkGuards_userWrites_iff.2 hversion⟩⟩
  refine ⟨hcommit, ?_⟩
  rw [Transaction.row?_commit hcommit, Transaction.row?, Transaction.staged?_append,
    Draft.staged?_userWrites (.changed, u) u.id, if_pos rfl]
  rfl

/-- All that an accepted update stages. -/
theorem tx_of_update_accepted {tx' : Transaction}
    (hread : tx.get UserRecord.ofJson? s.tables usersTable u.id.text = .ok (some r))
    (hloaded : u.persistedVersion = r.version)
    (haccepted : Repository.store.update (.ok ()) u s (some tx) = (.ok (), some tx')) :
    tx' = ⟨tx.writes ++ userWrites u .changed⟩ := by
  rw [update_of_read hread hloaded] at haccepted
  split at haccepted
  · exact (Option.some.inj (congrArg Prod.snd haccepted)).symm
  · cases haccepted

end Update

namespace Draft

variable {d : Draft} {u : User} {last : Storing × User}

/-- Where the guards hold, a last write that left the version alone tells the committed version. -/
theorem Sound.committed_of_idle (h : d.Sound) (hlast : d.last? u.id = some last) (hidle : Idle last)
    {ts : Tables} (hguards : Transaction.checkGuards ts d.tx.writes = .ok ()) :
    versionOf "version" (ts.row? usersTable u.id.text) = some last.2.version := by
  obtain ⟨hmem, hid⟩ := last?_spec hlast
  have hguard := h.guards_of_written hguards hmem
  rwa [hidle.1, checkGuards_userWrites_iff, hid, ← hidle.2] at hguard

/-- **The guard of an update and that of a write which changed the version never hold together.** -/
theorem Sound.doomed (h : d.Sound) (hlast : d.last? u.id = some last)
    (hloaded : u.persistedVersion = last.2.version)
    (hraised : ∃ w ∈ d.written, w.2.id = u.id ∧ ¬ Idle w) (later : Store) :
    ((Transaction.mk (d.tx.writes ++ userWrites u .changed)).commit later).1 ≠ .ok () := by
  intro hcommit
  obtain ⟨hold, hnew⟩ := Transaction.checkGuards_append.1
    ((Transaction.commit_succeeds_iff _ later).1 hcommit).2
  rw [checkGuards_userWrites_iff, hloaded] at hnew
  obtain ⟨w, hw, hid, hnot⟩ := hraised
  exact hnot (h.steady later.tables u.id last hold hlast hnew w hw hid)

end Draft

/-- **A second write of a user in one transaction.** However the transaction came about, let users
be written in it through the repository, this one among them, and let the user be loaded at the
version that the transaction now reads. An update is accepted when the committed record is at that
version too; it is stored then by a commit that nothing got in the way of. Otherwise it is refused
and stages nothing. In a transaction whose guards hold it is accepted just when every write of the
user left the version alone; and if one of them did not, no commit will ever go through after the
update. -/
theorem second_write {strokes : List Stroke} {s : Store} {u : User} {r : UserRecord}
    (hwritten : ∃ w ∈ (Draft.run strokes).written, w.2.id = u.id)
    (hread : (Draft.run strokes).tx.get UserRecord.ofJson? s.tables usersTable u.id.text =
      .ok (some r))
    (hloaded : u.persistedVersion = r.version) :
    let d := Draft.run strokes
    let committed := versionOf "version" (s.tables.row? usersTable u.id.text)
    let answer := Repository.store.update (.ok ()) u s (some d.tx)
    (committed = some r.version → ∃ tx, answer = (.ok (), some tx) ∧
      ∀ later : Store, later.failNextCommit = false →
        Transaction.checkGuards later.tables d.tx.writes = .ok () →
        later.tables.row? usersTable u.id.text = s.tables.row? usersTable u.id.text →
        (tx.commit later).1 = .ok () ∧ (tx.commit later).2.tables.row? usersTable u.id.text =
          some u.toRecord.toJson.canonical) ∧
    (committed ≠ some r.version → answer = (.error (.storage (StoreError.versionMismatch usersTable
      u.id.text "version" r.version committed).message), some d.tx)) ∧
    (Transaction.checkGuards s.tables d.tx.writes = .ok () →
      (answer.1 = .ok () ↔ ∀ w ∈ d.written, w.2.id = u.id → Idle w)) ∧
    ∀ tx, answer = (.ok (), some tx) → (∃ w ∈ d.written, w.2.id = u.id ∧ ¬ Idle w) →
      ∀ later, (tx.commit later).1 ≠ .ok () := by
  intro d committed answer
  have hsound : d.Sound := Draft.sound_run strokes
  have hanswer : answer = _ := update_of_read hread hloaded
  obtain ⟨last, hlast⟩ := Draft.last?_isSome hwritten
  obtain rfl : last.2.toRecord.asRead = r := by
    simpa using (hsound.read_last hlast).symm.trans hread
  refine ⟨fun hcommitted => ?_, fun hcommitted => ?_,
    fun hguards => ⟨fun hok => ?_, fun hidle => ?_⟩, fun tx haccepted hraised later => ?_⟩
  · rw [if_pos hcommitted] at hanswer
    refine ⟨_, hanswer, fun later hwritable hguards hsame => commit_update hwritable hguards ?_⟩
    rw [hsame, hloaded]
    exact hcommitted
  · rw [if_neg hcommitted] at hanswer
    exact hanswer
  · by_cases hcommitted : committed = some last.2.toRecord.asRead.version
    · exact hsound.steady s.tables u.id last hguards hlast hcommitted
    · rw [hanswer, if_neg hcommitted] at hok
      cases hok
  · obtain ⟨hmem, hid⟩ := Draft.last?_spec hlast
    have hcommitted : committed = some last.2.toRecord.asRead.version :=
      hsound.committed_of_idle hlast (hidle last hmem hid) hguards
    rw [hanswer, if_pos hcommitted]
  · obtain rfl := tx_of_update_accepted hread hloaded haccepted
    exact hsound.doomed hlast hloaded hraised later

/-! A user that is saved, then logs in and is updated in the same transaction. -/

def newcomer : User :=
  .register ⟨.ofNat 1⟩ ⟨"ada@home"⟩ ⟨"hash"⟩ .epoch ⟨.ofNat 2⟩

def savingNewcomer : List Stroke := [.user .new (.ok ()) newcomer .empty]

/-- The newcomer as the transaction has it, after a login. -/
def returner : User :=
  match newcomer.takeEvents.2.login .epoch ⟨.ofNat 3⟩ with
  | .returned u => u
  | .failed (_ : AccountError) | .panicked _ => newcomer

theorem returner_loaded : (∃ w ∈ (Draft.run savingNewcomer).written, w.2.id = returner.id) ∧
    (Draft.run savingNewcomer).tx.get UserRecord.ofJson? Store.empty.tables usersTable
      returner.id.text = .ok (some newcomer.toRecord) ∧
    returner.persistedVersion = newcomer.toRecord.version :=
  ⟨⟨(.new, newcomer), by decide +kernel, by decide +kernel⟩, by decide +kernel, by decide +kernel⟩

theorem second_write_after_save :
    let d := Draft.run savingNewcomer
    Repository.store.update (.ok ()) returner .empty (some d.tx) =
      (.error (.storage ("row `00000000-0000-0000-0000-000000000001` in table `users` is at " ++
        "version None, expected 1")), some d.tx) := by
  obtain ⟨hwritten, hread, hloaded⟩ := returner_loaded
  exact (second_write hwritten hread hloaded).2.1 (by decide +kernel)

/-- **Not every second write is accepted**: a user that the transaction saved cannot be changed in
it, though it was loaded as the transaction reads it. -/
theorem not_every_second_write_accepted :
    ¬ ∀ (strokes : List Stroke) (s : Store) (u : User) (r : UserRecord),
      (∃ w ∈ (Draft.run strokes).written, w.2.id = u.id) →
      (Draft.run strokes).tx.get UserRecord.ofJson? s.tables usersTable u.id.text = .ok (some r) →
      u.persistedVersion = r.version → u.persistedVersion < u.version →
      (Repository.store.update (.ok ()) u s (some (Draft.run strokes).tx)).1 = .ok () := by
  intro h
  obtain ⟨hwritten, hread, hloaded⟩ := returner_loaded
  have hok := h savingNewcomer .empty returner newcomer.toRecord hwritten hread hloaded
    (by decide +kernel)
  revert hok
  decide +kernel

end Registrar.Accounts
