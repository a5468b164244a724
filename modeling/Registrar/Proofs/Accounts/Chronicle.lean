import Registrar.Proofs.Accounts.Traffic

set_option autoImplicit false

/-! # The chronicle of a user

The commits about one user form a chain: a registration, then changes each of which loaded exactly
what the commit before it left. `Chronicle entries r` says that such a chain led to the record `r`.
After every run the commits about a user are a chronicle of its record (`recorded_run`).

What carries this is that a client's loaded record is still the committed one, or the committed one
has moved on to a greater version; the guard of a commit rules the second case out
(`Recorded.loaded_at_commit`). -/

namespace Registrar.Accounts

/-! ## Records in the store -/

/-- The committed record of a user. -/
def recordAt (ts : Tables) (id : UserId) : Option UserRecord :=
  (ts.row? usersTable id.text).bind UserRecord.ofJson?

/-- Every row of the users is a record in canonical form under its own id. -/
def UsersFiled (ts : Tables) : Prop :=
  ∀ k j, ts.row? usersTable k = some j → ∃ r : UserRecord, j = r.toJson.canonical ∧ r.id.text = k

/-- The record that is found under a key. -/
theorem UsersFiled.find {ts : Tables} (h : UsersFiled ts) {k : String} {j : Json}
    (hj : ts.row? usersTable k = some j) :
    ∃ r : UserRecord, r.IsCivil ∧ j = r.toJson.canonical ∧ r.id.text = k := by
  obtain ⟨r, rfl, hid⟩ := h k j hj
  exact ⟨r.asRead, r.isCivil_asRead, by rw [r.toJson_asRead], hid⟩

theorem recordAt_eq_some_iff {ts : Tables} (h : UsersFiled ts) {id : UserId} {r : UserRecord} :
    recordAt ts id = some r ↔
      r.IsCivil ∧ ts.row? usersTable id.text = some r.toJson.canonical ∧ r.id = id := by
  unfold recordAt
  constructor
  · intro hr
    cases hrow : ts.row? usersTable id.text with
    | none => simp [hrow] at hr
    | some j =>
        obtain ⟨r', hcivil, rfl, hid⟩ := h.find hrow
        rw [hrow, Option.bind_some, hcivil.ofJson?_canonical] at hr
        obtain rfl := Option.some.inj hr
        exact ⟨hcivil, rfl, Id.text_inj.1 hid⟩
  · rintro ⟨hcivil, hrow, -⟩
    rw [hrow, Option.bind_some, hcivil.ofJson?_canonical]

theorem recordAt_stored {mode : Storing} {u : User} {e : Event} {stamp : Outbox.Stamp}
    {before after : Tables} (hcivil : u.toRecord.IsCivil)
    (h : Stored mode u e stamp before after) (id : UserId) :
    recordAt after id = if id = u.id then some u.toRecord else recordAt before id := by
  unfold recordAt
  rw [h.row?_users]
  by_cases hid : id = u.id
  · rw [if_pos (congrArg Id.text hid), if_pos hid, Option.bind_some, hcivil.ofJson?_canonical]
  · rw [if_neg fun htext => hid (Id.text_inj.1 htext), if_neg hid]

/-- A registration finds no record. -/
theorem recordAt_of_new {mode : Storing} {u : User} {e : Event} {stamp : Outbox.Stamp}
    {before after : Tables} (h : Stored mode u e stamp before after) (hmode : mode = .new) :
    recordAt before u.id = none := by
  rw [recordAt, h.user_free hmode]
  rfl

theorem recordAt_delivers {before after : Tables} (h : Outbox.Delivers before after) (id : UserId) :
    recordAt after id = recordAt before id := by
  unfold recordAt
  rw [h.others usersTable id.text (by decide)]

/-- The version that a guard finds. -/
theorem versionOf_recordAt {ts : Tables} (h : UsersFiled ts) {id : UserId} {r : UserRecord}
    (hr : recordAt ts id = some r) :
    versionOf "version" (ts.row? usersTable id.text) = some r.version := by
  rw [((recordAt_eq_some_iff h).1 hr).2.1, versionOf, Option.bind_some,
    UserRecord.field?_version, Option.bind_some, Json.asUInt64?_ofUInt64]

/-! ## Chronicles -/

/-- **The commits that led to a record**, in order. -/
inductive Chronicle : List Entry → UserRecord → Prop where
  | registered {entry : Entry} (mode : entry.job.command.mode = .new)
      (found : entry.job.found = none) (version : entry.job.user.version = 1) :
      Chronicle [entry] entry.job.user.toRecord
  | changed {entries : List Entry} {r : UserRecord} {entry : Entry} (before : Chronicle entries r)
      (mode : entry.job.command.mode = .changed) (found : entry.job.found = some (.restore r))
      (next : Succeeds entry.job.user r) :
      Chronicle (entries ++ [entry]) entry.job.user.toRecord

namespace Chronicle

variable {entries : List Entry} {r : UserRecord}

/-- **Versions count the commits.** -/
theorem versions (h : Chronicle entries r) :
    entries.map (·.job.user.version.toNat) = List.range' 1 r.version.toNat := by
  induction h with
  | registered mode found version => simp [User.toRecord, User.version] at version ⊢; simp [version]
  | changed before mode found next ih =>
      rename_i entries r entry
      have hnext : entry.job.user.toRecord.version.toNat = r.version.toNat + 1 := next.next
      have hlast : entry.job.user.version.toNat = 1 + r.version.toNat := by
        rw [next.next]
        omega
      rw [List.map_append, ih, hnext, List.range'_1_concat, List.map_singleton, hlast]

/-- The first commit registered the user, and none after it did. -/
theorem modes (h : Chronicle entries r) :
    ∃ first rest, entries = first :: rest ∧ first.job.command.mode = .new ∧
      ∀ entry ∈ rest, entry.job.command.mode = .changed := by
  induction h with
  | registered mode found version => exact ⟨_, [], rfl, mode, by simp⟩
  | changed before mode found next ih =>
      obtain ⟨first, rest, rfl, hfirst, hrest⟩ := ih
      refine ⟨first, rest ++ [_], rfl, hfirst, fun entry hentry => ?_⟩
      rcases List.mem_append.1 hentry with hentry | hentry
      · exact hrest entry hentry
      · obtain rfl := List.mem_singleton.1 hentry
        exact mode

/-- Every commit moved what it had loaded on by one version. -/
theorem found_version (h : Chronicle entries r) :
    ∀ entry ∈ entries, ∀ old, entry.job.found = some old →
      old.id = entry.job.user.id ∧ entry.job.user.version.toNat = old.version.toNat + 1 := by
  induction h with
  | registered mode found version =>
      intro entry hentry old hold
      obtain rfl := List.mem_singleton.1 hentry
      rw [found] at hold
      cases hold
  | changed before mode found next ih =>
      intro entry hentry old hold
      rcases List.mem_append.1 hentry with hentry | hentry
      · exact ih entry hentry old hold
      · obtain rfl := List.mem_singleton.1 hentry
        rw [found] at hold
        obtain rfl := Option.some.inj hold
        exact ⟨next.id.symm, next.next⟩

end Chronicle

/-! ## The invariant -/

namespace Traffic

/-- The commits about a user, in order. -/
def history (s : Traffic) (id : UserId) : List Entry :=
  s.log.filter fun entry => entry.job.user.id = id

/-- **Records move only by commits that loaded them.** -/
structure Recorded (s : Traffic) : Prop where
  filed : UsersFiled s.store.tables
  loaded : ∀ c job r, (s.phase c).job? = some job → job.found = some (.restore r) →
    ∃ now, recordAt s.store.tables r.id = some now ∧
      (now = r ∨ r.version.toNat < now.version.toNat)
  unknown : ∀ id, recordAt s.store.tables id = none → s.history id = []
  known : ∀ id r, recordAt s.store.tables id = some r → Chronicle (s.history id) r

theorem history_append {s s' : Traffic} {entry : Entry} (h : s'.log = s.log ++ [entry])
    (id : UserId) :
    s'.history id = if entry.job.user.id = id then s.history id ++ [entry] else s.history id := by
  unfold history
  rw [h, List.filter_append]
  by_cases hid : entry.job.user.id = id <;> simp [hid]

theorem recorded_start : start.Recorded where
  filed := fun k j h => by cases h
  loaded := fun c job r h => by cases h
  unknown := fun _ _ => rfl
  known := fun id r h => by cases h

/-- **A change that commits had loaded the committed record.** -/
theorem Recorded.loaded_at_commit {s : Traffic} (h : s.Recorded) {client : Nat} {job : Job}
    {e : Event} {stamp : Outbox.Stamp} {after : Tables} (hjob : (s.phase client).job? = some job)
    (hmode : job.command.mode = .changed)
    (hdecided : Decided job.command job.found job.user e)
    (hstored : Stored .changed job.user e stamp s.store.tables after) :
    ∃ r, job.found = some (.restore r) ∧ Succeeds job.user r ∧
      recordAt s.store.tables r.id = some r := by
  rcases hdecided.origin with ⟨hnew, -⟩ | ⟨-, r, hfound, hnext⟩
  · rw [hmode] at hnew
    cases hnew
  · refine ⟨r, hfound, hnext, ?_⟩
    obtain ⟨now, hnow, heq | hlt⟩ := h.loaded client job r hjob hfound
    · rw [hnow, heq]
    · -- The committed record has moved on, so the guard cannot have held.
      have hguard := hstored.user_loaded rfl
      rw [hnext.id, versionOf_recordAt h.filed hnow, hnext.loaded] at hguard
      have hsame := Option.some.inj hguard
      rw [hsame] at hlt
      omega

/-- **A commit leaves behind whoever had loaded its user.** -/
theorem Recorded.behind_at_commit {s : Traffic} (h : s.Recorded) {client c : Nat} {job job' : Job}
    {e : Event} {stamp : Outbox.Stamp} {after : Tables} {r : UserRecord}
    (hjob : (s.phase client).job? = some job)
    (hdecided : Decided job.command job.found job.user e)
    (hstored : Stored job.command.mode job.user e stamp s.store.tables after)
    (hjob' : (s.phase c).job? = some job') (hfound : job'.found = some (.restore r))
    (hid : r.id = job.user.id) : r.version.toNat < job.user.version.toNat := by
  obtain ⟨now, hnow, hage⟩ := h.loaded c job' r hjob' hfound
  cases hmode : job.command.mode with
  | new =>
      -- Nobody can have loaded a record that did not exist.
      rw [hid, recordAt_of_new hstored hmode] at hnow
      cases hnow
  | changed =>
      rw [hmode] at hstored
      -- The commit replaces the committed record, and what the other had loaded is no newer.
      obtain ⟨old, -, hnext, hold⟩ := h.loaded_at_commit hjob hmode hdecided hstored
      rw [hid, hnext.id, hold] at hnow
      obtain rfl := Option.some.inj hnow
      have hversion := hnext.next
      rcases hage with rfl | hlt <;> omega

theorem usersFiled_stored {mode : Storing} {u : User} {e : Event} {stamp : Outbox.Stamp}
    {before after : Tables} (h : UsersFiled before) (hs : Stored mode u e stamp before after) :
    UsersFiled after := by
  intro k j hrow
  rw [hs.row?_users] at hrow
  by_cases hk : k = u.id.text
  · rw [if_pos hk] at hrow
    exact ⟨u.toRecord, (Option.some.inj hrow).symm, hk.symm⟩
  · rw [if_neg hk] at hrow
    exact h k j hrow

/-- Where no record, no commit and no job is new, nothing is to be shown. -/
theorem Recorded.of_same {s s' : Traffic} (h : s.Recorded) (hfiled : UsersFiled s'.store.tables)
    (hrecords : ∀ id, recordAt s'.store.tables id = recordAt s.store.tables id)
    (hlog : s'.log = s.log)
    (hjobs : ∀ c job r, (s'.phase c).job? = some job → job.found = some (.restore r) →
      recordAt s.store.tables r.id = some r ∨ (s.phase c).job? = some job) : s'.Recorded where
  filed := hfiled
  loaded := fun c job r hjob hfound => by
    rw [hrecords]
    rcases hjobs c job r hjob hfound with hnow | hold
    · exact ⟨r, hnow, .inl rfl⟩
    · exact h.loaded c job r hold hfound
  unknown := fun id hid => by
    rw [history, hlog]
    exact h.unknown id (by rw [← hrecords]; exact hid)
  known := fun id r hid => by
    rw [history, hlog]
    exact h.known id r (by rw [← hrecords]; exact hid)

/-- What a client has just loaded is the committed record. -/
theorem recordAt_of_load {hasher : Hasher} {watch : Watch} {store : Store} {c : Command}
    {r : UserRecord} (h : UsersFiled store.tables)
    (hload : c.load hasher watch store = .ok (some (.restore r))) :
    recordAt store.tables r.id = some r := by
  obtain ⟨-, key, hkey⟩ := Command.load_spec hload
  obtain ⟨row, r', hrow, hread, hrestore⟩ := userAt_eq_some_iff.1 hkey
  obtain rfl : r = r' := congrArg User.toRecord hrestore
  -- The row is filed under its own id, whatever key led to it.
  obtain ⟨r', hcivil, rfl, hid⟩ := h.find hrow
  rw [hcivil.ofJson?_canonical] at hread
  obtain rfl := Option.some.inj hread
  rw [recordAt_eq_some_iff h]
  exact ⟨hcivil, by rw [hid]; exact hrow, rfl⟩

/-- A commit keeps the invariant: it puts its user at the end of the user's chronicle and leaves
every client that had loaded that user behind. -/
theorem Recorded.committed {s s' : Traffic} (h : s.Recorded) {client : Nat} {job : Job}
    {e : Event} {stamp : Outbox.Stamp} (hjob : (s.phase client).job? = some job)
    (hdecided : Decided job.command job.found job.user e)
    (hstored : Stored job.command.mode job.user e stamp s.store.tables s'.store.tables)
    (hlog : s'.log = s.log ++ [⟨job, stamp⟩]) (hphases : NoneNew s s') : s'.Recorded := by
  have hrecords := recordAt_stored hdecided.civil.1 hstored
  refine ⟨usersFiled_stored h.filed hstored, ?_, ?_, ?_⟩
  · intro c job' r hjob' hfound
    have hold := hphases.jobs c job' hjob'
    rw [hrecords]
    by_cases hid : r.id = job.user.id
    · rw [if_pos hid]
      exact ⟨job.user.toRecord, rfl,
        .inr (h.behind_at_commit hjob hdecided hstored hold hfound hid)⟩
    · rw [if_neg hid]
      exact h.loaded c job' r hold hfound
  · intro id hnone
    rw [hrecords] at hnone
    by_cases hid : id = job.user.id
    · rw [if_pos hid] at hnone
      cases hnone
    · rw [if_neg hid] at hnone
      rw [history_append hlog, if_neg fun heq => hid heq.symm]
      exact h.unknown id hnone
  · intro id r hr
    rw [hrecords] at hr
    by_cases hid : id = job.user.id
    · rw [if_pos hid] at hr
      obtain rfl := Option.some.inj hr
      rw [history_append hlog, if_pos hid.symm, hid]
      rcases hdecided.origin with ⟨hmode, hfound, hversion⟩ | ⟨hmode, -⟩
      · have hfirst : Chronicle [⟨job, stamp⟩] (Entry.mk job stamp).job.user.toRecord :=
          .registered hmode hfound hversion
        rw [h.unknown _ (recordAt_of_new hstored hmode)]
        exact hfirst
      · rw [hmode] at hstored
        obtain ⟨old, hfound, hnext, hold⟩ := h.loaded_at_commit hjob hmode hdecided hstored
        have hlater : Chronicle (s.history old.id ++ [⟨job, stamp⟩])
            (Entry.mk job stamp).job.user.toRecord := .changed (h.known _ _ hold) hmode hfound hnext
        rw [hnext.id]
        exact hlater
    · rw [if_neg hid] at hr
      rw [history_append hlog, if_neg fun heq => hid heq.symm]
      exact h.known id r hr

theorem Recorded.moves {hasher : Hasher} {s s' : Traffic} (h : s.Recorded)
    (hm : Moves hasher s s') : s'.Recorded := by
  cases hm with
  | rested tables log drawn phases =>
      refine h.of_same (by rw [tables]; exact h.filed) (fun id => by rw [tables]) log ?_
      exact fun c job r hjob _ => .inr (phases.jobs c job hjob)
  | delivered tables log drawn phases =>
      refine h.of_same (fun k j hrow => ?_) (recordAt_delivers tables) log ?_
      · rw [tables.others usersTable k (by decide)] at hrow
        exact h.filed k j hrow
      · exact fun c job r hjob _ => .inr (phases.jobs c job hjob)
  | loaded client job e watch load decided tables log drawn phases =>
      refine h.of_same (by rw [tables]; exact h.filed) (fun id => by rw [tables]) log ?_
      intro c job' r hjob hfound
      rcases phase_cases phases c with ⟨rfl, hp⟩ | hsame
      · rw [hp] at hjob
        obtain rfl := Option.some.inj hjob
        rw [hfound] at load
        exact .inl (recordAt_of_load h.filed load)
      · rw [hsame] at hjob
        exact .inr hjob
  | staged client job stamp e before recorded tables log drawn phases =>
      refine h.of_same (by rw [tables]; exact h.filed) (fun id => by rw [tables]) log ?_
      intro c job' r hjob hfound
      rcases phase_cases phases c with ⟨rfl, hp⟩ | hsame
      · rw [hp] at hjob
        obtain rfl := Option.some.inj hjob
        rw [before]
        exact .inr rfl
      · rw [hsame] at hjob
        exact .inr hjob
  | committed client job stamp e before decided stored log drawn phases =>
      exact h.committed (by rw [before]; rfl) decided stored log phases

/-- Every commit is in the chronicle of its user. -/
theorem Recorded.chronicle_of_mem {s : Traffic} (h : s.Recorded) {entry : Entry}
    (hmem : entry ∈ s.log) :
    ∃ r, recordAt s.store.tables entry.job.user.id = some r ∧
      Chronicle (s.history entry.job.user.id) r ∧ entry ∈ s.history entry.job.user.id := by
  have hhistory : entry ∈ s.history entry.job.user.id :=
    List.mem_filter.2 ⟨hmem, decide_eq_true rfl⟩
  cases hr : recordAt s.store.tables entry.job.user.id with
  | none =>
      rw [h.unknown _ hr] at hhistory
      cases hhistory
  | some r => exact ⟨r, rfl, h.known _ r hr, hhistory⟩

/-- **After every run the commits about a user are the chronicle of its record.** -/
theorem recorded_run {σ : Type} (hasher : Hasher) (actions : List (Action σ)) :
    (run hasher actions).Recorded :=
  (run_induction hasher recorded_start (fun _ _ _ h hm => h.moves hm) actions).2

end Traffic

end Registrar.Accounts
