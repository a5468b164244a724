import Registrar.Proofs.Accounts.Chronicle
import Registrar.Proofs.Outbox.Age

set_option autoImplicit false

/-! # The outbox is the log of the users

What the outbox holds about a user, oldest first, is what the commits about that user wrote, in the
order in which they committed: one row for each, hence as many as the user's version
(`event_log`). Rows are stamped when they are staged, not when they are committed. The order is
right all the same: a commit that follows another about the same user had to load what that one
left, so it was staged after it, and stamps are drawn in order. -/

namespace Registrar.Accounts

/-! ## Stamps -/

/-- Drawn before: **no later by the clock, and with a smaller id.** -/
def Earlier (a b : Outbox.Stamp) : Prop := (a.now : Instant) ≤ b.now ∧ a.id < b.id

instance (a b : Outbox.Stamp) : Decidable (Earlier a b) :=
  inferInstanceAs (Decidable ((a.now : Instant) ≤ b.now ∧ a.id < b.id))

/-- The rows that a commit wrote. -/
def Entry.rows (entry : Entry) : List Outbox.Row :=
  entry.job.user.pending.map (outboxRow entry.stamp)

theorem notYounger_of_earlier {a b : Outbox.Stamp} (h : Earlier a b) (e e' : Event) :
    (outboxRow a e).notYounger (outboxRow b e') = true := by
  rw [Outbox.Row.notYounger_iff]
  rcases Instant.le_iff.1 h.1 with hlt | heq
  · exact .inl hlt
  · exact .inr ⟨heq, Nat.le_of_lt h.2⟩

namespace Traffic

/-- The clock never went back and ids increased. -/
def InOrder (s : Traffic) : Prop := s.drawn.Pairwise Earlier

instance (s : Traffic) : Decidable s.InOrder :=
  inferInstanceAs (Decidable (s.drawn.Pairwise Earlier))

/-! ## What was written -/

/-- **The outbox was written by the commits**, and by nothing else. -/
def Announced (s : Traffic) : Prop :=
  ∀ k w, Outbox.writtenAt s.store.tables k = some w ↔
    ∃ entry ∈ s.log, w ∈ entry.rows ∧ w.id.text = k

theorem announced_start : start.Announced := by
  intro k w
  constructor
  · intro h
    cases h
  · rintro ⟨entry, hmem, -⟩
    cases hmem

theorem writtenAt_stored {mode : Storing} {u : User} {e : Event} {stamp : Outbox.Stamp}
    {before after : Tables} (h : Stored mode u e stamp before after) (k : String) :
    Outbox.writtenAt after k =
      if k = stamp.id.text then some (outboxRow stamp e) else Outbox.writtenAt before k := by
  unfold Outbox.writtenAt
  rw [h.row?_outbox]
  by_cases hk : k = stamp.id.text
  · have hcivil : (outboxRow stamp e).IsCivil := Outbox.Row.isCivil_pending ..
    rw [if_pos hk, if_pos hk, Option.bind_some, hcivil.ofJson?_canonical]
    rfl
  · rw [if_neg hk, if_neg hk]

theorem Announced.committed {s s' : Traffic} (h : s.Announced) {job : Job} {e : Event}
    {stamp : Outbox.Stamp} (hrecorded : job.user.pending = [e])
    (hstored : Stored job.command.mode job.user e stamp s.store.tables s'.store.tables)
    (hlog : s'.log = s.log ++ [⟨job, stamp⟩]) : s'.Announced := by
  have hrows : (Entry.mk job stamp).rows = [outboxRow stamp e] := by
    unfold Entry.rows
    rw [hrecorded]
    rfl
  have hfree : Outbox.writtenAt s.store.tables stamp.id.text = none := by
    rw [Outbox.writtenAt, hstored.event_free]
    rfl
  intro k w
  rw [writtenAt_stored hstored, hlog]
  constructor
  · intro hw
    by_cases hk : k = stamp.id.text
    · rw [if_pos hk] at hw
      obtain rfl := Option.some.inj hw
      exact ⟨⟨job, stamp⟩, by simp, by simp [hrows], hk.symm⟩
    · rw [if_neg hk] at hw
      obtain ⟨entry, hmem, hwrote, hid⟩ := (h k w).1 hw
      exact ⟨entry, List.mem_append_left _ hmem, hwrote, hid⟩
  · rintro ⟨entry, hmem, hwrote, hid⟩
    rcases List.mem_append.1 hmem with hmem | hmem
    · -- An old row is under another key than the new one, which was free.
      have hw := (h k w).2 ⟨entry, hmem, hwrote, hid⟩
      by_cases hk : k = stamp.id.text
      · rw [hk, hfree] at hw
        cases hw
      · rw [if_neg hk]
        exact hw
    · obtain rfl := List.mem_singleton.1 hmem
      rw [hrows] at hwrote
      obtain rfl := List.mem_singleton.1 hwrote
      exact if_pos hid.symm

theorem Announced.moves {hasher : Hasher} {s s' : Traffic} (h : s.Announced)
    (hm : Moves hasher s s') : s'.Announced := by
  rcases hm.on_tables with ⟨htables, hlog⟩ | ⟨hdelivers, hlog⟩ |
    ⟨client, job, stamp, e, -, hdecided, hstored, hlog⟩
  · unfold Announced
    rw [htables, hlog]
    exact h
  · intro k w
    rw [hdelivers.written, hlog]
    exact h k w
  · exact h.committed hdecided.recorded hstored hlog

/-! ## When it was written -/

/-- **Commits about one user are stamped in order**, and so would be the next one: a client whose
loaded record is still the committed one has a later stamp than every commit about its user. -/
structure Timed (s : Traffic) : Prop where
  logged : ∀ entry ∈ s.log, entry.stamp ∈ s.drawn
  staged : ∀ c job stamp tx, s.phase c = .staged job stamp (.ok ()) tx → stamp ∈ s.drawn
  ahead : ∀ c job stamp tx r, s.phase c = .staged job stamp (.ok ()) tx →
    job.found = some (.restore r) → recordAt s.store.tables r.id = some r →
    ∀ entry ∈ s.history r.id, Earlier entry.stamp stamp
  ordered : ∀ id, (s.history id).Pairwise fun a b => Earlier a.stamp b.stamp

theorem timed_start : start.Timed where
  logged := fun entry h => by cases h
  staged := fun c job stamp tx h => by cases h
  ahead := fun c job stamp tx r h => by cases h
  ordered := fun id => .nil

theorem mem_log_of_mem_history {s : Traffic} {id : UserId} {entry : Entry}
    (h : entry ∈ s.history id) : entry ∈ s.log ∧ entry.job.user.id = id := by
  obtain ⟨hmem, hid⟩ := List.mem_filter.1 h
  exact ⟨hmem, of_decide_eq_true hid⟩

/-- Where nothing was staged or committed, stamps are as they were. -/
theorem Timed.of_same {s s' : Traffic} (h : s.Timed) (hlog : s'.log = s.log)
    (hdrawn : s'.drawn = s.drawn)
    (hrecords : ∀ id, recordAt s'.store.tables id = recordAt s.store.tables id)
    (hplans : ∀ c job stamp tx, s'.phase c = .staged job stamp (.ok ()) tx →
      s.phase c = .staged job stamp (.ok ()) tx) : s'.Timed where
  logged := by
    rw [hlog, hdrawn]
    exact h.logged
  staged := fun c job stamp tx hphase => by
    rw [hdrawn]
    exact h.staged c job stamp tx (hplans c job stamp tx hphase)
  ahead := fun c job stamp tx r hphase hfound hr => by
    rw [history, hlog]
    rw [hrecords] at hr
    exact h.ahead c job stamp tx r (hplans c job stamp tx hphase) hfound hr
  ordered := fun id => by
    rw [history, hlog]
    exact h.ordered id

/-- A stamp that is drawn now is later than every one that a commit had. -/
theorem Timed.staged_step {s s' : Traffic} (h : s.Timed) (horder : s'.InOrder) {client : Nat}
    {job : Job} {stamp : Outbox.Stamp} {e : Event} (htables : s'.store.tables = s.store.tables)
    (hlog : s'.log = s.log) (hdrawn : s'.drawn = s.drawn ++ [stamp])
    (hphases : s'.phase = (s.place client
      (.staged job stamp (.ok ()) (plan job.command.mode job.user e stamp))).phase) : s'.Timed := by
  have hlater : ∀ entry ∈ s.log, Earlier entry.stamp stamp := by
    intro entry hmem
    unfold InOrder at horder
    rw [hdrawn] at horder
    exact (List.pairwise_append.1 horder).2.2 _ (h.logged entry hmem) _ (List.mem_singleton.2 rfl)
  refine ⟨?_, ?_, ?_, fun id => by rw [history, hlog]; exact h.ordered id⟩
  · intro entry hmem
    rw [hlog] at hmem
    rw [hdrawn]
    exact List.mem_append_left _ (h.logged entry hmem)
  · intro c job' stamp' tx hphase
    rw [hdrawn]
    rcases phase_cases hphases c with ⟨rfl, hp⟩ | hsame
    · rw [hp] at hphase
      cases hphase
      exact List.mem_append_right _ (List.mem_singleton.2 rfl)
    · rw [hsame] at hphase
      exact List.mem_append_left _ (h.staged c job' stamp' tx hphase)
  · intro c job' stamp' tx r hphase hfound hr entry hmem
    rw [htables] at hr
    rw [history, hlog] at hmem
    rcases phase_cases hphases c with ⟨rfl, hp⟩ | hsame
    · rw [hp] at hphase
      cases hphase
      exact hlater entry (mem_log_of_mem_history hmem).1
    · rw [hsame] at hphase
      exact h.ahead c job' stamp' tx r hphase hfound hr entry hmem

/-- A commit has the latest stamp about its user and leaves no other client ahead there. -/
theorem Timed.committed {s s' : Traffic} (h : s.Timed) (hrecorded : s.Recorded) {client : Nat}
    {job : Job} {stamp : Outbox.Stamp} {e : Event} {tx : Transaction}
    (hbefore : s.phase client = .staged job stamp (.ok ()) tx)
    (hdecided : Decided job.command job.found job.user e)
    (hstored : Stored job.command.mode job.user e stamp s.store.tables s'.store.tables)
    (hlog : s'.log = s.log ++ [⟨job, stamp⟩]) (hdrawn : s'.drawn = s.drawn)
    (hphases : NoneNew s s') : s'.Timed := by
  have hjob : (s.phase client).job? = some job := by rw [hbefore]; rfl
  refine ⟨?_, ?_, ?_, ?_⟩
  · intro entry hmem
    rw [hlog] at hmem
    rw [hdrawn]
    rcases List.mem_append.1 hmem with hmem | hmem
    · exact h.logged entry hmem
    · obtain rfl := List.mem_singleton.1 hmem
      exact h.staged client job stamp tx hbefore
  · intro c job' stamp' tx' hphase
    rw [hdrawn]
    exact h.staged c job' stamp' tx' (hphases.plans c job' stamp' tx' hphase)
  · intro c job' stamp' tx' r hphase hfound hr
    have hold := hphases.plans c job' stamp' tx' hphase
    rw [recordAt_stored hdecided.civil.1 hstored] at hr
    by_cases hid : r.id = job.user.id
    · -- The commit stored a version greater than any that was loaded before it.
      rw [if_pos hid] at hr
      have hbehind :=
        hrecorded.behind_at_commit hjob hdecided hstored (by rw [hold]; rfl) hfound hid
      rw [← Option.some.inj hr] at hbehind
      exact absurd hbehind (Nat.lt_irrefl _)
    · rw [if_neg hid] at hr
      rw [history_append hlog, if_neg fun heq => hid heq.symm]
      exact h.ahead c job' stamp' tx' r hold hfound hr
  · intro id
    rw [history_append hlog]
    by_cases hid : job.user.id = id
    · rw [if_pos hid]
      refine List.pairwise_append.2 ⟨h.ordered id, List.pairwise_singleton _ _, ?_⟩
      intro entry hmem last hlast
      obtain rfl := List.mem_singleton.1 hlast
      cases hmode : job.command.mode with
      | new =>
          -- A registration is the first commit about its user.
          rw [← hid, hrecorded.unknown _ (recordAt_of_new hstored hmode)] at hmem
          cases hmem
      | changed =>
          rw [hmode] at hstored
          obtain ⟨old, hfound, hnext, hrold⟩ :=
            hrecorded.loaded_at_commit hjob hmode hdecided hstored
          -- The client's record was still the committed one, so its stamp is ahead.
          rw [← hid, hnext.id] at hmem
          exact h.ahead client job stamp tx old hbefore hfound hrold entry hmem
    · rw [if_neg hid]
      exact h.ordered id

theorem inOrder_of_append {s s' : Traffic} {stamps : List Outbox.Stamp}
    (h : s'.drawn = s.drawn ++ stamps) (horder : s'.InOrder) : s.InOrder := by
  unfold InOrder at horder ⊢
  rw [h] at horder
  exact (List.pairwise_append.1 horder).1

theorem inOrder_of_same {s s' : Traffic} (h : s'.drawn = s.drawn) (horder : s'.InOrder) :
    s.InOrder := by
  unfold InOrder at horder ⊢
  rwa [h] at horder

theorem timed_moves {hasher : Hasher} {s s' : Traffic} (hrecorded : s.Recorded)
    (h : s.InOrder → s.Timed) (hm : Moves hasher s s') (horder : s'.InOrder) : s'.Timed := by
  cases hm with
  | rested tables log drawn phases =>
      have hs := h (inOrder_of_same drawn horder)
      exact hs.of_same log drawn (fun id => by rw [tables]) phases.plans
  | delivered tables log drawn phases =>
      have hs := h (inOrder_of_same drawn horder)
      exact hs.of_same log drawn (recordAt_delivers tables) phases.plans
  | loaded client job e watch load decided tables log drawn phases =>
      have hs := h (inOrder_of_same drawn horder)
      refine hs.of_same log drawn (fun id => by rw [tables]) ?_
      intro c job' stamp tx hphase
      rcases phase_cases phases c with ⟨rfl, hp⟩ | hsame
      · rw [hp] at hphase
        cases hphase
      · rwa [hsame] at hphase
  | staged client job stamp e before recorded tables log drawn phases =>
      exact (h (inOrder_of_append drawn horder)).staged_step horder tables log drawn phases
  | committed client job stamp e before decided stored log drawn phases =>
      have hs := h (inOrder_of_same drawn horder)
      exact hs.committed hrecorded before decided stored log drawn phases

end Traffic

/-! ## The rows about a user -/

/-- **The outbox rows about a user**, oldest first. -/
def rowsAbout (ts : Tables) (id : UserId) : List Outbox.Row :=
  (Outbox.readableRows ts).filter fun r => r.aggregateId = id.toAggregate

theorem pairwise_rowsAbout (ts : Tables) (id : UserId) :
    ((rowsAbout ts id).map Outbox.Row.written).Pairwise fun a b => a.notYounger b = true := by
  rw [List.pairwise_map]
  exact (Outbox.Row.pairwise_oldestFirst _).filter _

theorem nodup_rowsAbout {ts : Tables} (h : Outbox.Filed ts) (id : UserId) :
    ((rowsAbout ts id).map Outbox.Row.written).Nodup := by
  have hids : ((rowsAbout ts id).map (·.id.text)).Nodup :=
    (Outbox.nodup_readableRows h).sublist (List.filter_sublist.map _)
  apply List.Nodup.of_map (fun r : Outbox.Row => r.id.text)
  rw [List.map_map]
  exact hids

theorem mem_rowsAbout_iff {ts : Tables} (h : Outbox.Filed ts) {id : UserId} {w : Outbox.Row} :
    w ∈ (rowsAbout ts id).map Outbox.Row.written ↔
      Outbox.writtenAt ts w.id.text = some w ∧ w.aggregateId = id.toAggregate := by
  rw [List.mem_map]
  constructor
  · rintro ⟨r, hr, rfl⟩
    obtain ⟨hmem, habout⟩ := List.mem_filter.1 hr
    obtain ⟨hcivil, hrow⟩ := (Outbox.mem_readableRows_iff h).1 hmem
    refine ⟨?_, of_decide_eq_true habout⟩
    rw [Outbox.writtenAt_eq_some_iff h]
    exact ⟨r, hcivil, hrow, rfl, rfl⟩
  · rintro ⟨hw, habout⟩
    obtain ⟨r, hcivil, hrow, hid, rfl⟩ := (Outbox.writtenAt_eq_some_iff h).1 hw
    rw [← hid] at hrow
    have hmem := (Outbox.mem_readableRows_iff h).2 ⟨hcivil, hrow⟩
    exact ⟨r, List.mem_filter.2 ⟨hmem, decide_eq_true habout⟩, rfl⟩

/-! ## The log of a user -/

theorem Entry.rows_of_recorded {entry : Entry} {e : Event} (h : entry.job.user.pending = [e]) :
    entry.rows = [outboxRow entry.stamp e] := by
  unfold rows
  rw [h]
  rfl

/-- A row that a commit wrote is about the user of the commit, and named after its command. -/
theorem Entry.mem_rows {entry : Entry}
    (h : ∃ e, Decided entry.job.command entry.job.found entry.job.user e) {w : Outbox.Row}
    (hw : w ∈ entry.rows) :
    w.aggregateId = entry.job.user.id.toAggregate ∧ w.eventName = entry.job.command.eventName := by
  obtain ⟨e, he⟩ := h
  rw [rows_of_recorded he.recorded] at hw
  obtain rfl := List.mem_singleton.1 hw
  exact ⟨he.aggregate, he.name⟩

namespace Traffic

/-- The rows that the commits about a user wrote, in order. -/
def written (s : Traffic) (id : UserId) : List Outbox.Row := (s.history id).flatMap Entry.rows

/-- The logins and changes of the password of a user that committed, in order. -/
def updates (s : Traffic) (id : UserId) : List Entry :=
  s.log.filter fun entry => entry.job.user.id = id ∧ entry.job.command.mode = .changed

/-- What was written about a user gets ever younger and has ever greater ids. -/
theorem pairwise_written {s : Traffic} (horderly : s.Orderly) (htimed : s.Timed) (id : UserId) :
    (s.written id).Pairwise fun a b => a.notYounger b = true ∧ a.id < b.id := by
  have hrows : ∀ entry ∈ s.history id, ∃ e, entry.rows = [outboxRow entry.stamp e] := by
    intro entry hmem
    obtain ⟨e, he⟩ := horderly.logged entry (mem_log_of_mem_history hmem).1
    exact ⟨e, Entry.rows_of_recorded he.recorded⟩
  unfold written
  rw [List.pairwise_flatMap]
  constructor
  · intro entry hmem
    obtain ⟨e, he⟩ := hrows entry hmem
    rw [he]
    exact List.pairwise_singleton _ _
  · refine (htimed.ordered id).imp_of_mem ?_
    intro a b ha hb hab x hx y hy
    obtain ⟨ea, hea⟩ := hrows a ha
    obtain ⟨eb, heb⟩ := hrows b hb
    rw [hea] at hx
    rw [heb] at hy
    obtain rfl := List.mem_singleton.1 hx
    obtain rfl := List.mem_singleton.1 hy
    exact ⟨notYounger_of_earlier hab ea eb, hab.2⟩

theorem mem_written_iff {s : Traffic} (horderly : s.Orderly) (hannounced : s.Announced)
    {id : UserId} {w : Outbox.Row} :
    w ∈ s.written id ↔
      Outbox.writtenAt s.store.tables w.id.text = some w ∧ w.aggregateId = id.toAggregate := by
  unfold written
  rw [List.mem_flatMap]
  constructor
  · rintro ⟨entry, hmem, hw⟩
    obtain ⟨hlog, hid⟩ := mem_log_of_mem_history hmem
    refine ⟨(hannounced _ _).2 ⟨entry, hlog, hw, rfl⟩, ?_⟩
    rw [(Entry.mem_rows (horderly.logged entry hlog) hw).1, hid]
  · rintro ⟨hw, habout⟩
    obtain ⟨entry, hlog, hmem, -⟩ := (hannounced _ _).1 hw
    have haggregate := (Entry.mem_rows (horderly.logged entry hlog) hmem).1
    rw [habout] at haggregate
    have hid := Id.toAggregate_inj.1 haggregate
    exact ⟨entry, List.mem_filter.2 ⟨hlog, decide_eq_true hid.symm⟩, hmem⟩

/-- **The rows about a user are what the commits about it wrote**, in the order of the commits. -/
theorem rowsAbout_eq_written {s : Traffic} (horderly : s.Orderly) (hannounced : s.Announced)
    (htimed : s.Timed) (id : UserId) :
    (rowsAbout s.store.tables id).map Outbox.Row.written = s.written id := by
  -- Both lists hold the same rows, none twice, in the same order.
  have hmem : ∀ w, w ∈ (rowsAbout s.store.tables id).map Outbox.Row.written ↔ w ∈ s.written id :=
    fun w => (mem_rowsAbout_iff horderly.filed).trans (mem_written_iff horderly hannounced).symm
  have hwritten := pairwise_written horderly htimed id
  have hnodup : (s.written id).Nodup := by
    refine hwritten.imp fun {a b} hab heq => ?_
    rw [heq] at hab
    exact Nat.lt_irrefl _ hab.2
  have hperm := (List.perm_ext_iff_of_nodup (nodup_rowsAbout horderly.filed id) hnodup).2 hmem
  refine hperm.eq_of_pairwise ?_ (pairwise_rowsAbout _ id) (hwritten.imp And.left)
  -- Two rows of the same age have one id, and there is one row under it.
  intro a b ha hb hab hba
  have hid := Outbox.Row.id_eq_of_notYounger hab hba
  have hwa := ((mem_written_iff horderly hannounced).1 ((hmem a).1 ha)).1
  have hwb := ((mem_written_iff horderly hannounced).1 hb).1
  rw [hid, hwb] at hwa
  exact (Option.some.inj hwa).symm

theorem map_eventName_written {s : Traffic} (horderly : s.Orderly) (id : UserId) :
    (s.written id).map (·.eventName) = (s.history id).map (·.job.command.eventName) := by
  unfold written
  have hall : ∀ entry ∈ s.history id, entry ∈ s.log := fun entry hmem =>
    (mem_log_of_mem_history hmem).1
  generalize s.history id = entries at hall ⊢
  induction entries with
  | nil => rfl
  | cons entry entries ih =>
      obtain ⟨e, he⟩ := horderly.logged entry (hall entry List.mem_cons_self)
      rw [List.flatMap_cons, List.map_append, List.map_cons,
        ih fun a ha => hall a (List.mem_cons_of_mem _ ha), Entry.rows_of_recorded he.recorded,
        ← he.name]
      rfl

/-- The commits about a user are its registration and then its updates. -/
theorem history_eq_cons_updates {s : Traffic} {id : UserId} {r : UserRecord}
    (h : Chronicle (s.history id) r) :
    ∃ first, s.history id = first :: s.updates id ∧ first.job.command.mode = .new := by
  obtain ⟨first, rest, heq, hfirst, hrest⟩ := h.modes
  refine ⟨first, ?_, hfirst⟩
  have hupdates : s.updates id =
      (s.history id).filter fun entry => entry.job.command.mode = .changed := by
    unfold updates history
    rw [List.filter_filter]
    refine List.filter_congr fun entry _ => ?_
    rw [← Bool.decide_and, decide_eq_decide]
    exact and_comm
  rw [hupdates, heq, List.filter_cons, if_neg (by simp [hfirst]), List.cons.injEq]
  exact ⟨rfl, (List.filter_eq_self.2 fun entry hmem => decide_eq_true (hrest entry hmem)).symm⟩

theorem eventName_of_new {c : Command} (h : c.mode = .new) :
    c.eventName = UserCreated.eventName := by
  cases c with
  | register cmd => rfl
  | login cmd => cases h
  | changePassword cmd => cases h

/-- All invariants after a run whose stamps are in order. -/
theorem invariants_run {σ : Type} (hasher : Hasher) (actions : List (Action σ)) :
    let s := run hasher actions
    s.Orderly ∧ s.Recorded ∧ s.Announced ∧ (s.InOrder → s.Timed) :=
  run_induction (P := fun s => s.Recorded ∧ s.Announced ∧ (s.InOrder → s.Timed)) hasher
    ⟨recorded_start, announced_start, fun _ => timed_start⟩
    (fun _ _ _ h hm => ⟨h.1.moves hm, h.2.1.moves hm, timed_moves h.1 h.2.2 hm⟩) actions

/-- **The outbox is the log of the users.** After any run whose clock never went back and whose row
ids increased, the outbox rows about each user, by time of creation and id, are those that the
commits about it wrote, in the order of the commits: one `user.created`, then one row for each
login or change of the password that committed. They are as many as the user's version, and every
row of the outbox is about some user. -/
theorem event_log {σ : Type} (hasher : Hasher) (actions : List (Action σ))
    (horder : (run hasher actions).InOrder) :
    let s := run hasher actions
    (∀ k j, s.store.tables.row? usersTable k = some j → ∃ r, UserRecord.ofJson? j = some r ∧
      r.id.text = k ∧
      (rowsAbout s.store.tables r.id).map Outbox.Row.written = s.written r.id ∧
      (rowsAbout s.store.tables r.id).map (·.eventName) =
        UserCreated.eventName :: (s.updates r.id).map (·.job.command.eventName) ∧
      (rowsAbout s.store.tables r.id).length = r.version.toNat) ∧
    ∀ k j, s.store.tables.row? Outbox.tableName k = some j →
      ∃ row, Outbox.Row.ofJson? j = some row ∧
        ∃ r, recordAt s.store.tables row.aggregateId.toUser = some r := by
  obtain ⟨horderly, hrecorded, hannounced, htimed⟩ := invariants_run hasher actions
  constructor
  · intro k j hrow
    obtain ⟨r, hcivil, rfl, rfl⟩ := hrecorded.filed.find hrow
    have hr := (recordAt_eq_some_iff hrecorded.filed).2 ⟨hcivil, hrow, rfl⟩
    have hchronicle := hrecorded.known r.id r hr
    have hwritten := rowsAbout_eq_written horderly hannounced (htimed horder) r.id
    have hnames : (rowsAbout (run hasher actions).store.tables r.id).map (·.eventName) =
        ((run hasher actions).history r.id).map (·.job.command.eventName) := by
      rw [← map_eventName_written horderly, ← hwritten, List.map_map]
      rfl
    refine ⟨r, hcivil.ofJson?_canonical, rfl, hwritten, ?_, ?_⟩
    · obtain ⟨first, heq, hfirst⟩ := history_eq_cons_updates hchronicle
      rw [hnames, heq, List.map_cons, eventName_of_new hfirst]
    · have hlength := congrArg List.length hchronicle.versions
      rw [List.length_map, List.length_range'] at hlength
      rw [← List.length_map, hnames, List.length_map, hlength]
  · intro k j hrow
    obtain ⟨row, hcivil, rfl, hid⟩ := horderly.filed.find hrow
    refine ⟨row, hcivil.ofJson?_canonical, ?_⟩
    have hw := (Outbox.writtenAt_eq_some_iff horderly.filed).2 ⟨row, hcivil, hrow, hid, rfl⟩
    obtain ⟨entry, hlog, hmem, -⟩ := (hannounced _ _).1 hw
    have habout := (Entry.mem_rows (horderly.logged entry hlog) hmem).1
    obtain ⟨r, hr, -, -⟩ := hrecorded.chronicle_of_mem hlog
    refine ⟨r, ?_⟩
    have huser : row.aggregateId.toUser = entry.job.user.id :=
      congrArg Id.toUser (show row.aggregateId = _ from habout)
    rw [huser]
    exact hr

/-- Of the race the log keeps who committed first. -/
theorem event_log_race : (run plainHasher race).InOrder ∧
    (rowsAbout (run plainHasher race).store.tables ada).map (·.eventName) =
      [UserCreated.eventName, UserPasswordChanged.eventName] := by
  have hrace : (run plainHasher race).InOrder ∧
      ((run plainHasher race).store.tables.row? usersTable ada.text).isSome = true ∧
      ((run plainHasher race).updates ada).map (·.job.command.eventName) =
        [UserPasswordChanged.eventName] := by decide +kernel
  obtain ⟨horder, hsome, hupdates⟩ := hrace
  obtain ⟨j, hrow⟩ := Option.isSome_iff_exists.1 hsome
  obtain ⟨r, -, hid, -, hnames, -⟩ := (event_log plainHasher race horder).1 _ j hrow
  rw [Id.text_inj.1 hid, hupdates] at hnames
  exact ⟨horder, hnames⟩

end Traffic

end Registrar.Accounts
