import Registrar.Proofs.Outbox.LifeCycle
import Registrar.Proofs.Outbox.Passes
import Registrar.Proofs.Outbox.Queue

set_option autoImplicit false

/-! # What a pass comes to

A pass takes the oldest rows that are due, as many as its batch holds, and each of them has one
trial. A trial delivers the row and marks it by what came of that (`Row.settled`), so nothing of the
pass is left on it, a lease least of all; it may take a sample of the row as it ends. All other rows
stay as they are.

What the handlers do to the world decides how far a pass gets, and the store has no part in that. So
the worlds that a pass goes through are said first (`Processor.worldAt`). As long as the context is
active in them, the pass stands where they say after any number of rows (`Processor.After`). -/

namespace Registrar.Outbox

variable {σ : Type}

/-! ## Pending rows -/

/-- The pending rows, oldest first. -/
def pendingRows (ts : Tables) : List Row :=
  Row.oldestFirst (((ts.table tableName).values.filterMap Row.ofJson?).filter (·.status = .pending))

theorem queue_pendingRows {ts : Tables} (h : Filed ts) :
    Queue (·.status = .pending) ts (pendingRows ts) :=
  (queue_queued h (·.status = .pending)).congr fun _ => decide_eq_true_iff

theorem mem_pendingRows_iff {ts : Tables} (h : Filed ts) {r : Row} :
    r ∈ pendingRows ts ↔ rowAt ts r.id = some r ∧ r.status = .pending :=
  (queue_pendingRows h).mem r

theorem nodup_pendingRows {ts : Tables} (h : Filed ts) : ((pendingRows ts).map (·.id)).Nodup :=
  (queue_pendingRows h).nodup_id

/-! ## Rows that are taken -/

/-- Whether a pass at this time may take the row: it is pending and, for a processor that puts rows
under a lease, free of leases that still run. -/
def ProcessorConfig.eligible (config : ProcessorConfig) (now : Instant) (r : Row) : Bool :=
  match config.lease with
  | some _ => r.isClaimable now
  | none => r.status = .pending

theorem ProcessorConfig.eligible_iff {config : ProcessorConfig} {now : Instant} {r : Row} :
    config.eligible now r = true ↔ r.status = .pending ∧
      (config.lease ≠ none → ∀ t, r.lockedUntil = some t → t ≤ now) := by
  unfold eligible
  cases config.lease with
  | none => simp
  | some lease => simp [Row.isClaimable_iff]

namespace Processor

variable {p : Processor Store Transaction σ} {c : Context} {conditions : Conditions}
  {s : Site Store σ}

/-- The rows that a pass takes at this time. -/
def taken (p : Processor Store Transaction σ) (now : Instant) (ts : Tables) : List Row :=
  (queued (p.config.eligible now) ts).take p.config.batchSize

/-- The row as a processor takes it: under its lease, if it has one. -/
def hold (p : Processor Store Transaction σ) (now : Instant) (r : Row) : Row :=
  match p.config.lease with
  | some lease => r.claim now lease
  | none => r

theorem id_hold (now : Instant) (r : Row) : (p.hold now r).id = r.id := by
  unfold hold
  cases p.config.lease <;> rfl

theorem status_hold (now : Instant) (r : Row) : (p.hold now r).status = r.status := by
  unfold hold
  cases p.config.lease <;> rfl

theorem map_id_hold (now : Instant) (rows : List Row) :
    (rows.map (p.hold now)).map (·.id) = rows.map (·.id) := by
  rw [List.map_map]
  exact List.map_congr_left fun r _ => id_hold now r

theorem of_mem_taken {now : Instant} {ts : Tables} (h : Filed ts) {r : Row}
    (hr : r ∈ p.taken now ts) : rowAt ts r.id = some r ∧ r.status = .pending := by
  obtain ⟨hrow, heligible⟩ := ((queue_queued h _).mem r).1 (List.mem_of_mem_take hr)
  exact ⟨hrow, (ProcessorConfig.eligible_iff.1 heligible).1⟩

theorem nodup_taken {now : Instant} {ts : Tables} (h : Filed ts) :
    ((p.taken now ts).map (·.id)).Nodup :=
  (queue_queued h _).nodup_id.sublist ((List.take_sublist _ _).map _)

/-- Where no lease still runs, it is the oldest pending rows that are taken. -/
theorem taken_of_free {now : Instant} {ts : Tables} (h : Filed ts)
    (hfree : ∀ r ∈ pendingRows ts, r.isClaimable now = true) :
    p.taken now ts = (pendingRows ts).take p.config.batchSize := by
  have hqueue : Queue (p.config.eligible now · = true) ts (pendingRows ts) := by
    refine ⟨fun r => ?_, (queue_pendingRows h).sorted⟩
    rw [ProcessorConfig.eligible_iff, mem_pendingRows_iff h]
    refine and_congr_right fun hrow => iff_self_and.2 fun hpending _ => ?_
    exact (Row.isClaimable_iff.1 (hfree r ((mem_pendingRows_iff h).2 ⟨hrow, hpending⟩))).2
  rw [taken, (queue_queued h _).eq hqueue]

/-- **Both ways to take rows** come to the same: the first of those that are eligible, each as it is
held. -/
theorem takeRows_of_filed (hp : p.repository = .store) (hfiled : Filed s.store.tables)
    (hactive : s.world.check c = .ok ()) :
    let taken := p.taken (conditions.clock 0) s.store.tables
    ∃ store, p.takeRows c conditions s =
        (.ok (taken.map (p.hold (conditions.clock 0))), { s with store }) ∧
      Filed store.tables ∧ ∀ id, rowAt store.tables id =
        if id ∈ taken.map (·.id) then (rowAt s.store.tables id).map (p.hold (conditions.clock 0))
        else rowAt s.store.tables id := by
  unfold takeRows taken ProcessorConfig.eligible hold
  rw [hp, hactive]
  cases p.config.lease with
  | none =>
      refine ⟨s.store, ?_, hfiled, fun id => ?_⟩
      · show (fetch .pending p.config.batchSize s.store.tables, s) = _
        rw [fetch_of_filed hfiled, List.map_id']
      · rw [Option.map_id', ite_self]
  | some lease =>
      have hclaim := claim_of_filed hfiled p.config.batchSize lease (conditions.clock 0)
      have hrows := fun id => @rowAt_storeRows_leased p.config.batchSize lease (conditions.clock 0)
        s.store.tables hfiled id
      let claimed := leased p.config.batchSize lease (conditions.clock 0) s.store.tables
      refine ⟨{ s.store with tables := storeRows claimed s.store.tables }, ?_,
        (claim_delivers hfiled hclaim).filed, fun id => ?_⟩
      · simp only [Repository.store, guardContext, hclaim, onTables]
        rfl
      · refine (hrows id).trans ?_
        rw [leased_eq, List.map_map]
        rfl

end Processor

/-! ## Settled rows -/

/-- The row after a delivery that came to this, marked at some time. It is given up if its attempts
were the last. -/
def Row.settled (isLast : UInt32 → Bool) (now : Instant) (r : Row) : Delivery → Row
  | .delivered => { r with status := .sent, sentAt := some now, lockedUntil := none }
  | .failed reason =>
      let attempts := nextAttempts r.attempts
      { r with
        status := if isLast attempts then .failed else r.status
        attempts, lastError := some reason, lastAttemptAt := some now, lockedUntil := none }
  | .interrupted _ => r

theorem Row.id_settled (isLast : UInt32 → Bool) (now : Instant) (r : Row) (d : Delivery) :
    (r.settled isLast now d).id = r.id := by
  cases d <;> rfl

/-- A lease makes no difference to how a row is settled. -/
theorem Row.settled_claim (isLast : UInt32 → Bool) (now : Instant) (r : Row) (time : Instant)
    (lease : Duration) {d : Delivery} (h : ∀ e, d ≠ .interrupted e) :
    (r.claim time lease).settled isLast now d = r.settled isLast now d := by
  cases d with
  | delivered => rfl
  | failed reason => rfl
  | interrupted e => exact absurd rfl (h e)

/-- How samples call what a pass made of a row that it left with this status. -/
def Status.result : Status → String
  | .sent => "sent"
  | .pending => "retry"
  | .failed => "dead_letter"

/-- The sample of a row as a pass leaves it. -/
def Row.sample (r : Row) : Sample := .delivery r.eventName r.status.result

/-- The tables with this row in place of the one with its id. -/
structure Puts (before : Tables) (r : Row) (after : Tables) : Prop where
  filed : Filed after
  rowAt : ∀ id, rowAt after id = if id = r.id then some r else rowAt before id

theorem puts_set {ts : Tables} (h : Filed ts) {r : Row} (hcivil : r.IsCivil) :
    Puts ts r (ts.set tableName r.id.text r.toJson.canonical) :=
  ⟨h.set r, rowAt_set ts hcivil⟩

theorem Puts.trans {a b c : Tables} {r r' : Row} (hab : Puts a r b) (hbc : Puts b r' c)
    (hid : r'.id = r.id) : Puts a r' c := by
  refine ⟨hbc.filed, fun id => ?_⟩
  rw [hbc.rowAt, hab.rowAt, hid]
  split <;> rfl

/-! A pending row may be marked and given up. -/

theorem Row.markSent_of_pending {r : Row} (h : r.status = .pending) (now : Instant) :
    r.markSent now = .ok { r with status := .sent, sentAt := some now, lockedUntil := none } := by
  rw [markSent, require, if_pos h]
  rfl

theorem Row.markFailed_of_pending {r : Row} (h : r.status = .pending) (error : String)
    (now : Instant) :
    r.markFailed error now = .ok { r with
      attempts := nextAttempts r.attempts, lastError := some error
      lastAttemptAt := some now, lockedUntil := none } := by
  rw [markFailed, require, if_pos h]
  rfl

theorem Row.deadLetter_of_pending {r : Row} (h : r.status = .pending) :
    r.deadLetter = .ok { r with status := .failed, lockedUntil := none } := by
  rw [deadLetter, require, if_pos h]
  rfl

/-- A move that the row allows. -/
theorem onTables_move {α : Type} {s : Store} (h : Filed s.tables) {r r' : Row}
    (hrow : rowAt s.tables r.id = some r) {step : Row → Except BadMove Row}
    (hkeeps : KeepsWritten step) (hstep : step r = .ok r') (answer : Row → α) :
    ∃ s', onTables s (guardContext (.ok ()) (move r.id step answer s.tables)) =
      (.ok (answer r'), s') ∧ Puts s.tables r' s'.tables := by
  refine ⟨{ s with tables := s.tables.set tableName r.id.text r'.toJson.canonical }, ?_, ?_⟩
  · simp only [guardContext, move_of_filed h, hrow, hstep]
    rfl
  · have hwritten : r'.written.id = r.written.id := by rw [hkeeps.written hstep]
    have hputs := puts_set h (hkeeps.civil hstep (isCivil_of_rowAt hrow))
    rwa [show r'.id = r.id from hwritten] at hputs

/-! ## Trials -/

/-- What a row's trial in a pass came to, and the handlers that it called. -/
structure Trial (σ : Type) where
  row : Row
  delivery : Delivery
  calls : List (Heard σ)

namespace Processor

variable (p : Processor Store Transaction σ) (c : Context) (conditions : Conditions)

def trial (o : Schedule) (row : Row) (w : World σ) : Trial σ :=
  ⟨row, (p.deliver c o row w).1, p.calls c o row w⟩

/-- The trials of rows, the first of which has the given number. -/
def trialsFrom (i : Nat) : List Row → Report → Site Store σ → List (Trial σ)
  | [], _, _ => []
  | row :: rows, r, s => match s.world.check c with
      | .error _ => []
      | .ok () => p.trial c (conditions.schedule i) row s.world ::
          match p.settle c conditions i row r s with
          | (.error _, _) => []
          | (.ok r, s) => trialsFrom (i + 1) rows r s

/-- **The trials of a pass.** -/
def trials (s : Site Store σ) : List (Trial σ) :=
  match s.world.check c with
  | .error _ => []
  | .ok () => match p.takeRows c conditions s with
      | (.error _, _) => []
      | (.ok rows, s) => p.trialsFrom c conditions 0 rows ⟨rows.length, 0, 0, 0⟩ s

/-- A report with one more trial counted. -/
def count (r : Report) (t : Trial σ) : Report :=
  match t.delivery with
  | .delivered => { r with sent := r.sent + 1 }
  | .failed _ =>
      if p.isExhausted (Row.nextAttempts t.row.attempts) then
        { r with deadLettered := r.deadLettered + 1 }
      else { r with failed := r.failed + 1 }
  | .interrupted _ => r

/-- The row of a trial as it is left, if it is the `i`-th of its pass. -/
def left (i : Nat) (t : Trial σ) : Row :=
  t.row.settled p.isExhausted (conditions.clock (i + 1)) t.delivery

/-- The world with a sample of a row as it was left, if the processor takes samples. -/
def tell (row : Row) (w : World σ) : World σ := if p.measured then w.take row.sample else w

/-- The world after the trial of the `i`-th row. -/
def afterTrial (i : Nat) (row : Row) (w : World σ) : World σ :=
  p.tell (p.left conditions i (p.trial c (conditions.schedule i) row w))
    (p.deliver c (conditions.schedule i) row w).2

variable {p c conditions}

theorem note_eq (p : Processor Store Transaction σ) {row r : Row} {result : String}
    (hname : r.eventName = row.eventName) (hresult : r.status.result = result) (s : Site Store σ) :
    p.note row result s = { s with world := p.tell r s.world } := by
  unfold note tell Row.sample
  rw [hname, hresult]
  cases p.measured <;> rfl

@[simp] theorem check_tell (row : Row) (w : World σ) : (p.tell row w).check c = w.check c := by
  unfold tell
  split <;> rfl

/-- A delivery that begins under an active context is not interrupted. -/
theorem deliver_ne_interrupted {o : Schedule} {row : Row} {w : World σ} (h : w.check c = .ok ())
    (e : ContextError) : (p.deliver c o row w).1 ≠ .interrupted e := by
  cases hread : p.serializer.deserialize row.payload row.eventName with
  | error e' =>
      unfold deliver
      rw [hread]
      exact fun hinterrupted => by cases hinterrupted
  | ok event =>
      rw [deliver_of_decoded p c o hread]
      have hresult : ∀ e', (p.dispatcher.dispatch c event o w).1 ≠ .error (.context e') := by
        intro e'
        unfold Dispatcher.dispatch
        cases p.dispatcher.mode <;>
        · simp only [Dispatcher.dispatchSequential, Dispatcher.dispatchConcurrent,
            Dispatcher.dispatchBy, h, Dispatcher.conclude]
          split <;> exact fun hcontext => by cases hcontext
      cases hdispatch : (p.dispatcher.dispatch c event o w).1 with
      | ok _ => exact fun hinterrupted => by cases hinterrupted
      | error err =>
          cases err with
          | context e' => exact absurd hdispatch (hresult e')
          | handlersFailed name attempted failures =>
              exact fun hinterrupted => by cases hinterrupted

section

variable {row : Row} {report : Report} {s : Site Store σ}

theorem settleDelivered_spec (hp : p.repository = .store) (hfiled : Filed s.store.tables)
    (hrow : rowAt s.store.tables row.id = some row) (hpending : row.status = .pending)
    (hactive : s.world.check c = .ok ()) (now : Reading) :
    let r := row.settled p.isExhausted now .delivered
    ∃ store, p.settleDelivered c now row report s =
        (.ok { report with sent := report.sent + 1 }, ⟨store, p.tell r s.world⟩) ∧
      Puts s.store.tables r store.tables := by
  intro r
  obtain ⟨store, hmark, hputs⟩ := onTables_move hfiled hrow (Row.keepsWritten_markSent now)
    (Row.markSent_of_pending hpending now) fun _ => ()
  have hsent : p.repository.markSent (s.world.check c) row.id now s.store = (.ok (), store) := by
    rw [hp, hactive]
    exact hmark
  have hnote : p.note row "sent" { s with store } = ⟨store, p.tell r s.world⟩ :=
    note_eq p (r := r) rfl rfl _
  exact ⟨store, by simp only [settleDelivered, hsent, hnote], hputs⟩

theorem settleFailed_spec (hp : p.repository = .store) (hfiled : Filed s.store.tables)
    (hrow : rowAt s.store.tables row.id = some row) (hpending : row.status = .pending)
    (hactive : s.world.check c = .ok ()) (now : Reading) (reason : String) :
    let r := row.settled p.isExhausted now (.failed reason)
    ∃ store, p.settleFailed c now row reason report s =
        (.ok (p.count report ⟨row, .failed reason, []⟩), ⟨store, p.tell r s.world⟩) ∧
      Puts s.store.tables r store.tables := by
  intro r
  let failed : Row := { row with
    attempts := Row.nextAttempts row.attempts, lastError := some reason
    lastAttemptAt := some now, lockedUntil := none }
  obtain ⟨store, hmark, hputs⟩ := onTables_move hfiled hrow
    (Row.keepsWritten_markFailed reason now) (Row.markFailed_of_pending hpending reason now)
    (·.attempts)
  have hfailed : p.repository.markFailed (s.world.check c) row.id reason now s.store =
      (.ok (Row.nextAttempts row.attempts), store) := by
    rw [hp, hactive]
    exact hmark
  cases hlast : p.isExhausted (Row.nextAttempts row.attempts) with
  | false =>
      have hr : r = failed := by
        simp only [r, Row.settled, hlast]
        rfl
      have hnote : p.note row "retry" { s with store } = ⟨store, p.tell failed s.world⟩ := by
        refine note_eq p (r := failed) rfl ?_ _
        rw [show failed.status = .pending from hpending]
        rfl
      refine ⟨store, ?_, by rw [hr]; exact hputs⟩
      simp only [settleFailed, hfailed, hlast, hnote, count, hr]
      rfl
  | true =>
      -- The row is given up by a second move, on what the first one left.
      have hstored : rowAt store.tables failed.id = some failed := by
        rw [hputs.rowAt]
        exact if_pos rfl
      obtain ⟨store', hgive, hputs'⟩ := onTables_move hputs.filed hstored
        Row.keepsWritten_deadLetter (Row.deadLetter_of_pending (r := failed) hpending) fun _ => ()
      have hdead : p.repository.deadLetter (s.world.check c) row.id store = (.ok (), store') := by
        rw [hp, hactive]
        exact hgive
      have hr : r = { failed with status := .failed, lockedUntil := none } := by
        simp only [r, Row.settled, hlast]
        rfl
      have hnote : p.note row "dead_letter" { s with store := store' } =
          ⟨store', p.tell r s.world⟩ := by
        rw [hr]
        refine note_eq p ?_ ?_ _
        · rfl
        · rfl
      refine ⟨store', ?_, by rw [hr]; exact hputs.trans hputs' rfl⟩
      simp only [settleFailed, hfailed, hlast, hdead, hnote, count]
      rfl

/-- **One row**: it is delivered and then marked by what came of that, if the context is active
before the delivery and after it. -/
theorem settle_spec (hp : p.repository = .store) (hfiled : Filed s.store.tables)
    (hrow : rowAt s.store.tables row.id = some row) (hpending : row.status = .pending)
    (report : Report) (i : Nat) (hbefore : s.world.check c = .ok ())
    (hafter : (p.deliver c (conditions.schedule i) row s.world).2.check c = .ok ()) :
    let t := p.trial c (conditions.schedule i) row s.world
    ∃ store, p.settle c conditions i row report s =
        (.ok (p.count report t), ⟨store, p.afterTrial c conditions i row s.world⟩) ∧
      Puts s.store.tables (p.left conditions i t) store.tables := by
  have hnot : ∀ e, (p.deliver c (conditions.schedule i) row s.world).1 ≠ .interrupted e :=
    deliver_ne_interrupted hbefore
  simp only [afterTrial, left, trial, settle, hbefore]
  cases hdeliver : p.deliver c (conditions.schedule i) row s.world with
  | mk delivery world =>
      rw [hdeliver] at hnot hafter
      cases delivery with
      | delivered =>
          exact settleDelivered_spec (s := { s with world }) hp hfiled hrow hpending hafter _
      | failed reason =>
          exact settleFailed_spec (s := { s with world }) hp hfiled hrow hpending hafter _ reason
      | interrupted e => exact absurd rfl (hnot e)

end

/-! ## The worlds of a pass -/

variable (p c conditions)

/-- The rows of a pass, as it takes them. -/
def held (s : Site Store σ) : List Row :=
  (p.taken (conditions.clock 0) s.store.tables).map (p.hold (conditions.clock 0))

/-- The world after the first `k` of these rows had their trials. -/
def worldAt (s : Site Store σ) : Nat → World σ
  | 0 => s.world
  | k + 1 => match (p.held conditions s)[k]? with
      | some row => p.afterTrial c conditions k row (worldAt s k)
      | none => worldAt s k

/-- The trials of all these rows, one after another. -/
def allTrials (s : Site Store σ) : List (Trial σ) :=
  (p.held conditions s).zipIdx.map fun x =>
    p.trial c (conditions.schedule x.2) x.1 (p.worldAt c conditions s x.2)

/-- All these rows as their trials leave them. -/
def allLeft (s : Site Store σ) : List Row := (p.allTrials c conditions s).mapIdx (p.left conditions)

/-- **The context stays active during a pass**: it is active at first and after the trial of each
row. -/
def Unbroken (s : Site Store σ) : Prop :=
  ∀ k ≤ (p.held conditions s).length, (p.worldAt c conditions s k).check c = .ok ()

variable {p c conditions} {s : Site Store σ}

/-- The trial of a row. -/
theorem getElem?_allTrials {i : Nat} {row : Row} (h : (p.held conditions s)[i]? = some row) :
    (p.allTrials c conditions s)[i]? =
      some (p.trial c (conditions.schedule i) row (p.worldAt c conditions s i)) := by
  simp [allTrials, List.getElem?_zipIdx, h]

@[simp] theorem length_allTrials :
    (p.allTrials c conditions s).length = (p.held conditions s).length := by
  simp [allTrials]

@[simp] theorem length_allLeft :
    (p.allLeft c conditions s).length = (p.held conditions s).length := by
  simp [allLeft]

/-- A row as its trial leaves it. -/
theorem getElem?_allLeft {i : Nat} {row : Row} (h : (p.held conditions s)[i]? = some row) :
    (p.allLeft c conditions s)[i]? = some (p.left conditions i
      (p.trial c (conditions.schedule i) row (p.worldAt c conditions s i))) := by
  rw [allLeft, List.getElem?_mapIdx, getElem?_allTrials h]
  rfl

theorem worldAt_succ {k : Nat} {row : Row} (h : (p.held conditions s)[k]? = some row) :
    p.worldAt c conditions s (k + 1) =
      p.afterTrial c conditions k row (p.worldAt c conditions s k) := by
  simp only [worldAt, h]

/-- A context is active after a trial if it is when the delivery is over. -/
theorem check_worldAt_succ {k : Nat} {row : Row} (h : (p.held conditions s)[k]? = some row) :
    (p.worldAt c conditions s (k + 1)).check c =
      (p.deliver c (conditions.schedule k) row (p.worldAt c conditions s k)).2.check c := by
  rw [worldAt_succ h, afterTrial, check_tell]

end Processor

/-! ## How far a pass has come -/

section

variable {p : Processor Store Transaction σ} {c : Context} {conditions : Conditions}
  {s : Site Store σ}

/-- **The tables after the first `k` rows of a pass**: these are left as they were to be, the other
rows that the pass holds wait as it took them, and all the rest are untouched. -/
structure Processor.TablesAfter (p : Processor Store Transaction σ) (c : Context)
    (conditions : Conditions) (s : Site Store σ) (k : Nat) (ts : Tables) : Prop where
  filed : Filed ts
  settled : ∀ i < k, ∀ row, (p.held conditions s)[i]? = some row →
    rowAt ts row.id = (p.allLeft c conditions s)[i]?
  waiting : ∀ row ∈ (p.held conditions s).drop k, rowAt ts row.id = some row
  others : ∀ id, id ∉ (p.held conditions s).map (·.id) → rowAt ts id = rowAt s.store.tables id

/-- **After the first `k` rows** a pass has this report and is on this site. -/
structure Processor.After (p : Processor Store Transaction σ) (c : Context)
    (conditions : Conditions) (s : Site Store σ) (k : Nat) (report : Report)
    (site : Site Store σ) : Prop where
  reaches : Pass.Reaches (Pass.start p c conditions s)
    (⟨p, c, conditions, k, report, .delivering ((p.held conditions s).drop k)⟩, site)
  process : p.process c conditions s =
    p.settleAll c conditions k ((p.held conditions s).drop k) report site
  trials : p.trials c conditions s = (p.allTrials c conditions s).take k ++
    p.trialsFrom c conditions k ((p.held conditions s).drop k) report site
  report : report = ((p.allTrials c conditions s).take k).foldl p.count
    ⟨(p.held conditions s).length, 0, 0, 0⟩
  world : site.world = p.worldAt c conditions s k
  tables : p.TablesAfter c conditions s k site.store.tables

namespace Processor

theorem nodup_held (p : Processor Store Transaction σ) (conditions : Conditions)
    (hfiled : Filed s.store.tables) : ((p.held conditions s).map (·.id)).Nodup := by
  rw [held, map_id_hold]
  exact nodup_taken hfiled

theorem pending_of_mem_held (hfiled : Filed s.store.tables) {row : Row}
    (h : row ∈ p.held conditions s) : row.status = .pending := by
  obtain ⟨r, hr, rfl⟩ := List.mem_map.1 h
  rw [status_hold]
  exact (of_mem_taken hfiled hr).2

theorem after_zero (hp : p.repository = .store) (hfiled : Filed s.store.tables)
    (hactive : s.world.check c = .ok ()) : ∃ report site, p.After c conditions s 0 report site := by
  obtain ⟨store, htake, hfiled', hrows⟩ := @takeRows_of_filed σ p c conditions s hp hfiled hactive
  have htake' : p.takeRows c conditions s = (.ok (p.held conditions s), { s with store }) := htake
  refine ⟨⟨(p.held conditions s).length, 0, 0, 0⟩, { s with store }, ?_, ?_, ?_, rfl, rfl, hfiled',
    (fun i hi => by cases hi), fun row hrow => ?_, fun id hid => ?_⟩
  · have hstart : Pass.start p c conditions s = (⟨p, c, conditions, 0,
        ⟨(p.held conditions s).length, 0, 0, 0⟩, .delivering (p.held conditions s)⟩,
        { s with store }) := by
      simp only [Pass.start, hactive, htake']
    rw [hstart]
    exact .refl
  · simp only [process, hactive, htake']
    rfl
  · simp only [trials, hactive, htake']
    rfl
  · obtain ⟨r, hr, rfl⟩ := List.mem_map.1 hrow
    rw [id_hold, hrows, if_pos (List.mem_map_of_mem hr), (of_mem_taken hfiled hr).1]
    rfl
  · rw [held, map_id_hold] at hid
    rw [hrows, if_neg hid]

/-- The next row is put back as its trial leaves it. -/
theorem TablesAfter.succ {k : Nat} {ts ts' : Tables} (h : p.TablesAfter c conditions s k ts)
    (hfiled : Filed s.store.tables) {row r : Row} (hrow : (p.held conditions s)[k]? = some row)
    (hleft : (p.allLeft c conditions s)[k]? = some r) (hid : r.id = row.id)
    (hputs : Puts ts r ts') : p.TablesAfter c conditions s (k + 1) ts' := by
  have hids := nodup_held p conditions hfiled
  have hdrop : (p.held conditions s).drop k = row :: (p.held conditions s).drop (k + 1) := by
    rw [List.drop_eq_getElem?_toList_append, hrow]
    rfl
  have hmem : row ∈ (p.held conditions s).drop k := hdrop ▸ List.mem_cons_self
  -- Rows of other ids are as they were.
  have hkept : ∀ id, id ≠ row.id → rowAt ts' id = rowAt ts id := fun id hne => by
    rw [hputs.rowAt, hid, if_neg hne]
  refine ⟨hputs.filed, fun i hi row' hrow' => ?_, fun row' hrow' => ?_, fun id hother => ?_⟩
  · rcases Nat.lt_succ_iff_lt_or_eq.1 hi with hi | rfl
    · have hbefore : row' ∈ (p.held conditions s).take k :=
        List.mem_of_getElem? ((List.getElem?_take_of_lt hi).trans hrow')
      rw [hkept]
      · exact h.settled i hi row' hrow'
      · exact fun heq => id_notMem_take hids hmem (heq ▸ List.mem_map_of_mem hbefore)
    · obtain rfl := Option.some.inj (hrow.symm.trans hrow')
      rw [hputs.rowAt, if_pos hid.symm, hleft]
  · have hne : row'.id ≠ row.id := by
      have hrest := hids.sublist ((List.drop_sublist k _).map _)
      rw [hdrop, List.map_cons, List.nodup_cons] at hrest
      exact fun heq => hrest.1 (heq ▸ List.mem_map_of_mem hrow')
    rw [hkept _ hne]
    exact h.waiting row' (hdrop ▸ List.mem_cons_of_mem _ hrow')
  · rw [hkept, h.others id hother]
    rintro rfl
    exact hother (List.mem_map_of_mem (List.mem_of_mem_drop hmem))

/-- One row more. -/
theorem After.succ (hp : p.repository = .store) (hfiled : Filed s.store.tables) {k : Nat}
    {report : Report} {site : Site Store σ} (h : p.After c conditions s k report site)
    (hk : k < (p.held conditions s).length)
    (hbefore : (p.worldAt c conditions s k).check c = .ok ())
    (hafter : (p.worldAt c conditions s (k + 1)).check c = .ok ()) :
    ∃ report' site', p.After c conditions s (k + 1) report' site' := by
  let row := (p.held conditions s)[k]
  have hrow : (p.held conditions s)[k]? = some row := List.getElem?_eq_getElem hk
  have hdrop : (p.held conditions s).drop k = row :: (p.held conditions s).drop (k + 1) :=
    List.drop_eq_getElem_cons hk
  have hmem : row ∈ (p.held conditions s).drop k := hdrop ▸ List.mem_cons_self
  have hleft := getElem?_allLeft (c := c) hrow
  have htake : (p.allTrials c conditions s).take (k + 1) = (p.allTrials c conditions s).take k ++
      [p.trial c (conditions.schedule k) row (p.worldAt c conditions s k)] := by
    rw [List.take_add_one, getElem?_allTrials hrow]
    rfl
  have hworld := worldAt_succ (c := c) hrow
  rw [check_worldAt_succ hrow] at hafter
  rw [← h.world] at hbefore hafter hleft htake hworld
  obtain ⟨store, hsettle, hputs⟩ := settle_spec hp h.tables.filed (h.tables.waiting row hmem)
    (pending_of_mem_held hfiled (List.mem_of_mem_drop hmem)) report k hbefore hafter
  refine ⟨p.count report (p.trial c (conditions.schedule k) row site.world),
    ⟨store, p.afterTrial c conditions k row site.world⟩, ?_, ?_, ?_, ?_, hworld.symm,
    h.tables.succ hfiled hrow hleft (Row.id_settled ..) hputs⟩
  · obtain ⟨next, hnext, hsettled⟩ := Pass.reaches_settle ⟨p, c, conditions, k, report,
      .delivering ((p.held conditions s).drop k)⟩ row ((p.held conditions s).drop (k + 1))
      (congrArg PassPhase.delivering hdrop) site
    rw [hsettle] at hnext hsettled
    obtain rfl : next = ⟨p, c, conditions, k + 1, _, .delivering _⟩ := hsettled
    exact h.reaches.trans hnext
  · rw [h.process, hdrop, settleAll, hsettle]
  · rw [h.trials, hdrop, htake, trialsFrom, hbefore, hsettle, List.append_assoc]
    rfl
  · rw [htake, List.foldl_append, ← h.report]
    rfl

/-- **As long as the context is active, a pass gets on.** -/
theorem after_of_active (hp : p.repository = .store) (hfiled : Filed s.store.tables) {k : Nat}
    (hk : k ≤ (p.held conditions s).length)
    (hactive : ∀ j ≤ k, (p.worldAt c conditions s j).check c = .ok ()) :
    ∃ report site, p.After c conditions s k report site := by
  induction k with
  | zero => exact after_zero hp hfiled (hactive 0 (Nat.le_refl _))
  | succ k ih =>
      obtain ⟨report, site, h⟩ :=
        ih (Nat.le_of_succ_le hk) fun j hj => hactive j (Nat.le_succ_of_le hj)
      exact h.succ hp hfiled hk (hactive k (Nat.le_succ k)) (hactive (k + 1) (Nat.le_refl _))

/-- **A pass whose context stays active comes to its end**, and every row that it holds has its
trial. -/
theorem process_of_unbroken (hp : p.repository = .store) (hfiled : Filed s.store.tables)
    (hunbroken : p.Unbroken c conditions s) :
    ∃ report site, p.process c conditions s = (.ok report, site) ∧
      p.trials c conditions s = p.allTrials c conditions s ∧
      p.After c conditions s (p.held conditions s).length report site := by
  obtain ⟨report, site, h⟩ := after_of_active hp hfiled (Nat.le_refl _) hunbroken
  have hprocess := h.process
  have htrials := h.trials
  rw [List.drop_length] at hprocess htrials
  refine ⟨report, site, hprocess, ?_, h⟩
  rw [htrials, trialsFrom, List.append_nil, List.take_of_length_le (by rw [length_allTrials])]

end Processor

end

/-! ## Passes that last -/

/-- A row's trial in a pass, and what is left of the row. -/
structure Tried (p : Processor Store Transaction σ) (after : Tables) (r : Row) (t : Trial σ) :
    Prop where
  id : t.row.id = r.id
  delivered : ∃ c o w, w.check c = .ok () ∧ t.delivery = (p.deliver c o r w).1 ∧
    t.calls = p.calls c o r w
  settled : ∃ now, rowAt after r.id = some (r.settled p.isExhausted now t.delivery)

/-- **What a pass does**: each of these rows has its trial and is settled, in this order, and all
others stay as they are. -/
structure Settles (p : Processor Store Transaction σ) (before after : Tables) (rows : List Row)
    (trials : List (Trial σ)) : Prop where
  filed : Filed after
  tried : List.Forall₂ (Tried p after) rows trials
  others : ∀ id, id ∉ rows.map (·.id) → rowAt after id = rowAt before id

/-- **The context is active at each step of a pass** that nobody interrupts. -/
def Pass.Lasts (c : Context) (a : Pass σ × Site Store σ) : Prop :=
  ∀ b, Reaches a b → b.2.world.check c = .ok ()

/-- The context is active before the next delivery and after it. -/
theorem Pass.Lasts.delivery {a : Pass σ × Site Store σ} {c : Context} (h : Lasts c a)
    {pass : Pass σ} {s : Site Store σ} (hreaches : Reaches a (pass, s))
    (hcontext : pass.context = c) {row : Row} {rows : List Row}
    (hphase : pass.phase = .delivering (row :: rows)) :
    (pass.processor.deliver c (pass.conditions.schedule pass.number) row s.world).2.check c =
      .ok () := by
  have hbefore : s.world.check c = .ok () := h _ hreaches
  have hafter := h (pass.advance s) (hreaches.trans (.of_advance rfl))
  simp only [advance, hphase, hcontext, hbefore] at hafter
  exact hafter

namespace Processor

variable {p : Processor Store Transaction σ} {c : Context} {conditions : Conditions}
  {s : Site Store σ}

theorem world_start (p : Processor Store Transaction σ) (c : Context) (conditions : Conditions)
    (s : Site Store σ) : (Pass.start p c conditions s).2.world = s.world := by
  have hworld : (p.takeRows c conditions s).2.world = s.world := by
    unfold takeRows
    cases p.config.lease <;> rfl
  unfold Pass.start
  cases s.world.check c with
  | error e => rfl
  | ok _ =>
      cases htake : p.takeRows c conditions s with
      | mk result s' =>
          rw [htake] at hworld
          cases result <;> exact hworld

/-- A context that is active at each step of a pass stays active during the pass. -/
theorem unbroken_of_lasts (hp : p.repository = .store) (hfiled : Filed s.store.tables)
    (hlasts : Pass.Lasts c (Pass.start p c conditions s)) : p.Unbroken c conditions s := by
  suffices ∀ k ≤ (p.held conditions s).length, ∀ j ≤ k,
      (p.worldAt c conditions s j).check c = .ok () from
    fun k hk => this k hk k (Nat.le_refl _)
  intro k
  induction k with
  | zero =>
      intro _ j hj
      obtain rfl := Nat.le_zero.1 hj
      rw [worldAt, ← world_start p c conditions s]
      exact hlasts _ .refl
  | succ k ih =>
      intro hk j hj
      have hactive := ih (Nat.le_of_succ_le hk)
      rcases Nat.le_succ_iff.1 hj with hj | rfl
      · exact hactive j hj
      · obtain ⟨report, site, h⟩ := after_of_active hp hfiled (Nat.le_of_succ_le hk) hactive
        rw [check_worldAt_succ (List.getElem?_eq_getElem hk), ← h.world]
        exact hlasts.delivery h.reaches rfl
          (congrArg PassPhase.delivering (List.drop_eq_getElem_cons hk))

/-- A lease makes no difference to a row's trial. -/
theorem tried_of_hold {after : Tables} {now : Instant} {r : Row} {t : Trial σ}
    (h : Tried p after (p.hold now r) t) : Tried p after r t := by
  unfold hold at h
  cases hlease : p.config.lease with
  | none =>
      rw [hlease] at h
      exact h
  | some lease =>
      rw [hlease] at h
      obtain ⟨c, o, w, hactive, hdelivery, hcalls⟩ := h.delivered
      obtain ⟨now', hsettled⟩ := h.settled
      rw [Row.settled_claim] at hsettled
      · exact ⟨h.id, ⟨c, o, w, hactive, hdelivery, hcalls⟩, now', hsettled⟩
      · intro e
        rw [hdelivery]
        exact deliver_ne_interrupted hactive e

/-- **A pass whose context lasts gives the oldest pending rows a trial each**, as many as its batch
holds, and reports what came of them. -/
theorem process_settles (hp : p.repository = .store) (hfiled : Filed s.store.tables)
    (hfree : ∀ r ∈ pendingRows s.store.tables, r.isClaimable (conditions.clock 0) = true)
    (hlasts : Pass.Lasts c (Pass.start p c conditions s)) :
    let taken := (pendingRows s.store.tables).take p.config.batchSize
    let trials := p.trials c conditions s
    (p.process c conditions s).1 = .ok (trials.foldl p.count ⟨taken.length, 0, 0, 0⟩) ∧
      Settles p s.store.tables (p.process c conditions s).2.store.tables taken trials := by
  intro taken trials
  have hunbroken := unbroken_of_lasts hp hfiled hlasts
  obtain ⟨report, site, hprocess, htrials, h⟩ := process_of_unbroken hp hfiled hunbroken
  have hheld : p.held conditions s = taken.map (p.hold (conditions.clock 0)) := by
    rw [held, taken_of_free hfiled hfree]
  have hreport : report = trials.foldl p.count ⟨taken.length, 0, 0, 0⟩ := by
    have hall := h.report
    rw [List.take_of_length_le (by rw [length_allTrials]), ← htrials] at hall
    rw [hall, hheld, List.length_map]
  have htried : List.Forall₂ (Tried p site.store.tables) (taken.map (p.hold (conditions.clock 0)))
      trials := by
    rw [← hheld, show trials = _ from htrials, List.forall₂_iff_get]
    refine ⟨length_allTrials.symm, fun i hi hi' => ?_⟩
    have hrow := List.getElem?_eq_getElem hi
    have htrial := getElem?_allTrials (c := c) hrow
    have hsettled := h.tables.settled i hi _ hrow
    rw [getElem?_allLeft hrow] at hsettled
    rw [List.get_eq_getElem, List.get_eq_getElem, (List.getElem_eq_iff hi').2 htrial]
    exact ⟨rfl, ⟨_, _, _, hunbroken i (Nat.le_of_lt hi), rfl, rfl⟩, _, hsettled⟩
  rw [hprocess, hreport]
  refine ⟨rfl, h.tables.filed, ?_, fun id hid => ?_⟩
  · exact (List.forall₂_map_left_iff.1 htried).imp fun _ _ => tried_of_hold
  · exact h.tables.others id (by rw [hheld, map_id_hold]; exact hid)

end Processor

end Registrar.Outbox
