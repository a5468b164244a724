import Registrar.Proofs.Outbox.Rows

set_option autoImplicit false

/-! # The life of a row

Rows are committed as they were made, and then anybody claims them, marks them, gives them up and
requeues them, in any order, at any reading of any clock and with any ids (`Log.run`). A log keeps
what every call was answered, and the rows can be told from it: how often a row was attempted since
it was last requeued, and what was noted at its last attempt (`Row.Tracks`).

Four of the operations are moves of one row, which differ only in the status that they demand and in
what they write (`Op.move?`). On a filed outbox a move finds no row, finds one that may not be
moved, or moves it, and unless it moves it changes nothing (`Op.moves`). So an operation leaves a
row alone, puts it under a lease, or makes its move and is told so (`Op.meets`); what the log tells
of the row is kept in each case, and so by every run (`Log.sound_run`). -/

namespace Registrar.Outbox

/-! ## Moves of one row -/

/-- A move of the row with an id, if it has one status, to another. -/
structure Move where
  id : Uuid
  origin : Status
  target : Status
  change : Row → Row

namespace Op

/-- The move that an operation makes; a claim makes none. -/
def move? : Op → Option Move
  | .claim .. => none
  | .markSent _ id now => some ⟨id, .pending, .sent, fun r =>
      { r with status := .sent, sentAt := some now, lockedUntil := none }⟩
  | .markFailed _ id error now => some ⟨id, .pending, .pending, fun r =>
      { r with attempts := Row.nextAttempts r.attempts, lastError := some error
               lastAttemptAt := some now, lockedUntil := none }⟩
  | .deadLetter _ id => some ⟨id, .pending, .failed, fun r =>
      { r with status := .failed, lockedUntil := none }⟩
  | .requeue _ id => some ⟨id, .failed, .pending, fun r =>
      { r with status := .pending, attempts := 0 }⟩

theorem eq_claim_of_move? {op : Op} (hm : op.move? = none) :
    ∃ context limit lease now, op = .claim context limit lease now := by
  cases op with
  | claim context limit lease now => exact ⟨context, limit, lease, now, rfl⟩
  | markSent context id now => cases hm
  | markFailed context id error now => cases hm
  | deadLetter context id => cases hm
  | requeue context id => cases hm

/-- What the caller's context answers. -/
def context : Op → Except ContextError Unit
  | .claim context _ _ _ | .markSent context _ _ | .markFailed context _ _ _
  | .deadLetter context _ | .requeue context _ => context

end Op

inductive Reply where
  | rows (rows : List Row)
  | attempts (n : UInt32)
  | done

def Op.answer (s : Store) : Op → Except OutboxError Reply
  | .claim context limit lease now =>
      (Repository.store.claimPending context limit lease now s).1.map .rows
  | .markSent context id now => (Repository.store.markSent context id now s).1.map fun _ => .done
  | .markFailed context id error now =>
      (Repository.store.markFailed context id error now s).1.map .attempts
  | .deadLetter context id => (Repository.store.deadLetter context id s).1.map fun _ => .done
  | .requeue context id => (Repository.store.requeue context id s).1.map fun _ => .done

/-- What comes of an operation that is to make a move. -/
inductive Op.Moves (s : Store) (op : Op) (m : Move) : Prop where
  | ended (e : ContextError) (context : op.context = .error e)
      (answer : op.answer s = .error (.context e)) (same : op.run s = s)
  | unknown (active : op.context = .ok ()) (missing : rowAt s.tables m.id = none)
      (answer : op.answer s = .error (.notFound m.id)) (same : op.run s = s)
  | forbidden (r : Row) (active : op.context = .ok ()) (found : rowAt s.tables m.id = some r)
      (status : r.status ≠ m.origin)
      (answer : op.answer s = .error (.invalidTransition ⟨m.id, r.status, m.target⟩))
      (same : op.run s = s)
  | moved (r : Row) (reply : Reply) (active : op.context = .ok ())
      (found : rowAt s.tables m.id = some r) (status : r.status = m.origin)
      (answer : op.answer s = .ok reply)
      (after : ∀ id, rowAt (op.run s).tables id =
        if id = m.id then some (m.change r) else rowAt s.tables id)

/-- A row that is demanded to have a status and then changed. -/
theorem Row.require_bind (r : Row) (origin target : Status) (change : Row → Row) :
    (do r.require origin target; return change r : Except BadMove Row) =
      if r.status = origin then .ok (change r) else .error ⟨r.id, r.status, target⟩ := by
  unfold require
  split <;> rfl

/-- **A move on a filed outbox** finds no row, or makes its step on the row. -/
theorem move_of_filed {α : Type} {ts : Tables} (h : Filed ts) (id : Uuid)
    (step : Row → Except BadMove Row) (answer : Row → α) :
    move id step answer ts = match rowAt ts id with
      | none => .error (.notFound id)
      | some r => match step r with
          | .error m => .error (.invalidTransition m)
          | .ok r' => .ok (answer r', ts.set tableName id.text r'.toJson.canonical) := by
  unfold move Tables.modify rowAt
  cases hrow : ts.row? tableName id.text with
  | none => rfl
  | some j =>
      obtain ⟨r, hcivil, rfl, -⟩ := h.find hrow
      simp only [Option.bind_some, hcivil.ofJson?_canonical, Tables.decode, Except.mapError, bind,
        Except.bind]
      cases hstep : step r with
      | error m => rfl
      | ok r' => rfl

/-- What all four moves have in common. -/
theorem Op.moves_of_step {α : Type} {s : Store} (h : Filed s.tables) {op : Op} {m : Move}
    (hkeeps : KeepsWritten fun r => do r.require m.origin m.target; return m.change r)
    {answer : Row → α} {reply : α → Reply}
    (hrun : op.run s = (onTables s (guardContext op.context (Outbox.move m.id
      (fun r => do r.require m.origin m.target; return m.change r) answer s.tables))).2)
    (hanswer : op.answer s = (onTables s (guardContext op.context (Outbox.move m.id
      (fun r => do r.require m.origin m.target; return m.change r) answer s.tables))).1.map reply) :
    op.Moves s m := by
  cases hcontext : op.context with
  | error e =>
      rw [hcontext] at hrun hanswer
      exact .ended e hcontext hanswer hrun
  | ok _ =>
      simp only [hcontext, guardContext, move_of_filed h, Row.require_bind] at hrun hanswer
      cases hfound : rowAt s.tables m.id with
      | none =>
          simp only [hfound] at hrun hanswer
          exact .unknown hcontext hfound hanswer hrun
      | some r =>
          have hid : r.id = m.id := id_of_rowAt h hfound
          by_cases hstatus : r.status = m.origin
          · simp only [hfound, hstatus, if_true] at hrun hanswer
            refine .moved r _ hcontext hfound hstatus hanswer fun id => ?_
            have hstep : (do r.require m.origin m.target; return m.change r) =
                .ok (m.change r) := (r.require_bind ..).trans (if_pos hstatus)
            have hwritten : (m.change r).written.id = r.written.id := by rw [hkeeps.written hstep]
            have hplace : (m.change r).id = m.id := Eq.trans hwritten hid
            rw [hrun, ← hplace]
            exact rowAt_set s.tables (hkeeps.civil hstep (isCivil_of_rowAt hfound)) id
          · simp only [hfound, hstatus, if_false, hid] at hrun hanswer
            exact .forbidden r hcontext hfound hstatus hanswer hrun

theorem Op.moves {s : Store} (h : Filed s.tables) {op : Op} {m : Move} (hm : op.move? = some m) :
    op.Moves s m := by
  cases op with
  | claim context limit lease now => cases hm
  | markSent context id now =>
      obtain rfl := Option.some.inj hm
      exact moves_of_step h (Row.keepsWritten_markSent now) rfl rfl
  | markFailed context id error now =>
      obtain rfl := Option.some.inj hm
      exact moves_of_step h (Row.keepsWritten_markFailed error now) rfl rfl
  | deadLetter context id =>
      obtain rfl := Option.some.inj hm
      exact moves_of_step h Row.keepsWritten_deadLetter rfl rfl
  | requeue context id =>
      obtain rfl := Option.some.inj hm
      exact moves_of_step h Row.keepsWritten_requeue rfl rfl

/-- An operation that answers an error leaves the store as it was. -/
theorem Op.run_of_answer_error {s : Store} (h : Filed s.tables) {op : Op} {e : OutboxError}
    (he : op.answer s = .error e) : op.run s = s := by
  cases hm : op.move? with
  | none =>
      obtain ⟨context, limit, lease, now, rfl⟩ := eq_claim_of_move? hm
      cases context with
      | error e => rfl
      | ok _ =>
          -- A filed outbox is read whole, so nothing can go wrong.
          have hanswer : Op.answer s (.claim (.ok ()) limit lease now) =
              .ok (.rows (leased limit lease now s.tables)) := by
            rw [Op.answer, claimPending_of_filed h]
            rfl
          cases hanswer.symm.trans he
  | some m =>
      cases op.moves h hm with
      | ended e' context answer same => exact same
      | unknown active missing answer same => exact same
      | forbidden r active found status answer same => exact same
      | moved r reply active found status answer after => cases answer.symm.trans he

/-! ## Logs -/

/-- An operation and what it was answered. -/
structure Call where
  op : Op
  answer : Except OutboxError Reply

/-- What a failed attempt noted. -/
structure Attempt where
  error : String
  time : Instant

namespace Call

/-- The failed attempt at a row that a call noted. -/
def attempt? (id : Uuid) (c : Call) : Option Attempt :=
  match c.op, c.answer with
  | .markFailed _ failed error now, .ok _ => if failed = id then some ⟨error, now⟩ else none
  | _, _ => none

/-- Whether a call took a row back into delivery. -/
def requeues (id : Uuid) (c : Call) : Bool :=
  match c.op, c.answer with
  | .requeue _ requeued, .ok _ => requeued = id
  | _, _ => false

/-- A call that counts nothing for a row. -/
structure Quiet (id : Uuid) (c : Call) : Prop where
  attempt : c.attempt? id = none
  requeues : c.requeues id = false

theorem quiet_of_error (id : Uuid) (op : Op) (e : OutboxError) : Quiet id ⟨op, .error e⟩ := by
  cases op <;> exact ⟨rfl, rfl⟩

theorem quiet_of_other {op : Op} {m : Move} (hm : op.move? = some m) {id : Uuid} (hid : m.id ≠ id)
    (answer : Except OutboxError Reply) : Quiet id ⟨op, answer⟩ := by
  cases answer with
  | error e => exact quiet_of_error id op e
  | ok reply =>
      cases op with
      | claim context limit lease now => exact ⟨rfl, rfl⟩
      | markSent context id' now => exact ⟨rfl, rfl⟩
      | deadLetter context id' => exact ⟨rfl, rfl⟩
      | markFailed context id' error now =>
          obtain rfl := Option.some.inj hm
          exact ⟨if_neg hid, rfl⟩
      | requeue context id' =>
          obtain rfl := Option.some.inj hm
          exact ⟨rfl, decide_eq_false hid⟩

end Call

/-- The failed attempts at a row since it was last requeued, of calls with the latest first. -/
def attemptsAt (id : Uuid) (calls : List Call) : List Attempt :=
  (calls.takeWhile (!·.requeues id)).filterMap (·.attempt? id)

/-- The last failed attempt at a row, requeued or not. -/
def lastAttempt? (id : Uuid) (calls : List Call) : Option Attempt := calls.findSome? (·.attempt? id)

theorem attemptsAt_of_quiet {id : Uuid} {c : Call} (h : c.Quiet id) (calls : List Call) :
    attemptsAt id (c :: calls) = attemptsAt id calls := by
  unfold attemptsAt
  rw [List.takeWhile_cons_of_pos (by rw [h.requeues]; rfl), List.filterMap_cons_none h.attempt]

theorem lastAttempt?_of_quiet {id : Uuid} {c : Call} (h : c.Quiet id) (calls : List Call) :
    lastAttempt? id (c :: calls) = lastAttempt? id calls := by
  rw [lastAttempt?, List.findSome?_cons, h.attempt, lastAttempt?]

/-- An attempt that was noted since the row was requeued was noted. -/
theorem exists_lastAttempt {id : Uuid} {calls : List Call} (h : 0 < (attemptsAt id calls).length) :
    ∃ a, lastAttempt? id calls = some a := by
  obtain ⟨a, ha⟩ := List.exists_mem_of_length_pos h
  obtain ⟨c, hc, hattempt⟩ := List.mem_filterMap.1 ha
  have hcalls : c ∈ calls := (List.takeWhile_prefix _).subset hc
  exact Option.isSome_iff_exists.1
    (List.findSome?_isSome_iff.2 ⟨c, hcalls, by rw [hattempt]; rfl⟩)

/-- A store, and the calls on it, the latest first. -/
structure Log where
  store : Store
  calls : List Call

namespace Log

def tables (l : Log) : Tables := l.store.tables

def call (l : Log) (op : Op) : Log := ⟨op.run l.store, ⟨op, op.answer l.store⟩ :: l.calls⟩

/-- **Any operations, one after another.** -/
def run (s : Store) (ops : List Op) : Log := ops.foldl call ⟨s, []⟩

end Log

/-! ## What the log tells of a row -/

/-- **What a row has come to**, given the calls on the store since it was written. -/
structure Row.Tracks (calls : List Call) (r : Row) : Prop where
  sentAt : r.sentAt.isSome = true ↔ r.status = .sent
  lockedUntil : r.status ≠ .pending → r.lockedUntil = none
  attempts : r.attempts.toNat = min (attemptsAt r.id calls).length (2 ^ 32 - 1)
  lastError : r.lastError = (lastAttempt? r.id calls).map (·.error)
  lastAttemptAt : r.lastAttemptAt = (lastAttempt? r.id calls).map (·.time)

theorem Row.tracks_pending (id : Uuid) (now : Reading) (e : Event) (payload : Bytes) :
    (Row.pending id now e payload).Tracks [] where
  sentAt := by simp [pending]
  lockedUntil := fun _ => rfl
  attempts := rfl
  lastError := rfl
  lastAttemptAt := rfl

/-- A call that counts nothing for a row, on a row of which it changed the lease at most. -/
theorem Row.Tracks.quiet {calls : List Call} {r : Row} (h : r.Tracks calls) {c : Call}
    (hc : c.Quiet r.id) : r.Tracks (c :: calls) where
  sentAt := h.sentAt
  lockedUntil := h.lockedUntil
  attempts := by rw [attemptsAt_of_quiet hc]; exact h.attempts
  lastError := by rw [lastAttempt?_of_quiet hc]; exact h.lastError
  lastAttemptAt := by rw [lastAttempt?_of_quiet hc]; exact h.lastAttemptAt

theorem Row.Tracks.claim {calls : List Call} {r : Row} (h : r.Tracks calls)
    (hpending : r.status = .pending) (now : Instant) (lease : Duration) :
    (r.claim now lease).Tracks calls where
  sentAt := h.sentAt
  lockedUntil := fun hnot => absurd hpending hnot
  attempts := h.attempts
  lastError := h.lastError
  lastAttemptAt := h.lastAttemptAt

theorem Row.toNat_nextAttempts (n : UInt32) :
    (nextAttempts n).toNat = min (n.toNat + 1) (2 ^ 32 - 1) := by
  have hbound := n.toNat_lt
  unfold nextAttempts
  split
  · next hmax =>
      rw [hmax]
      rfl
  · next hmax =>
      have hne : n.toNat ≠ 2 ^ 32 - 1 := fun heq => hmax (UInt32.toNat_inj.1 heq)
      rw [UInt32.toNat_add]
      show (n.toNat + 1) % 2 ^ 32 = _
      omega

/-- **A move that was answered** is what the log then tells. -/
theorem Row.Tracks.move {calls : List Call} {r : Row} (h : r.Tracks calls) {op : Op} {m : Move}
    (hm : op.move? = some m) (hid : m.id = r.id) (hstatus : r.status = m.origin) (reply : Reply) :
    (m.change r).Tracks (⟨op, .ok reply⟩ :: calls) := by
  cases op with
  | claim context limit lease now => cases hm
  | markSent context id now =>
      obtain rfl := Option.some.inj hm
      have hquiet : Call.Quiet r.id ⟨.markSent context id now, .ok reply⟩ := ⟨rfl, rfl⟩
      exact { h.quiet hquiet with
        sentAt := iff_of_true rfl rfl
        lockedUntil := fun _ => rfl }
  | markFailed context id error now =>
      obtain rfl := Option.some.inj hm
      have hattempt : Call.attempt? r.id ⟨.markFailed context id error now, .ok reply⟩ =
          some ⟨error, now⟩ := if_pos hid
      have hcount :
          (attemptsAt r.id (⟨.markFailed context id error now, .ok reply⟩ :: calls)).length
          = (attemptsAt r.id calls).length + 1 := by
        unfold attemptsAt
        rw [List.takeWhile_cons_of_pos rfl, List.filterMap_cons_some hattempt, List.length_cons]
      have hlast : lastAttempt? r.id (⟨.markFailed context id error now, .ok reply⟩ :: calls) =
          some ⟨error, now⟩ := by
        rw [lastAttempt?, List.findSome?_cons, hattempt]
      refine ⟨h.sentAt, fun _ => rfl, ?_, ?_, ?_⟩
      · show (nextAttempts r.attempts).toNat = min (attemptsAt r.id _).length _
        rw [toNat_nextAttempts, h.attempts, hcount]
        omega
      · show some error = (lastAttempt? r.id _).map _
        rw [hlast, Option.map_some]
      · show some now.toInstant = (lastAttempt? r.id _).map _
        rw [hlast, Option.map_some]
  | deadLetter context id =>
      obtain rfl := Option.some.inj hm
      have hquiet : Call.Quiet r.id ⟨.deadLetter context id, .ok reply⟩ := ⟨rfl, rfl⟩
      have hunsent : r.status ≠ .sent := fun hsent => by cases hsent.symm.trans hstatus
      exact { h.quiet hquiet with
        sentAt := iff_of_false (fun hsome => hunsent (h.sentAt.1 hsome))
          (fun hsent => by cases hsent)
        lockedUntil := fun _ => rfl }
  | requeue context id =>
      obtain rfl := Option.some.inj hm
      have hrequeues : Call.requeues r.id ⟨.requeue context id, .ok reply⟩ = true :=
        decide_eq_true hid
      have hlast : lastAttempt? r.id (⟨.requeue context id, .ok reply⟩ :: calls) =
          lastAttempt? r.id calls := rfl
      have hunsent : r.status ≠ .sent := fun hsent => by cases hsent.symm.trans hstatus
      refine ⟨iff_of_false (fun hsome => hunsent (h.sentAt.1 hsome)) (fun hsent => by cases hsent),
        fun hnot => absurd rfl hnot, ?_, ?_, ?_⟩
      · show 0 = min (attemptsAt r.id _).length _
        rw [attemptsAt, List.takeWhile_cons_of_neg (by rw [hrequeues]; decide)]
        rfl
      · show r.lastError = (lastAttempt? r.id _).map _
        rw [hlast]
        exact h.lastError
      · show r.lastAttemptAt = (lastAttempt? r.id _).map _
        rw [hlast]
        exact h.lastAttemptAt

/-! ## One operation -/

/-- The moves of a status. -/
inductive Status.Edge : Status → Status → Prop where
  | sent : Edge .pending .sent
  | failed : Edge .pending .failed
  | requeued : Edge .failed .pending

/-- One operation after another version of a row: written alike, and in a status that it may have
moved to. -/
structure Row.Follows (r r' : Row) : Prop where
  written : r'.written = r.written
  status : r'.status = r.status ∨ Status.Edge r.status r'.status

theorem Row.follows_change {op : Op} {m : Move} (hm : op.move? = some m) {r : Row}
    (hstatus : r.status = m.origin) : r.Follows (m.change r) := by
  cases op with
  | claim context limit lease now => cases hm
  | markSent context id now =>
      obtain rfl := Option.some.inj hm
      exact ⟨rfl, .inr (by rw [hstatus]; exact .sent)⟩
  | markFailed context id error now =>
      obtain rfl := Option.some.inj hm
      exact ⟨rfl, .inl rfl⟩
  | deadLetter context id =>
      obtain rfl := Option.some.inj hm
      exact ⟨rfl, .inr (by rw [hstatus]; exact .failed)⟩
  | requeue context id =>
      obtain rfl := Option.some.inj hm
      exact ⟨rfl, .inr (by rw [hstatus]; exact .requeued)⟩

/-- **What an operation does to a row**, and what its answer tells of it. -/
inductive Op.Meets (s : Store) (op : Op) (r : Row) : Prop where
  | left (quiet : Call.Quiet r.id ⟨op, op.answer s⟩)
      (after : rowAt (op.run s).tables r.id = some r)
  | claimed (now : Reading) (lease : Duration) (pending : r.status = .pending)
      (quiet : Call.Quiet r.id ⟨op, op.answer s⟩)
      (after : rowAt (op.run s).tables r.id = some (r.claim now lease))
  | moved (m : Move) (reply : Reply) (move : op.move? = some m) (id : m.id = r.id)
      (status : r.status = m.origin) (answer : op.answer s = .ok reply)
      (after : rowAt (op.run s).tables r.id = some (m.change r))

theorem Op.meets {s : Store} (h : Filed s.tables) (op : Op) {r : Row}
    (hr : rowAt s.tables r.id = some r) : op.Meets s r := by
  cases hm : op.move? with
  | none =>
      obtain ⟨context, limit, lease, now, rfl⟩ := eq_claim_of_move? hm
      have hquiet : Call.Quiet r.id ⟨.claim context limit lease now,
          Op.answer s (.claim context limit lease now)⟩ := ⟨rfl, rfl⟩
      rcases Op.rowAt_run h (.claim context limit lease now) r.id with
        hsame | ⟨r₀, r', hr₀, hturns, hr'⟩
      · exact .left hquiet (hsame.trans hr)
      · obtain rfl := Option.some.inj (hr.symm.trans hr₀)
        obtain ⟨-, hclaimable, rfl⟩ := hturns
        exact .claimed now lease (Row.isClaimable_iff.1 hclaimable).1 hquiet hr'
  | some m =>
      have hleft : ∀ e, op.answer s = .error e → op.Meets s r := by
        intro e he
        refine .left (he ▸ Call.quiet_of_error r.id op e) ?_
        rw [op.run_of_answer_error h he]
        exact hr
      cases op.moves h hm with
      | ended e context answer same => exact hleft _ answer
      | unknown active missing answer same => exact hleft _ answer
      | forbidden r' active found status answer same => exact hleft _ answer
      | moved r' reply active found status answer after =>
          by_cases hid : m.id = r.id
          · rw [hid] at found
            obtain rfl := Option.some.inj (hr.symm.trans found)
            exact .moved m reply hm hid status answer (by rw [after, if_pos hid.symm])
          · refine .left (Call.quiet_of_other hm hid _) ?_
            rw [after, if_neg fun heq => hid heq.symm]
            exact hr

theorem Op.Meets.follows {s : Store} {op : Op} {r : Row} (h : op.Meets s r) :
    ∃ r', rowAt (op.run s).tables r.id = some r' ∧ r.Follows r' := by
  cases h with
  | left quiet after => exact ⟨r, after, rfl, .inl rfl⟩
  | claimed now lease pending quiet after => exact ⟨_, after, rfl, .inl rfl⟩
  | moved m reply move id status answer after => exact ⟨_, after, Row.follows_change move status⟩

/-- What the log tells of a row it still tells after one more call. -/
theorem Op.Meets.tracks {s : Store} {op : Op} {r r' : Row} (h : op.Meets s r) {calls : List Call}
    (htracks : r.Tracks calls) (hr' : rowAt (op.run s).tables r.id = some r') :
    r'.Tracks (⟨op, op.answer s⟩ :: calls) := by
  cases h with
  | left quiet after =>
      obtain rfl := Option.some.inj (after.symm.trans hr')
      exact htracks.quiet quiet
  | claimed now lease pending quiet after =>
      obtain rfl := Option.some.inj (after.symm.trans hr')
      exact (htracks.claim pending now lease).quiet quiet
  | moved m reply move id status answer after =>
      obtain rfl := Option.some.inj (after.symm.trans hr')
      rw [answer]
      exact htracks.move move id status reply

/-! ## New rows -/

/-- Every row of the outbox is as it was made. -/
def New (ts : Tables) : Prop :=
  ∀ k j, ts.row? tableName k = some j →
    ∃ id now e payload, j = (Row.pending id now e payload).toJson.canonical ∧ id.text = k

theorem New.filed {ts : Tables} (h : New ts) : Filed ts := by
  intro k j hj
  obtain ⟨id, now, e, payload, rfl, hid⟩ := h k j hj
  exact ⟨_, rfl, hid⟩

theorem New.of_rowAt {ts : Tables} (h : New ts) {id : Uuid} {r : Row} (hr : rowAt ts id = some r) :
    ∃ now e payload, r = .pending id now e payload := by
  obtain ⟨hcivil, hrow, rfl⟩ := (rowAt_eq_some_iff h.filed).1 hr
  obtain ⟨id', now, e, payload, hj, hid⟩ := h _ _ hrow
  obtain rfl := Uuid.text_inj.1 hid
  have hread := congrArg Row.ofJson? hj
  rw [hcivil.ofJson?_canonical, (Row.isCivil_pending ..).ofJson?_canonical] at hread
  exact ⟨now, e, payload, Option.some.inj hread⟩

/-- What a unit of work stages of rows that are to be inserted. -/
theorem writes_insertAll (context : Except ContextError Unit) (s : Store) {rows : List Row}
    {tx tx' : Transaction}
    (h : (Repository.store.insertAll context s rows (some tx)).2 = some tx') {w : Write}
    (hw : w ∈ tx'.writes) :
    w ∈ tx.writes ∨ ∃ r ∈ rows, w = ⟨tableName, r.id.text, r.toJson.canonical, .absent⟩ := by
  induction rows generalizing tx with
  | nil =>
      obtain rfl := Option.some.inj h
      exact .inl hw
  | cons r rows ih =>
      rw [Repository.insertAll] at h
      rcases insertRow_spec context r s tx with ⟨e, hinsert⟩ | ⟨-, hinsert⟩
      · rw [show Repository.store.insert = insertRow from rfl, hinsert] at h
        obtain rfl := Option.some.inj h
        exact .inl hw
      · rw [show Repository.store.insert = insertRow from rfl, hinsert] at h
        rcases ih h with hstaged | ⟨r', hr', rfl⟩
        · rcases List.mem_append.1 hstaged with hbefore | hnow
          · exact .inl hbefore
          · exact .inr ⟨r, List.mem_cons_self, List.mem_singleton.1 hnow⟩
        · exact .inr ⟨r', List.mem_cons_of_mem _ hr', rfl⟩

/-- Inserts rows and commits them, in a unit of work of their own. -/
def file (s : Store) (rows : List Row) : Store :=
  match (Repository.store.insertAll (.ok ()) s rows (some .empty)).2 with
  | some tx => (tx.commit s).2
  | none => s

/-- Committing new rows leaves an outbox of new rows. -/
theorem New.file {s : Store} (h : New s.tables) {rows : List Row}
    (hrows : ∀ r ∈ rows, ∃ id now e payload, r = .pending id now e payload) :
    New (file s rows).tables := by
  unfold Outbox.file
  split
  · next tx htx =>
      intro k j hj
      by_cases hcommit : (tx.commit s).1 = .ok ()
      · rw [Transaction.row?_commit hcommit, Transaction.row?] at hj
        cases hstaged : tx.staged? tableName k with
        | none =>
            rw [hstaged] at hj
            exact h k j hj
        | some j' =>
            rw [hstaged] at hj
            obtain rfl := Option.some.inj hj
            obtain ⟨w, hfind, rfl⟩ := Option.map_eq_some_iff.1 hstaged
            have hkey : w.table = tableName ∧ w.key = k := by simpa using List.find?_some hfind
            have hw : w ∈ tx.writes := List.mem_reverse.1 (List.mem_of_find?_eq_some hfind)
            rcases writes_insertAll (.ok ()) s htx hw with hempty | ⟨r, hr, rfl⟩
            · cases hempty
            · obtain ⟨id, now, e, payload, rfl⟩ := hrows r hr
              exact ⟨id, now, e, payload, rfl, hkey.2⟩
      · rw [Transaction.tables_of_commit_refused hcommit] at hj
        exact h k j hj
  · exact h

/-! ## The life of a row -/

theorem Delivers.rowAt {ts ts' : Tables} (h : Delivers ts ts') (id : Uuid) :
    (rowAt ts' id).map Row.written = (rowAt ts id).map Row.written :=
  h.written id.text

/-- What holds of a log that began with a store. -/
structure Log.Sound (s : Store) (l : Log) : Prop where
  delivers : Delivers s.tables l.tables
  tracks : ∀ id r, rowAt l.tables id = some r → r.Tracks l.calls

theorem Log.Sound.meets {s : Store} {l : Log} (h : l.Sound s) (op : Op) {id : Uuid} {r : Row}
    (hr : rowAt l.tables id = some r) : op.Meets l.store r := by
  obtain rfl := id_of_rowAt h.delivers.filed hr
  exact op.meets h.delivers.filed hr

theorem Log.Sound.call {s : Store} {l : Log} (h : l.Sound s) (op : Op) : (l.call op).Sound s where
  delivers := h.delivers.trans (op.run_delivers h.delivers.filed)
  tracks := fun id r' hr' => by
    -- The row was there before the call.
    have hwritten := (op.run_delivers h.delivers.filed).rowAt id
    rw [show rowAt (op.run l.store).tables id = some r' from hr', Option.map_some] at hwritten
    obtain ⟨r, hr, -⟩ := Option.map_eq_some_iff.1 hwritten.symm
    obtain rfl := id_of_rowAt h.delivers.filed hr
    exact (h.meets op hr).tracks (h.tracks r.id r hr) hr'

theorem Log.sound_run {s : Store} (hnew : New s.tables) (ops : List Op) : (run s ops).Sound s := by
  have hstart : Log.Sound s ⟨s, []⟩ := by
    refine ⟨.refl hnew.filed, fun id r hr => ?_⟩
    obtain ⟨now, e, payload, rfl⟩ := hnew.of_rowAt hr
    exact Row.tracks_pending id now e payload
  -- What a call keeps it keeps of any log, not only of one that has just begun.
  unfold run
  generalize (⟨s, []⟩ : Log) = l at hstart
  induction ops generalizing l with
  | nil => exact hstart
  | cons op ops ih => exact ih _ (hstart.call op)

/-- A sent row stays as it is, whatever is called. -/
theorem Log.rowAt_run_of_sent {s : Store} (hfiled : Filed s.tables) {id : Uuid} {r : Row}
    (hr : rowAt s.tables id = some r) (hsent : r.status = .sent) (ops : List Op) :
    rowAt (run s ops).tables id = some r := by
  unfold run
  generalize ([] : List Call) = calls
  induction ops generalizing s calls with
  | nil => exact hr
  | cons op ops ih =>
      exact ih (op.run_delivers hfiled).filed (op.run_sent hfiled hr hsent) _

/-- **The life of a row.** However new rows are claimed, marked, given up and requeued, by whom and
when: no row is lost, and what was written of a row stays; the log tells what the row has come to;
its status moves along the edges only, and a sent row stays as it is; a call that fails changes
nothing, as does one for a row that there is not. -/
theorem life_cycle {s : Store} (hnew : New s.tables) (ops : List Op) :
    let l := Log.run s ops
    Filed l.tables ∧
    (∀ id, (rowAt l.tables id).map Row.written = rowAt s.tables id) ∧
    (∀ id r, rowAt l.tables id = some r →
      r.Tracks l.calls ∧
      (0 < r.attempts → ∃ a, lastAttempt? id l.calls = some a ∧
        r.lastError = some a.error ∧ r.lastAttemptAt = some a.time) ∧
      (∀ op : Op, ∃ r', rowAt (op.run l.store).tables id = some r' ∧ r.Follows r') ∧
      (r.status = .sent → ∀ later, rowAt (Log.run l.store later).tables id = some r)) ∧
    (∀ op : Op,
      (∀ e, op.answer l.store = .error e → op.run l.store = l.store) ∧
      (∀ m, op.move? = some m → rowAt l.tables m.id = none →
        op.answer l.store = guardContext op.context (.error (.notFound m.id)))) := by
  intro l
  have hsound : l.Sound s := Log.sound_run hnew ops
  have hfiled : Filed l.tables := hsound.delivers.filed
  refine ⟨hfiled, fun id => ?_, fun id r hr => ⟨hsound.tracks id r hr, fun hattempts => ?_,
    fun op => ?_, fun hsent => Log.rowAt_run_of_sent hfiled hr hsent⟩,
    fun op => ⟨fun e => op.run_of_answer_error hfiled, fun m hm hnone => ?_⟩⟩
  · rw [hsound.delivers.rowAt]
    cases hr : rowAt s.tables id with
    | none => rfl
    | some r =>
        obtain ⟨now, e, payload, rfl⟩ := hnew.of_rowAt hr
        rfl
  · have htracks := hsound.tracks id r hr
    obtain rfl := id_of_rowAt hfiled hr
    have hcounted : 0 < (attemptsAt r.id l.calls).length := by
      have hpositive : 0 < r.attempts.toNat := hattempts
      rw [htracks.attempts] at hpositive
      omega
    obtain ⟨a, ha⟩ := exists_lastAttempt hcounted
    exact ⟨a, ha, by rw [htracks.lastError, ha, Option.map_some],
      by rw [htracks.lastAttemptAt, ha, Option.map_some]⟩
  · have hmeets := hsound.meets op hr
    rw [← id_of_rowAt hfiled hr]
    exact hmeets.follows
  · cases op.moves hfiled hm with
    | ended e context answer same => rw [answer, context, guardContext]
    | unknown active missing answer same => rw [answer, active, guardContext]
    | forbidden r active found status answer same => cases hnone.symm.trans found
    | moved r reply active found status answer after => cases hnone.symm.trans found

/-! ### A row that is given up once -/

def letter : Row := .pending ⟨1⟩ .epoch (.new ⟨⟨2⟩⟩ .epoch "user.created" ⟨⟨3⟩⟩ []) []

/-- The row was tried once, was given up, and failed again when it was back; then it was sent. -/
def secondChance : List Op :=
  [.claim (.ok ()) 10 (.ofSeconds 30) .epoch, .markFailed (.ok ()) letter.id "refused" .epoch,
    .deadLetter (.ok ()) letter.id, .markSent (.ok ()) letter.id .epoch,
    .requeue (.ok ()) letter.id, .markFailed (.ok ()) letter.id "late" .epoch,
    .markSent (.ok ()) letter.id .epoch]

theorem new_desk : New (file .empty [letter]).tables := by
  have hempty : New Store.empty.tables := fun k j hj => by cases hj
  refine hempty.file fun r hr => ?_
  rw [List.mem_singleton.1 hr]
  exact ⟨_, _, _, _, rfl⟩

/-- One attempt counts since it was requeued, the last one is noted, and no requeueing changes the
row any more. -/
theorem life_cycle_second_chance :
    let l := Log.run (file .empty [letter]) secondChance
    New (file .empty [letter]).tables ∧
    ∃ r, rowAt l.tables letter.id = some r ∧ r.status = .sent ∧ r.attempts = 1 ∧
      r.Tracks l.calls ∧ lastAttempt? letter.id l.calls = some ⟨"late", .epoch⟩ ∧
      r.lastError = some "late" ∧
      rowAt (Log.run l.store [.requeue (.ok ()) letter.id]).tables letter.id = some r := by
  intro l
  obtain ⟨-, -, hrow, -⟩ := life_cycle new_desk secondChance
  have hr : rowAt l.tables letter.id = some { letter with
      status := .sent, attempts := 1, lastError := some "late", lastAttemptAt := some .epoch
      sentAt := some .epoch } := by decide +kernel
  obtain ⟨htracks, hattempts, -, hsent⟩ := hrow letter.id _ hr
  obtain ⟨a, ha, herror, hlast⟩ := hattempts (by decide)
  obtain ⟨rfl⟩ : a = ⟨"late", .epoch⟩ := by
    cases a
    cases herror
    cases hlast
    rfl
  exact ⟨new_desk, _, hr, rfl, rfl, htracks, ha, rfl, hsent rfl _⟩

end Registrar.Outbox
