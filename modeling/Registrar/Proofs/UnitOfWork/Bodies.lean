import Mathlib.Logic.Relation
import Registrar.Proofs.Outbox.Rows
import Registrar.Proofs.Store.Isolation
import Registrar.Proofs.UnitOfWork

set_option autoImplicit false

/-! # Bodies of units of work

A body uses its handle call by call: it reads and stages rows, and what it does next depends on the
answers (`Body`). Meanwhile others work on the store, and the unit may be asked to begin again.
While a body runs, its unit stays active and the transaction behind the handle holds what was
accepted (`Body.run_underway`). Once the unit has finished, it is idle and the handle is closed,
whatever happens in the room afterwards (`Room.Later.closed`). -/

namespace Registrar

/-! ## Rooms later on -/

namespace Room

variable {M T : Type}

/-- What anybody can do to a room: begin or finish a unit, work on what is behind a handle, or
change the manager. -/
inductive Step (m : Manager M T) (r : Room M T) : Room M T → Prop where
  | begin (context : Except ContextError Unit) (u : UnitOfWork) :
      Step m r (UnitOfWork.begin m context u r).2.2
  | finish (f : T → M → Except TransactionError Unit × M) (h : Handle) (u : UnitOfWork) :
      Step m r (UnitOfWork.finish f h u r).2.2
  | use {α : Type} (h : Handle) (f : M → Option T → α × Option T) : Step m r (r.use h f).2
  | change (f : M → M) : Step m r { r with manager := f r.manager }

def Later (m : Manager M T) : Room M T → Room M T → Prop := Relation.ReflTransGen (Step m)

/-- A handle that was given out and is closed. -/
structure Closed (r : Room M T) (h : Handle) : Prop where
  given : h.index < r.cells.length
  cell : r.cell h = none

theorem cell_setCell (r : Room M T) (h i : Handle) (t : Option T) :
    (r.setCell h t).cell i =
      if h.index = i.index ∧ i.index < r.cells.length then t else r.cell i := by
  unfold cell setCell
  rw [List.getElem?_set]
  by_cases hi : h.index = i.index
  · by_cases hlt : i.index < r.cells.length
    · simp [hi, hlt]
    · simp [hi, hlt]
  · simp [hi]

theorem length_setCell (r : Room M T) (h : Handle) (t : Option T) :
    (r.setCell h t).cells.length = r.cells.length := List.length_set

theorem lt_length_of_cell {r : Room M T} {h : Handle} {t : T} (hcell : r.cell h = some t) :
    h.index < r.cells.length := by
  by_contra hnot
  rw [cell, List.getElem?_eq_none (Nat.le_of_not_lt hnot)] at hcell
  cases hcell

/-- Closing handles, this one or others, leaves a closed handle closed. -/
theorem Closed.setCell_none {r : Room M T} {h : Handle} (hclosed : r.Closed h) (i : Handle) :
    (r.setCell i none).Closed h where
  given := by rw [length_setCell]; exact hclosed.given
  cell := by rw [cell_setCell, hclosed.cell, ite_self]

theorem Closed.change {r : Room M T} {h : Handle} (hclosed : r.Closed h) (s : M) :
    Closed { r with manager := s } h := ⟨hclosed.given, hclosed.cell⟩

theorem Closed.allot {r : Room M T} {h : Handle} (hclosed : r.Closed h) (t : T) :
    (r.allot t).2.Closed h where
  given := by
    have hlt := hclosed.given
    simp only [Room.allot, List.length_append]
    omega
  cell := by
    have hcell := hclosed.cell
    unfold Room.cell at hcell ⊢
    rw [Room.allot, List.getElem?_append_left hclosed.given]
    exact hcell

/-- Working on a closed handle finds nothing and leaves the room as it was. -/
theorem use_of_cell_eq_none {α : Type} {r : Room M T} {h : Handle} (hcell : r.cell h = none)
    (f : M → Option T → α × Option T) : r.use h f = ((f r.manager none).1, r) := by
  have hset : r.setCell h none = r := by
    unfold setCell
    unfold cell at hcell
    by_cases hlt : h.index < r.cells.length
    · rw [List.getElem?_eq_getElem hlt, Option.join_some] at hcell
      rw [← hcell, List.set_getElem_self]
    · rw [List.set_eq_of_length_le (Nat.le_of_not_lt hlt)]
  simp only [use, hcell, Option.bind_none, hset]

theorem Closed.use {α : Type} {r : Room M T} {h : Handle} (hclosed : r.Closed h) (i : Handle)
    (f : M → Option T → α × Option T) : (r.use i f).2.Closed h := by
  cases hcell : r.cell i with
  | none =>
      rw [use_of_cell_eq_none hcell]
      exact hclosed
  | some t =>
      have hne : i.index ≠ h.index := by
        intro heq
        rw [show i = h from congrArg Handle.mk heq, hclosed.cell] at hcell
        cases hcell
      refine ⟨?_, ?_⟩
      · show h.index < (r.setCell i _).cells.length
        rw [length_setCell]
        exact hclosed.given
      · show (r.setCell i _).cell h = none
        rw [cell_setCell, if_neg fun hc => hne hc.1]
        exact hclosed.cell

/-- **Closed is for good**: no step opens a handle again. -/
theorem Closed.step {m : Manager M T} {r r' : Room M T} {h : Handle} (hclosed : r.Closed h)
    (hstep : Step m r r') : r'.Closed h := by
  cases hstep with
  | begin context u =>
      cases context with
      | error e => exact hclosed
      | ok _ =>
          cases u with
          | active i => exact hclosed
          | idle =>
              unfold UnitOfWork.begin
              cases m.begin r.manager with
              | mk result s =>
                  cases result with
                  | error e => exact hclosed.change s
                  | ok t => exact (hclosed.change s).allot t
  | finish f i u =>
      unfold UnitOfWork.finish UnitOfWork.close
      by_cases hu : u = .active i
      · rw [if_pos hu]
        cases r.cell i with
        | none => exact hclosed
        | some t => exact (hclosed.setCell_none i).change _
      · rw [if_neg hu]
        exact hclosed
  | use i f => exact hclosed.use i f
  | change f => exact hclosed.change _

theorem Later.closed {m : Manager M T} {r r' : Room M T} (hlater : Later m r r') {h : Handle}
    (hclosed : r.Closed h) : r'.Closed h := by
  induction hlater with
  | refl => exact hclosed
  | tail hlater hstep ih => exact ih.step hstep

end Room

namespace UnitOfWork

/-! ## Bodies -/

/-- What a body does until it ends, depending on what it is answered: it reads a row through its
handle, stages a row, puts a row into the outbox, or asks its unit to begin once more. Between its
calls others change the store, and it can see how the store was. **What a row is read as is up to
the body**, so it is given rows as they are. -/
inductive Body (ε α : Type) where
  | ends (ending : Ending ε α)
  | get (table key : String) (next : Except TransactionError (Option Json) → Body ε α)
  | stage (call : Staging) (next : Except TransactionError (Except StoreError Unit) → Body ε α)
  | enqueue (context : Except ContextError Unit) (row : Outbox.Row)
      (next : Except OutboxError Unit → Body ε α)
  | begin (context : Except ContextError Unit)
      (next : Except TransactionError Handle → Body ε α)
  | elsewhere (change : Store → Store) (next : Store → Body ε α)

/-- What is kept of a body's run: the calls that staged a row, what beginning once more was
answered, and what others did to the store. -/
structure Diary where
  accepted : List Staging
  begun : List (Except ContextError Unit × Except TransactionError Handle)
  elsewhere : List (Store → Store)

namespace Diary

def empty : Diary := ⟨[], [], []⟩

/-- Notes a call, if it was accepted. -/
def note (d : Diary) (call : Staging) (accepted : Bool) : Diary :=
  { d with accepted := d.accepted ++ if accepted then [call] else [] }

/-- The store as others left it. -/
def base (d : Diary) (s : Store) : Store := d.elsewhere.foldl (fun s change => change s) s

/-- What was staged. -/
def transaction (d : Diary) : Transaction := ⟨d.accepted.map Staging.write⟩

end Diary

/-- Works on the transaction of a handle, which must be open. -/
def locked {β : Type} (f : Tables → Transaction → β × Transaction) (s : Store) :
    Option Transaction → Except TransactionError β × Option Transaction
  | none => (.error .closed, none)
  | some tx => (.ok (f s.tables tx).1, some (f s.tables tx).2)

/-- Stages a row, or leaves the transaction as it is. -/
def stageCall (call : Staging) (ts : Tables) (tx : Transaction) :
    Except StoreError Unit × Transaction :=
  match call.run ts tx with
  | .ok tx' => (.ok (), tx')
  | .error e => (.error e, tx)

/-- What a body works on. -/
abbrev Desk := Reach Store Transaction Diary

namespace Desk

/-- Reads a row through a handle. -/
def get (h : Handle) (table key : String) (s : Desk) :
    Except TransactionError (Option Json) × Desk :=
  let used := s.room.use h (locked fun ts tx => (tx.row? ts table key, tx))
  (used.1, { s with room := used.2 })

/-- Stages a row through a handle. -/
def stage (h : Handle) (call : Staging) (s : Desk) :
    Except TransactionError (Except StoreError Unit) × Desk :=
  let used := s.room.use h (locked (stageCall call))
  (used.1, { s with room := used.2, own := s.own.note call (used.1 matches .ok (.ok ())) })

/-- Puts a row into the outbox through a handle. -/
def enqueue (h : Handle) (context : Except ContextError Unit) (row : Outbox.Row) (s : Desk) :
    Except OutboxError Unit × Desk :=
  let used := s.room.use h (Outbox.Repository.store.insert context row)
  let call := Staging.insert Outbox.tableName row.id.text row.toJson
  (used.1, { s with room := used.2, own := s.own.note call (used.1 matches .ok ()) })

/-- Asks the unit to begin. -/
def begin (context : Except ContextError Unit) (s : Desk) : Except TransactionError Handle × Desk :=
  let began := UnitOfWork.begin .store context s.unit s.room
  (began.1, ⟨began.2.1, began.2.2, { s.own with begun := s.own.begun ++ [(context, began.1)] }⟩)

/-- Others change the store. -/
def elsewhere (change : Store → Store) (s : Desk) : Desk :=
  { s with
    room := { s.room with manager := change s.room.manager }
    own := { s.own with elsewhere := s.own.elsewhere ++ [change] } }

end Desk

variable {ε α : Type}

/-- **The run of a body** with its handle. -/
def Body.run (h : Handle) : Body ε α → Desk → Ending ε α × Desk
  | .ends ending, s => (ending, s)
  | .get table key next, s => (next (s.get h table key).1).run h (s.get h table key).2
  | .stage call next, s => (next (s.stage h call).1).run h (s.stage h call).2
  | .enqueue context row next, s =>
      (next (s.enqueue h context row).1).run h (s.enqueue h context row).2
  | .begin context next, s => (next (s.begin context).1).run h (s.begin context).2
  | .elsewhere change next, s => (next s.room.manager).run h (s.elsewhere change)

/-! ## While a body runs -/

/-- What an active unit answers when it is to begin. -/
def refusal : Except ContextError Unit → Except TransactionError Handle
  | .error e => .error (.context e)
  | .ok () => .error .alreadyActive

/-- **A body underway** in a unit that began over a store. -/
structure Underway (h : Handle) (start : Store) (s : Desk) : Prop where
  unit : s.unit = .active h
  cell : s.room.cell h = some s.own.transaction
  store : s.room.manager = s.own.base start
  begun : ∀ b ∈ s.own.begun, b.2 = refusal b.1

theorem transaction_note {d : Diary} {tx' : Transaction} {call : Staging} {accepted : Bool}
    (h : tx'.writes = d.transaction.writes ++ if accepted then [call.write] else []) :
    tx' = (d.note call accepted).transaction := by
  cases tx'
  cases accepted with
  | false => simpa [Diary.transaction, Diary.note] using h
  | true => simpa [Diary.transaction, Diary.note] using h

/-- Working on an open handle: what is behind it afterwards is what the work leaves. -/
theorem use_of_cell_eq_some {β : Type} {r : Room Store Transaction} {h : Handle}
    {tx tx' : Transaction} {b : β} {f : Store → Option Transaction → β × Option Transaction}
    (hcell : r.cell h = some tx) (hf : f r.manager (some tx) = (b, some tx')) :
    r.use h f = (b, r.setCell h (some tx')) ∧ (r.setCell h (some tx')).cell h = some tx' := by
  refine ⟨by simp only [Room.use, hcell, Option.bind_some, hf], ?_⟩
  rw [Room.cell_setCell, if_pos ⟨rfl, Room.lt_length_of_cell hcell⟩]

namespace Underway

variable {h : Handle} {start : Store} {s : Desk}

theorem get (hs : Underway h start s) (table key : String) :
    Underway h start (s.get h table key).2 := by
  obtain ⟨hused, hcell⟩ := use_of_cell_eq_some hs.cell
    (f := locked fun ts tx => (tx.row? ts table key, tx)) rfl
  unfold Desk.get
  rw [hused]
  exact ⟨hs.unit, hcell, hs.store, hs.begun⟩

theorem stage (hs : Underway h start s) (call : Staging) :
    Underway h start (s.stage h call).2 := by
  obtain ⟨hused, hcell⟩ := use_of_cell_eq_some hs.cell (f := locked (stageCall call)) rfl
  unfold Desk.stage
  rw [hused]
  refine ⟨hs.unit, hcell.trans (congrArg some (transaction_note ?_)), hs.store, hs.begun⟩
  -- The call is noted exactly when it staged its row.
  unfold stageCall
  cases hrun : call.run s.room.manager.tables s.own.transaction with
  | error e => exact (List.append_nil _).symm
  | ok tx' => exact Staging.writes_of_run hrun

theorem enqueue (hs : Underway h start s) (context : Except ContextError Unit) (row : Outbox.Row) :
    Underway h start (s.enqueue h context row).2 := by
  unfold Desk.enqueue
  rcases Outbox.insertRow_spec context row s.room.manager s.own.transaction with
    ⟨e, hinsert⟩ | ⟨-, hinsert⟩
  · obtain ⟨hused, hcell⟩ := use_of_cell_eq_some hs.cell
      (f := Outbox.Repository.store.insert context row) hinsert
    rw [hused]
    refine ⟨hs.unit, hcell.trans (congrArg some (transaction_note ?_)), hs.store, hs.begun⟩
    exact (List.append_nil _).symm
  · obtain ⟨hused, hcell⟩ := use_of_cell_eq_some hs.cell
      (f := Outbox.Repository.store.insert context row) hinsert
    rw [hused]
    exact ⟨hs.unit, hcell.trans (congrArg some (transaction_note rfl)), hs.store, hs.begun⟩

/-- A unit that is active does not begin. -/
theorem begin (hs : Underway h start s) (context : Except ContextError Unit) :
    Underway h start (s.begin context).2 := by
  have hbegin : UnitOfWork.begin .store context s.unit s.room =
      (refusal context, s.unit, s.room) := by
    rw [hs.unit]
    cases context with
    | error e => rfl
    | ok _ => rfl
  unfold Desk.begin
  rw [hbegin]
  refine ⟨hs.unit, hs.cell, hs.store, fun b hb => ?_⟩
  rcases List.mem_append.1 hb with hb | hb
  · exact hs.begun b hb
  · rw [List.mem_singleton.1 hb]

theorem elsewhere (hs : Underway h start s) (change : Store → Store) :
    Underway h start (s.elsewhere change) := by
  refine ⟨hs.unit, hs.cell, ?_, hs.begun⟩
  have hbase : (s.elsewhere change).own.base start = change (s.own.base start) :=
    List.foldl_concat ..
  rw [hbase, ← hs.store]
  rfl

end Underway

/-- **Every call of a body leaves it underway**, and so does its run. -/
theorem Body.run_underway {h : Handle} {start : Store} (body : Body ε α) {s : Desk}
    (hs : Underway h start s) : Underway h start (body.run h s).2 := by
  induction body generalizing s with
  | ends ending => exact hs
  | get table key next ih => exact ih _ (hs.get table key)
  | stage call next ih => exact ih _ (hs.stage call)
  | enqueue context row next ih => exact ih _ (hs.enqueue context row)
  | begin context next ih => exact ih _ (hs.begin context)
  | elsewhere change next ih => exact ih _ (hs.elsewhere change)

/-! ## When a body has ended -/

/-- **What comes of a body**, given how it ended, the calls that staged a row, and the store as
others left it: its result, and the store afterwards. -/
inductive Outcome (refused : TransactionError → ε) (accepted : List Staging) (base : Store) :
    Ending ε α → Except ε α → Store → Prop where
  | committed (a : α) (after : Store) (orderly : base.failNextCommit = false)
      (holds : ∀ c ∈ accepted, c.Holds base.tables)
      (rows : ∀ t k, after.tables.row? t k =
        ((Staging.lastRow? t k accepted).map Json.canonical).or (base.tables.row? t k)) :
      Outcome refused accepted base (.returned a) (.ok a) after
  | uncommitted (a : α) (after : Store) (e : TransactionError)
      (broken : base.failNextCommit = true ∨ ∃ c ∈ accepted, ¬ c.Holds base.tables)
      (error : ((Transaction.mk (accepted.map Staging.write)).commit base).1 = .error e)
      (unchanged : after.tables = base.tables) :
      Outcome refused accepted base (.returned a) (.error (refused e)) after
  | failed (e : ε) (after : Store) (unchanged : after.tables = base.tables) :
      Outcome refused accepted base (.failed e) (.error e) after
  | panicked (p : PanicPayload) (after : Store) (unchanged : after.tables = base.tables) :
      Outcome refused accepted base (.panicked p) (.error (refused (.panicked p.message))) after

theorem commit_accepted_iff (accepted : List Staging) (s : Store) :
    ((Transaction.mk (accepted.map Staging.write)).commit s).1 = .ok () ↔
      s.failNextCommit = false ∧ ∀ c ∈ accepted, c.Holds s.tables := by
  rw [Transaction.commit_succeeds_iff, Transaction.checkGuards_eq_ok_iff, List.forall_mem_map]
  exact and_congr_right fun _ => forall₂_congr fun c _ => Staging.check_write_iff s.tables c

theorem outcome_settleEnding (refused : TransactionError → ε) (accepted : List Staging)
    (base : Store) (ending : Ending ε α) :
    let settled := settleEnding refused ending ⟨accepted.map Staging.write⟩ base
    Outcome refused accepted base ending settled.1 settled.2 := by
  have hcommits := commit_accepted_iff accepted base
  cases ending with
  | returned a =>
      unfold settleEnding
      cases hcommit : ((Transaction.mk (accepted.map Staging.write)).commit base).1 with
      | ok u =>
          obtain ⟨horderly, hholds⟩ := hcommits.1 hcommit
          refine .committed a _ horderly hholds fun t k => ?_
          rw [Transaction.row?_commit hcommit, Staging.row?_writes]
      | error e =>
          have hnot : ((Transaction.mk (accepted.map Staging.write)).commit base).1 ≠ .ok () := by
            rw [hcommit]
            exact fun h => by cases h
          refine .uncommitted a _ e ?_ hcommit (Transaction.tables_of_commit_refused hnot)
          by_contra hnone
          obtain ⟨hfail, hholds⟩ := not_or.1 hnone
          refine hnot (hcommits.2 ⟨Bool.eq_false_of_not_eq_true hfail, fun c hc => ?_⟩)
          exact by_contra fun hbroken => hholds ⟨c, hc, hbroken⟩
  | failed e => exact .failed e _ rfl
  | panicked p => exact .panicked p _ rfl

/-- **Commit iff the body returned.** An idle unit whose context has ended does not call the body.
One whose context is active runs the body with a new handle, and what then comes of it is told by
the body's ending. In every case the unit is idle, and can begin again; the handle is closed for
ever, whatever happens in the room; and beginning while the body ran was refused. -/
theorem execute_commits_iff_returned (refused : TransactionError → ε)
    (room : Room Store Transaction) (body : Handle → Body ε α) :
    let start : Desk := ⟨.idle, room, .empty⟩
    let h : Handle := ⟨room.cells.length⟩
    let ran := (body h).run h ⟨.active h, (room.allot .empty).2, .empty⟩
    let out := execute .store (.ok ()) refused (fun h => (body h).run h) start
    (∀ e (anyBody : Handle → Desk → Ending ε α × Desk),
      execute .store (.error e) refused anyBody start = (.error (refused (.context e)), start)) ∧
    Outcome refused ran.2.own.accepted (ran.2.own.base room.manager) ran.1 out.1
      out.2.room.manager ∧
    out.2.unit = .idle ∧
    (∀ later, Room.Later .store out.2.room later →
      later.lock h = .error .closed ∧
      (∀ {β : Type} (f : Store → Option Transaction → β × Option Transaction),
        later.use h f = ((f later.manager none).1, later)) ∧
      ∃ h' began, begin .store (.ok ()) out.2.unit later = (.ok h', .active h', began) ∧ h' ≠ h) ∧
    ∀ b ∈ ran.2.own.begun, b.2 = refusal b.1 := by
  intro start h ran out
  have hbegun : Underway h room.manager ⟨.active h, (room.allot .empty).2, .empty⟩ :=
    ⟨rfl, room.cell_allot .empty, rfl, fun b hb => by cases hb⟩
  have hran : Underway h room.manager ran.2 := (body h).run_underway hbegun
  have hout : out = ((settleEnding refused ran.1 ran.2.own.transaction ran.2.room.manager).1,
      ⟨.idle, { ran.2.room.setCell h none with manager :=
        (settleEnding refused ran.1 ran.2.own.transaction ran.2.room.manager).2 }, ran.2.own⟩) := by
    have hran' : ran.2 = ⟨.active h, ran.2.room, ran.2.own⟩ := by rw [← hran.unit]
    show conclude .store refused h ran.1 ran.2 = _
    rw [hran']
    exact conclude_active refused ran.1 ran.2.own hran.cell
  have hclosed : out.2.room.Closed h := by
    have hgiven := Room.lt_length_of_cell hran.cell
    rw [hout]
    refine ⟨?_, ?_⟩
    · show h.index < (ran.2.room.setCell h none).cells.length
      rw [Room.length_setCell]
      exact hgiven
    · show (ran.2.room.setCell h none).cell h = none
      rw [Room.cell_setCell, if_pos ⟨rfl, hgiven⟩]
  have hidle : out.2.unit = .idle := by rw [hout]
  refine ⟨fun e anyBody => rfl, ?_, hidle, fun later hlater => ?_, hran.begun⟩
  · rw [hout, ← hran.store]
    exact outcome_settleEnding refused ran.2.own.accepted ran.2.room.manager ran.1
  · have hlast := hlater.closed hclosed
    refine ⟨?_, fun f => Room.use_of_cell_eq_none hlast.cell f,
      (later.allot .empty).1, (later.allot .empty).2, ?_, ?_⟩
    · rw [Room.lock, hlast.cell]
    · rw [hidle]
      rfl
    · intro heq
      have hlt := hlast.given
      rw [← heq] at hlt
      exact Nat.lt_irrefl later.cells.length hlt

end UnitOfWork

end Registrar
