import Registrar.Fault
import Registrar.Store

set_option autoImplicit false

/-! # Transactions

A transaction stages writes and applies them all at its commit, or none. Each write carries a guard
on the committed row it replaces. **Guards are checked at commit, all of them before any write is
applied.** Reading inside a transaction finds its own last write first. -/

namespace Registrar

/-! ## Failures -/

/-- Why a transaction, or the unit of work around it, failed. -/
inductive TransactionError where
  | alreadyActive
  | notActive
  | closed
  | beginFailed (reason : String)
  | commitFailed (reason : String)
  | conflict (reason : String)
  | rollbackFailed (reason : String)
  | panicked (message : String)
  | context (e : ContextError)
  deriving DecidableEq, Repr

def TransactionError.message : TransactionError → String
  | .alreadyActive => "a transaction is already active on this unit of work"
  | .notActive => "no active transaction"
  | .closed => "transaction handle is closed"
  | .beginFailed r => "failed to begin transaction: " ++ r
  | .commitFailed r => "failed to commit transaction: " ++ r
  | .conflict r => "transaction conflict: " ++ r
  | .rollbackFailed r => "failed to roll back transaction: " ++ r
  | .panicked m => "unit of work panicked: " ++ m
  | .context e => e.message

instance : Report TransactionError where
  kind
    | .alreadyActive => "AlreadyActive"
    | .notActive => "NotActive"
    | .closed => "Closed"
    | .beginFailed _ => "Begin"
    | .commitFailed _ => "Commit"
    | .conflict _ => "Conflict"
    | .rollbackFailed _ => "Rollback"
    | .panicked _ => "Panicked"
    | .context e => "Context." ++ Report.kind e
  message := TransactionError.message

/-! ## Guards -/

/-- What a write demands of the committed row under its key. -/
inductive Guard where
  | unguarded
  | absent
  | version (field : String) (expected : UInt64)
  deriving DecidableEq, Repr

/-- The number in a field of a row, if there is one. -/
def versionOf (field : String) (row : Option Json) : Option UInt64 :=
  row.bind fun r => (r.field? field).bind Json.asUInt64?

def Guard.check (g : Guard) (table key : String) (committed : Option Json) :
    Except StoreError Unit :=
  match g with
  | .unguarded => .ok ()
  | .absent => if committed.isSome then .error (.duplicateKey table key) else .ok ()
  | .version field expected =>
      let actual := versionOf field committed
      if actual = some expected then .ok ()
      else .error (.versionMismatch table key field expected actual)

/-! ## Staged writes -/

structure Write where
  table : String
  key : String
  row : Json
  guard : Guard
  deriving DecidableEq

/-- The writes staged so far, oldest first. -/
structure Transaction where
  writes : List Write
  deriving DecidableEq

namespace Transaction

def empty : Transaction := ⟨[]⟩

/-- The row last staged under a key. -/
def staged? (tx : Transaction) (table key : String) : Option Json :=
  (tx.writes.reverse.find? fun w => w.table = table && w.key = key).map (·.row)

/-- The row as the transaction sees it: its own last write, else the committed one. -/
def row? (tx : Transaction) (ts : Tables) (table key : String) : Option Json :=
  (tx.staged? table key).orElse fun _ => ts.row? table key

def get {α : Type} (read : Json → Option α) (tx : Transaction) (ts : Tables)
    (table key : String) : Except StoreError (Option α) :=
  match tx.row? ts table key with
  | some row => (Tables.decode read row).map some
  | none => .ok none

def stage (tx : Transaction) (table key : String) (row : Json) (guard : Guard) : Transaction :=
  ⟨tx.writes ++ [⟨table, key, row.canonical, guard⟩]⟩

/-- Stages a new row; its key must be free both in the store and in the transaction. -/
def insert (tx : Transaction) (ts : Tables) (table key : String) (row : Json) :
    Except StoreError Transaction :=
  if (tx.row? ts table key).isSome then .error (.duplicateKey table key)
  else .ok (tx.stage table key row .absent)

/-- Stages a row, new or not. -/
def put (tx : Transaction) (table key : String) (row : Json) : Transaction :=
  tx.stage table key row .unguarded

/-- Stages a row in place of a committed one with an expected version, now and at commit. -/
def putVersioned (tx : Transaction) (ts : Tables) (table key : String) (row : Json)
    (field : String) (expected : UInt64) : Except StoreError Transaction := do
  let guard := Guard.version field expected
  guard.check table key (ts.row? table key)
  return tx.stage table key row guard

/-! ## Applying -/

/-- The first guard that does not hold decides. -/
def checkGuards (ts : Tables) : List Write → Except StoreError Unit
  | [] => .ok ()
  | w :: ws => do
      w.guard.check w.table w.key (ts.row? w.table w.key)
      checkGuards ts ws

/-- The tables after writes, in their order. -/
def applyWrites (ts : Tables) : List Write → Tables
  | [] => ts
  | w :: ws => applyWrites (ts.set w.table w.key w.row) ws

/-- All writes, or none if a guard does not hold. -/
def apply (tx : Transaction) (ts : Tables) : Except StoreError Tables := do
  checkGuards ts tx.writes
  return applyWrites ts tx.writes

/-- A broken version guard is a conflict; any other refusal is a failed commit. -/
def commitError : StoreError → TransactionError
  | e@(.versionMismatch ..) => .conflict e.message
  | e => .commitFailed e.message

def commit (tx : Transaction) (s : Store) : Except TransactionError Unit × Store :=
  if s.failNextCommit then
    (.error (.commitFailed "injected commit failure"), { s with failNextCommit := false })
  else match tx.apply s.tables with
    | .ok ts => (.ok (), { s with tables := ts, commits := s.commits + 1 })
    | .error e => (.error (commitError e), s)

/-- Drops the staged writes. -/
def rollback (_ : Transaction) (s : Store) : Except TransactionError Unit × Store :=
  (.ok (), { s with rollbacks := s.rollbacks + 1 })

end Transaction

end Registrar
