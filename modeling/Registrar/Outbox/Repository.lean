import Registrar.Outbox.Row
import Registrar.Store.Transaction

set_option autoImplicit false

/-! # The outbox in the store

The rows of the outbox are the table `outbox_events`, each under its id. New rows are staged in a
transaction; everything else reads or changes committed rows at once. **Every operation first asks
whether the context is still active.** -/

namespace Registrar

/-! ## Failures -/

/-- Why an operation of the outbox failed. -/
inductive OutboxError where
  | notFound (id : Uuid)
  | invalidTransition (move : Outbox.BadMove)
  | storage (reason : String)
  | serialization (e : SerializationError)
  | transaction (e : TransactionError)
  | context (e : ContextError)
  deriving DecidableEq

namespace OutboxError

def message : OutboxError → String
  | .notFound id => "outbox row " ++ id.text ++ " not found"
  | .invalidTransition m => "outbox row " ++ m.id.text ++ " cannot move from " ++ m.origin.text ++
      " to " ++ m.target.text
  | .storage r => "outbox storage error: " ++ r
  | .serialization e => e.message
  | .transaction e => e.message
  | .context e => e.message

def ofStore (e : StoreError) : OutboxError := .storage e.message

end OutboxError

instance : Report OutboxError where
  kind
    | .notFound _ => "NotFound"
    | .invalidTransition _ => "InvalidTransition"
    | .storage _ => "Storage"
    | .serialization e => "Serialization." ++ Report.kind e
    | .transaction e => "Transaction." ++ Report.kind e
    | .context e => "Context." ++ Report.kind e
  message := OutboxError.message

namespace Outbox

/-- Reads a status by its name. -/
def Status.parse (s : String) : Except OutboxError Status :=
  match Status.ofText? s with
  | some st => .ok st
  | none => .error (.storage ("unknown outbox status `" ++ s ++ "`"))

/-- The operations of an outbox over a state `S`, whose transactions are of type `T`. The first
argument of each says whether the context is active. -/
structure Repository (S T : Type) where
  insert : Except ContextError Unit → Row → S → Option T → Except OutboxError Unit × Option T
  fetchPending : Except ContextError Unit → Nat → S → Except OutboxError (List Row)
  fetchFailed : Except ContextError Unit → Nat → S → Except OutboxError (List Row)
  claimPending : Except ContextError Unit → Nat → Duration → Reading → S →
    Except OutboxError (List Row) × S
  markSent : Except ContextError Unit → Uuid → Reading → S → Except OutboxError Unit × S
  markFailed : Except ContextError Unit → Uuid → String → Reading → S →
    Except OutboxError UInt32 × S
  deadLetter : Except ContextError Unit → Uuid → S → Except OutboxError Unit × S
  requeue : Except ContextError Unit → Uuid → S → Except OutboxError Unit × S
  get : Except ContextError Unit → Uuid → S → Except OutboxError (Option Row)

/-- Stages rows in order; stops at the first that is refused. -/
def Repository.insertAll {S T : Type} (repository : Repository S T)
    (context : Except ContextError Unit) (state : S) :
    List Row → Option T → Except OutboxError Unit × Option T
  | [], tx => (.ok (), tx)
  | r :: rs, tx => match repository.insert context r state tx with
      | (.error e, tx) => (.error e, tx)
      | (.ok (), tx) => repository.insertAll context state rs tx

/-! ## Over tables -/

def tableName : String := "outbox_events"

/-- Every row of the table, which must all decode. -/
def rows (ts : Tables) : Except StoreError (List Row) := ts.scan Row.ofJson? tableName

/-- The rows that decode, oldest first. -/
def readableRows (ts : Tables) : List Row :=
  Row.oldestFirst ((ts.table tableName).values.filterMap Row.ofJson?)

/-- The rows of one status, oldest first. -/
def rowsWith (status : Status) (ts : Tables) : Except OutboxError (List Row) := do
  let all ← (rows ts).mapError OutboxError.ofStore
  return Row.oldestFirst (all.filter (·.status = status))

/-- The oldest rows of one status, at most `limit` of them. -/
def fetch (status : Status) (limit : Nat) (ts : Tables) : Except OutboxError (List Row) :=
  (rowsWith status ts).map (·.take limit)

/-- Puts rows back under their ids. -/
def storeRows (rows : List Row) (ts : Tables) : Tables :=
  rows.foldl (fun ts r => ts.set tableName r.id.text r.toJson.canonical) ts

/-- **Puts the oldest claimable rows under a lease**, at most `limit` of them. -/
def claim (limit : Nat) (lease : Duration) (now : Reading) (ts : Tables) :
    Except OutboxError (List Row × Tables) :=
  match rows ts with
  | .error _ => .error (.storage unexplained)
  | .ok all =>
      let oldest := (Row.oldestFirst (all.filter (·.isClaimable now))).take limit
      let claimed := oldest.map (·.claim now lease)
      .ok (claimed, storeRows claimed ts)

/-- Moves the row with an id, which must be there. -/
def move {α : Type} (id : Uuid) (step : Row → Except BadMove Row) (answer : Row → α)
    (ts : Tables) : Except OutboxError (α × Tables) := do
  let change (r : Row) : Except OutboxError (α × Row) := do
    let r ← (step r).mapError OutboxError.invalidTransition
    return (answer r, r)
  match ← ts.modify Row.ofJson? Row.toJson OutboxError.ofStore tableName id.text change with
  | (some a, ts) => return (a, ts)
  | (none, _) => .error (.notFound id)

/-! ## Over a store -/

/-- Refuses when the context has ended. -/
def guardContext {α : Type} (context : Except ContextError Unit) (go : Except OutboxError α) :
    Except OutboxError α :=
  match context with
  | .error e => .error (.context e)
  | .ok () => go

/-- The store with new tables, or as it was if the operation failed. -/
def onTables {α : Type} (s : Store) (r : Except OutboxError (α × Tables)) :
    Except OutboxError α × Store :=
  match r with
  | .ok (a, ts) => (.ok a, { s with tables := ts })
  | .error e => (.error e, s)

/-- Stages a new row through a handle's transaction, which must be open. -/
def insertRow (context : Except ContextError Unit) (r : Row) (s : Store) (tx : Option Transaction) :
    Except OutboxError Unit × Option Transaction :=
  match context, tx with
  | .error e, tx => (.error (.context e), tx)
  | .ok (), none => (.error (.transaction .closed), none)
  | .ok (), some tx => match tx.insert s.tables tableName r.id.text r.toJson with
      | .ok tx' => (.ok (), some tx')
      | .error e => (.error (.ofStore e), some tx)

/-- The outbox of a store. -/
def Repository.store : Repository Store Transaction where
  insert := insertRow
  fetchPending context limit s := guardContext context (fetch .pending limit s.tables)
  fetchFailed context limit s := guardContext context (fetch .failed limit s.tables)
  claimPending context limit lease now s :=
    onTables s (guardContext context (claim limit lease now s.tables))
  markSent context id now s :=
    onTables s (guardContext context (move id (·.markSent now) (fun _ => ()) s.tables))
  markFailed context id error now s :=
    onTables s (guardContext context (move id (·.markFailed error now) (·.attempts) s.tables))
  deadLetter context id s :=
    onTables s (guardContext context (move id Row.deadLetter (fun _ => ()) s.tables))
  requeue context id s :=
    onTables s (guardContext context (move id Row.requeue (fun _ => ()) s.tables))
  get context id s := guardContext context
    ((s.tables.get Row.ofJson? tableName id.text).mapError OutboxError.ofStore)

end Outbox

end Registrar
