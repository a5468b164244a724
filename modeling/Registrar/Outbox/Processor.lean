import Registrar.Dispatch.Dispatcher
import Registrar.Json.Lookup
import Registrar.Outbox.Repository

set_option autoImplicit false

/-! # Delivering the outbox

One pass of a processor takes the oldest rows that are due, delivers them in that order and marks
each by what came of it. A row whose delivery failed is tried again in a later pass until it has
had its number of attempts; then it is given up. A pass stops when its context ends. -/

namespace Registrar.Outbox

/-! ## Configuration and report -/

/-- How many rows a pass takes, after how many attempts a row is given up, and how long the rows of
a pass are kept from others; `none` is never and not at all. -/
structure ProcessorConfig where
  batchSize : Nat
  maxAttempts : Option UInt32
  lease : Option Duration
  deriving DecidableEq

namespace ProcessorConfig

def standard : ProcessorConfig := ⟨100, some 10, some (.ofSeconds 30)⟩

instance : Inhabited ProcessorConfig := ⟨standard⟩

/-- At least one row. -/
def withBatchSize (c : ProcessorConfig) (n : Nat) : ProcessorConfig :=
  { c with batchSize := max n 1 }

/-- Zero attempts mean no cap. -/
def withMaxAttempts (c : ProcessorConfig) (n : Option UInt32) : ProcessorConfig :=
  { c with maxAttempts := n.filter (· > 0) }

/-- A lease of no time is no lease. -/
def withLease (c : ProcessorConfig) (d : Option Duration) : ProcessorConfig :=
  { c with lease := d.filter (!·.isZero) }

/-- The configuration as it is shown; numbers of 64 bits are texts. -/
def toJson (c : ProcessorConfig) : Json :=
  .obj [("batch_size", .str (toString c.batchSize)),
    ("max_attempts", Json.ofOption Json.ofUInt32 c.maxAttempts),
    ("lease_ms", Json.ofOption (fun d : Duration => Json.str (toString d.toMillis)) c.lease)]

/-- The standard configuration with those settings that are given. -/
def ofJson (j : Json) : ProcessorConfig :=
  let set {α : Type} (name : String) (f : Option Nat → α → α) (a : α) : α :=
    match j.field? name with
    | some v => f v.asNumber? a
    | none => a
  let c := set "batch_size" (fun n (c : ProcessorConfig) => c.withBatchSize (n.getD 0)) standard
  let c := set "max_attempts" (fun n (c : ProcessorConfig) => c.withMaxAttempts (n.map .ofNat)) c
  set "lease_ms" (fun n (c : ProcessorConfig) =>
    c.withLease (n.map fun n => .ofMillis (.ofNat n))) c

end ProcessorConfig

/-- What became of the rows of a pass. -/
structure Report where
  fetched : Nat
  sent : Nat
  failed : Nat
  deadLettered : Nat
  deriving DecidableEq, Repr

namespace Report

/-- The pass took a full batch and delivered all of it, so more may be due. -/
def isFullAndDelivered (r : Report) (batchSize : Nat) : Bool :=
  0 < r.fetched && batchSize ≤ r.fetched && r.sent == r.fetched

def toJson (r : Report) : Json :=
  .obj [("fetched", .int r.fetched), ("sent", .int r.sent), ("failed", .int r.failed),
    ("dead_lettered", .int r.deadLettered)]

end Report

/-! ## Passes -/

/-- What a pass cannot choose: its readings of the wall clock and the order of tasks. Reading 0 is
taken when the rows are claimed, reading `i + 1` when row `i` is marked. -/
structure Conditions where
  clock : Nat → Reading
  schedule : Nat → Schedule

/-- Everything that one pass works with. -/
structure Processor (S T σ : Type) where
  repository : Repository S T
  dispatcher : Dispatcher σ
  serializer : Serializer
  measured : Bool
  config : ProcessorConfig

/-- The state that a pass changes. -/
structure Site (S σ : Type) where
  store : S
  world : World σ

/-- What came of delivering a row. -/
inductive Delivery where
  | delivered
  | interrupted (e : ContextError)
  | failed (reason : String)
  deriving DecidableEq, Repr

namespace Processor

variable {S T σ : Type}

/-- Takes the rows of a pass: under a lease if there is to be one. -/
def takeRows (p : Processor S T σ) (c : Context) (conditions : Conditions) (s : Site S σ) :
    Except OutboxError (List Row) × Site S σ :=
  match p.config.lease with
  | some lease =>
      let (rows, store) := p.repository.claimPending (s.world.check c) p.config.batchSize lease
        (conditions.clock 0) s.store
      (rows, { s with store := store })
  | none => (p.repository.fetchPending (s.world.check c) p.config.batchSize s.store, s)

/-- Decodes a row's event and dispatches it. -/
def deliver (p : Processor S T σ) (c : Context) (o : Schedule) (row : Row) (w : World σ) :
    Delivery × World σ :=
  match p.serializer.deserialize row.payload row.eventName with
  | .error e => (.failed e.message, w)
  | .ok event => match p.dispatcher.dispatch c event o w with
      | (.ok (), w) => (.delivered, w)
      | (.error (.context e), w) => (.interrupted e, w)
      | (.error e, w) => (.failed e.message, w)

/-- Takes a sample of a row's delivery. -/
def note (p : Processor S T σ) (row : Row) (result : String) (s : Site S σ) : Site S σ :=
  if p.measured then { s with world := s.world.take (.delivery row.eventName result) } else s

/-- Whether a row has had its attempts. -/
def isExhausted (p : Processor S T σ) (attempts : UInt32) : Bool :=
  match p.config.maxAttempts with
  | some cap => cap ≤ attempts
  | none => false

/-- Marks a row as sent. -/
def settleDelivered (p : Processor S T σ) (c : Context) (now : Reading) (row : Row) (r : Report)
    (s : Site S σ) : Except OutboxError Report × Site S σ :=
  match p.repository.markSent (s.world.check c) row.id now s.store with
  | (.error e, store) => (.error e, { s with store := store })
  | (.ok (), store) =>
      (.ok { r with sent := r.sent + 1 }, p.note row "sent" { s with store := store })

/-- Marks a row as failed once more, and gives it up if that was its last attempt. -/
def settleFailed (p : Processor S T σ) (c : Context) (now : Reading) (row : Row) (reason : String)
    (r : Report) (s : Site S σ) : Except OutboxError Report × Site S σ :=
  match p.repository.markFailed (s.world.check c) row.id reason now s.store with
  | (.error e, store) => (.error e, { s with store := store })
  | (.ok attempts, store) =>
      let s := { s with store := store }
      if p.isExhausted attempts then
        match p.repository.deadLetter (s.world.check c) row.id s.store with
        | (.error e, store) => (.error e, { s with store := store })
        | (.ok (), store) => (.ok { r with deadLettered := r.deadLettered + 1 },
            p.note row "dead_letter" { s with store := store })
      else (.ok { r with failed := r.failed + 1 }, p.note row "retry" s)

/-- Delivers one row, the `i`-th of the pass, and marks it. -/
def settle (p : Processor S T σ) (c : Context) (conditions : Conditions) (i : Nat) (row : Row)
    (r : Report) (s : Site S σ) : Except OutboxError Report × Site S σ :=
  match s.world.check c with
  | .error e => (.error (.context e), s)
  | .ok () =>
      let (delivery, world) := p.deliver c (conditions.schedule i) row s.world
      let s := { s with world := world }
      let now := conditions.clock (i + 1)
      match delivery with
      | .delivered => p.settleDelivered c now row r s
      | .interrupted e => (.error (.context e), s)
      | .failed reason => p.settleFailed c now row reason r s

/-- Delivers rows in turn, the first of which has the given number. -/
def settleAll (p : Processor S T σ) (c : Context) (conditions : Conditions) (i : Nat) :
    List Row → Report → Site S σ → Except OutboxError Report × Site S σ
  | [], r, s => (.ok r, s)
  | row :: rows, r, s => match p.settle c conditions i row r s with
      | (.error e, s) => (.error e, s)
      | (.ok r, s) => p.settleAll c conditions (i + 1) rows r s

/-- **One pass over the outbox.** -/
def process (p : Processor S T σ) (c : Context) (conditions : Conditions) (s : Site S σ) :
    Except OutboxError Report × Site S σ :=
  match s.world.check c with
  | .error e => (.error (.context e), s)
  | .ok () => match p.takeRows c conditions s with
      | (.error e, s) => (.error e, s)
      | (.ok rows, s) => p.settleAll c conditions 0 rows ⟨rows.length, 0, 0, 0⟩ s

end Processor

end Registrar.Outbox
