import Registrar.Event

set_option autoImplicit false

/-! # Outbox rows

An outbox row holds a written event until it is delivered. It is pending until every handler took
the event (sent) or it was given up (failed). While a processor works on a pending row, a lease
keeps others from claiming it; every move of the row ends the lease. -/

namespace Registrar.Outbox

/-! ## Status -/

inductive Status where
  | pending
  | sent
  | failed
  deriving DecidableEq, Repr

namespace Status

def text : Status → String
  | .pending => "pending"
  | .sent => "sent"
  | .failed => "failed"

def ofText? (s : String) : Option Status :=
  if s = "pending" then some .pending
  else if s = "sent" then some .sent
  else if s = "failed" then some .failed
  else none

def toJson (s : Status) : Json := .str s.text

def ofJson? (j : Json) : Option Status := j.asTag?.bind ofText?

end Status

/-! ## Rows -/

structure Row where
  id : Uuid
  eventId : EventId
  eventName : String
  aggregateId : AggregateId
  payload : Bytes
  createdAt : Instant
  status : Status
  attempts : UInt32
  lastError : Option String
  lastAttemptAt : Option Instant
  sentAt : Option Instant
  lockedUntil : Option Instant
  deriving DecidableEq

/-- A move that the status of a row does not allow. -/
structure BadMove where
  id : Uuid
  origin : Status
  target : Status
  deriving DecidableEq, Repr

namespace Row

/-- A new row for an event written as `payload`. -/
def pending (id : Uuid) (now : Reading) (e : Event) (payload : Bytes) : Row :=
  { id, eventId := e.id, eventName := e.name, aggregateId := e.aggregateId, payload
    createdAt := now, status := .pending, attempts := 0, lastError := none
    lastAttemptAt := none, sentAt := none, lockedUntil := none }

def toJson (r : Row) : Json :=
  .obj [("id", .str r.id.text), ("event_id", r.eventId.toJson), ("event_name", .str r.eventName),
    ("aggregate_id", r.aggregateId.toJson), ("payload", Json.ofBytes r.payload),
    ("created_at", r.createdAt.toJson), ("status", r.status.toJson),
    ("attempts", Json.ofUInt32 r.attempts), ("last_error", Json.ofOption Json.str r.lastError),
    ("last_attempt_at", Json.ofOption Instant.toJson r.lastAttemptAt),
    ("sent_at", Json.ofOption Instant.toJson r.sentAt),
    ("locked_until", Json.ofOption Instant.toJson r.lockedUntil)]

def fieldNames : List String :=
  ["id", "event_id", "event_name", "aggregate_id", "payload", "created_at", "status", "attempts",
    "last_error", "last_attempt_at", "sent_at", "locked_until"]

def ofJson? (j : Json) : Option Row := do
  match ← j.record? fieldNames with
  | [id, eventId, eventName, aggregateId, payload, createdAt, status, attempts, lastError,
      lastAttemptAt, sentAt, lockedUntil] =>
      return {
        id := ← Json.required? (fun j => j.asString?.bind Uuid.parse) id
        eventId := ← Json.required? Id.ofJson? eventId
        eventName := ← Json.required? Json.asString? eventName
        aggregateId := ← Json.required? Id.ofJson? aggregateId
        payload := ← Json.required? Json.asBytes? payload
        createdAt := ← Json.required? Instant.ofJson? createdAt
        status := ← Json.required? Status.ofJson? status
        attempts := ← Json.required? Json.asUInt32? attempts
        lastError := ← Json.optional? Json.asString? lastError
        lastAttemptAt := ← Json.optional? Instant.ofJson? lastAttemptAt
        sentAt := ← Json.optional? Instant.ofJson? sentAt
        lockedUntil := ← Json.optional? Instant.ofJson? lockedUntil }
  | _ => none

/-! ## Moves -/

/-- The row must have a status before it can move on to another. -/
def require (r : Row) (origin target : Status) : Except BadMove Unit :=
  if r.status = origin then .ok () else .error ⟨r.id, r.status, target⟩

/-- Pending, and not under a lease that still runs. -/
def isClaimable (r : Row) (now : Instant) : Bool :=
  r.status = .pending && (match r.lockedUntil with | none => true | some t => t ≤ now)

/-- Puts the row under a lease. -/
def claim (r : Row) (now : Instant) (lease : Duration) : Row :=
  { r with lockedUntil := some (now.add lease) }

def markSent (r : Row) (now : Instant) : Except BadMove Row := do
  r.require .pending .sent
  return { r with status := .sent, sentAt := some now, lockedUntil := none }

/-- One more attempt; **the count stops at its greatest value.** -/
def nextAttempts (n : UInt32) : UInt32 := if n = 0xFFFFFFFF then n else n + 1

/-- Notes a failed attempt. The row stays pending. -/
def markFailed (r : Row) (error : String) (now : Instant) : Except BadMove Row := do
  r.require .pending .pending
  return { r with
    attempts := nextAttempts r.attempts
    lastError := some error, lastAttemptAt := some now, lockedUntil := none }

/-- Gives the row up. -/
def deadLetter (r : Row) : Except BadMove Row := do
  r.require .pending .failed
  return { r with status := .failed, lockedUntil := none }

/-- Takes a row that was given up back into delivery, with no attempts counted. -/
def requeue (r : Row) : Except BadMove Row := do
  r.require .failed .pending
  return { r with status := .pending, attempts := 0 }

/-! ## Age -/

/-- Created before the other, or at the same time with an id not greater. -/
def notYounger (a b : Row) : Bool :=
  a.createdAt < b.createdAt || (a.createdAt == b.createdAt && a.id.toNat ≤ b.id.toNat)

/-- Rows by time of creation, then id. -/
def oldestFirst (rows : List Row) : List Row := rows.mergeSort notYounger

end Row

end Registrar.Outbox
