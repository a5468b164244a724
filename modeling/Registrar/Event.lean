import Registrar.Fault
import Registrar.Id
import Registrar.Json.Printer
import Registrar.Json.Reader
import Registrar.Time.Rfc3339

set_option autoImplicit false

/-! # Domain events

An event says what happened to an aggregate and when. Its payload is a JSON text in bytes, which
only its receiver decodes. On the wire the event is itself a JSON record. -/

namespace Registrar

structure Event where
  id : EventId
  name : String
  occurredAt : Instant
  aggregateId : AggregateId
  payload : Bytes
  metadata : Keyed String
  deriving DecidableEq

namespace Event

/-- A new event without metadata. -/
def new (id : EventId) (now : Instant) (name : String) (aggregateId : AggregateId)
    (payload : Bytes) : Event :=
  ⟨id, name, now, aggregateId, payload, Keyed.empty⟩

/-- A new event whose payload is the JSON text of a value. -/
def ofPayload (id : EventId) (now : Instant) (name : String) (aggregateId : AggregateId)
    (payload : Json) : Event :=
  new id now name aggregateId payload.print

def withOccurredAt (e : Event) (t : Instant) : Event := { e with occurredAt := t }

def withMetadata (e : Event) (key value : String) : Event :=
  { e with metadata := e.metadata.insert key value }

/-- The payload read as a value of a known type. -/
def decodePayload {α : Type} (read : Json → Option α) (e : Event) : Except DomainError α :=
  match (Json.parse e.payload).bind read with
  | some a => .ok a
  | none => .error (.payload ("payload decoding failed for `" ++ e.name ++ "`: " ++ unexplained))

/-- A value that has no JSON form cannot be a payload. -/
def payloadRefused : DomainError := .payload ("payload encoding failed: " ++ unexplained)

/-! ## Wire form -/

def toJson (e : Event) : Json :=
  .obj [("id", e.id.toJson), ("name", .str e.name), ("occurred_at", e.occurredAt.toJson),
    ("aggregate_id", e.aggregateId.toJson), ("payload", Json.ofBytes e.payload),
    ("metadata", Json.ofTextMap e.metadata)]

def fieldNames : List String :=
  ["id", "name", "occurred_at", "aggregate_id", "payload", "metadata"]

def ofJson? (j : Json) : Option Event := do
  match ← j.record? fieldNames with
  | [id, name, occurredAt, aggregateId, payload, metadata] =>
      return {
        id := ← Json.required? Id.ofJson? id
        name := ← Json.required? Json.asString? name
        occurredAt := ← Json.required? Instant.ofJson? occurredAt
        aggregateId := ← Json.required? Id.ofJson? aggregateId
        payload := ← Json.required? Json.asBytes? payload
        metadata := ← Json.required? Json.asTextMap? metadata }
  | _ => none

end Event

/-! ## Serialized events -/

/-- Why an event could not be written or read back. -/
inductive SerializationError where
  | encode (eventName reason : String)
  | decode (eventName reason : String)
  | nameMismatch (expected found : String)
  deriving DecidableEq, Repr

def SerializationError.message : SerializationError → String
  | .encode n r => "failed to encode event `" ++ n ++ "`: " ++ r
  | .decode n r => "failed to decode event `" ++ n ++ "`: " ++ r
  | .nameMismatch expected found =>
      "stored bytes hold event `" ++ found ++ "`, expected `" ++ expected ++ "`"

instance : Report SerializationError where
  kind
    | .encode .. => "Encode"
    | .decode .. => "Decode"
    | .nameMismatch .. => "NameMismatch"
  message := SerializationError.message

namespace Event

def serialize (e : Event) : Bytes := e.toJson.print

/-- Reads an event that must have the given name. -/
def deserialize (bs : Bytes) (name : String) : Except SerializationError Event :=
  match (Json.parse bs).bind ofJson? with
  | none => .error (.decode name unexplained)
  | some e => if e.name = name then .ok e else .error (.nameMismatch name e.name)

end Event

/-- A way to write events as bytes and to read them back. -/
structure Serializer where
  serialize : Event → Except SerializationError Bytes
  deserialize : Bytes → String → Except SerializationError Event

/-- Events as JSON records. -/
def Serializer.json : Serializer := ⟨fun e => .ok e.serialize, Event.deserialize⟩

end Registrar
