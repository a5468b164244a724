import Registrar.Context
import Registrar.Outbox.Repository

set_option autoImplicit false

/-! # Writing events into the outbox

Events are staged as new rows in the transaction that also stores their aggregate, so that both are
committed or neither. -/

namespace Registrar.Outbox

/-- The identifier and the time of a new row. -/
structure Stamp where
  id : Uuid
  now : Reading

/-- Stages events in order, the first with stamp and question number `n`; stops at the first that
cannot be written. -/
def writeFrom {S T : Type} (serializer : Serializer) (repository : Repository S T) (watch : Watch)
    (stamps : Nat → Stamp) (state : S) (n : Nat) :
    List Event → Option T → Except OutboxError Unit × Option T
  | [], tx => (.ok (), tx)
  | e :: es, tx => match serializer.serialize e with
      | .error err => (.error (.serialization err), tx)
      | .ok payload =>
          let row := Row.pending (stamps n).id (stamps n).now e payload
          match repository.insert (watch n) row state tx with
          | (.error err, tx) => (.error err, tx)
          | (.ok (), tx) =>
              writeFrom serializer repository watch stamps state (n + 1) es tx

/-- Stages events and answers how many there were. -/
def write {S T : Type} (serializer : Serializer) (repository : Repository S T) (watch : Watch)
    (stamps : Nat → Stamp) (events : List Event) (state : S) (tx : Option T) :
    Except OutboxError Nat × Option T :=
  let (result, tx) := writeFrom serializer repository watch stamps state 0 events tx
  (result.map fun () => events.length, tx)

end Registrar.Outbox
