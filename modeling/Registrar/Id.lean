import Registrar.Fault
import Registrar.Json
import Registrar.Uuid

set_option autoImplicit false

/-! # Identifiers

Users, aggregates and events are named by UUIDs of their own kinds, so that one cannot be taken
for another by mistake. A user is an aggregate: its identifier is one for either. -/

namespace Registrar

inductive IdKind where
  | user
  | aggregate
  | event
  deriving DecidableEq, Repr

/-- The name of an identifier's kind in messages. -/
def IdKind.name : IdKind → String
  | .user => "UserId"
  | .aggregate => "AggregateId"
  | .event => "EventId"

/-- An identifier of one kind. -/
structure Id (kind : IdKind) where
  uuid : Uuid
  deriving DecidableEq, Repr, Inhabited

abbrev UserId := Id .user
abbrev AggregateId := Id .aggregate
abbrev EventId := Id .event

namespace Id

variable {kind : IdKind}

instance : LT (Id kind) := ⟨fun a b => a.uuid < b.uuid⟩

instance (a b : Id kind) : Decidable (a < b) := inferInstanceAs (Decidable (a.uuid < b.uuid))

def text (id : Id kind) : String := id.uuid.text

/-- The kind and the identifier, for diagnostics. -/
def debug (id : Id kind) : String := kind.name ++ "(" ++ id.text ++ ")"

def isNil (id : Id kind) : Bool := id.uuid == Uuid.nil

def parse? (s : String) : Option (Id kind) := (Uuid.parse s).map (⟨·⟩)

/-- Reads an identifier in any spelling of a UUID. -/
def parse (s : String) : Except DomainError (Id kind) :=
  match parse? s with
  | some id => .ok id
  | none => .error (.invalidId (kind.name ++ ": " ++ unexplained))

def toJson (id : Id kind) : Json := .str id.text

def ofJson? (j : Json) : Option (Id kind) := j.asString?.bind parse?

end Id

/-- The same identifier as that of an aggregate. -/
def Id.toAggregate (id : UserId) : AggregateId := ⟨id.uuid⟩

/-- The same identifier as that of a user. -/
def Id.toUser (id : AggregateId) : UserId := ⟨id.uuid⟩

end Registrar
