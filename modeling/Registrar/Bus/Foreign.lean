import Registrar.Bus.Layer

set_option autoImplicit false

/-! # Foreign layers to build from

What layers commonly do, each as a way to enter one: hand everything on, act before and after,
answer in place of the handler, mend an error, panic, cancel, note something in the context. -/

namespace Registrar.Bus

/-- How a foreign layer is entered. -/
abbrev Entry (L : Catalogue) (σ : Type) : Type :=
  MessageKind → Context → Message L → Scene σ → Course L σ

namespace Entry

variable {L : Catalogue} {σ : Type}

/-- Hands everything on as it is. -/
def pass : Entry L σ := fun _ c m s => .passes c m s (fun r s => (.returned r, s)) id

/-- Acts on messages of one name and hands all others on. -/
def only (name : String) (entry : Entry L σ) : Entry L σ := fun kind c m s =>
  if m.name = name then entry kind c m s else pass kind c m s

/-- Changes what observers keep, before the message is handed on and after the result is back. -/
def around (before : MessageKind → Message L → σ → σ)
    (after : MessageKind → Message L → Result L → σ → σ) : Entry L σ := fun kind c m s =>
  .passes c m { s with own := before kind m s.own }
    (fun r s => (.returned r, { s with own := after kind m r s.own })) id

/-- Changes what observers keep before the message is handed on. -/
def before (change : MessageKind → Message L → σ → σ) : Entry L σ :=
  around change fun _ _ _ own => own

/-- Answers in place of all that lies within. -/
def answer (r : Result L) : Entry L σ := fun _ _ _ s => .answers r s

/-- Puts an output in place of an error. -/
def recover (mend : BusError L.Failure → Output L) : Entry L σ := fun _ c m s =>
  .passes c m s (fun r s => (.returned (match r with
    | .ok o => .ok o
    | .error e => .ok (mend e)), s)) id

/-- Panics before the message is handed on. -/
def panicBefore (p : PanicPayload) : Entry L σ := fun _ _ _ s => .panics p s

/-- Panics when the result is back. -/
def panicAfter (p : PanicPayload) : Entry L σ := fun _ c m s =>
  .passes c m s (fun _ s => (.panicked p, s)) id

/-- Cancels the context. -/
def cancel : Entry L σ := fun kind c m s =>
  pass kind c m { s with signals := s.signals.raise c.flag }

/-- Notes something in the context that is handed on. -/
def annotate (key value : String) : Entry L σ := fun kind c m s =>
  pass kind (c.withMetadata key value) m s

end Entry

end Registrar.Bus
