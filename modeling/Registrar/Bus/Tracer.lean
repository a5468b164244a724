import Registrar.World

set_option autoImplicit false

/-! # Tracers

A span is opened around every execution that is traced. A tracer either ignores what happens in the
span, writes it to the log, or tells an observer. -/

namespace Registrar

/-- What happens in a span. -/
inductive SpanNote where
  | started
  | tagged (key value : String)
  | event (name : String)
  | failed (error : String)
  | ended
  deriving DecidableEq, Repr

inductive Tracer (σ : Type) where
  | silent
  | recorded
  /-- The observer sees the operation of the span with each note. -/
  | observed (tell : String → SpanNote → σ → σ)

namespace Tracer

variable {σ : Type}

def spanName : String := "gatekeeper.operation"

/-- The log record of a note; the end of a span has none. -/
def record? (operation : String) : SpanNote → Option LogRecord
  | .started => some (.span spanName [("operation", operation)])
  | .tagged key value =>
      some (.event .debug "span attribute" [("attribute", key), ("value", value)])
  | .event name => some (.event .info "span event" [("event", name)])
  | .failed error => some (.field spanName [("error", error)])
  | .ended => none

def tell (t : Tracer σ) (operation : String) (n : SpanNote) (w : World σ) : World σ :=
  match t with
  | .silent => w
  | .recorded => (record? operation n).elim w w.log
  | .observed f => { w with scene := { w.scene with own := f operation n w.scene.own } }

end Tracer

end Registrar
