import Registrar.Bus.Message
import Registrar.Bus.Tracer

set_option autoImplicit false

/-! # Layers around a handler

A message passes through the layers of its bus, the first added outermost, to the handler; the
result passes back through them in reverse. A layer may act on the way in and on the way back,
answer in place of all that lies within, hand on another message, replace the result, or panic. A
panic passes through the layers around it without their acting on a result. -/

namespace Registrar.Bus

variable {L : Catalogue} {σ : Type}

/-- What comes back through the layers. -/
abbrev Result (L : Catalogue) : Type := Except (BusError L.Failure) (Output L)

/-- A result, or a panic on its way out. -/
inductive Passage (L : Catalogue) where
  | returned (r : Result L)
  | panicked (p : PanicPayload)

/-- The way from a layer inwards and back. -/
abbrev Inner (L : Catalogue) (σ : Type) : Type :=
  Context → Message L → World σ → Passage L × World σ

/-! ## Foreign layers -/

/-- What a foreign layer does with a message. One that passes it on goes on, when the result is
back, with `leave`; `unwind` is what it does when a panic comes back instead. -/
inductive Course (L : Catalogue) (σ : Type) where
  | answers (r : Result L) (s : Scene σ)
  | panics (p : PanicPayload) (s : Scene σ)
  | passes (c : Context) (m : Message L) (s : Scene σ)
      (leave : Result L → Scene σ → Passage L × Scene σ) (unwind : Scene σ → Scene σ)

/-- The layers of a bus: three of our own, and foreign ones. -/
inductive Layer (L : Catalogue) (σ : Type) where
  | tracing (tracer : Tracer σ) (threshold : Duration)
  | metrics
  | logging (threshold : Duration)
  | foreign (enter : MessageKind → Context → Message L → Scene σ → Course L σ)

/-- How long an execution may take before it is slow, unless said otherwise. -/
def standardThreshold : Duration := .ofSeconds 1

/-- Slow is longer than the threshold. -/
def isSlow (threshold : Duration) (nanos : Nat) : Bool := threshold.toNanos < nanos

def Result.error? (r : Result L) : Option String :=
  match r with
  | .ok _ => none
  | .error e => some (e.message L.describe)

namespace Layer

/-! ## Tracing -/

/-- What is noted in a span before the execution. -/
def openingNotes (kind : MessageKind) (c : Context) (m : Message L) : List SpanNote :=
  [.started, .tagged "message.kind" kind.name, .tagged "message.name" m.name,
    .tagged "correlation_id" c.correlation.text]

/-- What is noted in a span after the execution. -/
def closingNotes (threshold : Duration) (nanos : Nat) (r : Result L) : List SpanNote :=
  (if isSlow threshold nanos then [.event "slow_operation"] else []) ++
    (match r.error? with | some e => [.failed e] | none => []) ++ [.ended]

def tellAll (t : Tracer σ) (operation : String) (ns : List SpanNote) (w : World σ) : World σ :=
  ns.foldl (fun w n => t.tell operation n w) w

/-- Opens a span, and closes it also on a panic. -/
def trace (t : Tracer σ) (threshold : Duration) (kind : MessageKind) (inner : Inner L σ) :
    Inner L σ := fun c m w =>
  let operation := m.operation kind
  let (started, w) := (tellAll t operation (openingNotes kind c m) w).readClock
  match inner c m w with
  | (.returned r, w) =>
      let (now, w) := w.readClock
      (.returned r, tellAll t operation (closingNotes threshold (now - started) r) w)
  | (.panicked p, w) => (.panicked p, t.tell operation .ended w)

/-! ## Metrics -/

def metricKind : MessageKind → MetricKind
  | .command => .command
  | .query => .query

/-- Takes a sample of each execution that comes back with a result. -/
def measure (kind : MessageKind) (inner : Inner L σ) : Inner L σ := fun c m w =>
  let (started, w) := w.readClock
  match inner c m w with
  | (.returned r, w) =>
      let (now, w) := w.readClock
      (.returned r, w.take (.timed (metricKind kind) m.name (.ofExcept r) (now - started)))
  | (.panicked p, w) => (.panicked p, w)

/-! ## Logging -/

/-- The fields of every log record of an execution. -/
def logFields (kind : MessageKind) (c : Context) (m : Message L) : List (String × String) :=
  [("kind", kind.name), ("name", m.name), ("correlation_id", c.correlation.text)]

/-- The log records after an execution. -/
def closingRecords (threshold : Duration) (kind : MessageKind) (c : Context) (m : Message L)
    (nanos : Nat) (r : Result L) : List LogRecord :=
  let fields := logFields kind c m
  let outcome : LogRecord := match r.error? with
    | none => .event .info "executed" fields
    | some e => .event .error "execution failed" (fields ++ [("error", e)])
  let slow : LogRecord := .event .warn ("slow " ++ kind.name)
    (fields ++ [("threshold_ms", toString threshold.toMillis)])
  if isSlow threshold nanos then [outcome, slow] else [outcome]

/-- Writes log records before and after an execution. -/
def note (threshold : Duration) (kind : MessageKind) (inner : Inner L σ) : Inner L σ :=
  fun c m w =>
    let (started, w) := (w.log (.event .debug "executing" (logFields kind c m))).readClock
    match inner c m w with
    | (.returned r, w) =>
        let (now, w) := w.readClock
        (.returned r, (closingRecords threshold kind c m (now - started) r).foldl World.log w)
    | (.panicked p, w) => (.panicked p, w)

/-! ## Passing through -/

/-- A foreign layer around what lies within. -/
def wrap (enter : Context → Message L → Scene σ → Course L σ) (inner : Inner L σ) : Inner L σ :=
  fun c m w =>
    match enter c m w.scene with
    | .answers r s => (.returned r, { w with scene := s })
    | .panics p s => (.panicked p, { w with scene := s })
    | .passes c m s leave unwind => match inner c m { w with scene := s } with
        | (.returned r, w) =>
            let (passage, s) := leave r w.scene
            (passage, { w with scene := s })
        | (.panicked p, w) => (.panicked p, { w with scene := unwind w.scene })

/-- A layer around what lies within. -/
def around (kind : MessageKind) (inner : Inner L σ) : Layer L σ → Inner L σ
  | .tracing t threshold => trace t threshold kind inner
  | .metrics => measure kind inner
  | .logging threshold => note threshold kind inner
  | .foreign enter => wrap (enter kind) inner

/-- **All layers around an end, the first outermost.** -/
def nest (kind : MessageKind) (inmost : Inner L σ) : List (Layer L σ) → Inner L σ
  | [] => inmost
  | layer :: layers => layer.around kind (nest kind inmost layers)

end Layer

end Registrar.Bus
