import Registrar.Bus.Layer

set_option autoImplicit false

/-! # Buses

A bus brings each message to the one handler of its topic, through its layers. **The first handler
registered for a topic stays.** Nothing that a handler or a layer does can break out of an
execution: panics become errors. -/

namespace Registrar

namespace Bus

/-- The handler of a topic answers in the form of that topic. -/
structure Handler (L : Catalogue) (σ : Type) (t : L.Topic) where
  handle : Context → L.Body t → Scene σ → Ending L.Failure (L.Value (L.form t)) × Scene σ

end Bus

structure Bus (L : Catalogue) (σ : Type) where
  kind : MessageKind
  handler? : (t : L.Topic) → Option (Bus.Handler L σ t)
  layers : List (Bus.Layer L σ)

namespace Bus

variable {L : Catalogue} {σ : Type}

/-! ## Setting up -/

/-- A bus without handlers and layers. -/
def empty (kind : MessageKind) : Bus L σ := ⟨kind, fun _ => none, []⟩

/-- Adds a layer within those that are there. -/
def use (b : Bus L σ) (l : Layer L σ) : Bus L σ := { b with layers := b.layers ++ [l] }

/-- A bus that is traced, measured and logged. -/
def observed (kind : MessageKind) (tracer : Tracer σ) (threshold : Duration) : Bus L σ :=
  (((empty kind).use (.tracing tracer threshold)).use .metrics).use (.logging threshold)

def isRegistered (b : Bus L σ) (t : L.Topic) : Bool := (b.handler? t).isSome

/-- Sets the handler of a topic. -/
def setHandler (b : Bus L σ) (t : L.Topic) (h : Handler L σ t) : Bus L σ :=
  { b with handler? := fun u => if e : t = u then some (e ▸ h) else b.handler? u }

/-- What the log says of a registration. -/
def registrationRecord (kind : MessageKind) (name : String) : LogRecord :=
  .event .debug (kind.name ++ " handler registered") [(kind.name, name)]

/-- Registers the handler of a topic that has none. -/
def register (b : Bus L σ) (t : L.Topic) (h : Handler L σ t) (w : World σ) :
    Except (BusError L.Failure) (Bus L σ) × World σ :=
  if b.isRegistered t then (.error (.alreadyRegistered b.kind (L.name t)), w)
  else (.ok (b.setHandler t h), w.log (registrationRecord b.kind (L.name t)))

/-! ## Executing -/

/-- What a handler's ending means to the layers. -/
def Handler.result (kind : MessageKind) (t : L.Topic) :
    Ending L.Failure (L.Value (L.form t)) → Result L
  | .returned v => .ok ⟨L.form t, v⟩
  | .failed e => .error (.handler e)
  | .panicked p => .error (.panicked kind (L.name t) p.message)

/-- The handler as the end of the way inwards. A message on another topic does not reach it. -/
def Handler.inmost (kind : MessageKind) {t : L.Topic} (h : Handler L σ t) : Inner L σ :=
  fun c m w => match m.body? t with
    | none => (.returned (.error (.typeMismatch (L.name t))), w)
    | some body =>
        let (ending, s) := h.handle c body w.scene
        (.returned (result kind t ending), { w with scene := s })

/-- Brings a message to its handler and back. A panic of a layer ends here. -/
def send (b : Bus L σ) (c : Context) (m : Message L) (h : Handler L σ m.topic) (w : World σ) :
    Result L × World σ :=
  match Layer.nest b.kind (h.inmost b.kind) b.layers c m w with
  | (.returned r, w) => (r, w)
  | (.panicked p, w) => (.error (.panicked b.kind m.name p.message), w)

/-- The answer in the form that the topic expects. -/
def answer (t : L.Topic) : Result L → Except (BusError L.Failure) (L.Value (L.form t))
  | .error e => .error e
  | .ok o => match o.value? (L.form t) with
      | some v => .ok v
      | none => .error (.typeMismatch (L.name t))

/-- Whether a message must be refused as empty; only commands are. -/
def refusesNil (b : Bus L σ) (m : Message L) : Bool :=
  b.kind == .command && L.isNil m.topic m.body

/-- **Executes a message.** An empty command is refused first, then an ended context, then a topic
without a handler; none of them reaches a layer. -/
def execute (b : Bus L σ) (c : Context) (m : Message L) (w : World σ) :
    Except (BusError L.Failure) (L.Value (L.form m.topic)) × World σ :=
  if b.refusesNil m then (.error (.nilCommand m.name), w)
  else match w.check c with
    | .error e => (.error (.context e), w)
    | .ok () => match b.handler? m.topic with
        | none => (.error (.handlerNotFound b.kind m.name), w)
        | some h =>
            let (r, w) := b.send c m h w
            (answer m.topic r, w)

end Bus

end Registrar
