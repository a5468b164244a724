import Registrar.Accounts.Service
import Registrar.Accounts.Unreachable
import Registrar.Bus
import Registrar.Config
import Registrar.Outbox.Processor

set_option autoImplicit false

/-! # The assembly

Two buses in front of the services, a dispatcher for the events that come out of the outbox, and
the processor between the outbox and the dispatcher, wired by a configuration over one backend.
Everything is measured under one list of samples. -/

namespace Registrar.Accounts

/-! ## Handlers of the buses -/

/-- What the handlers of the buses work on: the room of the backend, how many commands were served,
and what event handlers and observers keep. -/
structure Desk (S T ρ : Type) where
  room : Room S T
  served : Nat
  own : ρ

variable {S T ρ : Type}

namespace Desk

/-- Works on the room of the backend. -/
def onRoom {α : Type} (f : Room S T → α × Room S T) (w : World (Desk S T ρ)) :
    α × World (Desk S T ρ) :=
  let desk := w.scene.own
  let (a, room) := f desk.room
  (a, { w with scene := { w.scene with own := { desk with room } } })

/-- Works on the state of the backend. -/
def onState {α : Type} (f : S → α × S) : World (Desk S T ρ) → α × World (Desk S T ρ) :=
  onRoom fun room =>
    let (a, manager) := f room.manager
    (a, { room with manager })

/-- Changes what event handlers and observers keep. -/
def withOwn (own : ρ) (w : World (Desk S T ρ)) : World (Desk S T ρ) :=
  { w with scene := { w.scene with own := { w.scene.own with own } } }

/-- The state and the world that passes over the outbox work on. -/
def site (w : World (Desk S T ρ)) : Outbox.Site S ρ :=
  ⟨w.scene.own.room.manager,
    ⟨⟨w.scene.signals, w.scene.clock, w.scene.own.own⟩, w.samples, w.records⟩⟩

/-- The world after passes over the outbox. -/
def afterPasses (w : World (Desk S T ρ)) (s : Outbox.Site S ρ) : World (Desk S T ρ) :=
  let desk := w.scene.own
  let room := { desk.room with manager := s.store }
  let scene := s.world.scene
  ⟨⟨scene.signals, scene.clock, { desk with room := room, own := scene.own }⟩,
    s.world.samples, s.world.records⟩

def onSite {α : Type} (f : Outbox.Site S ρ → α × Outbox.Site S ρ) (w : World (Desk S T ρ)) :
    α × World (Desk S T ρ) :=
  let (a, s) := f (site w)
  (a, afterPasses w s)

end Desk

/-- Serves a command with the draws that are its own. -/
def serve {α : Type} (supply : Nat → Draws)
    (command : Draws → Room S T → Ending AccountError α × Room S T) (scene : Scene (Desk S T ρ)) :
    Ending AccountError α × Scene (Desk S T ρ) :=
  let desk := scene.own
  let (ending, room) := command (supply desk.served) desk.room
  (ending, { scene with own := { desk with room := room, served := desk.served + 1 } })

/-- The handler of each command. -/
def commandHandler (s : Service S T) (supply : Nat → Draws) :
    (t : CommandTopic) → Bus.Handler commands (Desk S T ρ) t
  | .registerUser => ⟨fun c cmd scene => serve supply (s.register (scene.watch c) cmd) scene⟩
  | .login => ⟨fun c cmd scene => serve supply (s.login (scene.watch c) cmd) scene⟩
  | .changePassword =>
      ⟨fun c cmd scene => serve supply (s.changePassword (scene.watch c) cmd) scene⟩

/-- The handler of each query. -/
def queryHandler (s : Service S T) : (t : QueryTopic) → Bus.Handler queries (Desk S T ρ) t
  | .getUser => ⟨fun c q scene =>
      (orFail (s.getUser (scene.watch c) q scene.own.room.manager) .returned, scene)⟩
  | .findUserByEmail => ⟨fun c q scene =>
      (orFail (s.findUserByEmail (scene.watch c) q scene.own.room.manager) .returned, scene)⟩

def commandTopics : List CommandTopic := [.registerUser, .login, .changePassword]

def queryTopics : List QueryTopic := [.getUser, .findUserByEmail]

/-- Registers a handler for each of some topics; stops at the first that has one. -/
def registerAll {L : Catalogue} {σ : Type} (handler : (t : L.Topic) → Bus.Handler L σ t) :
    List L.Topic → Bus L σ → World σ → Except (BusError L.Failure) Unit × Bus L σ × World σ
  | [], b, w => (.ok (), b, w)
  | t :: ts, b, w => match b.register t (handler t) w with
      | (.error e, w) => (.error e, b, w)
      | (.ok b, w) => registerAll handler ts b w

/-! ## Wiring -/

structure Assembly (S T ρ : Type) where
  config : Config
  service : Service S T
  commands : Bus Accounts.commands (Desk S T ρ)
  queries : Bus Accounts.queries (Desk S T ρ)
  dispatcher : Dispatcher ρ

namespace Assembly

/-- Registers the handlers of all commands and queries. -/
def registerHandlers (sys : Assembly S T ρ) (supply : Nat → Draws) (w : World (Desk S T ρ)) :
    Except (BusError AccountError) Unit × Assembly S T ρ × World (Desk S T ρ) :=
  match registerAll (L := Accounts.commands) (commandHandler sys.service supply) commandTopics
      sys.commands w with
  | (.error e, commands, w) => (.error e, { sys with commands := commands }, w)
  | (.ok (), commands, w) =>
      let (result, queries, w) := registerAll (L := Accounts.queries) (queryHandler sys.service)
        queryTopics sys.queries w
      (result, { sys with commands := commands, queries := queries }, w)

/-- The parts by themselves, with no handler registered. -/
def unwired (config : Config) (tracer : Tracer (Desk S T ρ)) (service : Service S T) :
    Assembly S T ρ where
  config
  service
  commands := .observed .command tracer config.slowThreshold
  queries := .observed .query tracer config.slowThreshold
  dispatcher := ⟨config.dispatchMode, true, []⟩

/-- **The system that a configuration describes**, over the backend of a service. -/
def assemble (config : Config) (tracer : Tracer (Desk S T ρ)) (service : Service S T)
    (supply : Nat → Draws) (w : World (Desk S T ρ)) :
    Except (BusError AccountError) (Assembly S T ρ) × World (Desk S T ρ) :=
  match (unwired config tracer service).registerHandlers supply w with
  | (.error e, _, w) => (.error e, w)
  | (.ok (), sys, w) => (.ok sys, w)

/-- The processor of the system's outbox. -/
def processor (sys : Assembly S T ρ) : Outbox.Processor S T ρ :=
  ⟨sys.service.backend.outbox, sys.dispatcher, .json, true, sys.config.outbox⟩

/-! ## Passes over the outbox -/

def process (sys : Assembly S T ρ) (c : Context) (conditions : Outbox.Conditions)
    (w : World (Desk S T ρ)) : Except OutboxError Outbox.Report × World (Desk S T ρ) :=
  Desk.onSite (sys.processor.process c conditions) w

end Assembly

/-! ## Starting -/

/-- Why a system did not start. -/
inductive StartError where
  | missingDatabaseUrl
  | connect (reason : String)
  | bus (e : BusError AccountError)
  deriving DecidableEq

def StartError.message : StartError → String
  | .missingDatabaseUrl => "DATABASE_URL is not set"
  | .connect r => "failed to connect to Postgres: " ++ r
  | .bus e => e.message AccountError.message

instance : Report StartError where
  kind
    | .missingDatabaseUrl => "MissingDatabaseUrl"
    | .connect _ => "Connect"
    | .bus e => Report.kind e
  message := StartError.message

/-- Starts over a database server, of which none can be reached. -/
def Assembly.connect (config : Config) : Except StartError (Assembly Unit Empty ρ) :=
  match config.databaseUrl with
  | none => .error .missingDatabaseUrl
  | some _ => .error (.connect unexplained)

end Registrar.Accounts
