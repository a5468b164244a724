import Registrar.Outbox.Processor

set_option autoImplicit false

/-! # The worker

A worker runs a processor over and over, each pass under a context of its own. After a full batch
that was delivered completely it goes on at once, so that a backlog drains; after any other pass it
waits. The passes between two waits are a burst. Time is counted in milliseconds, and only waiting
takes any. -/

namespace Registrar.Outbox

/-- What a pass of a worker starts with: the correlation of its context, and its conditions. -/
structure Turn where
  correlation : Uuid
  conditions : Conditions

namespace Processor

variable {σ : Type}

/-- A pass under a new context. -/
def processAfresh {S T : Type} (p : Processor S T σ) (turn : Turn) (s : Site S σ) :
    Except OutboxError Report × Site S σ :=
  let (context, signals) := Context.create turn.correlation s.world.scene.signals
  let scene := { s.world.scene with signals := signals }
  p.process context turn.conditions { s with world := { s.world with scene := scene } }

/-- Whether a worker goes on without waiting. -/
def goesOn {S T : Type} (p : Processor S T σ) : Except OutboxError Report → Bool
  | .ok report => report.isFullAndDelivered p.config.batchSize
  | .error _ => false

/-- At most so many passes, until one after which the worker waits; their results in order. Before
each the worker looks whether it was asked to stop. -/
def passes {S T : Type} (p : Processor S T σ) (turns : Nat → Turn) (asked : Nat → Bool) (n : Nat) :
    Nat → Site S σ → List (Except OutboxError Report) × Site S σ
  | 0, s => ([], s)
  | most + 1, s =>
      if asked n then ([], s)
      else
        let (result, s) := p.processAfresh (turns n) s
        if p.goesOn result then
          let (results, s) := p.passes turns asked (n + 1) most s
          (result :: results, s)
        else ([result], s)

/-- **The passes between two waits.** Each pass after which the worker goes on has sent a row, so
one more pass than there are rows is enough. -/
def burst {T : Type} (p : Processor Store T σ) (turns : Nat → Turn) (asked : Nat → Bool)
    (s : Site Store σ) : List (Except OutboxError Report) × Site Store σ :=
  p.passes turns asked 0 ((s.store.tables.table tableName).size + 1) s

end Processor

/-! ## Life of a worker -/

/-- What a worker does next: its first burst, a burst when its wait is over, or nothing. -/
inductive Phase where
  | starting
  | waiting (wake : Nat)
  | stopped
  deriving DecidableEq, Repr

/-- A worker ends by itself at its next wait once nobody holds it. -/
structure Worker where
  phase : Phase
  held : Bool
  deriving DecidableEq, Repr

namespace Worker

variable {T σ : Type}

/-- A worker that was started and has not run yet. -/
def spawned : Worker := ⟨.starting, true⟩

def isFinished (w : Worker) : Bool := w.phase = .stopped

/-- Asks a worker to stop and waits until it has; it makes no more passes. -/
def shutdown (w : Worker) : Worker := { w with phase := .stopped }

/-- Lets go of a worker. One that waits ends; one that has not run yet has its first burst. -/
def release (w : Worker) : Worker :=
  match w.phase with
  | .waiting _ => ⟨.stopped, false⟩
  | phase => ⟨phase, false⟩

/-- The time of a worker's next burst. -/
def due (w : Worker) (now : Nat) : Option Nat :=
  match w.phase with
  | .starting => some now
  | .waiting wake => some wake
  | .stopped => none

/-- The worker after a burst at some time. -/
def rest (w : Worker) (poll now : Nat) : Worker :=
  if w.held then { w with phase := .waiting (now + poll) } else { w with phase := .stopped }

/-- The bursts that are due before `stop`, at most so many. Nobody asks the worker to stop during
one. -/
def runBursts (p : Processor Store T σ) (poll : Nat) (turns : Nat → Nat → Turn) (stop : Nat) :
    Nat → Nat → Worker → Site Store σ → Worker × Site Store σ
  | 0, _, w, s => (w, s)
  | most + 1, now, w, s => match w.due now with
      | none => (w, s)
      | some time =>
          if time < stop then
            let (_, s) := p.burst (turns time) (fun _ => false) s
            runBursts p poll turns stop most time (w.rest poll time) s
          else (w, s)

/-- **Lets time pass from `now` to `stop`.** A worker that waits at least a millisecond between
bursts has no more of them than there are milliseconds. -/
def run (p : Processor Store T σ) (poll : Nat) (turns : Nat → Nat → Turn) (now stop : Nat)
    (w : Worker) (s : Site Store σ) : Worker × Site Store σ :=
  runBursts p poll turns stop (stop - now) now w s

/-- Lets time pass for workers that share a site, one after another. -/
def runAll (p : Processor Store T σ) (poll : Nat) (turns : Nat → Nat → Turn) (now stop : Nat) :
    List Worker → Site Store σ → List Worker × Site Store σ
  | [], s => ([], s)
  | w :: ws, s =>
      let (w, s) := w.run p poll turns now stop s
      let (ws, s) := runAll p poll turns now stop ws s
      (w :: ws, s)

/-- **Stops the worker that is held**, if there is one. Those that nobody holds and that have not
run yet have their only burst while it is waited for. -/
def stopHeld (p : Processor Store T σ) (turns : Nat → Nat → Turn) (now : Nat) (ws : List Worker)
    (s : Site Store σ) : List Worker × Site Store σ :=
  let (held, free) := ws.partition (·.held)
  if held.isEmpty then (ws, s)
  else
    let (free, s) := runAll p 0 turns now (now + 1) free s
    (free ++ held.map (·.shutdown.release), s)

end Worker

end Registrar.Outbox
