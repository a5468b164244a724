import Registrar.Fault
import Registrar.Keyed
import Registrar.Time.Instant
import Registrar.Uuid

set_option autoImplicit false

/-! # Request contexts

A context travels with a request: a correlation id, a deadline, metadata, and a cancellation flag.
The flag is shared by a context and all that are derived from it; the other parts are copied. So a
context holds the number of its flag, and the flags themselves are kept apart from the contexts. -/

namespace Registrar

/-! ## Cancellation flags -/

/-- The flags handed out so far and those that were raised. -/
structure Signals where
  next : Nat
  raised : List Nat
  deriving DecidableEq, Repr, Inhabited

namespace Signals

def none : Signals := ⟨0, []⟩

/-- A flag that no context has yet. -/
def fresh (s : Signals) : Nat × Signals := (s.next, { s with next := s.next + 1 })

/-- Raises a flag, for good. -/
def raise (s : Signals) (flag : Nat) : Signals := { s with raised := flag :: s.raised }

def isRaised (s : Signals) (flag : Nat) : Bool := s.raised.contains flag

end Signals

/-! ## Contexts -/

/-- Deadlines are readings of a clock that only runs forward, in nanoseconds. -/
structure Context where
  flag : Nat
  correlation : Uuid
  deadline : Option Nat
  metadata : Keyed String
  deriving DecidableEq

namespace Context

/-- A context of its own, with a flag that no other has. -/
def create (correlation : Uuid) (s : Signals) : Context × Signals :=
  let (flag, s) := s.fresh
  (⟨flag, correlation, none, Keyed.empty⟩, s)

def withCorrelation (c : Context) (id : Uuid) : Context := { c with correlation := id }

def withDeadline (c : Context) (at_ : Nat) : Context := { c with deadline := some at_ }

/-- A deadline that lies some time ahead. **The clock counts less than `2^63` seconds**; a deadline
past its last reading panics. -/
def withTimeout (c : Context) (now : Nat) (timeout : Duration) : Except PanicPayload Context :=
  let deadline := now + timeout.toNanos
  if deadline < 2 ^ 63 * nanosPerSecond then .ok (c.withDeadline deadline)
  else .error .clockOverflow

def withMetadata (c : Context) (key value : String) : Context :=
  { c with metadata := c.metadata.insert key value }

def isCancelled (c : Context) (s : Signals) : Bool := s.isRaised c.flag

/-- **Whether work may go on.** Cancellation is reported before a passed deadline. -/
def check (c : Context) (s : Signals) (now : Nat) : Except ContextError Unit :=
  if c.isCancelled s then .error .cancelled
  else match c.deadline with
    | some d => if d ≤ now then .error .deadlineExceeded else .ok ()
    | none => .ok ()

end Context

/-- What a context answers each time it is asked during one operation, first question first. -/
abbrev Watch := Nat → Except ContextError Unit

namespace Watch

/-- The answers from the `n`-th question on. -/
def later (w : Watch) (n : Nat) : Watch := fun i => w (n + i)

/-- A context that never ends. -/
def active : Watch := fun _ => .ok ()

end Watch

/-! ## Surroundings of foreign code

Handlers and middleware see a scene: the flags, the running clock, and what they keep themselves. -/

structure Scene (σ : Type) where
  signals : Signals
  clock : Nat
  own : σ

namespace Scene

variable {σ : Type}

def check (s : Scene σ) (c : Context) : Except ContextError Unit := c.check s.signals s.clock

/-- The same answer as often as the context is asked. -/
def watch (s : Scene σ) (c : Context) : Watch := fun _ => s.check c

/-- Reads the clock. No two readings are alike: reading takes a nanosecond. -/
def readClock (s : Scene σ) : Nat × Scene σ := (s.clock, { s with clock := s.clock + 1 })

end Scene

end Registrar
