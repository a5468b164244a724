import Registrar.Store.Transaction

set_option autoImplicit false

/-! # Units of work

A unit of work holds at most one transaction at a time. Beginning it gives out a handle; whoever
has the handle, or a copy of it, can use the transaction until the unit commits it or rolls it
back, and from then on finds it closed. Handles are numbers into a list of cells, which is shared
by all units over one manager, so that no two handles are alike. -/

namespace Registrar

/-! ## Managers -/

/-- Opens and finishes transactions of type `T`; its own state is of type `M`. -/
structure Manager (M T : Type) where
  begin : M → Except TransactionError T × M
  commit : T → M → Except TransactionError Unit × M
  rollback : T → M → Except TransactionError Unit × M

/-- Transactions over a store. -/
def Manager.store : Manager Store Transaction where
  begin s := (.ok .empty, s)
  commit := Transaction.commit
  rollback := Transaction.rollback

/-- Failures that a manager is to report before doing anything. -/
structure Faults where
  begin : Bool := false
  rollback : Bool := false
  deriving DecidableEq, Inhabited

/-- A manager that fails when told to, once each time. -/
def Manager.faulty {M T : Type} (m : Manager M T) : Manager (Faults × M) T where
  begin s :=
    if s.1.begin then
      (.error (.beginFailed "injected begin failure"), ({ s.1 with begin := false }, s.2))
    else let (r, s') := m.begin s.2; (r, (s.1, s'))
  commit t s := let (r, s') := m.commit t s.2; (r, (s.1, s'))
  rollback t s :=
    if s.1.rollback then
      (.error (.rollbackFailed "injected rollback failure"),
        ({ s.1 with rollback := false }, s.2))
    else let (r, s') := m.rollback t s.2; (r, (s.1, s'))

/-! ## Handles and rooms -/

structure Handle where
  index : Nat
  deriving DecidableEq, Repr

/-- What the units over one manager share: its state, and the transaction behind each handle, which
is gone once the handle is closed. -/
structure Room (M T : Type) where
  manager : M
  cells : List (Option T)
  deriving DecidableEq

namespace Room

variable {M T : Type}

/-- The transaction behind a handle. -/
def cell (r : Room M T) (h : Handle) : Option T := (r.cells[h.index]?).join

def isOpen (r : Room M T) (h : Handle) : Bool := (r.cell h).isSome

/-- Access to the transaction behind a handle. -/
def lock (r : Room M T) (h : Handle) : Except TransactionError T :=
  match r.cell h with
  | some t => .ok t
  | none => .error .closed

def setCell (r : Room M T) (h : Handle) (t : Option T) : Room M T :=
  { r with cells := r.cells.set h.index t }

/-- Works on what is behind a handle: its transaction, or nothing. A closed handle stays closed. -/
def use {α : Type} (r : Room M T) (h : Handle) (f : M → Option T → α × Option T) :
    α × Room M T :=
  let (a, t) := f r.manager (r.cell h)
  (a, r.setCell h ((r.cell h).bind fun _ => t))

/-- A new handle on a transaction. -/
def allot (r : Room M T) (t : T) : Handle × Room M T :=
  (⟨r.cells.length⟩, { r with cells := r.cells ++ [some t] })

end Room

/-! ## Units -/

/-- Idle, or active with the handle given out last. -/
inductive UnitOfWork where
  | idle
  | active (handle : Handle)
  deriving DecidableEq, Repr

namespace UnitOfWork

variable {M T : Type}

def isActive : UnitOfWork → Bool
  | .idle => false
  | .active _ => true

/-- An idle unit, for diagnostics. -/
def idleDebug : String := "UnitOfWork \x7b state: Idle \x7d"

/-- Opens a transaction, unless the context has ended or one is open already. -/
def begin (m : Manager M T) (context : Except ContextError Unit) (u : UnitOfWork)
    (r : Room M T) : Except TransactionError Handle × UnitOfWork × Room M T :=
  match context with
  | .error e => (.error (.context e), u, r)
  | .ok () => match u with
      | .active _ => (.error .alreadyActive, u, r)
      | .idle => match m.begin r.manager with
          | (.error e, s) => (.error e, .idle, { r with manager := s })
          | (.ok t, s) =>
              let (h, r) := Room.allot { r with manager := s } t
              (.ok h, .active h, r)

/-- Takes the transaction out of the handle and makes the unit idle. **Only the unit's own open
handle will do.** -/
def close (h : Handle) (u : UnitOfWork) (r : Room M T) :
    Except TransactionError T × UnitOfWork × Room M T :=
  if u = .active h then
    match r.cell h with
    | none => (.error .closed, u, r)
    | some t => (.ok t, .idle, r.setCell h none)
  else (.error .notActive, u, r)

/-- Closes the handle and lets the manager finish the transaction, whatever comes of it. -/
def finish (f : T → M → Except TransactionError Unit × M) (h : Handle) (u : UnitOfWork)
    (r : Room M T) : Except TransactionError Unit × UnitOfWork × Room M T :=
  match close h u r with
  | (.error e, u, r) => (.error e, u, r)
  | (.ok t, u, r) =>
      let (result, s) := f t r.manager
      (result, u, { r with manager := s })

def commit (m : Manager M T) := finish (M := M) (T := T) m.commit

def rollback (m : Manager M T) := finish (M := M) (T := T) m.rollback

/-! ## Executing a body -/

/-- What a body can reach: the unit itself, the room, and surroundings of its own. -/
structure Reach (M T E : Type) where
  unit : UnitOfWork
  room : Room M T
  own : E

variable {E ε α : Type}

/-- Makes the unit idle if it still is active with this handle. -/
def release (h : Handle) (u : UnitOfWork) : UnitOfWork := if u = .active h then .idle else u

/-- Finishes the transaction of a body: commits it iff the body returned. A failure to roll back is
not reported. -/
def conclude (m : Manager M T) (refused : TransactionError → ε) (h : Handle) (ending : Ending ε α)
    (s : Reach M T E) : Except ε α × Reach M T E :=
  match ending with
  | .returned a =>
      let (result, u, r) := commit m h s.unit s.room
      ((result.mapError refused).map fun () => a, ⟨release h u, r, s.own⟩)
  | .failed e =>
      let (_, u, r) := rollback m h s.unit s.room
      (.error e, ⟨release h u, r, s.own⟩)
  | .panicked p =>
      let (_, u, r) := rollback m h s.unit s.room
      (.error (refused (.panicked p.message)), ⟨release h u, r, s.own⟩)

/-- **Runs a body in a transaction and commits iff the body returns.** -/
def execute (m : Manager M T) (context : Except ContextError Unit)
    (refused : TransactionError → ε)
    (body : Handle → Reach M T E → Ending ε α × Reach M T E)
    (s : Reach M T E) : Except ε α × Reach M T E :=
  match begin m context s.unit s.room with
  | (.error e, u, r) => (.error (refused e), ⟨u, r, s.own⟩)
  | (.ok h, u, r) =>
      let (ending, s) := body h ⟨u, r, s.own⟩
      conclude m refused h ending s

/-- Runs a body that only works on the transaction, in a unit of its own. -/
def alone (m : Manager M T) (context : Except ContextError Unit) (refused : TransactionError → ε)
    (body : M → Option T → Except ε α × Option T) (r : Room M T) : Except ε α × Room M T :=
  let (result, s) := execute m context refused
    (fun h (s : Reach M T Unit) =>
      let (result, room) := s.room.use h body
      (.ofExcept result, { s with room })) ⟨.idle, r, ()⟩
  (result, s.room)

/-- Runs a body that may never end. When its caller gives up on it, there is no result, and its
transaction is neither committed nor rolled back. -/
def attempt (m : Manager M T) (context : Except ContextError Unit)
    (refused : TransactionError → ε)
    (body : Handle → Reach M T E → Option (Ending ε α) × Reach M T E)
    (s : Reach M T E) : Option (Except ε α) × Reach M T E :=
  match begin m context s.unit s.room with
  | (.error e, u, r) => (some (.error (refused e)), ⟨u, r, s.own⟩)
  | (.ok h, u, r) => match body h ⟨u, r, s.own⟩ with
      | (some ending, s) =>
          let (result, s) := conclude m refused h ending s
          (some result, s)
      | (none, s) => (none, { s with unit := release h s.unit })

end UnitOfWork

end Registrar
