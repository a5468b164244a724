import Registrar.UnitOfWork

set_option autoImplicit false

/-! # Units of work by name

Several units of work over one manager, each under a name, and the handles that were given out,
under names of their own. Any handle may be used with any unit; a unit is made when it is first
named. -/

namespace Registrar

structure Hall (M T : Type) where
  room : Room M T
  units : Keyed UnitOfWork
  handles : Keyed Handle

namespace Hall

variable {M T α : Type}

/-- No units and no handles yet. -/
def start (manager : M) : Hall M T := ⟨⟨manager, []⟩, .empty, .empty⟩

def unit (h : Hall M T) (name : String) : UnitOfWork := (h.units.get? name).getD .idle

/-- Makes the unit of a name if it is not there. -/
def enter (name : String) (h : Hall M T) : Hall M T :=
  { h with units := h.units.insert name (h.unit name) }

/-- Lets the unit of a name do something. -/
def onUnit (name : String) (f : UnitOfWork → Room M T → α × UnitOfWork × Room M T) (h : Hall M T) :
    α × Hall M T :=
  let (a, u, room) := f (h.unit name) h.room
  (a, { h with room, units := h.units.insert name u })

/-- Begins in a unit and names the handle that comes of it. -/
def begin (m : Manager M T) (context : Except ContextError Unit) (name handle : String)
    (h : Hall M T) : Except TransactionError Unit × Hall M T :=
  match h.onUnit name (UnitOfWork.begin m context) with
  | (.ok i, h) => (.ok (), { h with handles := h.handles.insert handle i })
  | (.error e, h) => (.error e, h)

/-- Finishes a unit with the handle of a name, if there is one. -/
def finish (f : T → M → Except TransactionError Unit × M) (name handle : String) (h : Hall M T) :
    Option (Except TransactionError Unit) × Hall M T :=
  match h.handles.get? handle with
  | none => (none, h)
  | some i =>
      let (result, h) := h.onUnit name (UnitOfWork.finish f i)
      (some result, h)

/-- Works on whatever is behind the handle of a name, if there is such a handle. -/
def use (handle : String) (f : M → Option T → α × Option T) (h : Hall M T) :
    Option α × Hall M T :=
  match h.handles.get? handle with
  | none => (none, h)
  | some i =>
      let (a, room) := h.room.use i f
      (some a, { h with room })

/-- Changes the manager. -/
def onManager (f : M → α × M) (h : Hall M T) : α × Hall M T :=
  let (a, manager) := f h.room.manager
  (a, { h with room := { h.room with manager } })

end Hall

end Registrar
