import Registrar.Dispatch.Handler
import Registrar.Dispatch.Mode
import Registrar.Dispatch.Schedule

set_option autoImplicit false

/-! # Dispatching events

A dispatcher hands an event to every handler that accepts its name. One that fails or panics does
not keep the others from running; the failures are reported together. -/

namespace Registrar

/-! ## Failures -/

structure HandlerFailure where
  handler : String
  error : String
  deriving DecidableEq, Repr

def HandlerFailure.text (f : HandlerFailure) : String := f.handler ++ ": " ++ f.error

/-- Why a dispatch failed. -/
inductive DispatchError where
  | context (e : ContextError)
  | handlersFailed (eventName : String) (attempted : Nat) (failures : List HandlerFailure)
  deriving DecidableEq, Repr

namespace DispatchError

def message : DispatchError → String
  | .context e => e.message
  | .handlersFailed name attempted failures =>
      toString failures.length ++ " of " ++ toString attempted ++ " handler(s) failed for `" ++
        name ++ "`: " ++ String.intercalate "; " (failures.map HandlerFailure.text)

def failures : DispatchError → List HandlerFailure
  | .context _ => []
  | .handlersFailed _ _ fs => fs

/-- The same error with its failures by handler, then by what each said. -/
def sorted : DispatchError → DispatchError
  | .handlersFailed name attempted fs => .handlersFailed name attempted (fs.mergeSort fun a b =>
      decide (a.handler < b.handler) || (a.handler == b.handler && decide (a.error ≤ b.error)))
  | e => e

end DispatchError

instance : Report DispatchError where
  kind
    | .context e => "Context." ++ Report.kind e
    | .handlersFailed .. => "HandlersFailed"
  message := DispatchError.message

/-- The event of a list at which dispatching stopped, and why. -/
structure DispatchAllError where
  index : Nat
  eventName : String
  source : DispatchError
  deriving DecidableEq, Repr

def DispatchAllError.message (e : DispatchAllError) : String :=
  "dispatch stopped at event " ++ toString e.index ++ " (`" ++ e.eventName ++ "`): " ++
    e.source.message

instance : Report DispatchAllError where
  kind e := "DispatchAll." ++ Report.kind e.source
  message := DispatchAllError.message

/-! ## Dispatchers -/

/-- Handlers in the order of their registration. A measured dispatcher takes samples. -/
structure Dispatcher (σ : Type) where
  mode : DispatchMode
  measured : Bool
  handlers : List (EventHandler σ)

namespace Dispatcher

variable {σ : Type}

def register (d : Dispatcher σ) (h : EventHandler σ) : Dispatcher σ :=
  { d with handlers := d.handlers ++ [h] }

/-- The handlers that accept a name. -/
def matching (d : Dispatcher σ) (eventName : String) : List (EventHandler σ) :=
  d.handlers.filter (·.accepts eventName)

/-- The dispatcher, for diagnostics. -/
def debug (d : Dispatcher σ) : String :=
  "EventDispatcher \x7b mode: " ++ d.mode.debug ++ ", handlers: " ++ toString d.handlers.length ++
    " \x7d"

/-- Calls handlers one after another and collects the failures. -/
def callAll (c : Context) (e : Event) :
    List (EventHandler σ) → Scene σ → List HandlerFailure × Scene σ
  | [], s => ([], s)
  | h :: hs, s =>
      let (failure, s) := h.call c e s
      let (rest, s) := callAll c e hs s
      ((match failure with | some t => ⟨h.name, t⟩ :: rest | none => rest), s)

/-- Runs the tasks with these numbers in turn; answers each number with its task's failure. -/
def runTasks (c : Context) (e : Event) (hs : List (EventHandler σ)) :
    List Nat → Scene σ → List (Nat × HandlerFailure) × Scene σ
  | [], s => ([], s)
  | i :: is, s => match hs[i]? with
      | none => runTasks c e hs is s
      | some h =>
          let (failure, s) := h.call c e s
          let (rest, s) := runTasks c e hs is s
          ((match failure with | some t => (i, ⟨h.name, t⟩) :: rest | none => rest), s)

/-- Runs every handler in a task of its own and collects the failures as the tasks finish. -/
def callConcurrently (c : Context) (e : Event) (hs : List (EventHandler σ)) (o : Schedule)
    (s : Scene σ) : List HandlerFailure × Scene σ :=
  let (failures, s) := runTasks c e hs (o.runs hs.length) s
  ((o.finishes hs.length).filterMap fun i => (failures.find? (·.1 == i)).map (·.2), s)

/-- The result of a dispatch, and its sample. -/
def conclude (d : Dispatcher σ) (e : Event) (attempted : Nat) (failures : List HandlerFailure)
    (started : Nat) (w : World σ) : Except DispatchError Unit × World σ :=
  let result : Except DispatchError Unit :=
    if failures.isEmpty then .ok () else .error (.handlersFailed e.name attempted failures)
  let (now, w) := w.readClock
  (result, if d.measured then
    w.take (.timed .eventDispatch e.name (.ofExcept result) (now - started)) else w)

/-- Dispatches with a given way to call the matching handlers. -/
def dispatchBy (d : Dispatcher σ) (c : Context) (e : Event)
    (call : List (EventHandler σ) → Scene σ → List HandlerFailure × Scene σ) (w : World σ) :
    Except DispatchError Unit × World σ :=
  match w.check c with
  | .error err => (.error (.context err), w)
  | .ok () =>
      let hs := d.matching e.name
      let (started, w) := w.readClock
      let (failures, scene) := call hs w.scene
      d.conclude e hs.length failures started { w with scene := scene }

/-- One handler after another, in the order of registration. -/
def dispatchSequential (d : Dispatcher σ) (c : Context) (e : Event) (w : World σ) :
    Except DispatchError Unit × World σ :=
  d.dispatchBy c e (callAll c e) w

/-- Every handler in a task of its own. -/
def dispatchConcurrent (d : Dispatcher σ) (c : Context) (e : Event) (o : Schedule) (w : World σ) :
    Except DispatchError Unit × World σ :=
  d.dispatchBy c e (fun hs => callConcurrently c e hs o) w

/-- Dispatches in the dispatcher's own mode. -/
def dispatch (d : Dispatcher σ) (c : Context) (e : Event) (o : Schedule) (w : World σ) :
    Except DispatchError Unit × World σ :=
  match d.mode with
  | .sequential => d.dispatchSequential c e w
  | .concurrent => d.dispatchConcurrent c e o w

/-- Dispatches events in turn, the first of which has the given number. -/
def dispatchFrom (d : Dispatcher σ) (c : Context) (schedules : Nat → Schedule) (index : Nat) :
    List Event → World σ → Except DispatchAllError Unit × World σ
  | [], w => (.ok (), w)
  | e :: es, w => match d.dispatch c e (schedules index) w with
      | (.error source, w) => (.error ⟨index, e.name, source⟩, w)
      | (.ok (), w) => d.dispatchFrom c schedules (index + 1) es w

/-- **Dispatches events in turn and stops at the first that fails.** -/
def dispatchAll (d : Dispatcher σ) (c : Context) (schedules : Nat → Schedule) (es : List Event)
    (w : World σ) : Except DispatchAllError Unit × World σ :=
  d.dispatchFrom c schedules 0 es w

end Dispatcher

end Registrar
