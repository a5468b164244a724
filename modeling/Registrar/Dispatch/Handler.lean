import Registrar.Event
import Registrar.World

set_option autoImplicit false

/-! # Event handlers

A handler decides by an event's name whether it takes the event, and reacts to those it takes. Its
reaction may fail or panic, cancel contexts, take time and change what it keeps itself. -/

namespace Registrar

/-- An error and the errors that caused it, outermost first. -/
structure ErrorChain where
  outer : String
  causes : List String
  deriving DecidableEq, Repr

/-- The whole chain in one line. -/
def ErrorChain.line (e : ErrorChain) : String := String.intercalate ": " (e.outer :: e.causes)

/-- How a handler answered an event. -/
inductive Verdict where
  | handled
  | failed (e : ErrorChain)
  | panicked (p : PanicPayload)
  deriving DecidableEq, Repr

/-- The text of a failure, if it is one. -/
def Verdict.failure? : Verdict → Option String
  | .handled => none
  | .failed e => some e.line
  | .panicked p => some ("panicked: " ++ p.message)

/-- A verdict and its side effects: the flags raised, the nanoseconds spent, and what the handlers
keep afterwards. -/
structure Reaction (σ : Type) where
  verdict : Verdict
  raised : List Nat
  took : Nat
  own : σ

structure EventHandler (σ : Type) where
  name : String
  accepts : String → Bool
  react : Context → Event → Scene σ → Reaction σ

/-- The scene after a reaction. Flags once raised stay raised, and the clock runs on. -/
def Scene.after {σ : Type} (s : Scene σ) (r : Reaction σ) : Scene σ :=
  ⟨r.raised.foldl Signals.raise s.signals, s.clock + r.took, r.own⟩

/-- Calls a handler: the text of its failure, if any, and the scene afterwards. -/
def EventHandler.call {σ : Type} (h : EventHandler σ) (c : Context) (e : Event) (s : Scene σ) :
    Option String × Scene σ :=
  let r := h.react c e s
  (r.verdict.failure?, s.after r)

end Registrar
