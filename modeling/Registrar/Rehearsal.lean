import Registrar.Bus
import Registrar.Dispatch.Handler

set_option autoImplicit false

/-! # Rehearsals

Handlers that follow a script, so that a wiring can be tried out before the real handlers are there.
Each handler has a script of acts, one for each call; **the last act of a script goes on for ever,
and an empty script does nothing.** What the handlers and layers have to say is kept in a log. -/

namespace Registrar

/-! ## Acts -/

/-- What a scripted handler does with one call. -/
inductive Act (ε : Type) where
  | done
  | fail (e : ε)
  /-- Fails on one argument only. -/
  | failOn (argument : String) (e : ε)
  | panic (p : PanicPayload)
  /-- Cancels the context of the call. -/
  | cancel
  | sleep (nanos : Nat)
  deriving DecidableEq, Repr

namespace Act

variable {ε : Type}

def ending (a : Act ε) (argument : String) : Ending ε Unit :=
  match a with
  | .fail e => .failed e
  | .failOn x e => if argument = x then .failed e else .returned ()
  | .panic p => .panicked p
  | _ => .returned ()

/-- The flags that an act raises. -/
def raised (a : Act ε) (c : Context) : List Nat :=
  match a with
  | .cancel => [c.flag]
  | _ => []

/-- The nanoseconds that an act takes. -/
def took : Act ε → Nat
  | .sleep nanos => nanos
  | _ => 0

end Act

/-! ## Scripts -/

/-- The log, what is left of each script, and a thing that may be put aside. -/
structure Rehearsal (ε κ : Type) where
  log : List String
  scripts : List (List (Act ε))
  aside : Option κ

namespace Rehearsal

variable {ε κ : Type}

def empty : Rehearsal ε κ := ⟨[], [], none⟩

def say (r : Rehearsal ε κ) (line : String) : Rehearsal ε κ := { r with log := r.log ++ [line] }

/-- Starts the log afresh. -/
def hush (r : Rehearsal ε κ) : Rehearsal ε κ := { r with log := [] }

/-- Adds a script; answers its number. -/
def addScript (r : Rehearsal ε κ) (acts : List (Act ε)) : Nat × Rehearsal ε κ :=
  (r.scripts.length, { r with scripts := r.scripts ++ [acts] })

/-- The next act of a script. -/
def next (r : Rehearsal ε κ) (i : Nat) : Act ε × Rehearsal ε κ :=
  match (r.scripts[i]?).getD [] with
  | [] => (.done, r)
  | [a] => (a, r)
  | a :: rest => (a, { r with scripts := r.scripts.set i rest })

/-! ## Scripted handlers -/

/-- An event handler that says which event it got and follows script `i`. -/
def eventHandler (name : String) (accepts : String → Bool) (i : Nat) :
    EventHandler (Rehearsal ErrorChain κ) where
  name
  accepts
  react c e s :=
    let (act, own) := (s.own.say (name ++ ":" ++ e.name)).next i
    let verdict : Verdict := match act.ending e.name with
      | .returned () => .handled
      | .failed chain => .failed chain
      | .panicked p => .panicked p
    ⟨verdict, act.raised c, act.took, own⟩

/-- A handler of messages that says what it got and follows script `i`; it answers by the body. -/
def busHandler {L : Catalogue} {t : L.Topic} (line : Context → L.Body t → String)
    (argument : L.Body t → String) (answer : L.Body t → L.Value (L.form t)) (i : Nat) :
    Bus.Handler L (Rehearsal L.Failure κ) t where
  handle c body s :=
    let (act, own) := (s.own.say (line c body)).next i
    ((act.ending (argument body)).map fun () => answer body,
      ⟨(act.raised c).foldl Signals.raise s.signals, s.clock + act.took, own⟩)

end Rehearsal

end Registrar
