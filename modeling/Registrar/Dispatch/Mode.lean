import Registrar.Fault
import Registrar.Text.Blank
import Registrar.Text.LowerCase

set_option autoImplicit false

/-! # Dispatch modes

The handlers of an event run one after another, or each in a task of its own. -/

namespace Registrar

/-- A name that no mode has. -/
structure DispatchModeError where
  name : String
  deriving DecidableEq, Repr

def DispatchModeError.message (e : DispatchModeError) : String :=
  "unknown dispatch mode `" ++ e.name ++ "`"

instance : Report DispatchModeError where
  kind _ := "DispatchMode"
  message := DispatchModeError.message

inductive DispatchMode where
  | sequential
  | concurrent
  deriving DecidableEq, Repr, Inhabited

namespace DispatchMode

def text : DispatchMode → String
  | .sequential => "sequential"
  | .concurrent => "concurrent"

def debug : DispatchMode → String
  | .sequential => "Sequential"
  | .concurrent => "Concurrent"

/-- Reads a mode; each has two names. -/
def parse (s : String) : Except DispatchModeError DispatchMode :=
  let name := Text.lowerAscii (Text.trim s)
  if name = "sequential" ∨ name = "sync" then .ok .sequential
  else if name = "concurrent" ∨ name = "async" then .ok .concurrent
  else .error ⟨name⟩

end DispatchMode

end Registrar
