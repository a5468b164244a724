import Registrar.Fault
import Registrar.Text.Blank
import Registrar.Text.LowerCase

set_option autoImplicit false

/-! # Log formats

The log is written as JSON or in a form that is pleasant to read. -/

namespace Registrar

/-- A name that no format has. -/
structure LogFormatError where
  name : String
  deriving DecidableEq, Repr

def LogFormatError.message (e : LogFormatError) : String :=
  "unknown log format `" ++ e.name ++ "` (expected `json` or `pretty`)"

instance : Report LogFormatError where
  kind _ := "LogFormat"
  message := LogFormatError.message

inductive LogFormat where
  | json
  | pretty
  deriving DecidableEq, Repr, Inhabited

namespace LogFormat

def debug : LogFormat → String
  | .json => "Json"
  | .pretty => "Pretty"

/-- Reads a format; the second has two names. -/
def parse (s : String) : Except LogFormatError LogFormat :=
  let name := Text.lowerAscii (Text.trim s)
  if name = "json" then .ok .json
  else if name = "pretty" ∨ name = "text" then .ok .pretty
  else .error ⟨name⟩

end LogFormat

end Registrar
