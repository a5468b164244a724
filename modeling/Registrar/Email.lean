import Registrar.Fault
import Registrar.Json
import Registrar.Text.Blank
import Registrar.Text.LowerCase

set_option autoImplicit false

/-! # E-mail addresses

An address is taken without the blanks around it and in lower case, so that all spellings of one
address are equal. It must be two non-empty parts around its only `@`, without blanks. -/

namespace Registrar

structure Email where
  text : String
  deriving DecidableEq, Repr

namespace Email

/-- Two non-empty parts around the only `@`, and no blank. -/
def isShaped (cs : List Char) : Bool :=
  match cs.span (· != '@') with
  | (local_, _ :: domain) =>
      !local_.isEmpty && !domain.isEmpty && !domain.contains '@' && !cs.any Text.isBlank
  | (_, []) => false

/-- Reads an address in any spelling. -/
def parse (raw : String) : Except DomainError Email :=
  let normal := Text.lower (Text.trim raw)
  if isShaped normal.toList then .ok ⟨normal⟩
  else .error (.validation ("invalid email `" ++ Text.trim raw ++ "`"))

def toJson (e : Email) : Json := .str e.text

/-- Stored addresses are taken as they are. -/
def ofJson? (j : Json) : Option Email := j.asString?.map (⟨·⟩)

end Email

end Registrar
