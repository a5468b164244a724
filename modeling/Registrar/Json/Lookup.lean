import Registrar.Json

set_option autoImplicit false

/-! # Looking up fields loosely

Where a record may leave parts out, a field is looked up by its name, and one that is not there, or
has another shape, counts as missing. Numbers may be given as decimal texts. -/

namespace Registrar.Json

/-- A field; `null` when it is not there. -/
def get (j : Json) (name : String) : Json := (j.field? name).getD .null

def word? (j : Json) (name : String) : Option String := (j.get name).asString?

/-- A string; the empty one when it is not there. -/
def word (j : Json) (name : String) : String := (j.word? name).getD ""

/-- A number, or its decimal text. -/
def asNumber? : Json → Option Nat
  | .int n => if 0 ≤ n then some n.toNat else none
  | .str s => s.toNat?
  | _ => none

def nat? (j : Json) (name : String) : Option Nat := (j.get name).asNumber?

def nat (j : Json) (name : String) (missing : Nat) : Nat := (j.nat? name).getD missing

def u64 (j : Json) (name : String) : UInt64 := .ofNat (j.nat name 0)

/-- Whether a field is `true`. -/
def isOn (j : Json) (name : String) : Bool := j.get name == .bool true

/-- The items of an array; none when it is not there. -/
def list (j : Json) (name : String) : List Json :=
  match j.get name with
  | .arr items => items
  | _ => []

/-- The strings among the items of an array. -/
def words (j : Json) (name : String) : List String := (j.list name).filterMap asString?

/-- Bytes, given as a string or as numbers. -/
def byteText? (j : Json) (name : String) : Option Bytes :=
  match j.get name with
  | .str s => some (.ofString s)
  | .arr items => some (items.map fun x => .ofNat (x.asNumber?.getD 0))
  | _ => none

end Registrar.Json
