import Registrar.Binary64
import Registrar.Keyed
import Registrar.Text.Bytes

set_option autoImplicit false

/-! # JSON values

The value type behind every stored row and every event on the wire. An object is its list of
fields in order. A text that is written correctly may still hold parts that denote nothing (a
string with a lone surrogate, a number out of range): such a part is `garbled`, and only a reader
that skips the part gets past it.

The second half of the file are the readers of typed parts. Each answers `none` when the value
has another shape. -/

namespace Registrar

inductive Json where
  | null
  | bool (b : Bool)
  | int (n : Int)
  | float (x : Binary64)
  | str (s : String)
  | arr (items : List Json)
  | obj (fields : List (String × Json))
  | garbled
  deriving Inhabited

namespace Json

/-! ## Equality -/

mutual

def decEq : (a b : Json) → Decidable (a = b)
  | .null, .null => isTrue rfl
  | .bool a, .bool b => decidable_of_iff (a = b) (by simp)
  | .int a, .int b => decidable_of_iff (a = b) (by simp)
  | .float a, .float b => decidable_of_iff (a = b) (by simp)
  | .str a, .str b => decidable_of_iff (a = b) (by simp)
  | .arr a, .arr b => match decEqItems a b with
      | isTrue h => isTrue (by rw [h])
      | isFalse h => isFalse (by simpa using h)
  | .obj a, .obj b => match decEqFields a b with
      | isTrue h => isTrue (by rw [h])
      | isFalse h => isFalse (by simpa using h)
  | .garbled, .garbled => isTrue rfl
  | .null, .bool _ | .null, .int _ | .null, .float _ | .null, .str _ | .null, .arr _
  | .null, .obj _ | .null, .garbled
  | .bool _, .null | .bool _, .int _ | .bool _, .float _ | .bool _, .str _ | .bool _, .arr _
  | .bool _, .obj _ | .bool _, .garbled
  | .int _, .null | .int _, .bool _ | .int _, .float _ | .int _, .str _ | .int _, .arr _
  | .int _, .obj _ | .int _, .garbled
  | .float _, .null | .float _, .bool _ | .float _, .int _ | .float _, .str _ | .float _, .arr _
  | .float _, .obj _ | .float _, .garbled
  | .str _, .null | .str _, .bool _ | .str _, .int _ | .str _, .float _ | .str _, .arr _
  | .str _, .obj _ | .str _, .garbled
  | .arr _, .null | .arr _, .bool _ | .arr _, .int _ | .arr _, .float _ | .arr _, .str _
  | .arr _, .obj _ | .arr _, .garbled
  | .obj _, .null | .obj _, .bool _ | .obj _, .int _ | .obj _, .float _ | .obj _, .str _
  | .obj _, .arr _ | .obj _, .garbled
  | .garbled, .null | .garbled, .bool _ | .garbled, .int _ | .garbled, .float _
  | .garbled, .str _ | .garbled, .arr _ | .garbled, .obj _ => isFalse (by simp)

def decEqItems : (a b : List Json) → Decidable (a = b)
  | [], [] => isTrue rfl
  | [], _ :: _ | _ :: _, [] => isFalse (by simp)
  | x :: xs, y :: ys => match decEq x y, decEqItems xs ys with
      | isTrue h, isTrue hs => isTrue (by rw [h, hs])
      | isFalse h, _ => isFalse (by simp [h])
      | _, isFalse hs => isFalse (by simp [hs])

def decEqFields : (a b : List (String × Json)) → Decidable (a = b)
  | [], [] => isTrue rfl
  | [], _ :: _ | _ :: _, [] => isFalse (by simp)
  | (k, x) :: xs, (l, y) :: ys =>
      if hk : k = l then
        match decEq x y, decEqFields xs ys with
        | isTrue h, isTrue hs => isTrue (by rw [hk, h, hs])
        | isFalse h, _ => isFalse (by simp [h])
        | _, isFalse hs => isFalse (by simp [hs])
      else isFalse (by simp [hk])

end

instance : DecidableEq Json := decEq

/-! ## Free values

Where any JSON is welcome, the value is taken as a whole: it must denote something throughout, may
be nested 127 deep, and **the last value of a repeated key stands**, in key order. -/

mutual

/-- How many arrays and objects are nested in one another at most. -/
def depth : Json → Nat
  | .arr items => 1 + depthItems items
  | .obj fields => 1 + depthFields fields
  | _ => 0

def depthItems : List Json → Nat
  | [] => 0
  | x :: xs => max (depth x) (depthItems xs)

def depthFields : List (String × Json) → Nat
  | [] => 0
  | (_, x) :: xs => max (depth x) (depthFields xs)

end

mutual

/-- Whether every part denotes something. -/
def isSound : Json → Bool
  | .garbled => false
  | .arr items => soundItems items
  | .obj fields => soundFields fields
  | _ => true

def soundItems : List Json → Bool
  | [] => true
  | x :: xs => isSound x && soundItems xs

def soundFields : List (String × Json) → Bool
  | [] => true
  | (_, x) :: xs => isSound x && soundFields xs

end

mutual

/-- The same value with the fields of every object in key order and each key once. -/
def canonical : Json → Json
  | .arr items => .arr (canonicalItems items)
  | .obj fields => .obj (Keyed.ofList (canonicalFields fields)).entries
  | j => j

def canonicalItems : List Json → List Json
  | [] => []
  | x :: xs => canonical x :: canonicalItems xs

def canonicalFields : List (String × Json) → List (String × Json)
  | [] => []
  | (k, x) :: xs => (k, canonical x) :: canonicalFields xs

end

/-- The deepest nesting that a reader of free values follows. -/
def maxDepth : Nat := 127

/-- Any value, as a whole. -/
def free? (j : Json) : Option Json :=
  if j.isSound && j.depth ≤ maxDepth then some j.canonical else none

/-! ## Readers of typed parts -/

def asString? : Json → Option String
  | .str s => some s
  | _ => none

def asBool? : Json → Option Bool
  | .bool b => some b
  | _ => none

/-- A natural number below `bound`, written without fraction or exponent. -/
def asNat? (bound : Nat) : Json → Option Nat
  | .int n => if 0 ≤ n ∧ n < bound then some n.toNat else none
  | _ => none

def asUInt64? (j : Json) : Option UInt64 := (j.asNat? (2 ^ 64)).map UInt64.ofNat

def asUInt32? (j : Json) : Option UInt32 := (j.asNat? (2 ^ 32)).map UInt32.ofNat

def asUInt8? (j : Json) : Option UInt8 := (j.asNat? (2 ^ 8)).map UInt8.ofNat

/-- An array of which every item reads. -/
def asList? {α : Type} (read : Json → Option α) : Json → Option (List α)
  | .arr items => items.mapM read
  | _ => none

def asStrings? (j : Json) : Option (List String) := j.asList? asString?

/-- Bytes are written as an array of numbers. -/
def asBytes? (j : Json) : Option Bytes := j.asList? asUInt8?

/-- An object of strings. -/
def asTextMap? : Json → Option (Keyed String)
  | .obj fields => (fields.mapM fun e => (asString? e.2).map (e.1, ·)).map Keyed.ofList
  | _ => none

/-- A value or `null`. -/
def asOption? {α : Type} (read : Json → Option α) : Json → Option (Option α)
  | .null => some none
  | j => (read j).map some

/-! ## Records

A record is an object with the named fields, in any order and among others, none of the named ones
twice; or the array of exactly the field values in order. -/

/-- The values of the named fields; a field that is not there has none. -/
def record? (names : List String) : Json → Option (List (Option Json))
  | .arr items => if items.length = names.length then some (items.map some) else none
  | .obj fields => names.mapM fun n => match fields.filter (·.1 == n) with
      | [] => some none
      | [(_, v)] => some (some v)
      | _ => none
  | _ => none

/-- A field that must be there. -/
def required? {α : Type} (read : Json → Option α) : Option Json → Option α
  | some j => read j
  | none => none

/-- A field that may be left out or `null`. -/
def optional? {α : Type} (read : Json → Option α) : Option Json → Option (Option α)
  | some j => j.asOption? read
  | none => some none

/-- A tag from a fixed list: the string, or the object with that one key and the value `null`. -/
def asTag? : Json → Option String
  | .str s => some s
  | .obj [(k, .null)] => some k
  | _ => none

/-! ## Written parts -/

def ofOption {α : Type} (write : α → Json) : Option α → Json
  | none => .null
  | some x => write x

def ofBytes (bs : Bytes) : Json := .arr (bs.map fun b => .int b.toNat)

def ofTextMap (m : Keyed String) : Json := .obj (m.entries.map fun (k, v) => (k, .str v))

def ofUInt64 (n : UInt64) : Json := .int n.toNat

def ofUInt32 (n : UInt32) : Json := .int n.toNat

/-- The value of a field of an object. -/
def field? (j : Json) (name : String) : Option Json :=
  match j with
  | .obj fields => Keyed.find? name fields
  | _ => none

end Json

end Registrar
