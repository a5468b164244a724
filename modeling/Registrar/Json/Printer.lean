import Registrar.Binary64.Shortest
import Registrar.Json

set_option autoImplicit false

/-! # Writing JSON

The written form has no blanks. Strings are escaped only where they must be: the quote, the
backslash and the control characters. Fractional numbers are written with the fewest digits that
read back, positionally up to sixteen digits before the point and five places after it. -/

namespace Registrar.Json

/-! ## Numbers -/

/-- The decimal digits of a natural number. -/
def digits (n : Nat) : Bytes :=
  if n < 10 then [UInt8.ofNat (48 + n)] else digits (n / 10) ++ [UInt8.ofNat (48 + n % 10)]

def printInt (n : Int) : Bytes :=
  match n with
  | .ofNat m => digits m
  | .negSucc m => 45 :: digits (m + 1)

/-- A power of ten behind a mantissa: the mark, and a sign whether the power is negative or not. -/
def printExponent (n : Int) : Bytes :=
  101 :: (if 0 ≤ n then 43 :: printInt n else printInt n)

/-- A positive decimal `d · 10^k`: positional while the point stands at most sixteen digits in and
at most four zeros follow it, else with one digit before the point and an exponent. -/
def printDecimal (d : Binary64.Decimal) : Bytes :=
  let ds := digits d.digits
  let point := (ds.length : Int) + d.power
  let zeros (n : Int) : Bytes := List.replicate n.toNat 48
  if 0 ≤ d.power ∧ point ≤ 16 then ds ++ zeros d.power ++ [46, 48]
  else if 0 < point ∧ point ≤ 16 then ds.take point.toNat ++ 46 :: ds.drop point.toNat
  else if -5 < point ∧ point ≤ 0 then 48 :: 46 :: (zeros (-point) ++ ds)
  else match ds with
    | [c] => c :: printExponent (point - 1)
    | c :: cs => c :: 46 :: (cs ++ printExponent (point - 1))
    | [] => []

def printFloat (x : Binary64) : Bytes :=
  let sign : Bytes := if x.negative then [45] else []
  sign ++ if x.isZero then [48, 46, 48] else printDecimal x.shortest

/-! ## Strings -/

def hexDigit (n : Nat) : UInt8 := if n < 10 then UInt8.ofNat (48 + n) else UInt8.ofNat (87 + n)

/-- One byte of a string as it is written. -/
def escape (b : UInt8) : Bytes :=
  if b = 34 then [92, 34]
  else if b = 92 then [92, 92]
  else if b = 8 then [92, 98]
  else if b = 9 then [92, 116]
  else if b = 10 then [92, 110]
  else if b = 12 then [92, 102]
  else if b = 13 then [92, 114]
  else if b < 32 then [92, 117, 48, 48, hexDigit (b.toNat / 16), hexDigit (b.toNat % 16)]
  else [b]

def printString (s : String) : Bytes := 34 :: ((Bytes.ofString s).flatMap escape ++ [34])

/-! ## Values -/

mutual

/-- The written form of a value. -/
def print : Json → Bytes
  | .null | .garbled => [110, 117, 108, 108]
  | .bool true => [116, 114, 117, 101]
  | .bool false => [102, 97, 108, 115, 101]
  | .int n => printInt n
  | .float x => printFloat x
  | .str s => printString s
  | .arr items => 91 :: printItems items
  | .obj fields => 123 :: printFields fields

/-- The items of an array and its closing bracket. -/
def printItems : List Json → Bytes
  | [] => [93]
  | [x] => print x ++ [93]
  | x :: y :: xs => print x ++ 44 :: printItems (y :: xs)

/-- The fields of an object and its closing brace. -/
def printFields : List (String × Json) → Bytes
  | [] => [125]
  | [(k, x)] => printString k ++ 58 :: (print x ++ [125])
  | (k, x) :: y :: xs => printString k ++ 58 :: (print x ++ 44 :: printFields (y :: xs))

end

/-- The written form as a string. -/
def text (j : Json) : String := (Bytes.text? j.print).getD ""

end Registrar.Json
