import Registrar.Json

set_option autoImplicit false

/-! # Reading JSON numbers

A number without fraction and exponent that fits 64 bits is an integer. Any other is read as a
double in one pass: the digits are gathered in a 64-bit significand, digits that no longer fit
only move the decimal point, and the significand is then scaled by one power of ten with a single
rounding. This is fast and may miss the nearest double by one unit in the last place. -/

namespace Registrar.Json

def isDigit (b : UInt8) : Bool := 48 ≤ b && b ≤ 57

def digitValue (b : UInt8) : Nat := b.toNat - 48

/-- The largest significand. -/
def maxSignificand : Nat := 2 ^ 64 - 1

/-- The largest written exponent that is followed digit by digit. -/
def maxExponent : Nat := 2 ^ 31 - 1

/-! ## The written parts -/

/-- The digits at the front and what follows them. -/
def spanDigits : Bytes → Bytes × Bytes
  | [] => ([], [])
  | b :: bs => if isDigit b then let (ds, r) := spanDigits bs; (b :: ds, r) else ([], b :: bs)

/-- A number as written: digits before and after the point, the exponent's sign and digits. -/
structure Numeral where
  negative : Bool
  whole : Bytes
  fraction : Option Bytes
  exponent : Option (Bool × Bytes)

/-- A point and at least one digit, if a point follows. -/
def readFraction : Bytes → Option (Option Bytes × Bytes)
  | 46 :: bs => match spanDigits bs with
      | ([], _) => none
      | (ds, r) => some (some ds, r)
  | bs => some (none, bs)

/-- `e` or `E`, a sign and at least one digit, if an `e` follows. The flag says "negative". -/
def readExponent : Bytes → Option (Option (Bool × Bytes) × Bytes)
  | b :: bs =>
      if b = 101 ∨ b = 69 then
        let (negative, bs) := match bs with
          | 43 :: r => (false, r)
          | 45 :: r => (true, r)
          | r => (false, r)
        match spanDigits bs with
        | ([], _) => none
        | (ds, r) => some (some (negative, ds), r)
      else some (none, b :: bs)
  | [] => some (none, [])

/-- A number at the front: no leading zeros, no sign but a minus. -/
def readNumeral (bs : Bytes) : Option (Numeral × Bytes) := do
  let (negative, bs) := match bs with
    | 45 :: r => (true, r)
    | r => (false, r)
  let (whole, r) := spanDigits bs
  if whole = [] ∨ (1 < whole.length ∧ whole.head? = some 48) then none
  else
    let (fraction, r) ← readFraction r
    let (exponent, r) ← readExponent r
    some (⟨negative, whole, fraction, exponent⟩, r)

/-! ## The value -/

/-- Adds digits while they fit; answers the significand and the digits left over. -/
def gather (significand : Nat) : Bytes → Nat × Bytes
  | [] => (significand, [])
  | d :: ds =>
      let next := significand * 10 + digitValue d
      if maxSignificand < next then (significand, d :: ds) else gather next ds

/-- The exponent's digits as a number; `none` when it is beyond every exponent in use. -/
def exponentValue (ds : Bytes) : Option Nat :=
  ds.foldl (fun acc d => acc.bind fun n =>
    let next := n * 10 + digitValue d
    if maxExponent < next then none else some next) (some 0)

/-- The correctly rounded `10^k`. -/
def powerOfTen (k : Nat) : Binary64 := (Binary64.ofNat (10 ^ k)).getD ⟨0⟩

/-- Scales an absolute value by `10^exponent`, at most `10^308` at a time. -/
def scale (x : Binary64) (exponent : Int) : Nat → Option Binary64
  | 0 => some x
  | fuel + 1 =>
      if exponent.natAbs ≤ 308 then
        if 0 ≤ exponent then x.mul (powerOfTen exponent.toNat)
        else x.div (powerOfTen exponent.natAbs)
      else if x.isZero then some x
      else if 0 ≤ exponent then none
      else match x.div (powerOfTen 308) with
        | some y => scale y (exponent + 308) fuel
        | none => none

/-- The double of a significand and a power of ten. Three divisions by `10^308` leave zero. -/
def floatOf (negative : Bool) (significand : Nat) (exponent : Int) : Json :=
  match (Binary64.ofNat significand).bind fun x => scale x exponent 4 with
  | some x => .float (if negative then x.neg else x)
  | none => .garbled

/-- Exponents saturate at the limits of 32 bits. -/
def saturate (n : Int) : Int := max (-(2 ^ 31)) (min n (2 ^ 31 - 1))

/-- Whole digits, then those of the fraction, of which each takes one power of ten back. -/
def gatherAll (whole : Bytes) (fraction : Bytes) : Nat × Int :=
  let (s, rest) := gather 0 whole
  let (t, left) := gather s fraction
  (t, (rest.length : Int) - (fraction.length - left.length : Nat))

/-- The value that a number denotes. -/
def Numeral.value (n : Numeral) : Json :=
  match n.fraction, n.exponent, gather 0 n.whole with
  | none, none, (s, []) =>
      if !n.negative then .int s
      else if s = 0 ∨ 2 ^ 63 < s then floatOf true s 0
      else .int (-s)
  | fraction, exponent, _ =>
      let (s, e) := gatherAll n.whole (fraction.getD [])
      match exponent with
      | none => floatOf n.negative s e
      | some (negativeExponent, ds) =>
          match exponentValue ds with
          | some k => floatOf n.negative s (saturate (if negativeExponent then e - k else e + k))
          | none =>
              if s ≠ 0 ∧ !negativeExponent then .garbled else floatOf n.negative 0 0

end Registrar.Json
