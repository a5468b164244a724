import Registrar.Power

set_option autoImplicit false

/-! # Finite double-precision numbers

A finite IEEE 754 binary64 number as its 64 bits, with the exact value `m · 2^q` they stand for.
Rounding a ratio of natural numbers to the nearest double (ties to even) is done in exact
arithmetic; products and quotients are roundings of the exact product and quotient. -/

namespace Registrar

/-- The bits of a finite double: sign, eleven exponent bits, fifty-two fraction bits. -/
structure Binary64 where
  bits : UInt64
  deriving DecidableEq, Repr

namespace Binary64

def negative (x : Binary64) : Bool := x.bits.toNat ≥ 2 ^ 63

def exponentField (x : Binary64) : Nat := x.bits.toNat / 2 ^ 52 % 2 ^ 11

def fractionField (x : Binary64) : Nat := x.bits.toNat % 2 ^ 52

/-- The significand `m` of the value `m · 2^q`. -/
def significand (x : Binary64) : Nat :=
  if x.exponentField = 0 then x.fractionField else x.fractionField + 2 ^ 52

/-- The exponent `q` of the value `m · 2^q`. -/
def exponent (x : Binary64) : Int :=
  if x.exponentField = 0 then -1074 else (x.exponentField : Int) - 1075

def isZero (x : Binary64) : Bool := x.significand == 0

/-- The absolute value as a ratio of natural numbers. -/
def ratio (x : Binary64) : Nat × Nat :=
  if 0 ≤ x.exponent then (x.significand * 2 ^ x.exponent.toNat, 1)
  else (x.significand, 2 ^ (-x.exponent).toNat)

def neg (x : Binary64) : Binary64 := ⟨x.bits ^^^ 0x8000000000000000⟩

/-! ## Rounding -/

/-- The natural number nearest to `num / den`, a tie going to the even one. -/
def roundDiv (num den : Nat) : Nat :=
  let q := num / den
  let r := num % den
  if 2 * r < den then q
  else if den < 2 * r then q + 1
  else if q % 2 = 0 then q else q + 1

/-- The bits for `m · 2^q` with `m < 2^53`, where `q` is -1074 when `m < 2^52`. -/
def assemble (m : Nat) (q : Int) : Binary64 :=
  if m < 2 ^ 52 then ⟨UInt64.ofNat m⟩
  else ⟨UInt64.ofNat ((q + 1075).toNat * 2 ^ 52 + (m - 2 ^ 52))⟩

/-- The largest `e` with `2^e ≤ num / den`, for positive numbers. -/
def log2Ratio (num den : Nat) : Int :=
  let e : Int := (num.log2 : Int) - den.log2
  let reached := if 0 ≤ e then den * 2 ^ e.toNat ≤ num else den ≤ num * 2 ^ (-e).toNat
  if reached then e else e - 1

/-- **The double nearest to `num / den`**, ties to even; `none` when it is out of range. -/
def ofRatio (num den : Nat) : Option Binary64 :=
  if num = 0 then some ⟨0⟩
  else
    let q := max (log2Ratio num den - 52) (-1074)
    let m := if 0 ≤ q then roundDiv num (den * 2 ^ q.toNat)
      else roundDiv (num * 2 ^ (-q).toNat) den
    let (m, q) := if m = 2 ^ 53 then (2 ^ 52, q + 1) else (m, q)
    if 971 < q then none else some (assemble m q)

def ofNat (n : Nat) : Option Binary64 := ofRatio n 1

/-- The rounded sum of two absolute values. -/
def add (x y : Binary64) : Option Binary64 :=
  ofRatio (x.ratio.1 * y.ratio.2 + y.ratio.1 * x.ratio.2) (x.ratio.2 * y.ratio.2)

/-- The rounded product of two absolute values. -/
def mul (x y : Binary64) : Option Binary64 :=
  ofRatio (x.ratio.1 * y.ratio.1) (x.ratio.2 * y.ratio.2)

/-- The rounded quotient of two absolute values, the second positive. -/
def div (x y : Binary64) : Option Binary64 :=
  ofRatio (x.ratio.1 * y.ratio.2) (x.ratio.2 * y.ratio.1)

end Binary64

end Registrar
