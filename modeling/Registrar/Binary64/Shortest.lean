import Registrar.Binary64

set_option autoImplicit false

/-! # Shortest decimals

The decimal of a double is the one with the fewest digits that reads back as that double, and of
those the nearest to it (a tie goes to the even last digit). -/

namespace Registrar.Binary64

/-- `digits · 10^power`. -/
structure Decimal where
  digits : Nat
  power : Int
  deriving DecidableEq, Repr

/-- The reals that round to a positive double, ends over a common denominator. -/
structure Interval where
  low : Nat
  value : Nat
  high : Nat
  den : Nat
  closed : Bool

/-- The interval of the double `m · 2^q`. Its lower half is narrow at a power of two. -/
def interval (x : Binary64) : Interval :=
  let m := x.significand
  let narrow := x.fractionField = 0 && 1 < x.exponentField
  let low := if narrow then 4 * m - 1 else 4 * m - 2
  let scale := x.exponent - 2
  let even := m % 2 = 0
  if 0 ≤ scale then
    let p := 2 ^ scale.toNat
    ⟨low * p, 4 * m * p, (4 * m + 2) * p, 1, even⟩
  else ⟨low, 4 * m, 4 * m + 2, 2 ^ (-scale).toNat, even⟩

/-- The number `d · 10^k` as a ratio. -/
def Decimal.ratio (d : Decimal) : Nat × Nat :=
  if 0 ≤ d.power then (d.digits * 10 ^ d.power.toNat, 1) else (d.digits, 10 ^ (-d.power).toNat)

def Interval.contains (i : Interval) (d : Decimal) : Bool :=
  let (n, k) := d.ratio
  if i.closed then i.low * k ≤ n * i.den && n * i.den ≤ i.high * k
  else i.low * k < n * i.den && n * i.den < i.high * k

/-- The neighbours of the value on the grid of multiples of `10^power`. -/
def Interval.neighbour (i : Interval) (power : Int) : Decimal :=
  if 0 ≤ power then ⟨i.value / (i.den * 10 ^ power.toNat), power⟩
  else ⟨i.value * 10 ^ (-power).toNat / i.den, power⟩

/-- The distance of a decimal from the value, over the product of both denominators. -/
def Interval.distance (i : Interval) (d : Decimal) : Nat :=
  let (n, k) := d.ratio
  (n * i.den - i.value * k) + (i.value * k - n * i.den)

/-- The best decimal of the grid `10^power` that reads back, if any. -/
def Interval.onGrid (i : Interval) (power : Int) : Option Decimal :=
  let a := i.neighbour power
  let b : Decimal := ⟨a.digits + 1, power⟩
  match i.contains a, i.contains b with
  | true, true =>
      if i.distance a < i.distance b then some a
      else if i.distance b < i.distance a then some b
      else if a.digits % 2 = 0 then some a else some b
  | true, false => some a
  | false, true => some b
  | false, false => none

/-- The first grid with a hit, from the coarsest on. -/
def Interval.search (i : Interval) (power : Int) : Nat → Decimal
  | 0 => i.neighbour power
  | fuel + 1 => match i.onGrid power with
      | some d => d
      | none => i.search (power - 1) fuel

/-- Moves trailing zeros of the digits into the power. -/
def Decimal.strip (d : Decimal) : Nat → Decimal
  | 0 => d
  | fuel + 1 =>
      if d.digits ≠ 0 ∧ d.digits % 10 = 0 then
        Decimal.strip ⟨d.digits / 10, d.power + 1⟩ fuel
      else d

/-- An exponent `k` with `10^k` at least the value and at most a hundred times it. -/
def Interval.decade (i : Interval) : Int :=
  let e := log2Ratio i.value i.den
  -- `30103 / 100000` is just above `log10 2`
  (e + 1) * 30103 / 100000 + 1

/-- **The shortest decimal** of the absolute value of a double other than zero. -/
def shortest (x : Binary64) : Decimal :=
  let i := x.interval
  (i.search i.decade 22).strip 22

end Registrar.Binary64
