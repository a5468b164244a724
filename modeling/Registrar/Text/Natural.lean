set_option autoImplicit false

/-! # Natural numbers in decimal

A natural number is written as an optional plus sign and decimal digits, zeros in front allowed.
Digits are read from the left, and the first that is none or that leads past the bound decides why
a text is refused. -/

namespace Registrar.Text

inductive NaturalFault where
  | empty
  | notADigit
  | tooLarge
  deriving DecidableEq, Repr

def NaturalFault.message : NaturalFault → String
  | .empty => "cannot parse integer from empty string"
  | .notADigit => "invalid digit found in string"
  | .tooLarge => "number too large to fit in target type"

/-- Reads digits on from a value, which stays below the bound. -/
def digitsBelow (bound : Nat) (value : Nat) : List Char → Except NaturalFault Nat
  | [] => .ok value
  | c :: cs =>
      if c.isDigit then
        let next := value * 10 + (c.toNat - 48)
        if next < bound then digitsBelow bound next cs else .error .tooLarge
      else .error .notADigit

/-- Reads a number below a bound. -/
def naturalBelow (bound : Nat) (s : String) : Except NaturalFault Nat :=
  match s.toList with
  | [] => .error .empty
  | '+' :: [] => .error .notADigit
  | '+' :: cs => digitsBelow bound 0 cs
  | cs => digitsBelow bound 0 cs

end Registrar.Text
