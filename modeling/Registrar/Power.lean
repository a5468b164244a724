set_option autoImplicit false

/-! # Powers

A library in scope may have powers of its own, also of numbers. Here a power of a natural or whole
number is always the built-in one, so that a text means the same in every module. -/

namespace Registrar

/-- The built-in powers, ahead of all others. -/
@[default_instance 20000]
instance (priority := 20000) builtinPow {α : Type} [NatPow α] : Pow α Nat := instPowNat

end Registrar
