set_option autoImplicit false

/-! # Schedules

Tasks that run side by side may run and finish in any order. A schedule names both orders for any
number of tasks. -/

namespace Registrar

structure Schedule where
  runs : Nat → List Nat
  finishes : Nat → List Nat
  runs_perm : ∀ n, (runs n).Perm (List.range n)
  finishes_perm : ∀ n, (finishes n).Perm (List.range n)

namespace Schedule

/-- Tasks run and finish in the order in which they were started. -/
def inOrder : Schedule := ⟨List.range, List.range, fun _ => .refl _, fun _ => .refl _⟩

instance : Inhabited Schedule := ⟨inOrder⟩

end Schedule

end Registrar
