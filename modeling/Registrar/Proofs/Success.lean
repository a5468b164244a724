import Mathlib.Data.List.Basic

set_option autoImplicit false

/-! # What a success says

A computation that can fail and did not, succeeded at each of its steps. Results are read back from
that, step by step, whatever the failures are. -/

namespace Registrar

variable {ε ε' α β : Type}

theorem bind_succeeds_iff {x : Except ε α} {f : α → Except ε β} {b : β} :
    x >>= f = .ok b ↔ ∃ a, x = .ok a ∧ f a = .ok b := by
  cases x with
  | error e => simp [bind, Except.bind]
  | ok a => simp [bind, Except.bind]

/-- A step that only checks something. -/
theorem check_succeeds_iff {x : Except ε Unit} {f : Unit → Except ε β} {b : β} :
    x >>= f = .ok b ↔ x = .ok () ∧ f () = .ok b := by
  rw [bind_succeeds_iff]
  constructor
  · rintro ⟨⟨⟩, hx, hf⟩
    exact ⟨hx, hf⟩
  · rintro ⟨hx, hf⟩
    exact ⟨(), hx, hf⟩

theorem pure_succeeds_iff {a b : α} : (pure a : Except ε α) = .ok b ↔ a = b := by
  simp [pure, Except.pure]

theorem mapError_succeeds_iff {x : Except ε α} {f : ε → ε'} {a : α} :
    x.mapError f = .ok a ↔ x = .ok a := by
  cases x with
  | error e => simp [Except.mapError]
  | ok a' => simp [Except.mapError]

theorem map_succeeds_iff {x : Except ε α} {f : α → β} {b : β} :
    x.map f = .ok b ↔ ∃ a, x = .ok a ∧ f a = b := by
  cases x with
  | error e => simp [Except.map]
  | ok a => simp [Except.map]

/-- A traversal that succeeds took each result from some item. -/
theorem mem_of_mapM_succeeds {f : α → Except ε β} {l : List α} {l' : List β}
    (h : l.mapM f = .ok l') {b : β} (hb : b ∈ l') : ∃ a ∈ l, f a = .ok b := by
  induction l generalizing l' with
  | nil =>
      obtain rfl : [] = l' := pure_succeeds_iff.1 h
      cases hb
  | cons a l ih =>
      rw [List.mapM_cons, bind_succeeds_iff] at h
      obtain ⟨b', ha, hrest⟩ := h
      obtain ⟨bs, hl, hpure⟩ := bind_succeeds_iff.1 hrest
      obtain rfl := pure_succeeds_iff.1 hpure
      rcases List.mem_cons.1 hb with rfl | hb
      · exact ⟨a, List.mem_cons_self, ha⟩
      · obtain ⟨a', ha', heq⟩ := ih hl hb
        exact ⟨a', List.mem_cons_of_mem _ ha', heq⟩

end Registrar
