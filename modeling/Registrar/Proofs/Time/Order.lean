import Registrar.Time.Instant

set_option autoImplicit false

/-! # Instants in order

Instants are ordered by their parts, day first. Outside leap seconds that is the order of the
nanoseconds since the epoch (`le_iff_toNanos_le`). Inside a leap second the count runs on into the
second that follows, so there it is not. -/

namespace Registrar.Instant

/-! ## By parts -/

theorem before_iff {a b : Instant} :
    a.before b = true ↔ a.day < b.day ∨ a.day = b.day ∧ (a.second < b.second ∨
      a.second = b.second ∧ a.nano < b.nano) := by
  simp [before]

theorem ext_iff_parts {a b : Instant} :
    a = b ↔ a.day = b.day ∧ a.second = b.second ∧ a.nano = b.nano := by
  cases a
  cases b
  simp

theorem before_trans {a b c : Instant} (hab : a.before b = true) (hbc : b.before c = true) :
    a.before c = true := by
  rw [before_iff] at *
  omega

theorem before_or_eq_or_before (a b : Instant) : a.before b = true ∨ a = b ∨ b.before a = true := by
  rw [before_iff, before_iff, ext_iff_parts]
  omega

theorem not_before_self (a : Instant) : ¬ a.before a = true := by
  rw [before_iff]
  omega

/-- At most as late: earlier or equal. -/
theorem le_iff {a b : Instant} : a ≤ b ↔ a.before b = true ∨ a = b := by
  show b.before a = false ↔ _
  rw [← Bool.not_eq_true]
  constructor
  · intro h
    rcases before_or_eq_or_before a b with hab | hab | hba
    · exact .inl hab
    · exact .inr hab
    · exact absurd hba h
  · rintro (hab | rfl) hba
    · exact not_before_self a (before_trans hab hba)
    · exact not_before_self a hba

theorem lt_of_le_of_lt {a b c : Instant} (hab : a ≤ b) (hbc : b < c) : a < c := by
  rcases le_iff.1 hab with hlt | rfl
  · exact before_trans hlt hbc
  · exact hbc

theorem not_le_of_lt {a b : Instant} (h : a < b) : ¬ b ≤ a := fun hba =>
  not_before_self b (lt_of_le_of_lt hba h)

theorem le_trans {a b c : Instant} (hab : a ≤ b) (hbc : b ≤ c) : a ≤ c := by
  rcases le_iff.1 hbc with hlt | rfl
  · exact le_iff.2 (.inl (lt_of_le_of_lt hab hlt))
  · exact hab

/-! ## By count -/

theorem nano_lt_of_not_inLeapSecond {t : Instant} (h : ¬ t.InLeapSecond) :
    t.nano < nanosPerSecond := Nat.lt_of_not_le h

theorem le_iff_toNanos_le {a b : Instant} (ha : ¬ a.InLeapSecond) (hb : ¬ b.InLeapSecond) :
    a ≤ b ↔ a.toNanos ≤ b.toNanos := by
  have hsa := a.second_lt
  have hsb := b.second_lt
  have hna := nano_lt_of_not_inLeapSecond ha
  have hnb := nano_lt_of_not_inLeapSecond hb
  show b.before a = false ↔ _
  rw [← Bool.not_eq_true, before_iff]
  simp only [toNanos, secondsPerDay, nanosPerSecond] at *
  omega

end Registrar.Instant
