import Mathlib.Data.List.Basic
import Registrar.Text.Natural

set_option autoImplicit false

/-! # Numerals

A numeral is digits, behind a plus sign or not, and it means the number that the digits make. A text
is read as a number below a bound exactly if it is a numeral of such a number
(`naturalBelow_eq_ok_iff`). Why another text is refused is told by the digits that it starts with
(`naturalBelow_refused`): either they lead past the bound, or what follows them is no digit. -/

namespace Registrar.Text

/-- **The text is a numeral of this number**: one digit or more, behind a plus sign or not. -/
def IsNumeral (cs : List Char) (n : Nat) : Prop :=
  ∃ sign digits, cs = sign ++ digits ∧ (sign = [] ∨ sign = ['+']) ∧ digits ≠ [] ∧
    (∀ c ∈ digits, c.isDigit = true) ∧ Nat.ofDigitChars 10 digits 0 = n

/-- A text without its plus sign, if it starts with one. -/
def unsigned : List Char → List Char
  | '+' :: cs => cs
  | cs => cs

/-- Why a text that is not empty is no numeral below the bound. -/
def numeralRefusal (bound : Nat) (cs : List Char) : String :=
  if bound ≤ Nat.ofDigitChars 10 ((unsigned cs).takeWhile Char.isDigit) 0 then
    "number too large to fit in target type"
  else "invalid digit found in string"

theorem unsigned_of_isDigit {c : Char} (hc : c.isDigit = true) (cs : List Char) :
    unsigned (c :: cs) = c :: cs := by
  unfold unsigned
  split
  · next heq =>
      obtain ⟨rfl, -⟩ := List.cons.inj heq
      cases hc
  · rfl

/-- A numeral is digits and nothing else but the sign. -/
theorem isNumeral_iff {cs : List Char} {n : Nat} :
    IsNumeral cs n ↔ unsigned cs ≠ [] ∧ (unsigned cs).all Char.isDigit = true ∧
      Nat.ofDigitChars 10 (unsigned cs) 0 = n := by
  rw [List.all_eq_true]
  constructor
  · rintro ⟨sign, digits, rfl, rfl | rfl, hne, hdigits, hvalue⟩
    · obtain ⟨c, rest, rfl⟩ := List.exists_cons_of_ne_nil hne
      rw [List.nil_append, unsigned_of_isDigit (hdigits c List.mem_cons_self)]
      exact ⟨hne, hdigits, hvalue⟩
    · exact ⟨hne, hdigits, hvalue⟩
  · rintro ⟨hne, hdigits, hvalue⟩
    have hsplit : ∃ sign, cs = sign ++ unsigned cs ∧ (sign = [] ∨ sign = ['+']) := by
      unfold unsigned
      split
      · exact ⟨['+'], rfl, .inr rfl⟩
      · exact ⟨[], rfl, .inl rfl⟩
    obtain ⟨sign, hcs, hsign⟩ := hsplit
    exact ⟨sign, unsigned cs, hcs, hsign, hne, hdigits, hvalue⟩

/-! ## Reading digits -/

/-- More digits make no smaller number. -/
theorem le_ofDigitChars (cs : List Char) (n : Nat) : n ≤ Nat.ofDigitChars 10 cs n := by
  induction cs generalizing n with
  | nil => exact Nat.le_refl n
  | cons c cs ih =>
      rw [Nat.ofDigitChars_cons]
      exact Nat.le_trans (by omega) (ih _)

/-- **What is read from digits**: their number, if all are digits and it is below the bound.
Otherwise the digits in front decide. -/
theorem digitsBelow_eq {bound : Nat} (cs : List Char) {n : Nat} (hn : n < bound) :
    digitsBelow bound n cs =
      if cs.all Char.isDigit = true ∧ Nat.ofDigitChars 10 cs n < bound then
        .ok (Nat.ofDigitChars 10 cs n)
      else if bound ≤ Nat.ofDigitChars 10 (cs.takeWhile Char.isDigit) n then .error .tooLarge
      else .error .notADigit := by
  induction cs generalizing n with
  | nil =>
      rw [if_pos ⟨rfl, hn⟩]
      rfl
  | cons c cs ih =>
      rw [digitsBelow]
      cases hc : c.isDigit with
      | false => simp [hc, Nat.not_le_of_lt hn]
      | true =>
          have hnext : n * 10 + (c.toNat - 48) = 10 * n + (c.toNat - '0'.toNat) := by
            rw [Nat.mul_comm]
            rfl
          simp only [List.all_cons, hc, Bool.true_and, List.takeWhile_cons_of_pos,
            Nat.ofDigitChars_cons, if_true, hnext]
          by_cases hlt : 10 * n + (c.toNat - '0'.toNat) < bound
          · rw [if_pos hlt, ih hlt]
          · -- What the number is past already, it stays past.
            have hpast := fun cs' => Nat.le_trans (Nat.le_of_not_lt hlt)
              (le_ofDigitChars cs' (10 * n + (c.toNat - '0'.toNat)))
            rw [if_neg hlt, if_neg fun h => Nat.not_lt_of_le (hpast cs) h.2, if_pos (hpast _)]

/-! ## Reading numbers -/

theorem naturalBelow_of_digits {bound : Nat} {cs : List Char} (h : unsigned cs ≠ []) :
    naturalBelow bound (String.ofList cs) = digitsBelow bound 0 (unsigned cs) := by
  rw [naturalBelow, String.toList_ofList]
  split
  · exact absurd rfl h
  · exact absurd rfl h
  · rfl
  · next cs hnil hsign hplus =>
      rw [unsigned]
      exact fun cs' h => hplus cs' h

theorem naturalBelow_of_no_digits {bound : Nat} {cs : List Char} (h : unsigned cs = []) :
    ∃ fault, naturalBelow bound (String.ofList cs) = .error fault ∧
      (cs ≠ [] → fault = .notADigit) := by
  have hcs : cs = [] ∨ cs = ['+'] := by
    unfold unsigned at h
    split at h
    · exact .inr (by rw [h])
    · exact .inl h
  rcases hcs with rfl | rfl
  · exact ⟨.empty, rfl, fun hne => absurd rfl hne⟩
  · exact ⟨.notADigit, rfl, fun _ => rfl⟩

/-- **Exactly the numerals of numbers below the bound are read**, each as its number. -/
theorem naturalBelow_eq_ok_iff {bound : Nat} (hbound : 0 < bound) {cs : List Char} {n : Nat} :
    naturalBelow bound (String.ofList cs) = .ok n ↔ IsNumeral cs n ∧ n < bound := by
  rw [isNumeral_iff]
  by_cases hdigits : unsigned cs = []
  · obtain ⟨fault, hfault, -⟩ := @naturalBelow_of_no_digits bound cs hdigits
    simp [hfault, hdigits]
  · rw [naturalBelow_of_digits hdigits, digitsBelow_eq _ hbound]
    split
    · next h =>
        rw [Except.ok.injEq]
        constructor
        · rintro rfl
          exact ⟨⟨hdigits, h.1, rfl⟩, h.2⟩
        · exact fun hn => hn.1.2.2
    · next h =>
        refine iff_of_false (by split <;> simp) fun hn => h ⟨hn.1.2.1, ?_⟩
        rw [hn.1.2.2]
        exact hn.2

theorem naturalBelow_refused {bound : Nat} (hbound : 0 < bound) {cs : List Char}
    {fault : NaturalFault} (hne : cs ≠ [])
    (h : naturalBelow bound (String.ofList cs) = .error fault) :
    fault.message = numeralRefusal bound cs := by
  unfold numeralRefusal
  by_cases hdigits : unsigned cs = []
  · obtain ⟨fault', hfault', hnot⟩ := @naturalBelow_of_no_digits bound cs hdigits
    obtain rfl := Except.error.inj (h.symm.trans hfault')
    rw [hnot hne, hdigits]
    exact (if_neg (Nat.not_le_of_lt hbound)).symm
  · rw [naturalBelow_of_digits hdigits, digitsBelow_eq _ hbound] at h
    split at h
    · cases h
    · split at h
      · next hlarge =>
          rw [if_pos hlarge, ← Except.error.inj h]
          rfl
      · next hsmall =>
          rw [if_neg hsmall, ← Except.error.inj h]
          rfl

end Registrar.Text
