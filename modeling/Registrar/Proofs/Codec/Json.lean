import Registrar.Json.Printer
import Registrar.Json.Reader

set_option autoImplicit false

/-! # JSON texts read back

The written form of a value is read as that value (`parse_print`), for every plain value: one
without fractional or garbled parts, whose integers fit 64 bits. Strings may hold any text, and
values may be nested to any depth.

Each reader takes exactly what its printer wrote from the front of a longer text; for numbers that
needs a rest that cannot go on with the number (`EndsNumeral`). -/

namespace Registrar.Json

/-! ## Strings -/

/-- The piece that a byte of a string is read as. -/
def pieceOf (b : UInt8) : Piece :=
  if b < 32 ∧ b ≠ 8 ∧ b ≠ 9 ∧ b ≠ 10 ∧ b ≠ 12 ∧ b ≠ 13 then .unit b.toNat else .byte b

theorem unit?_hexDigit :
    ∀ n < 32, unit? 48 48 (hexDigit (n / 16)) (hexDigit (n % 16)) = some n := by
  decide

theorem readPieces_escape (b : UInt8) (r : Bytes) :
    readPieces (escape b ++ r) = (readPieces r).map fun p => (pieceOf b :: p.1, p.2) := by
  have hmap : ∀ p : Piece, ((readPieces r).bind fun q => some (p :: q.1, q.2)) =
      (readPieces r).map fun q => (p :: q.1, q.2) := by
    intro p
    cases readPieces r <;> rfl
  -- First the bytes that have an escape of their own.
  unfold escape
  split
  · next h => subst h; exact hmap _
  split
  · next h => subst h; exact hmap _
  split
  · next h => subst h; exact hmap _
  split
  · next h => subst h; exact hmap _
  split
  · next h => subst h; exact hmap _
  split
  · next h => subst h; exact hmap _
  split
  · next h => subst h; exact hmap _
  split
  -- Other control characters are written with four digits.
  · next h34 h92 h8 h9 h10 h12 h13 hlt =>
      have hunit := unit?_hexDigit b.toNat (by simpa [UInt8.lt_iff_toNat_lt] using hlt)
      simp only [List.cons_append, List.nil_append, readPieces, hunit, Option.bind_eq_bind,
        Option.bind_some]
      rw [pieceOf, if_pos ⟨hlt, h8, h9, h10, h12, h13⟩]
      exact hmap _
  -- What is left stands for itself.
  · next h34 h92 h8 h9 h10 h12 h13 hge =>
      rw [pieceOf, if_neg fun h => hge h.1, List.singleton_append, readPieces.eq_def]
      split
      · next heq => simp at heq
      · next heq => simp at heq; exact absurd heq.1 h34
      · next heq => simp at heq; exact absurd heq.1 h92
      · next heq => simp at heq; exact absurd heq.1 h92
      · next b' r' _ _ _ heq =>
          obtain ⟨rfl, rfl⟩ : b = b' ∧ r = r' := by simpa using heq
          rw [if_neg (by simp [hge, h92])]
          exact hmap _

theorem readPieces_flatMap (bs r : Bytes) :
    readPieces (bs.flatMap escape ++ 34 :: r) = some (bs.map pieceOf, r) := by
  induction bs with
  | nil => simp [readPieces]
  | cons b bs ih =>
      rw [List.flatMap_cons, List.append_assoc, readPieces_escape, ih]
      rfl

theorem codePoint_small : ∀ n < 32, codePoint n = [UInt8.ofNat n] := by decide

/-- A control character that was written with four digits. -/
theorem joinPieces_unit {n : Nat} (h : n < 32) (ps : List Piece) :
    joinPieces (.unit n :: ps) = (joinPieces ps).map (UInt8.ofNat n :: ·) := by
  have hlow : isLowSurrogate n = false := by simp [isLowSurrogate]; omega
  have hhigh : isHighSurrogate n = false := by simp [isHighSurrogate]; omega
  rw [joinPieces.eq_def]
  split
  · next heq => simp at heq
  · next heq => simp at heq
  · next m k qs heq =>
      obtain ⟨rfl, rfl⟩ : n = m ∧ ps = .unit k :: qs := by simpa using heq
      simp [hlow, hhigh, codePoint_small n h]
  · next m qs _ heq =>
      obtain ⟨rfl, rfl⟩ : n = m ∧ ps = qs := by simpa using heq
      simp [hlow, hhigh, codePoint_small n h]

theorem joinPieces_map (bs : Bytes) : joinPieces (bs.map pieceOf) = some bs := by
  induction bs with
  | nil => rfl
  | cons b bs ih =>
      rw [List.map_cons, pieceOf]
      split
      · next h =>
          rw [joinPieces_unit (by simpa [UInt8.lt_iff_toNat_lt] using h.1), ih]
          simp
      · simp [joinPieces, ih]

theorem readString_printString (s : String) (r : Bytes) :
    readString ((Bytes.ofString s).flatMap escape ++ 34 :: r) = some (some s, r) := by
  simp [readString, readPieces_flatMap, joinPieces_map]

/-! ## Numbers -/

theorem isDigit_code : ∀ n < 10, isDigit (UInt8.ofNat (48 + n)) = true ∧
    digitValue (UInt8.ofNat (48 + n)) = n := by decide

theorem isDigit_digits (n : Nat) : ∀ b ∈ digits n, isDigit b = true := by
  induction n using digits.induct with
  | case1 n h =>
      rw [digits, if_pos h]
      intro b hb
      rw [List.mem_singleton.1 hb]
      exact (isDigit_code n h).1
  | case2 n h ih =>
      rw [digits, if_neg h]
      intro b hb
      rcases List.mem_append.1 hb with hb | hb
      · exact ih b hb
      · rw [List.mem_singleton.1 hb]
        exact (isDigit_code (n % 10) (Nat.mod_lt _ (by decide))).1

theorem digits_ne_nil (n : Nat) : digits n ≠ [] := by
  rw [digits]
  split <;> simp

/-- No zero leads a number of more than one digit. -/
theorem head?_digits {n : Nat} (h : 1 < (digits n).length) : (digits n).head? ≠ some 48 := by
  -- The first digit is that of the number without its last one, down to a number of one digit.
  have first : ∀ n, n ≠ 0 → (digits n).head? ≠ some 48 := by
    intro n
    induction n using digits.induct with
    | case1 n h =>
        intro h0
        rw [digits, if_pos h]
        have nonzero : ∀ d < 10, d ≠ 0 → [UInt8.ofNat (48 + d)].head? ≠ some 48 := by decide
        exact nonzero n h h0
    | case2 n h ih =>
        intro _
        have hne : (digits (n / 10)).head?.isSome = true := by
          simp [digits_ne_nil]
        rw [digits, if_neg h, List.head?_append, Option.or_of_isSome hne]
        exact ih (by omega)
  refine first n ?_
  rintro rfl
  simp [digits] at h

theorem gather_append {s t : Nat} {a : Bytes} (h : gather s a = (t, [])) (b : Bytes) :
    gather s (a ++ b) = gather t b := by
  induction a generalizing s with
  | nil => simp [gather] at h; simp [h]
  | cons d a ih =>
      simp only [gather] at h
      split at h
      · simp at h
      · next hle => rw [List.cons_append, gather, if_neg hle, ih h]

theorem gather_digits (n : Nat) (h : n ≤ maxSignificand) : gather 0 (digits n) = (n, []) := by
  induction n using digits.induct with
  | case1 n hn =>
      rw [digits, if_pos hn]
      simp only [gather, (isDigit_code n hn).2]
      rw [if_neg (by omega)]
      simp
  | case2 n hn ih =>
      rw [digits, if_neg hn, gather_append (ih (by omega))]
      simp only [gather, (isDigit_code (n % 10) (Nat.mod_lt _ (by decide))).2]
      rw [show n / 10 * 10 + n % 10 = n by omega, if_neg (by omega)]

/-- What follows a number goes on with nothing that a number can go on with. -/
def EndsNumeral (r : Bytes) : Prop :=
  ∀ b ∈ r.head?, isDigit b = false ∧ b ≠ 46 ∧ b ≠ 101 ∧ b ≠ 69

theorem spanDigits_append {ds r : Bytes} (hd : ∀ b ∈ ds, isDigit b = true)
    (hr : ∀ b ∈ r.head?, isDigit b = false) : spanDigits (ds ++ r) = (ds, r) := by
  induction ds with
  | nil =>
      cases r with
      | nil => rfl
      | cons b r => simp [spanDigits, hr b rfl]
  | cons d ds ih =>
      simp [spanDigits, hd d (by simp), ih fun b hb => hd b (by simp [hb])]

theorem readFraction_of_ends {r : Bytes} (hr : EndsNumeral r) :
    readFraction r = some (none, r) := by
  rw [readFraction.eq_def]
  split
  · next r' => exact absurd rfl (hr 46 rfl).2.1
  · rfl

theorem readExponent_of_ends {r : Bytes} (hr : EndsNumeral r) :
    readExponent r = some (none, r) := by
  cases r with
  | nil => rfl
  | cons b r =>
      obtain ⟨-, -, h1, h2⟩ := hr b rfl
      exact if_neg (not_or.2 ⟨h1, h2⟩)

/-- The digits of a number behind its sign. -/
theorem readNumeral_digits (negative : Bool) (n : Nat) {r : Bytes} (hr : EndsNumeral r) :
    readNumeral ((if negative then [45] else []) ++ digits n ++ r)
      = some (⟨negative, digits n, none, none⟩, r) := by
  have hspan := spanDigits_append (isDigit_digits n) fun b hb => (hr b hb).1
  have hlead : ¬ (digits n = [] ∨ 1 < (digits n).length ∧ (digits n).head? = some 48) := by
    rintro (h | ⟨h, h'⟩)
    · exact digits_ne_nil n h
    · exact head?_digits h h'
  cases negative with
  | true =>
      simp only [if_true, List.cons_append, List.nil_append, readNumeral, hspan, if_neg hlead,
        readFraction_of_ends hr, readExponent_of_ends hr, Option.bind_eq_bind, Option.bind_some]
  | false =>
      rw [if_neg (by decide), List.nil_append, readNumeral]
      · simp only [hspan, if_neg hlead, readFraction_of_ends hr, readExponent_of_ends hr,
          Option.bind_eq_bind, Option.bind_some]
      · -- A digit is no sign.
        intro r' heq
        cases hds : digits n with
        | nil => exact digits_ne_nil n hds
        | cons d ds =>
            have hd := isDigit_digits n d (by simp [hds])
            rw [hds, List.cons_append] at heq
            injection heq with heq
            simp [heq, isDigit] at hd

/-- The integers that a reader takes for integers. -/
def FitsInt (n : Int) : Prop := -(2 ^ 63) ≤ n ∧ n < 2 ^ 64

theorem readNumeral_printInt {n : Int} (hn : FitsInt n) {r : Bytes} (hr : EndsNumeral r) :
    ∃ m : Numeral, readNumeral (printInt n ++ r) = some (m, r) ∧ m.value = int n := by
  cases n with
  | ofNat n =>
      refine ⟨_, readNumeral_digits false n hr, ?_⟩
      have hlt : n ≤ maxSignificand := by
        have := hn.2
        simp only [maxSignificand, Int.ofNat_eq_natCast] at this ⊢
        omega
      simp [Numeral.value, gather_digits n hlt]
  | negSucc n =>
      refine ⟨_, readNumeral_digits true (n + 1) hr, ?_⟩
      -- A negative number is gathered without its sign.
      have hlt : n + 1 ≤ 2 ^ 63 := by
        have := hn.1
        omega
      have hmax : n + 1 ≤ maxSignificand := by
        simp only [maxSignificand]
        omega
      simp only [Numeral.value, gather_digits (n + 1) hmax, Bool.not_true, Bool.false_eq_true,
        if_false]
      rw [if_neg (by omega)]
      rfl

/-! ## Values -/

mutual

/-- Whether a value is read as the value that was written: it has no fractional and no garbled
part, and its integers fit 64 bits. -/
def IsPlain : Json → Prop
  | .int n => FitsInt n
  | .arr items => PlainItems items
  | .obj fields => PlainFields fields
  | .float _ | .garbled => False
  | .null | .bool _ | .str _ => True

def PlainItems : List Json → Prop
  | [] => True
  | x :: xs => IsPlain x ∧ PlainItems xs

def PlainFields : List (String × Json) → Prop
  | [] => True
  | (_, x) :: xs => IsPlain x ∧ PlainFields xs

end

theorem skipBlanks_cons {b : UInt8} {r : Bytes} (h : isBlankByte b = false) :
    skipBlanks (b :: r) = b :: r := by
  simp [skipBlanks, h]

/-- A written value begins with no blank and no closing bracket. -/
theorem print_begins {j : Json} (h : IsPlain j) :
    ∃ b bs, print j = b :: bs ∧ isBlankByte b = false ∧ b ≠ 93 := by
  have number : ∀ n, ∃ b bs, digits n = b :: bs ∧ isBlankByte b = false ∧ b ≠ 93 := by
    intro n
    cases hds : digits n with
    | nil => exact absurd hds (digits_ne_nil n)
    | cons d ds =>
        have hd := isDigit_digits n d (by simp [hds])
        refine ⟨d, ds, rfl, ?_, ?_⟩
        · have : ∀ b : UInt8, isDigit b = true → isBlankByte b = false := by
            intro b hb
            simp only [isDigit, isBlankByte, Bool.and_eq_true, decide_eq_true_eq,
              Bool.or_eq_false_iff, beq_eq_false_iff_ne, UInt8.le_iff_toNat_le] at hb ⊢
            refine ⟨⟨⟨?_, ?_⟩, ?_⟩, ?_⟩ <;> rintro rfl <;> simp at hb
          exact this d hd
        · rintro rfl
          simp [isDigit] at hd
  cases j with
  | null => exact ⟨_, _, rfl, rfl, by decide⟩
  | bool b => cases b <;> exact ⟨_, _, rfl, rfl, by decide⟩
  | int n =>
      cases n with
      | ofNat n => exact number n
      | negSucc n => exact ⟨_, _, rfl, rfl, by decide⟩
  | float x => exact absurd h (by simp [IsPlain])
  | str s => exact ⟨_, _, rfl, rfl, by decide⟩
  | arr items => exact ⟨_, _, rfl, rfl, by decide⟩
  | obj fields => exact ⟨_, _, rfl, rfl, by decide⟩
  | garbled => exact absurd h (by simp [IsPlain])

theorem printItems_begins {x : Json} (h : IsPlain x) (xs : List Json) :
    ∃ b bs, printItems (x :: xs) = b :: bs ∧ isBlankByte b = false ∧ b ≠ 93 := by
  obtain ⟨b, bs, hb, hblank, hne⟩ := print_begins h
  cases xs <;> exact ⟨b, _, by rw [printItems, hb, List.cons_append], hblank, hne⟩

theorem printFields_begins (e : String × Json) (fields : List (String × Json)) :
    ∃ bs, printFields (e :: fields) = 34 :: bs := by
  cases fields <;> exact ⟨_, rfl⟩

theorem printInt_begins (n : Int) : ∃ b bs, printInt n = b :: bs ∧ (isDigit b = true ∨ b = 45) := by
  cases n with
  | ofNat n =>
      cases hds : digits n with
      | nil => exact absurd hds (digits_ne_nil n)
      | cons d ds => exact ⟨d, ds, hds, .inl (isDigit_digits n d (by simp [hds]))⟩
  | negSucc n => exact ⟨45, _, rfl, .inr rfl⟩

theorem endsNumeral_cons {b : UInt8} {r : Bytes}
    (h : isDigit b = false ∧ b ≠ 46 ∧ b ≠ 101 ∧ b ≠ 69) : EndsNumeral (b :: r) := by
  intro c hc
  simp only [List.head?_cons, Option.mem_some_iff] at hc
  exact hc ▸ h

theorem skipBlanks_print {j : Json} (h : IsPlain j) (r : Bytes) :
    skipBlanks (print j ++ r) = print j ++ r := by
  obtain ⟨b, bs, hb, hblank, -⟩ := print_begins h
  rw [hb, List.cons_append, skipBlanks_cons hblank]

mutual

theorem readValue_print : ∀ (j : Json), IsPlain j → ∀ (fuel : Nat) (r : Bytes),
    (print j).length ≤ fuel → EndsNumeral r → readValue fuel (print j ++ r) = some (j, r)
  | j, h, 0, _, hf, _ => by
      obtain ⟨b, bs, hb, -⟩ := print_begins h
      simp [hb] at hf
  | .null, _, fuel + 1, r, _, _ => by
      rfl
  | .bool true, _, fuel + 1, r, _, _ => by
      rfl
  | .bool false, _, fuel + 1, r, _, _ => by
      rfl
  | .int n, h, fuel + 1, r, _, hr => by
      have hskip := skipBlanks_print h r
      obtain ⟨m, hm, hv⟩ := readNumeral_printInt h hr
      -- The first byte is a digit or a sign, so no other reader is chosen.
      obtain ⟨b, bs, hb, hfirst⟩ := printInt_begins n
      rw [readValue, hskip, print, hb, List.cons_append]
      rw [hb, List.cons_append] at hm
      split
      case h_7 =>
        rw [hm, ← hv]
        rfl
      all_goals
        next heq =>
          injection heq with heq
          subst heq
          simp [isDigit] at hfirst
  | .str s, _, fuel + 1, r, _, _ => by
      have hread := readString_printString s r
      rw [print, printString, List.cons_append, List.append_assoc, List.singleton_append, readValue,
        skipBlanks_cons (by decide)]
      show (readString _ >>= _) = _
      rw [hread]
      rfl
  | .arr [], h, fuel + 1, r, hf, hr => by
      rfl
  | .arr (x :: xs), h, fuel + 1, r, hf, hr => by
      have hitems := readItems_printItems x xs h fuel r (by simpa [print] using hf)
      -- An item does not begin with the bracket that would end the list.
      obtain ⟨b, bs, hb, hblank, hne⟩ := printItems_begins h.1 xs
      rw [print, List.cons_append, readValue, skipBlanks_cons (by decide)]
      rw [hb, List.cons_append] at hitems ⊢
      simp only [skipBlanks_cons hblank]
      split
      · next heq => injection heq with heq; exact absurd heq hne
      · rw [hitems]
        rfl
  | .obj [], h, fuel + 1, r, hf, hr => by
      rfl
  | .obj (e :: fields), h, fuel + 1, r, hf, hr => by
      have hfields := readFields_printFields e fields h fuel r (by simpa [print] using hf)
      obtain ⟨bs, hb⟩ := printFields_begins e fields
      rw [print, List.cons_append, readValue, skipBlanks_cons (by decide)]
      rw [hb, List.cons_append] at hfields ⊢
      show (readFields fuel (34 :: (bs ++ r)) >>= _) = _
      rw [hfields]
      rfl

theorem readItems_printItems : ∀ (x : Json) (xs : List Json), PlainItems (x :: xs) →
    ∀ (fuel : Nat) (r : Bytes), (printItems (x :: xs)).length ≤ fuel →
      readItems fuel (printItems (x :: xs) ++ r) = some (x :: xs, r)
  | x, xs, h, 0, r, hf => by
      obtain ⟨b, bs, hb, -⟩ := printItems_begins h.1 xs
      simp [hb] at hf
  | x, [], h, fuel + 1, r, hf => by
      simp only [printItems, List.length_append, List.length_singleton] at hf
      have hx := readValue_print x h.1 fuel (93 :: r) (by omega) (endsNumeral_cons (by decide))
      rw [printItems, List.append_assoc, List.singleton_append, readItems, hx]
      rfl
  | x, y :: xs, h, fuel + 1, r, hf => by
      simp only [printItems, List.length_append, List.length_cons] at hf
      have hx := readValue_print x h.1 fuel (44 :: (printItems (y :: xs) ++ r)) (by omega)
        (endsNumeral_cons (by decide))
      have hxs := readItems_printItems y xs h.2 fuel r (by omega)
      rw [printItems, List.append_assoc, List.cons_append, readItems, hx]
      show (readItems fuel (printItems (y :: xs) ++ r) >>= _) = _
      rw [hxs]
      rfl

theorem readFields_printFields : ∀ (e : String × Json) (fields : List (String × Json)),
    PlainFields (e :: fields) → ∀ (fuel : Nat) (r : Bytes),
      (printFields (e :: fields)).length ≤ fuel →
        readFields fuel (printFields (e :: fields) ++ r) = some (some (e :: fields), r)
  | e, fields, h, 0, r, hf => by
      obtain ⟨bs, hb⟩ := printFields_begins e fields
      simp [hb] at hf
  | (k, x), [], h, fuel + 1, r, hf => by
      have htext : printFields [(k, x)] ++ r
          = 34 :: ((Bytes.ofString k).flatMap escape ++ 34 :: 58 :: (print x ++ 125 :: r)) := by
        simp [printFields, printString]
      simp only [printFields, List.length_append, List.length_cons, List.length_nil] at hf
      have hx := readValue_print x h.1 fuel (125 :: r) (by omega) (endsNumeral_cons (by decide))
      rw [htext, readFields, skipBlanks_cons (by decide)]
      show (readString _ >>= _) = _
      rw [readString_printString]
      show (readValue fuel _ >>= _) = _
      rw [hx]
      rfl
  | (k, x), y :: fields, h, fuel + 1, r, hf => by
      have htext : printFields ((k, x) :: y :: fields) ++ r
          = 34 :: ((Bytes.ofString k).flatMap escape ++ 34 :: 58 ::
            (print x ++ 44 :: (printFields (y :: fields) ++ r))) := by
        simp [printFields, printString]
      simp only [printFields, List.length_append, List.length_cons] at hf
      have hx := readValue_print x h.1 fuel (44 :: (printFields (y :: fields) ++ r)) (by omega)
        (endsNumeral_cons (by decide))
      have hfields := readFields_printFields y fields h.2 fuel r (by omega)
      rw [htext, readFields, skipBlanks_cons (by decide)]
      show (readString _ >>= _) = _
      rw [readString_printString]
      show (readValue fuel _ >>= _) = _
      rw [hx]
      show (readFields fuel (printFields (y :: fields) ++ r) >>= _) = _
      rw [hfields]
      rfl

end

/-- **A plain value reads back.** -/
theorem parse_print {j : Json} (h : IsPlain j) : parse (print j) = some j := by
  -- There is fuel for more steps than there are bytes.
  have hread := readValue_print j h (2 * (print j).length + 2) [] (by omega) (by simp [EndsNumeral])
  rw [List.append_nil] at hread
  rw [parse, hread]
  rfl

end Registrar.Json
