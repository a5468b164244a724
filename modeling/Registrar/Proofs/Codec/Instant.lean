import Registrar.Proofs.Codec.Calendar
import Registrar.Proofs.Time.Sum

set_option autoImplicit false

/-! # Instants read back

The text of an instant in civil time is read as that instant, over the whole range of days, with
every fraction and the leap seconds that end a minute. A leap second elsewhere has no text of its
own: it is written as the second after it, and so it is read (`asRead`, `parse_text`). Whatever is
read is in civil time (`isCivil_of_parse`), so reading and writing again changes nothing more.

The reader takes each number up to the next character that is no digit, or up to a fixed width.
`readNumber_padded` covers both, and each part of the text is one use of it. -/

namespace Registrar.Instant

/-! ## Digits -/

theorem decimalDigit_spec (n : Nat) :
    (decimalDigit n).isDigit = true ∧ (decimalDigit n).toNat - 48 = n % 10 ∧
      Text.isBlank (decimalDigit n) = false := by
  have all : ∀ d < 10, (Char.ofNat (48 + d)).isDigit = true ∧ (Char.ofNat (48 + d)).toNat - 48 = d ∧
      Text.isBlank (Char.ofNat (48 + d)) = false := by decide
  exact all (n % 10) (Nat.mod_lt _ (by decide))

@[simp] theorem length_padded (w n : Nat) : (padded w n).length = w := by
  induction w generalizing n with
  | zero => rfl
  | succ w ih => simp [padded, ih]

theorem isDigit_padded (w n : Nat) : ∀ c ∈ padded w n, c.isDigit = true := by
  induction w generalizing n with
  | zero => simp [padded]
  | succ w ih =>
      intro c hc
      rcases List.mem_append.1 hc with hc | hc
      · exact ih _ c hc
      · rw [List.mem_singleton.1 hc]
        exact (decimalDigit_spec n).1

/-- The value of digits that are read on from `acc`. -/
theorem foldl_padded (w n acc : Nat) :
    (padded w n).foldl (fun n d => n * 10 + (d.toNat - 48)) acc = acc * 10 ^ w + n % 10 ^ w := by
  induction w generalizing n with
  | zero => simp [padded, Nat.mod_one]
  | succ w ih =>
      have split : n % 10 ^ (w + 1) = n / 10 % 10 ^ w * 10 + n % 10 := by
        rw [Nat.pow_succ, Nat.mul_comm, Nat.mod_mul]
        omega
      rw [padded, List.foldl_append, ih, split, Nat.pow_succ]
      simp only [List.foldl_cons, List.foldl_nil, (decimalDigit_spec n).2.1]
      rw [Nat.add_mul, Nat.mul_assoc, Nat.add_assoc]

/-- The first of some digits. -/
theorem padded_succ (w n : Nat) : ∃ d, padded (w + 1) n = decimalDigit d :: padded w n := by
  induction w generalizing n with
  | zero => exact ⟨n, rfl⟩
  | succ w ih =>
      obtain ⟨d, hd⟩ := ih (n / 10)
      exact ⟨d, by rw [padded, hd, List.cons_append, padded]⟩

/-! ## Numbers -/

/-- What follows a number goes on with no digit. -/
def EndsNumber (r : List Char) : Prop := ∀ c ∈ r.head?, c.isDigit = false

theorem takeWhile_padded (w n : Nat) {r : List Char} (h : EndsNumber r) :
    (padded w n ++ r).takeWhile Char.isDigit = padded w n := by
  rw [List.takeWhile_append_of_pos (isDigit_padded w n)]
  cases r with
  | nil => simp
  | cons c r => simp [h c rfl]

/-- A number is read up to its width or up to what is no digit. -/
theorem readNumber_padded {width w n : Nat} {r : List Char} (h0 : 0 < w)
    (hw : width = w ∨ w ≤ width ∧ EndsNumber r) :
    readNumber width (padded w n ++ r) = some (n % 10 ^ w, r) := by
  -- The reader stops behind the digits, at its width or at a character that is no digit.
  have hds : ((padded w n ++ r).take width).takeWhile Char.isDigit = padded w n := by
    rcases hw with rfl | ⟨hle, hr⟩
    · rw [List.take_left' (length_padded width n)]
      simpa using takeWhile_padded width n (r := []) (by simp [EndsNumber])
    · rw [List.take_append, length_padded, List.take_of_length_le (by simpa using hle)]
      refine takeWhile_padded w n ?_
      intro c hc
      cases r with
      | nil => simp at hc
      | cons d r =>
          cases hk : width - w with
          | zero => simp [hk] at hc
          | succ k =>
              simp only [hk, List.take_succ_cons, List.head?_cons, Option.mem_some_iff] at hc
              exact hr c (by simp [hc])
  have hne : padded w n ≠ [] := by
    intro h
    have := congrArg List.length h
    simp at this
    omega
  simp only [readNumber, hds, if_neg hne, foldl_padded, Nat.zero_mul, Nat.zero_add]
  rw [List.drop_left' (by simp)]

theorem skipBlanks_cons {c : Char} {r : List Char} (h : Text.isBlank c = false) :
    skipBlanks (c :: r) = c :: r := by
  simp [skipBlanks, h]

theorem skipBlanks_padded {w n : Nat} (r : List Char) (h0 : 0 < w) :
    skipBlanks (padded w n ++ r) = padded w n ++ r := by
  obtain ⟨w, rfl⟩ := Nat.exists_eq_succ_of_ne_zero (Nat.ne_of_gt h0)
  obtain ⟨d, hd⟩ := padded_succ w n
  rw [hd]
  exact skipBlanks_cons (decimalDigit_spec d).2.2

/-- A field of two digits. -/
theorem readField_two {n : Nat} (r : List Char) (hn : n < 100) :
    readField 2 (padded 2 n ++ r) = some (n, r) := by
  rw [readField, skipBlanks_padded r (by decide), readNumber_padded (by decide) (.inl rfl),
    Nat.mod_eq_of_lt (by simpa using hn)]

theorem expect_cons {c : Char} {r : List Char} (h : Text.isBlank c = false) :
    expect c (c :: r) = some r := by
  simp [expect, skipBlanks_cons h]

/-! ## Years and fractions -/

theorem yearWidth_spec {n : Nat} (h : n ≤ 262143) : 0 < yearWidth n ∧ n < 10 ^ yearWidth n := by
  unfold yearWidth
  split
  · omega
  · split <;> omega

/-- A year without a sign. -/
theorem readYear_digits (n : Nat) (r : List Char) :
    readYear (padded 4 n ++ r) = some (((n % 10 ^ 4 : Nat) : Int), r) := by
  have hread : readNumber 4 (padded 4 n ++ r) = some (n % 10 ^ 4, r) :=
    readNumber_padded (by decide) (.inl rfl)
  -- The first digit is neither of the signs that a year can begin with.
  obtain ⟨d, hd⟩ := padded_succ 3 n
  have hdigit := (decimalDigit_spec d).1
  unfold readYear
  rw [skipBlanks_padded r (by decide)]
  split
  · next heq =>
      rw [hd, List.cons_append] at heq
      injection heq with heq
      simp [heq] at hdigit
  · next heq =>
      rw [hd, List.cons_append] at heq
      injection heq with heq
      simp [heq] at hdigit
  · rw [hread]
    rfl

theorem readYear_yearChars {y : Int} (h : yearInRange y = true) (r : List Char) :
    readYear (yearChars y ++ '-' :: r) = some (y, '-' :: r) := by
  simp only [yearInRange, Bool.and_eq_true, decide_eq_true_eq] at h
  have hends : EndsNumber ('-' :: r) := by simp [EndsNumber]
  -- Behind a sign a year has as many digits as it needs.
  have hread : ∀ k, yearWidth y.natAbs ≤ k → readNumber k (padded (yearWidth y.natAbs) y.natAbs
      ++ '-' :: r) = some (y.natAbs, '-' :: r) := by
    intro k hk
    obtain ⟨hpos, hlt⟩ := yearWidth_spec (n := y.natAbs) (by omega)
    rw [readNumber_padded hpos (.inr ⟨hk, hends⟩), Nat.mod_eq_of_lt hlt]
  unfold yearChars
  split
  · next four =>
      rw [readYear_digits, Nat.mod_eq_of_lt (by omega), Int.toNat_of_nonneg four.1]
  · next signed =>
      rcases Int.lt_or_le y 0 with neg | pos
      · rw [if_pos neg, List.cons_append]
        simp only [readYear, skipBlanks_cons (show Text.isBlank '-' = false by decide)]
        rw [hread _ (by simp), Option.map_some, show -((y.natAbs : Nat) : Int) = y by omega]
      · rw [if_neg (Int.not_lt.2 pos), List.cons_append]
        simp only [readYear, skipBlanks_cons (show Text.isBlank '+' = false by decide)]
        rw [hread _ (by simp), Option.map_some, show ((y.natAbs : Nat) : Int) = y by omega]

/-- A fraction of `w` digits. -/
theorem readFraction_padded {w n : Nat} {r : List Char} (h0 : 0 < w) (hw : w ≤ 9)
    (hn : n < 10 ^ w) (hr : EndsNumber r) :
    readFraction ('.' :: (padded w n ++ r)) = some (n * 10 ^ (9 - w), r) := by
  have hmin : min 9 w = w := by omega
  simp only [readFraction, takeWhile_padded w n hr, readNumber_padded h0 (.inr ⟨hw, hr⟩),
    length_padded, Option.bind_eq_bind, Option.bind_some, Option.pure_def, hmin,
    Nat.mod_eq_of_lt hn]
  rw [List.drop_left' (by simp)]

theorem readFraction_fractionChars {n : Nat} (h : n < nanosPerSecond) (r : List Char) :
    readFraction (fractionChars n ++ 'Z' :: r) = some (n, 'Z' :: r) := by
  have hends : EndsNumber ('Z' :: r) := by simp [EndsNumber]
  unfold nanosPerSecond at h
  unfold fractionChars
  split
  · next h0 => simp [readFraction, h0]
  · split
    · next h3 =>
        rw [List.cons_append, readFraction_padded (by decide) (by decide) (by omega) hends]
        simp only [Option.some.injEq, Prod.mk.injEq, and_true]
        omega
    · split
      · next h6 =>
          rw [List.cons_append, readFraction_padded (by decide) (by decide) (by omega) hends]
          simp only [Option.some.injEq, Prod.mk.injEq, and_true]
          omega
      · rw [List.cons_append, readFraction_padded (by decide) (by decide) (by omega) hends]
        simp

/-! ## Leap seconds -/

/-- **The instant that the text of an instant is read as.** Second 60 stands for the leap second
that ends a minute; any other leap second is written as the second after it. -/
def asRead (t : Instant) : Instant :=
  if h : t.InLeapSecond ∧ t.second % 60 ≠ 59 then
    { t with
      second := t.second + 1
      nano := t.nano - nanosPerSecond
      second_lt := by
        have := t.second_lt
        unfold secondsPerDay at *
        omega
      nano_lt := Nat.lt_of_le_of_lt (Nat.sub_le _ _) t.nano_lt }
  else t

/-- Civil time is read as it is, and any other as the second after it. -/
theorem asRead_cases (t : Instant) :
    t.IsCivil ∧ t.asRead = t ∨
      (t.InLeapSecond ∧ t.second % 60 ≠ 59) ∧ t.asRead.day = t.day ∧
        t.asRead.second = t.second + 1 ∧ t.asRead.nano = t.nano - nanosPerSecond := by
  by_cases hodd : t.InLeapSecond ∧ t.second % 60 ≠ 59
  · exact .inr ⟨hodd, by simp only [asRead, dif_pos hodd, and_self]⟩
  · refine .inl ⟨fun hleap => Decidable.not_not.1 fun hne => hodd ⟨hleap, hne⟩, dif_neg hodd⟩

theorem asRead_of_isCivil {t : Instant} (h : t.IsCivil) : t.asRead = t :=
  dif_neg fun hodd => hodd.2 (h hodd.1)

theorem isCivil_asRead (t : Instant) : t.asRead.IsCivil := by
  rcases t.asRead_cases with ⟨hcivil, hsame⟩ | ⟨-, -, -, hnano⟩
  · rw [hsame]
    exact hcivil
  · have := t.nano_lt
    refine isCivil_of_not_inLeapSecond fun hleap => ?_
    simp only [InLeapSecond, nanosPerSecond] at *
    omega

theorem asRead_eq_self_iff {t : Instant} : t.asRead = t ↔ t.IsCivil :=
  ⟨fun h => h ▸ t.isCivil_asRead, asRead_of_isCivil⟩

theorem day_asRead (t : Instant) : t.asRead.day = t.day := by
  rcases t.asRead_cases with ⟨-, hsame⟩ | ⟨-, hday, -⟩
  · rw [hsame]
  · exact hday

/-- The seconds of a time of day as they are written, and how they are read. -/
theorem asRead_written (t : Instant) :
    t.asRead.second / 60 = t.second / 60 ∧
    (if t.second % 60 + t.nano / nanosPerSecond = 60 then
      (59, t.nano % nanosPerSecond + nanosPerSecond)
      else (t.second % 60 + t.nano / nanosPerSecond, t.nano % nanosPerSecond)) =
      (t.asRead.second % 60, t.asRead.nano) := by
  have hnano := t.nano_lt
  rcases t.asRead_cases with ⟨hcivil, hsame⟩ | ⟨⟨hleap, hodd⟩, -, hsecond, hrest⟩
  · rw [hsame]
    refine ⟨rfl, ?_⟩
    unfold IsCivil InLeapSecond at hcivil
    unfold nanosPerSecond at *
    rcases Nat.lt_or_ge t.nano 1000000000 with h | h
    · have hdiv : t.nano / 1000000000 = 0 := by omega
      rw [hdiv, if_neg (by omega), Nat.add_zero, Nat.mod_eq_of_lt h]
    · have hdiv : t.nano / 1000000000 = 1 := by omega
      have hmod : t.nano % 1000000000 + 1000000000 = t.nano := by omega
      rw [hdiv, hcivil h, if_pos rfl, hmod]
  · rw [hsecond, hrest]
    unfold InLeapSecond at hleap
    unfold nanosPerSecond at *
    have hdiv : t.nano / 1000000000 = 1 := by omega
    have hmod : t.nano % 1000000000 = t.nano - 1000000000 := by omega
    have hnext : (t.second + 1) % 60 = t.second % 60 + 1 := by omega
    exact ⟨by omega, by rw [hdiv, if_neg (by omega), hmod, hnext]⟩

/-! ## Whole texts -/

/-- A date, a time of day and the instant that they are read as. -/
theorem ofLocal?_parts (t : Instant) :
    ofLocal? (CivilDate.ofDay t.day) (t.second / 3600) (t.second / 60 % 60)
      (t.second % 60 + t.nano / nanosPerSecond) (t.nano % nanosPerSecond) 0 = some t.asRead := by
  have hs : t.second < 86400 := t.second_lt
  have hn : t.nano < 2 * 1000000000 := t.nano_lt
  obtain ⟨hminute, hwritten⟩ := t.asRead_written
  have hsecond : t.second % 60 + t.nano / nanosPerSecond ≤ 60 := by
    unfold nanosPerSecond
    omega
  have hminutes : ((t.second / 3600 : Nat) : Int) * 60 + (t.second / 60 % 60 : Nat) - 0
      = (t.second / 60 : Nat) := by omega
  have hsameDay : ((t.second / 60 : Nat) : Int) / 1440 = 0 := by omega
  have hrest : (((t.second / 60 : Nat) : Int) % 1440).toNat * 60 + t.asRead.second % 60 =
      t.asRead.second := by omega
  unfold ofLocal?
  rw [if_pos ⟨CivilDate.yearInRange_ofDay t.day_ge t.day_le, CivilDate.isValid_ofDay t.day,
    by omega, by omega, hsecond⟩]
  simp only [hwritten, hminutes, hsameDay, hrest, CivilDate.toDay_ofDay, Int.add_zero]
  exact ofParts?_eq_some_iff.2 ⟨t.day_asRead, rfl, rfl⟩

theorem parseChars_chars (t : Instant) : parseChars t.chars = some t.asRead := by
  have hd0 := t.day_ge
  have hd1 := t.day_le
  have hs := t.second_lt
  have hn := t.nano_lt
  simp only [secondsPerDay, nanosPerSecond] at hs hn
  have hvalid := CivilDate.isValid_ofDay t.day
  simp only [CivilDate.isValid, Bool.and_eq_true, decide_eq_true_eq] at hvalid
  -- Of the calendar only that a day has at most two digits is needed.
  have hday : (CivilDate.ofDay t.day).day < 100 := by
    have : CivilDate.daysInMonth (CivilDate.ofDay t.day).year
        (CivilDate.ofDay t.day).month ≤ 31 := by
      unfold CivilDate.daysInMonth
      split
      · split <;> decide
      · split <;> decide
    omega
  have hdash : Text.isBlank '-' = false := by decide
  have hcolon : Text.isBlank ':' = false := by decide
  have hzone : Text.isBlank 'Z' = false := by decide
  unfold parseChars chars dateChars timeChars
  simp only [List.append_assoc, List.cons_append,
    readYear_yearChars (CivilDate.yearInRange_ofDay hd0 hd1),
    Option.bind_eq_bind, Option.bind_some, expect_cons hdash]
  -- From here part by part: each field has a bound of its own.
  rw [readField_two _ (by omega)]
  simp only [Option.bind_some, expect_cons hdash]
  rw [readField_two _ hday]
  simp only [Option.bind_some]
  rw [if_neg (by decide)]
  rw [readField_two _ (by omega)]
  simp only [Option.bind_some, expect_cons hcolon]
  rw [readField_two _ (by omega)]
  simp only [Option.bind_some, expect_cons hcolon]
  rw [readField_two _ (by simp only [nanosPerSecond]; omega)]
  simp only [Option.bind_some,
    readFraction_fractionChars (Nat.mod_lt t.nano (show 0 < nanosPerSecond by decide)),
    skipBlanks_cons hzone]
  exact ofLocal?_parts t

/-- **An instant reads back as its text says.** -/
@[simp] theorem parse_text (t : Instant) : parse t.text = some t.asRead := by
  simp [parse, text, parseChars_chars]

@[simp] theorem ofJson?_toJson (t : Instant) : ofJson? t.toJson = some t.asRead := by
  simp [ofJson?, toJson, Json.asString?]

/-- What is read is written like what it was read from. -/
theorem text_asRead (t : Instant) : t.asRead.text = t.text := by
  rcases t.asRead_cases with ⟨-, hsame⟩ | ⟨⟨hleap, hodd⟩, hday, hsecond, hnano⟩
  · rw [hsame]
  · have hbound := t.nano_lt
    unfold InLeapSecond at hleap
    unfold nanosPerSecond at hbound hleap
    simp only [text, chars, timeChars, hday, hsecond, hnano, nanosPerSecond]
    rw [show (t.second + 1) / 3600 = t.second / 3600 by omega,
      show (t.second + 1) / 60 = t.second / 60 by omega,
      show (t.second + 1) % 60 + (t.nano - 1000000000) / 1000000000 =
        t.second % 60 + t.nano / 1000000000 by omega,
      show (t.nano - 1000000000) % 1000000000 = t.nano % 1000000000 by omega]

@[simp] theorem toJson_asRead (t : Instant) : t.asRead.toJson = t.toJson :=
  congrArg Json.str t.text_asRead

/-- A third of a second into a leap second that follows 23:56:04, on the first day of 2024. -/
def strayLeap : Instant :=
  ⟨19723, 86164, 1333333333, by decide, by decide, by decide, by decide⟩

theorem not_isCivil_strayLeap : ¬ strayLeap.IsCivil := by decide

example : strayLeap.text = "2024-01-01T23:56:05.333333333Z" := by decide +kernel

/-! ## What is read -/

theorem isCivil_of_ofLocal? {date : CivilDate} {hour minute second nano : Nat} {offset : Int}
    {t : Instant} (hnano : nano < nanosPerSecond)
    (h : ofLocal? date hour minute second nano offset = some t) : t.IsCivil := by
  unfold ofLocal? at h
  split at h
  · by_cases hleap : second = 60
    · simp only [if_pos hleap] at h
      obtain ⟨-, hsecond, -⟩ := ofParts?_eq_some_iff.1 h
      intro _
      omega
    · simp only [if_neg hleap] at h
      obtain ⟨-, -, hrest⟩ := ofParts?_eq_some_iff.1 h
      exact isCivil_of_not_inLeapSecond (Nat.not_le_of_lt (hrest ▸ hnano))
  · cases h

/-- Digits that are read on from `acc` stay below the next number of that length. -/
theorem foldl_digits_lt {ds : List Char} (h : ∀ c ∈ ds, c.isDigit = true) (acc : Nat) :
    ds.foldl (fun n d => n * 10 + (d.toNat - 48)) acc < (acc + 1) * 10 ^ ds.length := by
  induction ds generalizing acc with
  | nil => simp
  | cons d ds ih =>
      have hdigit : d.toNat - 48 ≤ 9 := by
        have := h d List.mem_cons_self
        simp only [Char.isDigit, Bool.and_eq_true, decide_eq_true_eq,
          UInt32.le_iff_toNat_le] at this
        have hnine : d.val.toNat ≤ 57 := this.2
        show d.val.toNat - 48 ≤ 9
        omega
      have hrest := ih (fun c hc => h c (List.mem_cons_of_mem _ hc)) (acc * 10 + (d.toNat - 48))
      have hstep : acc * 10 + (d.toNat - 48) + 1 ≤ (acc + 1) * 10 := by omega
      calc (d :: ds).foldl (fun n d => n * 10 + (d.toNat - 48)) acc
          < (acc * 10 + (d.toNat - 48) + 1) * 10 ^ ds.length := hrest
        _ ≤ (acc + 1) * 10 * 10 ^ ds.length := Nat.mul_le_mul_right _ hstep
        _ = (acc + 1) * 10 ^ (d :: ds).length := by
          rw [List.length_cons, Nat.pow_succ, Nat.mul_assoc, Nat.mul_comm 10]

theorem length_takeWhile_take (p : Char → Bool) (w : Nat) (cs : List Char) :
    ((cs.take w).takeWhile p).length = min w (cs.takeWhile p).length := by
  induction cs generalizing w with
  | nil => simp
  | cons c cs ih =>
      cases w with
      | zero => simp
      | succ w =>
          by_cases hc : p c
          · simp [hc, ih]
          · simp [hc]

theorem readFraction_lt {cs : List Char} {a : Nat × List Char} (h : readFraction cs = some a) :
    a.1 < nanosPerSecond := by
  unfold readFraction at h
  split at h
  · next r =>
      simp only [Option.bind_eq_bind, Option.bind_eq_some_iff] at h
      obtain ⟨⟨n, rest⟩, hread, ha⟩ := h
      simp only [readNumber] at hread
      split at hread
      · cases hread
      · cases hread
        cases ha
        -- At most nine digits, and a zero for each one missing.
        have hdigits : ∀ c ∈ (r.take 9).takeWhile Char.isDigit, c.isDigit = true :=
          List.all_eq_true.1 List.all_takeWhile
        have hlt := foldl_digits_lt hdigits 0
        rw [length_takeWhile_take, Nat.zero_add, Nat.one_mul] at hlt
        have hpow : ∀ k, min 9 k ≤ 9 := fun k => Nat.min_le_left 9 k
        calc _ < 10 ^ min 9 (r.takeWhile Char.isDigit).length *
                10 ^ (9 - min 9 (r.takeWhile Char.isDigit).length) :=
              Nat.mul_lt_mul_of_pos_right hlt (Nat.pow_pos (by decide))
          _ = nanosPerSecond := by
              rw [← Nat.pow_add, Nat.add_sub_of_le (hpow _)]
              rfl
  · cases h
    exact (by decide : 0 < nanosPerSecond)

/-- **Whatever text is read, it tells a civil time.** -/
theorem isCivil_of_parse {s : String} {t : Instant} (h : parse s = some t) : t.IsCivil := by
  unfold parse parseChars at h
  simp only [Option.bind_eq_bind, Option.bind_eq_some_iff] at h
  obtain ⟨_, -, _, -, _, -, _, -, _, -, h⟩ := h
  split at h
  · cases h
  · split at h
    · simp at h
    · simp only [Option.bind_eq_some_iff] at h
      obtain ⟨_, -, _, -, _, -, _, -, _, -, _, hfraction, _, -, h⟩ := h
      split at h
      · exact isCivil_of_ofLocal? (readFraction_lt hfraction) h
      · cases h

theorem isCivil_of_ofJson? {j : Json} {t : Instant} (h : ofJson? j = some t) : t.IsCivil := by
  obtain ⟨_, -, hparse⟩ := Option.bind_eq_some_iff.1 h
  exact isCivil_of_parse hparse

end Registrar.Instant
