import Registrar.Proofs.Time.Order

set_option autoImplicit false

/-! # Instants and durations added

Counted in nanoseconds a sum is exact, and it stops at the last instant (`toNanos_add`). It can stop
in two places, and the count decides in both: a duration is a shift unless it is longer than all of
them (`toShift?_eq_some_iff`), and an instant can be moved on by a shift wherever an instant lies at
the sum (`shift?_eq_some_iff`). The longest shift leads past the last instant from wherever it
starts, so a duration that is cut down to it ends where it would have ended itself. -/

namespace Registrar

/-- Signed words are added exactly while the sum stays in range. -/
theorem toInt_add_of_lt {a b : Int64} (ha : 0 ≤ a.toInt) (hb : 0 ≤ b.toInt)
    (hab : a.toInt + b.toInt < 9223372036854775808) : (a + b).toInt = a.toInt + b.toInt := by
  rw [Int64.toInt_add]
  exact Int.bmod_eq_of_le (by omega) (by omega)

/-- A word that is small enough keeps its value when it is given a sign. -/
theorem toInt_toInt64_of_lt {n : UInt64} (h : n.toNat < 9223372036854775808) :
    n.toInt64.toInt = n.toNat := by
  show n.toBitVec.toInt = _
  rw [BitVec.toInt_eq_toNat_of_lt]
  · rfl
  · show 2 * n.toNat < 2 ^ 64
    omega

/-! ## Durations as shifts -/

namespace Shift

theorem ofParts?_eq_some_iff {seconds : Int64} {nanos : Nat} {d : Shift} :
    ofParts? seconds nanos = some d ↔ d.seconds = seconds ∧ d.nanos = nanos := by
  unfold ofParts?
  constructor
  · intro h
    split at h
    · cases h
      exact ⟨rfl, rfl⟩
    · cases h
  · rintro ⟨rfl, rfl⟩
    exact dif_pos ⟨d.seconds_nonneg, d.nanos_lt, d.le_longest⟩

end Shift

theorem Duration.toShift?_eq_some_iff {d : Duration} {s : Shift} :
    d.toShift? = some s ↔ s.toNanos = d.toNanos := by
  have hlongest : Shift.longest.seconds.toUInt64.toNat = 9223372036854775 := rfl
  have hd := d.nanos_lt
  have hs := s.nanos_lt
  have hbound := s.le_longest
  simp only [toShift?, UInt64.le_iff_toNat_le, hlongest, Shift.toNanos, toNanos, nanosPerSecond,
    longestShiftNanos] at *
  by_cases h : d.seconds.toNat ≤ 9223372036854775
  · have hsigned := toInt_toInt64_of_lt (n := d.seconds) (by omega)
    rw [if_pos h, Shift.ofParts?_eq_some_iff, ← Int64.toInt_inj, hsigned]
    omega
  · rw [if_neg h]
    constructor
    · intro hnone
      cases hnone
    · omega

theorem Duration.toShift?_eq_none_iff {d : Duration} :
    d.toShift? = none ↔ longestShiftNanos < d.toNanos := by
  constructor
  · intro hnone
    refine Nat.lt_of_not_le fun hle => ?_
    have hd := d.nanos_lt
    simp only [toNanos, nanosPerSecond, longestShiftNanos] at *
    have hsigned := toInt_toInt64_of_lt (n := d.seconds) (by omega)
    -- Short enough, the duration is a shift with the same parts.
    let s : Shift := ⟨d.seconds.toInt64, d.nanos, by omega, hd, by
      simp only [nanosPerSecond, longestShiftNanos]
      omega⟩
    have hs : d.toShift? = some s := toShift?_eq_some_iff.2 (by
      simp only [s, Shift.toNanos, toNanos, nanosPerSecond, hsigned]
      omega)
    rw [hs] at hnone
    cases hnone
  · intro hlong
    cases hs : d.toShift? with
    | none => rfl
    | some s =>
        have hlength := toShift?_eq_some_iff.1 hs
        have hbound := s.le_longest
        simp only [Shift.toNanos] at hlength
        omega

namespace Instant

/-! ## The instants there are -/

theorem ofParts?_eq_some_iff {day : Int} {second nano : Nat} {t : Instant} :
    ofParts? day second nano = some t ↔ t.day = day ∧ t.second = second ∧ t.nano = nano := by
  unfold ofParts?
  constructor
  · intro h
    split at h
    · cases h
      exact ⟨rfl, rfl, rfl⟩
    · cases h
  · rintro ⟨rfl, rfl, rfl⟩
    exact dif_pos ⟨t.day_ge, t.day_le, t.second_lt, t.nano_lt⟩

theorem not_inLeapSecond_last : ¬ last.InLeapSecond := by decide

/-- The count from the first instant to the last. -/
theorem toNanos_bounds {t : Instant} (h : ¬ t.InLeapSecond) :
    firstDay * secondsPerDay * nanosPerSecond ≤ t.toNanos ∧ t.toNanos ≤ last.toNanos := by
  have hfirst := t.day_ge
  have hday := t.day_le
  have hsecond := t.second_lt
  have hnano := nano_lt_of_not_inLeapSecond h
  simp only [toNanos, last, secondsPerDay, nanosPerSecond] at *
  omega

/-- **No instant outside leap seconds is later than the last one.** -/
theorem le_last {t : Instant} (h : ¬ t.InLeapSecond) : t ≤ last :=
  (le_iff_toNanos_le h not_inLeapSecond_last).2 (toNanos_bounds h).2

/-- Outside leap seconds there is an instant at every count up to the last. -/
theorem exists_toNanos_eq {n : Int} (hfirst : firstDay * secondsPerDay * nanosPerSecond ≤ n)
    (hlast : n ≤ last.toNanos) : ∃ t : Instant, ¬ t.InLeapSecond ∧ t.toNanos = n := by
  simp only [toNanos, last, firstDay, lastDay, secondsPerDay, nanosPerSecond] at hfirst hlast
  refine ⟨⟨n / 1000000000 / 86400, (n / 1000000000 % 86400).toNat, (n % 1000000000).toNat,
    ?_, ?_, ?_, ?_⟩, ?_, ?_⟩
  all_goals
    simp only [InLeapSecond, toNanos, firstDay, lastDay, secondsPerDay, nanosPerSecond]
    omega

/-! ## Sums -/

/-- One instant is later than the other by just that duration, leap seconds not counted. -/
structure IsSum (t : Instant) (d : Duration) (sum : Instant) : Prop where
  regular : ¬ sum.InLeapSecond
  count : sum.toNanos = t.toNanos + d.toNanos

/-- The seconds of a sum, with what its nanoseconds carry over, fit a signed word. -/
theorem toInt_seconds (t : Instant) (d : Shift) {carry : Nat} (hcarry : carry ≤ 1) :
    (Int64.ofNat t.second + d.seconds + Int64.ofNat carry).toInt =
      t.second + d.seconds.toInt + carry := by
  have hsecond := t.second_lt
  have hpos := d.seconds_nonneg
  have hbound := d.le_longest
  simp only [secondsPerDay, nanosPerSecond, longestShiftNanos] at hsecond hbound
  have hword : (Int64.ofNat t.second).toInt = t.second := Int64.toInt_ofNat_of_lt (by omega)
  have hcarried : (Int64.ofNat carry).toInt = carry := Int64.toInt_ofNat_of_lt (by omega)
  have hsum : (Int64.ofNat t.second + d.seconds).toInt = t.second + d.seconds.toInt := by
    rw [toInt_add_of_lt (by omega) hpos (by omega), hword]
  rw [toInt_add_of_lt (by omega) (by omega) (by omega), hsum, hcarried]

/-- **Where an instant lies at the sum, it is the sum.** -/
theorem shift?_eq_some_iff {t u : Instant} {d : Shift} (ht : ¬ t.InLeapSecond) :
    t.shift? d = some u ↔ ¬ u.InLeapSecond ∧ u.toNanos = t.toNanos + d.toNanos := by
  have htnano := nano_lt_of_not_inLeapSecond ht
  have hdnano := d.nanos_lt
  have husecond := u.second_lt
  obtain ⟨carry, hcarry⟩ : ∃ carry, carry = (t.nano + d.nanos) / nanosPerSecond := ⟨_, rfl⟩
  simp only [secondsPerDay, nanosPerSecond] at htnano hdnano husecond hcarry
  have hparts : t.shift? d = some u ↔
      u.day = t.day + (t.second + d.seconds.toInt + carry) / 86400 ∧
      u.second = ((t.second + d.seconds.toInt + carry) % 86400).toNat ∧
      u.nano = (t.nano + d.nanos) % 1000000000 := by
    unfold shift?
    rw [if_neg ht, ofDayTime?, ofParts?_eq_some_iff, ← toInt_seconds t d (by omega), hcarry]
    rfl
  rw [hparts]
  simp only [InLeapSecond, toNanos, Shift.toNanos, secondsPerDay, nanosPerSecond]
  constructor
  · rintro ⟨hday, hsecond, hnano⟩
    omega
  · rintro ⟨hregular, hcount⟩
    omega

/-- **A sum is found wherever there is one.** A duration that is too long for a shift has none, and
neither has the longest shift, which is added in its place. -/
theorem add?_eq_some_iff {t u : Instant} {d : Duration} (ht : ¬ t.InLeapSecond) :
    t.add? d = some u ↔ t.IsSum d u := by
  have hiff : t.IsSum d u ↔ ¬ u.InLeapSecond ∧ u.toNanos = t.toNanos + d.toNanos :=
    ⟨fun h => ⟨h.regular, h.count⟩, fun h => ⟨h.1, h.2⟩⟩
  rw [hiff, add?, shift?_eq_some_iff ht]
  refine and_congr_right fun hu => ?_
  cases hs : d.toShift? with
  | some s => rw [Option.getD_some, Duration.toShift?_eq_some_iff.1 hs]
  | none =>
      have hlong := Duration.toShift?_eq_none_iff.1 hs
      have hlongest : Shift.longest.toNanos = longestShiftNanos := by decide
      have hstart := (toNanos_bounds ht).1
      have hend := (toNanos_bounds hu).2
      have hlast :
          last.toNanos < firstDay * secondsPerDay * nanosPerSecond + longestShiftNanos := by
        decide
      -- Either sum would be later than all that there is.
      rw [Option.getD_none, hlongest]
      omega

/-- Without a sum there is nothing as late as it would be. -/
theorem last_lt_of_add?_eq_none {t : Instant} {d : Duration} (ht : ¬ t.InLeapSecond)
    (h : t.add? d = none) : last.toNanos < t.toNanos + d.toNanos := by
  refine Int.not_le.1 fun hle => ?_
  have hstart := (toNanos_bounds ht).1
  obtain ⟨u, hregular, hcount⟩ := exists_toNanos_eq (n := t.toNanos + d.toNanos) (by omega) hle
  rw [(add?_eq_some_iff ht).2 ⟨hregular, hcount⟩] at h
  cases h

theorem not_inLeapSecond_add {t : Instant} (d : Duration) (ht : ¬ t.InLeapSecond) :
    ¬ (t.add d).InLeapSecond := by
  unfold add
  cases h : t.add? d with
  | some u => exact ((add?_eq_some_iff ht).1 h).regular
  | none => exact not_inLeapSecond_last

/-- **A sum is exact and stops at the last instant.** -/
theorem toNanos_add {t : Instant} (d : Duration) (ht : ¬ t.InLeapSecond) :
    (t.add d).toNanos = min (t.toNanos + d.toNanos) last.toNanos := by
  unfold add
  cases h : t.add? d with
  | some u =>
      have hu := (add?_eq_some_iff ht).1 h
      have hend := (toNanos_bounds hu.regular).2
      rw [Option.getD_some, ← hu.count, Int.min_eq_left hend]
  | none =>
      have hpast := last_lt_of_add?_eq_none ht h
      rw [Option.getD_none, Int.min_eq_right (by omega)]

/-- A sum is no earlier than what it starts from. -/
theorem le_add {t : Instant} (d : Duration) (ht : ¬ t.InLeapSecond) : t ≤ t.add d := by
  have hend := (toNanos_bounds ht).2
  rw [le_iff_toNanos_le ht (not_inLeapSecond_add d ht), toNanos_add d ht]
  omega

/-- A later start and a longer duration end no earlier. -/
theorem add_le_add {t t' : Instant} {d d' : Duration} (ht : ¬ t.InLeapSecond)
    (ht' : ¬ t'.InLeapSecond) (hle : t ≤ t') (hlonger : d.toNanos ≤ d'.toNanos) :
    t.add d ≤ t'.add d' := by
  rw [le_iff_toNanos_le (not_inLeapSecond_add d ht) (not_inLeapSecond_add d' ht'),
    toNanos_add d ht, toNanos_add d' ht']
  rw [le_iff_toNanos_le ht ht'] at hle
  omega

/-! ### Civil time -/

theorem isCivil_of_not_inLeapSecond {t : Instant} (h : ¬ t.InLeapSecond) : t.IsCivil :=
  fun hleap => absurd hleap h

theorem isCivil_ofDayTime? {day : Int} {seconds : Int64} {nanos : Nat} {t : Instant}
    (h : ofDayTime? day seconds nanos = some t) : t.IsCivil := by
  obtain ⟨-, -, hnano⟩ := ofParts?_eq_some_iff.1 h
  refine isCivil_of_not_inLeapSecond fun hleap => ?_
  simp only [InLeapSecond, nanosPerSecond] at hleap hnano
  omega

/-- **A sum with civil time is civil time**: it is inside a leap second only if it never left it. -/
theorem isCivil_add {t : Instant} (ht : t.IsCivil) (d : Duration) : (t.add d).IsCivil := by
  have hshift : ∀ (s : Shift) (u : Instant), t.shift? s = some u → u.IsCivil := by
    intro s u hu
    unfold shift? at hu
    by_cases hleap : t.InLeapSecond
    · rw [if_pos hleap] at hu
      split at hu
      · exact isCivil_ofDayTime? hu
      · obtain ⟨-, hsecond, -⟩ := ofParts?_eq_some_iff.1 hu
        exact fun _ => hsecond ▸ ht hleap
    · rw [if_neg hleap] at hu
      exact isCivil_ofDayTime? hu
  unfold add
  cases hsum : t.add? d with
  | some u => exact hshift _ u hsum
  | none => exact isCivil_of_not_inLeapSecond not_inLeapSecond_last

end Instant

end Registrar
