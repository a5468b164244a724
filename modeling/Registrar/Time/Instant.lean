import Registrar.Fault

set_option autoImplicit false

/-! # Instants and durations

An instant is a moment of universal time: a day, the second of that day and the nanosecond of that
second. A leap second has no number of its own. It continues a second, any one, whose nanoseconds
then run on from 10⁹ to 2·10⁹. Civil time inserts leap seconds at the end of a minute only, and
clocks show civil time. The days reach from the year -262143 to the year 262142.

A duration has unsigned seconds, but an instant is moved on in signed ones. Before it is added a
duration is therefore made a shift, which not every duration fits, and the sum of an instant and a
shift may in turn lie past the last day. Both ways the sum stops at the last instant. -/

namespace Registrar

/-- The day of -262143-01-01. -/
def firstDay : Int := -96465292

/-- The day of +262142-12-31. -/
def lastDay : Int := 95026236

def secondsPerDay : Nat := 86400

def nanosPerSecond : Nat := 1000000000

/-- A moment of universal time. -/
structure Instant where
  day : Int
  second : Nat
  nano : Nat
  day_ge : firstDay ≤ day
  day_le : day ≤ lastDay
  second_lt : second < secondsPerDay
  nano_lt : nano < 2 * nanosPerSecond
  deriving DecidableEq

/-- A span of time of any length that 64 bits of seconds can hold. -/
structure Duration where
  seconds : UInt64
  nanos : Nat
  nanos_lt : nanos < nanosPerSecond
  deriving DecidableEq

namespace Duration

def zero : Duration := ⟨0, 0, by decide⟩

def ofSeconds (n : UInt64) : Duration := ⟨n, 0, by decide⟩

def ofMillis (n : UInt64) : Duration :=
  ⟨n / 1000, (n % 1000).toNat * 1000000, by
    have h : (n % 1000).toNat < 1000 := by
      rw [UInt64.toNat_mod]; exact Nat.mod_lt _ (by decide)
    show _ < 1000000000
    omega⟩

def ofNanos (n : Nat) : Duration :=
  ⟨UInt64.ofNat (n / nanosPerSecond), n % nanosPerSecond, Nat.mod_lt _ (by decide)⟩

/-- Seconds and nanoseconds, of which whole seconds are carried over. -/
def ofParts (seconds : UInt64) (nanos : UInt32) : Except PanicPayload Duration :=
  let total := seconds.toNat * nanosPerSecond + nanos.toNat
  if total / nanosPerSecond < UInt64.size then .ok (ofNanos total) else .error .spanOverflow

/-- The length in nanoseconds. -/
def toNanos (d : Duration) : Nat := d.seconds.toNat * nanosPerSecond + d.nanos

/-- Whole milliseconds. -/
def toMillis (d : Duration) : Nat := d.toNanos / 1000000

def isZero (d : Duration) : Bool := d.toNanos == 0

end Duration

/-- The length of the longest shift, 2⁶³ - 1 milliseconds. -/
def longestShiftNanos : Nat := 9223372036854775807 * 1000000

/-- How far an instant can be moved on: seconds in a signed word, and nanoseconds. -/
structure Shift where
  seconds : Int64
  nanos : Nat
  seconds_nonneg : 0 ≤ seconds.toInt
  nanos_lt : nanos < nanosPerSecond
  le_longest : seconds.toInt * nanosPerSecond + nanos ≤ longestShiftNanos
  deriving DecidableEq

namespace Shift

def longest : Shift := ⟨9223372036854775, 807000000, by decide, by decide, by decide⟩

/-- The length in nanoseconds. -/
def toNanos (d : Shift) : Int := d.seconds.toInt * nanosPerSecond + d.nanos

/-- The shift with these parts, if it is one. -/
def ofParts? (seconds : Int64) (nanos : Nat) : Option Shift :=
  if h : 0 ≤ seconds.toInt ∧ nanos < nanosPerSecond ∧
      seconds.toInt * nanosPerSecond + nanos ≤ longestShiftNanos then
    some ⟨seconds, nanos, h.1, h.2.1, h.2.2⟩
  else none

end Shift

/-- The duration as a shift, if it is not too long for one. **The seconds are compared while they
have no sign**: from 2⁶³ on they would be negative in a signed word. -/
def Duration.toShift? (d : Duration) : Option Shift :=
  if d.seconds ≤ Shift.longest.seconds.toUInt64 then Shift.ofParts? d.seconds.toInt64 d.nanos
  else none

namespace Instant

/-- The last instant there is. -/
def last : Instant := ⟨lastDay, 86399, 999999999, by decide, by decide, by decide, by decide⟩

/-- The start of 1970. -/
def epoch : Instant := ⟨0, 0, 0, by decide, by decide, by decide, by decide⟩

instance : Inhabited Instant := ⟨epoch⟩

/-! ## Leap seconds -/

/-- Inside a leap second. -/
def InLeapSecond (t : Instant) : Prop := nanosPerSecond ≤ t.nano

instance (t : Instant) : Decidable t.InLeapSecond := inferInstanceAs (Decidable (_ ≤ _))

/-- In civil time: inside no leap second but one at the end of a minute. -/
def IsCivil (t : Instant) : Prop := t.InLeapSecond → t.second % 60 = 59

instance (t : Instant) : Decidable t.IsCivil := inferInstanceAs (Decidable (_ → _))

/-! ## Order -/

/-- Day first, then second, then nanosecond. -/
def before (a b : Instant) : Bool :=
  a.day < b.day || (a.day == b.day && (a.second < b.second ||
    (a.second == b.second && a.nano < b.nano)))

instance : LT Instant := ⟨fun a b => a.before b = true⟩

instance : LE Instant := ⟨fun a b => b.before a = false⟩

instance (a b : Instant) : Decidable (a < b) := inferInstanceAs (Decidable (a.before b = true))

instance (a b : Instant) : Decidable (a ≤ b) := inferInstanceAs (Decidable (b.before a = false))

/-! ## Construction and sums -/

/-- The instant with these parts, if they are in range. -/
def ofParts? (day : Int) (second nano : Nat) : Option Instant :=
  if h : firstDay ≤ day ∧ day ≤ lastDay ∧ second < secondsPerDay ∧ nano < 2 * nanosPerSecond then
    some ⟨day, second, nano, h.1, h.2.1, h.2.2.1, h.2.2.2⟩
  else none

/-- The instant some seconds and nanoseconds after the start of a day, if it is in range. -/
def ofDayTime? (day : Int) (seconds : Int64) (nanos : Nat) : Option Instant :=
  let seconds := seconds + Int64.ofNat (nanos / nanosPerSecond)
  ofParts? (day + seconds.toInt / secondsPerDay) (seconds.toInt % secondsPerDay).toNat
    (nanos % nanosPerSecond)

/-- **An instant moved on**, if the sum is in range. A sum that leaves a leap second counts that
second as none; a sum inside a leap second stays in it. -/
def shift? (t : Instant) (d : Shift) : Option Instant :=
  let seconds := Int64.ofNat t.second + d.seconds
  if t.InLeapSecond then
    if 0 < d.seconds ∨ 2 * nanosPerSecond ≤ t.nano + d.nanos then
      ofDayTime? t.day seconds (t.nano - nanosPerSecond + d.nanos)
    else ofParts? t.day t.second (t.nano + d.nanos)
  else ofDayTime? t.day seconds (t.nano + d.nanos)

/-- An instant and a later one. A duration that is too long for a shift counts as the longest. -/
def add? (t : Instant) (d : Duration) : Option Instant := t.shift? (d.toShift?.getD .longest)

/-- The sum, or the last instant where the sum is out of range. -/
def add (t : Instant) (d : Duration) : Instant := (t.add? d).getD last

/-- Nanoseconds since the epoch, leap seconds not counted. -/
def toNanos (t : Instant) : Int :=
  (t.day * secondsPerDay + t.second) * nanosPerSecond + t.nano

end Instant

/-! ## Clocks -/

/-- What a clock shows: civil time, which has a text of its own. -/
structure Reading extends Instant where
  civil : toInstant.IsCivil
  deriving DecidableEq

namespace Reading

instance : Coe Reading Instant := ⟨Reading.toInstant⟩

/-- The start of 1970. -/
def epoch : Reading := ⟨.epoch, by decide⟩

instance : Inhabited Reading := ⟨epoch⟩

end Reading

end Registrar
