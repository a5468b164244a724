import Registrar.Json
import Registrar.Text.Blank
import Registrar.Time.Calendar
import Registrar.Time.Instant

set_option autoImplicit false

/-! # Instants as text

An instant is written as RFC 3339 in universal time with `Z`: a year of four digits, or signed
where four do not suffice, and a fraction of no, three, six or nine digits, the fewest that are
exact. A leap second adds one to the second that is written: it is second 60 at the end of a minute,
and anywhere else it is written as the second that follows.

Reading is more lenient: blanks may stand around the separators, numbers may be shorter, years
may carry a sign, and an offset or `UTC` may stand for `Z`. Digits of a fraction after the ninth
are dropped. -/

namespace Registrar.Instant

/-! ## Writing -/

def decimalDigit (n : Nat) : Char := Char.ofNat (48 + n % 10)

/-- The last `width` decimal digits of a number. -/
def padded : Nat → Nat → List Char
  | 0, _ => []
  | width + 1, n => padded width (n / 10) ++ [decimalDigit n]

/-- The number of decimal digits, at least four. -/
def yearWidth (n : Nat) : Nat := if n < 10000 then 4 else if n < 100000 then 5 else 6

def yearChars (y : Int) : List Char :=
  if 0 ≤ y ∧ y ≤ 9999 then padded 4 y.toNat
  else (if y < 0 then '-' else '+') :: padded (yearWidth y.natAbs) y.natAbs

def dateChars (d : CivilDate) : List Char :=
  yearChars d.year ++ '-' :: (padded 2 d.month ++ '-' :: padded 2 d.day)

/-- The fraction of a second, given in nanoseconds, as few digits as are exact. -/
def fractionChars (nanos : Nat) : List Char :=
  if nanos = 0 then []
  else if nanos % 1000000 = 0 then '.' :: padded 3 (nanos / 1000000)
  else if nanos % 1000 = 0 then '.' :: padded 6 (nanos / 1000)
  else '.' :: padded 9 nanos

def timeChars (second nano : Nat) : List Char :=
  let leap := nano / nanosPerSecond
  padded 2 (second / 3600) ++ ':' :: (padded 2 (second / 60 % 60) ++
    ':' :: (padded 2 (second % 60 + leap) ++ fractionChars (nano % nanosPerSecond)))

def chars (t : Instant) : List Char :=
  dateChars (CivilDate.ofDay t.day) ++ 'T' :: (timeChars t.second t.nano ++ ['Z'])

def text (t : Instant) : String := String.ofList t.chars

/-! ## Reading -/

open Text in
def skipBlanks (cs : List Char) : List Char := cs.dropWhile isBlank

/-- The value of the digits at the front, at most `width` of them, and what follows. -/
def readNumber (width : Nat) (cs : List Char) : Option (Nat × List Char) :=
  let ds := (cs.take width).takeWhile Char.isDigit
  if ds = [] then none
  else some (ds.foldl (fun n d => n * 10 + (d.toNat - 48)) 0, cs.drop ds.length)

/-- A number after blanks. -/
def readField (width : Nat) (cs : List Char) : Option (Nat × List Char) :=
  readNumber width (skipBlanks cs)

/-- A year after blanks: four digits at most, or any number of them after a sign. -/
def readYear (cs : List Char) : Option (Int × List Char) :=
  match skipBlanks cs with
  | '-' :: r => (readNumber r.length r).map fun (n, r) => (-(n : Int), r)
  | '+' :: r => (readNumber r.length r).map fun (n, r) => ((n : Int), r)
  | r => (readNumber 4 r).map fun (n, r) => ((n : Int), r)

/-- What follows a fixed character after blanks. -/
def expect (c : Char) (cs : List Char) : Option (List Char) :=
  match skipBlanks cs with
  | d :: r => if d = c then some r else none
  | [] => none

/-- The nanoseconds of a fraction, if a point follows. -/
def readFraction (cs : List Char) : Option (Nat × List Char) :=
  match cs with
  | '.' :: r => do
      let ds := r.takeWhile Char.isDigit
      let (n, _) ← readNumber 9 r
      return (n * 10 ^ (9 - min 9 ds.length), r.drop ds.length)
  | r => some (0, r)

def twoDigits? (cs : List Char) : Option (Nat × List Char) :=
  match cs with
  | a :: b :: r => if a.isDigit ∧ b.isDigit then
      some ((a.toNat - 48) * 10 + (b.toNat - 48), r) else none
  | _ => none

/-- A distance from universal time in minutes: `Z`, `UTC`, or a sign, two digits of hours and two
of minutes with any colons and blanks between them. -/
def readOffset (cs : List Char) : Option (Int × List Char) := do
  if (cs.take 3).map Char.toLower = ['u', 't', 'c'] then return (0, cs.drop 3)
  match cs with
  | c :: r =>
      if c = 'Z' ∨ c = 'z' then return (0, r)
      let negative ← if c = '+' then some false else if c = '-' ∨ c = '−' then some true else none
      let (hours, r) ← twoDigits? r
      let (minutes, r) ← twoDigits? (r.dropWhile fun c => c = ':' ∨ Text.isBlank c)
      if 59 < minutes ∨ 23 < hours then none
      let total : Int := hours * 60 + minutes
      return (if negative then -total else total, r)
  | [] => none

/-- The earliest and the latest year of a local date. -/
def yearInRange (y : Int) : Bool := -262143 ≤ y && y ≤ 262142

/-- The instant of a local date and time at an offset of minutes. -/
def ofLocal? (date : CivilDate) (hour minute second nano : Nat) (offset : Int) : Option Instant :=
  if yearInRange date.year ∧ date.isValid ∧ hour < 24 ∧ minute < 60 ∧ second ≤ 60 then
    let (second, nano) := if second = 60 then (59, nano + nanosPerSecond) else (second, nano)
    let minutes : Int := hour * 60 + minute - offset
    let day := date.toDay + minutes / 1440
    ofParts? day ((minutes % 1440).toNat * 60 + second) nano
  else none

/-- Reads a whole text as an instant. -/
def parseChars (cs : List Char) : Option Instant := do
  let (year, r) ← readYear cs
  let (month, r) ← readField 2 (← expect '-' r)
  let (day, r) ← readField 2 (← expect '-' r)
  match r with
  | [] => none
  | c :: r =>
      if c ≠ 't' ∧ c ≠ 'T' ∧ c ≠ ' ' then none
      let (hour, r) ← readField 2 r
      let (minute, r) ← readField 2 (← expect ':' r)
      let (second, r) ← readField 2 (← expect ':' r)
      let (nano, r) ← readFraction r
      let (offset, r) ← readOffset (skipBlanks r)
      if skipBlanks r = [] then ofLocal? ⟨year, month, day⟩ hour minute second nano offset else none

def parse (s : String) : Option Instant := parseChars s.toList

def toJson (t : Instant) : Json := .str t.text

def ofJson? (j : Json) : Option Instant := j.asString?.bind parse

end Registrar.Instant
