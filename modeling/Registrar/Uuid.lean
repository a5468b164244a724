import Registrar.Power

set_option autoImplicit false

/-! # UUIDs

A UUID is 128 bits, compared as a number. It is written in lower case in groups of 8, 4, 4, 4 and
12 hexadecimal digits; any case is read, also without hyphens, in braces, or after `urn:uuid:`. -/

namespace Registrar

structure Uuid where
  bits : BitVec 128
  deriving DecidableEq, Repr, Inhabited

namespace Uuid

/-- The UUID of which every bit is zero. -/
def nil : Uuid := ⟨0⟩

def ofNat (n : Nat) : Uuid := ⟨BitVec.ofNat 128 n⟩

def toNat (u : Uuid) : Nat := u.bits.toNat

instance : LT Uuid := ⟨fun a b => a.toNat < b.toNat⟩

instance (a b : Uuid) : Decidable (a < b) := inferInstanceAs (Decidable (a.toNat < b.toNat))

/-- The version number that the layout reserves four bits for. -/
def version (u : Uuid) : Nat := u.toNat / 2 ^ 76 % 16

/-- A time-ordered UUID (version 7): the milliseconds since 1970 lead, so that **later is
greater**; the low 74 bits of `tail` tell apart those of one millisecond. -/
def timeOrdered (millis tail : Nat) : Uuid :=
  let high := tail / 2 ^ 62 % 2 ^ 12
  let low := tail % 2 ^ 62
  ofNat (millis % 2 ^ 48 * 2 ^ 80 + 7 * 2 ^ 76 + high * 2 ^ 64 + 2 * 2 ^ 62 + low)

/-! ## Written form -/

/-- The lower-case hexadecimal digit of a number below 16. -/
def digit (n : Nat) : Char := if n < 10 then Char.ofNat (48 + n) else Char.ofNat (87 + n)

/-- The digit at a place counted from the right. -/
def digitAt (u : Uuid) (place : Nat) : Char := digit (u.toNat / 16 ^ place % 16)

/-- The `count` digits that end at a place counted from the right. -/
def group (u : Uuid) (place count : Nat) : List Char :=
  (List.range count).map fun i => u.digitAt (place + count - 1 - i)

/-- The hyphenated lower-case form. -/
def chars (u : Uuid) : List Char :=
  u.group 24 8 ++ '-' :: (u.group 20 4 ++ '-' :: (u.group 16 4 ++ '-' ::
    (u.group 12 4 ++ '-' :: u.group 0 12)))

def text (u : Uuid) : String := String.ofList u.chars

/-! ## Reading -/

def digitValue? (c : Char) : Option Nat :=
  if '0' ≤ c ∧ c ≤ '9' then some (c.toNat - 48)
  else if 'a' ≤ c ∧ c ≤ 'f' then some (c.toNat - 87)
  else if 'A' ≤ c ∧ c ≤ 'F' then some (c.toNat - 55)
  else none

/-- The UUID of exactly 32 hexadecimal digits. -/
def ofDigits? (cs : List Char) : Option Uuid :=
  if cs.length = 32 then
    (cs.mapM digitValue?).map fun ds => ofNat (ds.foldl (fun n d => n * 16 + d) 0)
  else none

/-- The digits of a hyphenated form. -/
def ofHyphenated? (cs : List Char) : Option Uuid :=
  if cs.length = 36 ∧ [8, 13, 18, 23].all (fun i => cs[i]? == some '-') then
    ofDigits? (cs.take 8 ++ ((cs.drop 9).take 4 ++ ((cs.drop 14).take 4 ++
      ((cs.drop 19).take 4 ++ cs.drop 24))))
  else none

/-- What stands between braces. -/
def inBraces? (cs : List Char) : Option (List Char) :=
  match cs with
  | '\x7b' :: r => if r.getLast? = some '\x7d' then some r.dropLast else none
  | _ => none

/-- What follows `urn:uuid:`, in any case. -/
def afterUrn? (cs : List Char) : Option (List Char) :=
  if (cs.take 9).map Char.toLower = "urn:uuid:".toList then some (cs.drop 9) else none

/-- Reads any of the accepted forms. -/
def parse (s : String) : Option Uuid :=
  let cs := s.toList
  (ofDigits? cs).orElse fun _ => (ofHyphenated? cs).orElse fun _ =>
    ((inBraces? cs).bind ofHyphenated?).orElse fun _ => (afterUrn? cs).bind ofHyphenated?

end Uuid

end Registrar
