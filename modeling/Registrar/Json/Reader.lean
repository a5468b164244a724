import Registrar.Json.Numeral

set_option autoImplicit false

/-! # Reading JSON

A reader of strict JSON from bytes. It takes one value with blanks (space, tab, line feed,
carriage return) around its parts, and nothing after it. Parts that are written correctly but
denote nothing come out as `Json.garbled`. -/

namespace Registrar.Json

def isBlankByte (b : UInt8) : Bool := b == 32 || b == 9 || b == 10 || b == 13

def skipBlanks (bs : Bytes) : Bytes := bs.dropWhile isBlankByte

/-! ## Strings -/

def hexValue? (b : UInt8) : Option Nat :=
  if 48 ≤ b ∧ b ≤ 57 then some (b.toNat - 48)
  else if 97 ≤ b ∧ b ≤ 102 then some (b.toNat - 87)
  else if 65 ≤ b ∧ b ≤ 70 then some (b.toNat - 55)
  else none

/-- The number that four hexadecimal digits denote. -/
def unit? (a b c d : UInt8) : Option Nat := do
  let a ← hexValue? a
  let b ← hexValue? b
  let c ← hexValue? c
  let d ← hexValue? d
  some (((a * 16 + b) * 16 + c) * 16 + d)

def isHighSurrogate (n : Nat) : Bool := 0xD800 ≤ n && n < 0xDC00

def isLowSurrogate (n : Nat) : Bool := 0xDC00 ≤ n && n < 0xE000

/-- The UTF-8 bytes of a code point. -/
def codePoint (n : Nat) : Bytes := String.utf8EncodeChar (Char.ofNat n)

/-- The character after a backslash, for escapes of two characters. -/
def simpleEscape? (b : UInt8) : Option UInt8 :=
  if b = 34 then some 34
  else if b = 92 then some 92
  else if b = 47 then some 47
  else if b = 98 then some 8
  else if b = 102 then some 12
  else if b = 110 then some 10
  else if b = 114 then some 13
  else if b = 116 then some 9
  else none

/-- A part of a string between quotes: a byte that stands for itself, or a UTF-16 unit that was
written as four hexadecimal digits. -/
inductive Piece where
  | byte (b : UInt8)
  | unit (n : Nat)
  deriving DecidableEq, Repr

/-- The pieces up to the closing quote, and what follows it. -/
def readPieces : Bytes → Option (List Piece × Bytes)
  | [] => none
  | 34 :: r => some ([], r)
  | 92 :: 117 :: a :: b :: c :: d :: r => do
      let n ← unit? a b c d
      let (ps, r) ← readPieces r
      return (.unit n :: ps, r)
  | 92 :: e :: r => do
      let c ← simpleEscape? e
      let (ps, r) ← readPieces r
      return (.byte c :: ps, r)
  | b :: r =>
      if b < 32 ∨ b = 92 then none
      else do
        let (ps, r) ← readPieces r
        return (.byte b :: ps, r)

/-- The bytes that the pieces denote: two surrogates make one character, and **a surrogate that
stands alone denotes nothing**. -/
def joinPieces : List Piece → Option Bytes
  | [] => some []
  | .byte b :: ps => (joinPieces ps).map (b :: ·)
  | .unit n :: .unit m :: ps =>
      if isLowSurrogate n then none
      else if isHighSurrogate n then
        if isLowSurrogate m then
          (joinPieces ps).map (codePoint (0x10000 + (n - 0xD800) * 0x400 + (m - 0xDC00)) ++ ·)
        else none
      else (joinPieces (.unit m :: ps)).map (codePoint n ++ ·)
  | .unit n :: ps =>
      if isLowSurrogate n || isHighSurrogate n then none
      else (joinPieces ps).map (codePoint n ++ ·)

/-- The string up to the closing quote; `none` inside when it denotes nothing. -/
def readString (bs : Bytes) : Option (Option String × Bytes) := do
  let (ps, r) ← readPieces bs
  return ((joinPieces ps).bind Bytes.text?, r)

/-! ## Values -/

/-- What follows a fixed word. -/
def after (word : Bytes) (bs : Bytes) : Option Bytes :=
  if bs.take word.length = word then some (bs.drop word.length) else none

/-- Puts a field in front, unless its key denotes nothing or a later one does. -/
def consField (k : Option String) (v : Json) (fields : Option (List (String × Json))) :
    Option (List (String × Json)) :=
  match k, fields with
  | some k, some fields => some ((k, v) :: fields)
  | _, _ => none

mutual

/-- One value and what follows it. The first argument bounds the steps. -/
def readValue : Nat → Bytes → Option (Json × Bytes)
  | 0, _ => none
  | fuel + 1, bs =>
      match skipBlanks bs with
      | 110 :: r => do return (.null, ← after [117, 108, 108] r)
      | 116 :: r => do return (.bool true, ← after [114, 117, 101] r)
      | 102 :: r => do return (.bool false, ← after [97, 108, 115, 101] r)
      | 34 :: r => do
          let (s, r) ← readString r
          return ((s.map Json.str).getD .garbled, r)
      | 91 :: r => match skipBlanks r with
          | 93 :: r => some (.arr [], r)
          | r => do
              let (items, r) ← readItems fuel r
              return (.arr items, r)
      | 123 :: r => match skipBlanks r with
          | 125 :: r => some (.obj [], r)
          | r => do
              let (fields, r) ← readFields fuel r
              return ((fields.map Json.obj).getD .garbled, r)
      | r => do
          let (n, r) ← readNumeral r
          return (n.value, r)

/-- The items of an array that is not empty, up to its closing bracket. -/
def readItems : Nat → Bytes → Option (List Json × Bytes)
  | 0, _ => none
  | fuel + 1, bs => do
      let (v, r) ← readValue fuel bs
      match skipBlanks r with
      | 44 :: r => do
          let (vs, r) ← readItems fuel r
          return (v :: vs, r)
      | 93 :: r => some ([v], r)
      | _ => none

/-- The fields of an object that is not empty, up to its closing brace. -/
def readFields : Nat → Bytes → Option (Option (List (String × Json)) × Bytes)
  | 0, _ => none
  | fuel + 1, bs =>
      match skipBlanks bs with
      | 34 :: r => do
          let (k, r) ← readString r
          match skipBlanks r with
          | 58 :: r => do
              let (v, r) ← readValue fuel r
              match skipBlanks r with
              | 44 :: r => do
                  let (fields, r) ← readFields fuel r
                  return (consField k v fields, r)
              | 125 :: r => some (consField k v (some []), r)
              | _ => none
          | _ => none
      | _ => none

end

/-- **Reads a whole text as one value.** -/
def parse (bs : Bytes) : Option Json := do
  let (v, r) ← readValue (2 * bs.length + 2) bs
  if skipBlanks r = [] then some v else none

end Registrar.Json
