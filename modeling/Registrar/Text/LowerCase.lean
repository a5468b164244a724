import Registrar.Text.CaseTable

set_option autoImplicit false

/-! # Lower-casing

Full lower-casing of a text: every character by the table, the dotted capital `İ` to two
characters, and the capital sigma by its place. A sigma that ends a word becomes `ς`, any other
`σ`; it ends a word when a cased character stands before it and none after it, in both
directions looking past case-ignorable characters. -/

namespace Registrar.Text

/-- Whether the run holds the code point `n`. -/
def CaseRun.covers (r : CaseRun) (n : Nat) : Bool :=
  r.first ≤ n && n ≤ r.last && (n - r.first) % r.step == 0

/-- The simple lower case of one character. -/
def lowerChar (c : Char) : Char :=
  match lowerCaseRuns.find? (·.covers c.toNat) with
  | some r => Char.ofNat (c.toNat + r.shift).toNat
  | none => c

/-- Whether one of the runs holds the character. -/
def inRuns (runs : List (Nat × Nat)) (c : Char) : Bool :=
  runs.any fun r => r.1 ≤ c.toNat && c.toNat ≤ r.2

def isCaseIgnorable (c : Char) : Bool := inRuns caseIgnorableRuns c

/-- Cased, and not looked past by the sigma rule. -/
def isCased (c : Char) : Bool := inRuns casedRuns c

/-- The first character that is not case-ignorable exists and is cased. -/
def casedFirst (cs : List Char) : Bool :=
  match cs.dropWhile isCaseIgnorable with
  | c :: _ => isCased c
  | [] => false

/-- Lower case of one character between what stands before it, last first, and what follows. -/
def lowerAt (before : List Char) (c : Char) (after : List Char) : List Char :=
  if c = 'Σ' then [if casedFirst before && !casedFirst after then 'ς' else 'σ']
  else if c = 'İ' then ['i', Char.ofNat 0x307]
  else [lowerChar c]

/-- Lower case of `cs`, given the characters before it, last first. -/
def lowerAfter (before : List Char) : List Char → List Char
  | [] => []
  | c :: cs => lowerAt before c cs ++ lowerAfter (c :: before) cs

/-- The full lower case of a text. -/
def lower (s : String) : String := String.ofList (lowerAfter [] s.toList)

/-- Lower case of the letters `A` to `Z` alone. -/
def lowerAscii (s : String) : String := String.ofList (s.toList.map Char.toLower)

@[simp] theorem toList_lower (s : String) : (lower s).toList = lowerAfter [] s.toList := by
  simp [lower]

end Registrar.Text
