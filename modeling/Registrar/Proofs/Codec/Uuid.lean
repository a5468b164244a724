import Mathlib.Tactic.Ring
import Registrar.Id

set_option autoImplicit false

/-! # UUIDs read back

The written form of a UUID is read as the UUID that was written (`parse_text`), so that no two
UUIDs have one written form (`text_inj`). Both carry over to identifiers.

The digits of a group are a number in base sixteen (`foldl_group`); the five groups of the
hyphenated form are one group of thirty-two digits without the hyphens. -/

namespace Registrar

namespace Uuid

/-! ## Digits -/

theorem digitValue?_digit : ∀ n < 16, digitValue? (digit n) = some n := by decide

theorem group_succ (u : Uuid) (place count : Nat) :
    u.group place (count + 1) = u.digitAt (place + count) :: u.group place count := by
  simp only [group, List.range_succ_eq_map, List.map_cons, List.map_map]
  congr 1
  apply List.map_congr_left
  intro i _
  simp only [Function.comp]
  congr 1
  omega

@[simp] theorem length_group (u : Uuid) (place count : Nat) :
    (u.group place count).length = count := by
  simp [group]

/-- Neighbouring groups make up one group. -/
theorem group_append (u : Uuid) (place count more : Nat) :
    u.group (place + count) more ++ u.group place count = u.group place (count + more) := by
  induction more with
  | zero => simp [group]
  | succ more ih =>
      rw [group_succ, List.cons_append, ih, ← Nat.add_assoc count, group_succ, Nat.add_assoc]

/-- The digits of a group, each with its value. -/
theorem mapM_group (u : Uuid) (place count : Nat) :
    (u.group place count).mapM digitValue?
      = some ((List.range count).map fun i => u.toNat / 16 ^ (place + count - 1 - i) % 16) := by
  induction count with
  | zero => rfl
  | succ count ih =>
      have hd : digitValue? (u.digitAt (place + count)) =
          some (u.toNat / 16 ^ (place + count) % 16) :=
        digitValue?_digit _ (Nat.mod_lt _ (by decide))
      rw [group_succ, List.mapM_cons, hd, ih, List.range_succ_eq_map, List.map_cons, List.map_map]
      simp only [Option.pure_def, Option.bind_eq_bind, Option.bind_some]
      congr 2
      apply List.map_congr_left
      intro i _
      simp only [Function.comp]
      congr 3
      omega

/-- The number that the digits of a group denote. -/
theorem foldl_group (u : Uuid) (place count acc : Nat) :
    ((List.range count).map fun i => u.toNat / 16 ^ (place + count - 1 - i) % 16).foldl
      (fun n d => n * 16 + d) acc = acc * 16 ^ count + u.toNat / 16 ^ place % 16 ^ count := by
  induction count generalizing acc with
  | zero => simp [Nat.mod_one]
  | succ count ih =>
      -- The first digit is taken off; the others are those of a shorter group.
      have shift : ((fun i => u.toNat / 16 ^ (place + (count + 1) - 1 - i) % 16) ∘ Nat.succ)
          = fun i => u.toNat / 16 ^ (place + count - 1 - i) % 16 := by
        funext i
        simp only [Function.comp]
        congr 3
        omega
      have split : u.toNat / 16 ^ place % 16 ^ (count + 1)
          = u.toNat / 16 ^ (place + count) % 16 * 16 ^ count
            + u.toNat / 16 ^ place % 16 ^ count := by
        rw [Nat.pow_succ, Nat.mod_mul, Nat.div_div_eq_div_mul, ← Nat.pow_add]
        ring
      rw [List.range_succ_eq_map, List.map_cons, List.map_map, shift, List.foldl_cons, ih, split,
        show place + (count + 1) - 1 - 0 = place + count by omega]
      ring

theorem ofNat_toNat (u : Uuid) : ofNat u.toNat = u := by
  simp [ofNat, toNat]

theorem ofDigits?_group (u : Uuid) : ofDigits? (u.group 0 32) = some u := by
  -- Thirty-two digits hold every UUID, so nothing is cut off.
  have hlt : u.toNat < 16 ^ 32 := u.bits.isLt
  rw [ofDigits?, if_pos (length_group u 0 32), mapM_group, Option.map_some, foldl_group,
    Nat.pow_zero, Nat.div_one, Nat.mod_eq_of_lt hlt, Nat.zero_mul, Nat.zero_add, ofNat_toNat]

/-! ## The hyphenated form -/

theorem length_chars (u : Uuid) : u.chars.length = 36 := by
  simp [chars]

theorem ofHyphenated?_chars (u : Uuid) : ofHyphenated? u.chars = some u := by
  have hyphens : [8, 13, 18, 23].all (fun i => u.chars[i]? == some '-') = true := by
    simp [chars]
  have digits : u.chars.take 8 ++ ((u.chars.drop 9).take 4 ++ ((u.chars.drop 14).take 4 ++
      ((u.chars.drop 19).take 4 ++ u.chars.drop 24))) = u.group 0 32 := by
    calc _ = u.group (0 + 24) 8 ++ (u.group (0 + 20) 4 ++ (u.group (0 + 16) 4 ++
          (u.group (0 + 12) 4 ++ u.group 0 12))) := by
          simp [chars, List.drop_append, List.drop_of_length_le]
      _ = u.group 0 32 := by
          rw [group_append u 0 12 4, group_append u 0 16 4, group_append u 0 20 4,
            group_append u 0 24 8]
  rw [ofHyphenated?, if_pos ⟨length_chars u, hyphens⟩, digits, ofDigits?_group]

/-- **A UUID reads back.** -/
@[simp] theorem parse_text (u : Uuid) : parse u.text = some u := by
  -- The form without hyphens is tried first, and thirty-six characters are too many for it.
  have short : ofDigits? u.chars = none := by
    rw [ofDigits?, if_neg (by simp [length_chars])]
  simp [parse, text, short, ofHyphenated?_chars]

theorem text_inj {u v : Uuid} : u.text = v.text ↔ u = v := by
  constructor
  · intro h
    have := congrArg parse h
    simpa using this
  · rintro rfl
    rfl

end Uuid

/-! ## Identifiers -/

namespace Id

variable {kind : IdKind}

@[simp] theorem parse?_text (id : Id kind) : parse? id.text = some id := by
  simp [parse?, text]

theorem text_inj {a b : Id kind} : a.text = b.text ↔ a = b := by
  constructor
  · intro h
    have hread : (parse? a.text : Option (Id kind)) = parse? b.text := by rw [h]
    simpa using hread
  · rintro rfl
    rfl

@[simp] theorem ofJson?_toJson (id : Id kind) : ofJson? id.toJson = some id := by
  simp [ofJson?, toJson, Json.asString?]

theorem toAggregate_inj {a b : UserId} : a.toAggregate = b.toAggregate ↔ a = b := by
  constructor
  · intro h
    cases a
    cases b
    simpa [toAggregate] using h
  · rintro rfl
    rfl

end Id

end Registrar
