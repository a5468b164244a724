import Registrar.Proofs.Outbox.Moves
import Registrar.Proofs.Time.Order

set_option autoImplicit false

/-! # Rows by age

Rows are ordered by their time of creation and then by their id. Sorting by age therefore leaves a
list in which no row is younger than the next (`pairwise_oldestFirst`), and two rows of which
neither is younger have the same time and the same id. Reading a filed outbox finds each of its rows
once (`mem_readableRows_iff`, `nodup_readableRows`). -/

namespace Registrar

/-! ## Rows -/

namespace Outbox.Row

theorem notYounger_iff {a b : Row} :
    a.notYounger b = true ↔ a.createdAt.before b.createdAt = true ∨
      a.createdAt = b.createdAt ∧ a.id.toNat ≤ b.id.toNat := by
  have hlt : decide (a.createdAt < b.createdAt) = a.createdAt.before b.createdAt :=
    Bool.decide_eq_true
  simp [notYounger, hlt]

theorem notYounger_trans {a b c : Row} (hab : a.notYounger b = true) (hbc : b.notYounger c = true) :
    a.notYounger c = true := by
  rw [notYounger_iff] at *
  rcases hab with hab | ⟨hab, hid⟩
  · rcases hbc with hbc | ⟨hbc, -⟩
    · exact .inl (Instant.before_trans hab hbc)
    · exact .inl (hbc ▸ hab)
  · rcases hbc with hbc | ⟨hbc, hid'⟩
    · exact .inl (hab ▸ hbc)
    · exact .inr ⟨hab.trans hbc, Nat.le_trans hid hid'⟩

theorem notYounger_total (a b : Row) : (a.notYounger b || b.notYounger a) = true := by
  rw [Bool.or_eq_true, notYounger_iff, notYounger_iff]
  rcases Instant.before_or_eq_or_before a.createdAt b.createdAt with hab | hab | hba
  · exact .inl (.inl hab)
  · rcases Nat.le_total a.id.toNat b.id.toNat with hid | hid
    · exact .inl (.inr ⟨hab, hid⟩)
    · exact .inr (.inr ⟨hab.symm, hid⟩)
  · exact .inr (.inl hba)

/-- **Of rows with different ids one is younger.** -/
theorem id_eq_of_notYounger {a b : Row} (hab : a.notYounger b = true)
    (hba : b.notYounger a = true) : a.id = b.id := by
  rw [notYounger_iff] at hab hba
  rcases hab with hab | ⟨heq, hid⟩
  · rcases hba with hba | ⟨heq, -⟩
    · exact absurd (Instant.before_trans hab hba) (Instant.not_before_self _)
    · rw [heq] at hab
      exact absurd hab (Instant.not_before_self _)
  · rcases hba with hba | ⟨-, hid'⟩
    · rw [heq] at hba
      exact absurd hba (Instant.not_before_self _)
    · have hnat : a.id.bits.toNat = b.id.bits.toNat := Nat.le_antisymm hid hid'
      have hbits := BitVec.eq_of_toNat_eq hnat
      cases ha : a.id
      cases hb : b.id
      rw [ha, hb] at hbits
      exact congrArg Uuid.mk hbits

theorem pairwise_oldestFirst (rows : List Row) :
    (oldestFirst rows).Pairwise fun a b => a.notYounger b = true := by
  unfold oldestFirst
  refine List.pairwise_mergeSort ?_ notYounger_total rows
  intro a b c
  exact notYounger_trans

theorem oldestFirst_perm (rows : List Row) : (oldestFirst rows).Perm rows :=
  List.mergeSort_perm rows notYounger

end Outbox.Row

namespace Outbox

/-! ## Reading a filed outbox -/

/-- The keys of a filed outbox are the ids of its rows. -/
theorem map_id_filterMap {entries : List (String × Json)}
    (h : ∀ k j, (k, j) ∈ entries → ∃ r : Row, j = r.toJson.canonical ∧ r.id.text = k) :
    ((entries.map (·.2)).filterMap Row.ofJson?).map (·.id.text) = entries.map (·.1) := by
  induction entries with
  | nil => rfl
  | cons entry entries ih =>
      obtain ⟨k, j⟩ := entry
      obtain ⟨r, rfl, hid⟩ := h k j List.mem_cons_self
      have hrest := ih fun k' j' hmem => h k' j' (List.mem_cons_of_mem _ hmem)
      rw [List.map_cons, List.filterMap_cons_some (Row.ofJson?_canonical r), List.map_cons,
        List.map_cons, hrest, ← hid]
      rfl

theorem mem_readableRows_iff {ts : Tables} (h : Filed ts) {r : Row} :
    r ∈ readableRows ts ↔
      r.IsCivil ∧ ts.row? tableName r.id.text = some r.toJson.canonical := by
  unfold readableRows
  rw [(Row.oldestFirst_perm _).mem_iff, List.mem_filterMap]
  constructor
  · rintro ⟨j, hj, hread⟩
    obtain ⟨k, hk⟩ := Keyed.mem_values_iff.1 hj
    obtain ⟨r', hcivil, rfl, hid⟩ := h.find hk
    rw [hcivil.ofJson?_canonical] at hread
    obtain rfl := Option.some.inj hread
    rw [hid]
    exact ⟨hcivil, hk⟩
  · rintro ⟨hcivil, hrow⟩
    exact ⟨_, Keyed.mem_values_iff.2 ⟨_, hrow⟩, hcivil.ofJson?_canonical⟩

theorem nodup_readableRows {ts : Tables} (h : Filed ts) :
    ((readableRows ts).map (·.id.text)).Nodup := by
  -- Sorting keeps the ids, and before it they were the keys of a map.
  have hperm := (Row.oldestFirst_perm
    ((ts.table tableName).values.filterMap Row.ofJson?)).map (·.id.text)
  refine hperm.nodup_iff.2 ?_
  rw [Keyed.values, map_id_filterMap fun k j hmem => h k j (Keyed.mem_entries_iff.1 hmem)]
  exact Keyed.nodup_keys _

end Outbox

end Registrar
