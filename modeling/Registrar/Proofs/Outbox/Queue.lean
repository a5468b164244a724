import Registrar.Proofs.Outbox.Rows

set_option autoImplicit false

/-! # Queues

The rows of an outbox that pass some test, oldest first: by time of creation, and of one time by id.
Ids are all different, so this order is strict and there is only one such list (`Queue.eq`). Reading
the rows of one status takes the front of a queue, and so does claiming rows (`fetch_of_filed`,
`leased_eq`). -/

namespace Registrar.Outbox

/-! ## Which rows come first -/

/-- Created earlier, or at the same time and with a smaller id. -/
def Row.Precedes (a b : Row) : Prop :=
  a.createdAt < b.createdAt ∨ a.createdAt = b.createdAt ∧ a.id.toNat < b.id.toNat

theorem Row.Precedes.asymm {a b : Row} (hab : a.Precedes b) : ¬ b.Precedes a := by
  intro hba
  rcases hab with hab | ⟨heq, hid⟩
  · rcases hba with hba | ⟨heq, -⟩
    · exact Instant.not_before_self _ (Instant.before_trans hab hba)
    · rw [heq] at hab
      exact Instant.not_before_self _ hab
  · rcases hba with hba | ⟨-, hid'⟩
    · rw [heq] at hba
      exact Instant.not_before_self _ hba
    · exact Nat.lt_asymm hid hid'

/-- Of rows with different ids, one that is not younger comes first. -/
theorem Row.precedes_of_notYounger {a b : Row} (hle : a.notYounger b = true) (hid : a.id ≠ b.id) :
    a.Precedes b := by
  rcases Row.notYounger_iff.1 hle with hlt | ⟨heq, hnat⟩
  · exact .inl hlt
  · refine .inr ⟨heq, Nat.lt_of_le_of_ne hnat fun hsame => hid ?_⟩
    exact Row.id_eq_of_notYounger hle
      (Row.notYounger_iff.2 (.inr ⟨heq.symm, Nat.le_of_eq hsame.symm⟩))

/-- A row behind the first so many has an id that none of these has, if all have different ids. -/
theorem id_notMem_take {rows : List Row} (hids : (rows.map (·.id)).Nodup) {n : Nat} {r : Row}
    (hr : r ∈ rows.drop n) : r.id ∉ (rows.take n).map (·.id) := by
  rw [← List.take_append_drop n rows, List.map_append, List.nodup_append] at hids
  exact fun hmem => hids.2.2 r.id hmem r.id (List.mem_map_of_mem hr) rfl

/-- **These are the rows of the outbox that are to be kept, all of them, oldest first.** -/
structure Queue (keep : Row → Prop) (ts : Tables) (rows : List Row) : Prop where
  mem : ∀ r, r ∈ rows ↔ rowAt ts r.id = some r ∧ keep r
  sorted : rows.Pairwise Row.Precedes

namespace Queue

variable {keep keep' : Row → Prop} {ts : Tables} {rows rows' : List Row}

theorem congr (h : Queue keep ts rows) (hkeep : ∀ r, keep r ↔ keep' r) : Queue keep' ts rows where
  mem r := by rw [h.mem, hkeep]
  sorted := h.sorted

theorem nodup (h : Queue keep ts rows) : rows.Nodup :=
  h.sorted.imp fun hab heq => by
    rw [heq] at hab
    exact hab.asymm hab

/-- Rows of a queue have ids of their own. -/
theorem nodup_id (h : Queue keep ts rows) : (rows.map (·.id)).Nodup := by
  refine h.nodup.map_on fun r hr r' hr' hid => ?_
  have hrow := ((h.mem r).1 hr).1
  rw [hid, ((h.mem r').1 hr').1] at hrow
  exact (Option.some.inj hrow).symm

/-- **There is one queue of these rows.** -/
theorem eq (h : Queue keep ts rows) (h' : Queue keep ts rows') : rows = rows' := by
  have hperm := (List.perm_ext_iff_of_nodup h.nodup h'.nodup).2 fun r => by rw [h.mem, h'.mem]
  exact hperm.eq_of_pairwise (fun r r' _ _ hle hge => absurd hge hle.asymm) h.sorted h'.sorted

end Queue

/-! ## The queue of a test -/

/-- The rows that pass a test, oldest first. -/
def queued (test : Row → Bool) (ts : Tables) : List Row :=
  Row.oldestFirst (((ts.table tableName).values.filterMap Row.ofJson?).filter test)

theorem length_queued_le (test : Row → Bool) (ts : Tables) :
    (queued test ts).length ≤ (ts.table tableName).size := by
  calc (queued test ts).length
      = (((ts.table tableName).values.filterMap Row.ofJson?).filter test).length :=
        (Row.oldestFirst_perm _).length_eq
    _ ≤ ((ts.table tableName).values.filterMap Row.ofJson?).length := List.length_filter_le _ _
    _ ≤ (ts.table tableName).values.length := List.length_filterMap_le _ _
    _ = (ts.table tableName).size := List.length_map _

theorem nodup_id_queued {ts : Tables} (h : Filed ts) (test : Row → Bool) :
    ((queued test ts).map (·.id)).Nodup := by
  have hread : (((ts.table tableName).values.filterMap Row.ofJson?).map (·.id.text)).Nodup :=
    ((Row.oldestFirst_perm _).map _).nodup_iff.1 (nodup_readableRows h)
  have hkept : ((queued test ts).map (·.id.text)).Nodup :=
    ((Row.oldestFirst_perm _).map _).nodup_iff.2 (hread.sublist (List.filter_sublist.map _))
  refine List.Nodup.of_map Uuid.text ?_
  rwa [List.map_map]

/-- **In a filed outbox every test has its queue.** -/
theorem queue_queued {ts : Tables} (h : Filed ts) (test : Row → Bool) :
    Queue (test · = true) ts (queued test ts) where
  mem r := by
    unfold queued
    rw [(Row.oldestFirst_perm _).mem_iff, List.mem_filter, ← mem_readableRows_iff_rowAt h]
    exact and_congr_left fun _ => (Row.oldestFirst_perm _).mem_iff.symm
  sorted := by
    have hdistinct := List.pairwise_map.1 (nodup_id_queued h test)
    exact ((Row.pairwise_oldestFirst _).and hdistinct).imp fun hab =>
      Row.precedes_of_notYounger hab.1 hab.2

/-! ## What is taken off the front -/

theorem fetch_of_filed {ts : Tables} (h : Filed ts) (status : Status) (limit : Nat) :
    fetch status limit ts = .ok ((queued (·.status = status) ts).take limit) := by
  rw [fetch, rowsWith, rows_of_filed h]
  rfl

theorem leased_eq (limit : Nat) (lease : Duration) (now : Reading) (ts : Tables) :
    leased limit lease now ts =
      ((queued (·.isClaimable now) ts).take limit).map (·.claim now lease) := rfl

end Registrar.Outbox
