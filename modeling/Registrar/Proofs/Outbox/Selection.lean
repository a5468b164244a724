import Registrar.Proofs.Outbox.Draining
import Registrar.Proofs.Outbox.Queue

set_option autoImplicit false

/-! # Which rows are taken

Reading pending rows, reading rows that were given up and claiming rows each take the front of a
queue (`takes_oldest_first`). Who claims twice gets the front of the queue and then what follows it:
what the first claim answered is under a lease when the second one looks, and all the rest of the
queue is as it was (`queue_after_claim`). -/

namespace Registrar.Outbox

/-! ## A claim in the store -/

/-- What a claim leaves of a store: the rows that it answers, as it answers them. -/
structure Leases (before : Store) (taken : List Row) (after : Store) : Prop where
  rows : ∀ r ∈ taken, rowAt after.tables r.id = some r
  others : ∀ t k, (∀ r ∈ taken, t = tableName → k ≠ r.id.text) →
    after.tables.row? t k = before.tables.row? t k
  rest : after = { before with tables := after.tables }

theorem row?_storeRows {rows : List Row} {t k : String}
    (h : ∀ r ∈ rows, t = tableName → k ≠ r.id.text) (ts : Tables) :
    (storeRows rows ts).row? t k = ts.row? t k := by
  unfold storeRows
  induction rows generalizing ts with
  | nil => rfl
  | cons r rows ih =>
      rw [List.foldl_cons, ih fun r' hr' => h r' (List.mem_cons_of_mem _ hr'), Tables.row?_set,
        if_neg fun hc => h r List.mem_cons_self hc.1 hc.2]

section

variable {s : Store} (h : Filed s.tables)

include h

theorem filed_afterClaim (limit : Nat) (lease : Duration) (now : Reading) :
    Filed (afterClaim limit lease now s).tables :=
  (claim_delivers h (claim_of_filed h limit lease now)).filed

theorem leases_afterClaim (limit : Nat) (lease : Duration) (now : Reading) :
    Leases s (leased limit lease now s.tables) (afterClaim limit lease now s) where
  rows r hr := by
    obtain ⟨r₀, hrow, -, hclaim⟩ := of_mem_leased h hr
    refine (rowAt_storeRows_leased h r.id).trans ?_
    rw [if_pos (List.mem_map_of_mem hr), hrow, Option.map_some, ← hclaim]
  others t k hother := row?_storeRows hother s.tables
  rest := rfl

/-! ## One claim after another -/

/-- **What follows the rows of a claim is the queue of the next one**, if their leases last till
then and no other lease ends in between. -/
theorem queue_after_claim {t₁ t₂ : Reading} {limit : Nat} {lease : Duration}
    (hle : (t₁ : Instant) ≤ t₂) (hlasts : t₂ < t₁.add lease)
    (hends : ∀ id r t, rowAt s.tables id = some r → r.status = .pending → r.lockedUntil = some t →
      t ≤ t₁ ∨ t₂ < t) :
    Queue (·.isClaimable t₂ = true) (afterClaim limit lease t₁ s).tables
      ((queued (·.isClaimable t₁) s.tables).drop limit) := by
  have hqueue := queue_queued h (·.isClaimable t₁)
  have hrows := fun id => @rowAt_storeRows_leased limit lease t₁ s.tables h id
  have hids : (leased limit lease t₁ s.tables).map (·.id) =
      ((queued (·.isClaimable t₁) s.tables).take limit).map (·.id) := by
    rw [leased_eq, List.map_map]
    rfl
  refine ⟨fun r => ?_, hqueue.sorted.sublist (List.drop_sublist _ _)⟩
  show _ ↔ rowAt (storeRows (leased limit lease t₁ s.tables) s.tables) r.id = some r ∧ _
  rw [hrows, hids]
  constructor
  · intro hr
    obtain ⟨hrow, hclaimable⟩ := (hqueue.mem r).1 (List.mem_of_mem_drop hr)
    rw [if_neg (id_notMem_take hqueue.nodup_id hr)]
    exact ⟨hrow, Row.isClaimable_mono hclaimable hle⟩
  · rintro ⟨hrow, hclaimable⟩
    obtain ⟨hpending, hfree⟩ := Row.isClaimable_iff.1 hclaimable
    by_cases htaken : r.id ∈ ((queued (·.isClaimable t₁) s.tables).take limit).map (·.id)
    · -- Its lease is that of the first claim, which still runs.
      rw [if_pos htaken] at hrow
      obtain ⟨r₀, -, rfl⟩ := Option.map_eq_some_iff.1 hrow
      exact absurd (hfree _ rfl) (Instant.not_le_of_lt hlasts)
    · rw [if_neg htaken] at hrow
      have hclaimable₁ : r.isClaimable t₁ = true := Row.isClaimable_iff.2 ⟨hpending, fun t ht =>
        (hends r.id r t hrow hpending ht).resolve_right fun hlate =>
          Instant.not_le_of_lt hlate (hfree t ht)⟩
      have hr : r ∈ queued (·.isClaimable t₁) s.tables := (hqueue.mem r).2 ⟨hrow, hclaimable₁⟩
      rw [← List.take_append_drop limit (queued (·.isClaimable t₁) s.tables), List.mem_append] at hr
      exact hr.resolve_left fun hr => htaken (List.mem_map_of_mem hr)

/-- A claim takes nothing that is under a lease of an earlier one. -/
theorem disjoint_after_claim {t₁ t₂ : Reading} {limit₁ limit₂ : Nat} {lease₁ lease₂ : Duration}
    (hlasts : t₂ < t₁.add lease₁) :
    ∀ r₁ ∈ leased limit₁ lease₁ t₁ s.tables,
      ∀ r₂ ∈ leased limit₂ lease₂ t₂ (afterClaim limit₁ lease₁ t₁ s).tables, r₁.id ≠ r₂.id := by
  intro r₁ hr₁ r₂ hr₂ hid
  obtain ⟨r, hrow, hclaimable, -⟩ := of_mem_leased (filed_afterClaim h limit₁ lease₁ t₁) hr₂
  have hkept := (leases_afterClaim h limit₁ lease₁ t₁).rows r₁ hr₁
  rw [hid, hrow] at hkept
  obtain ⟨r₀, -, -, rfl⟩ := of_mem_leased h hr₁
  obtain rfl := Option.some.inj hkept
  exact Instant.not_le_of_lt hlasts ((Row.isClaimable_iff.1 hclaimable).2 _ rfl)

end

/-- The row under no lease. -/
def Row.unleased (r : Row) : Row := { r with lockedUntil := none }

theorem map_unleased_claim (now : Instant) (lease : Duration) (rows : List Row) :
    (rows.map (·.claim now lease)).map Row.unleased = rows.map Row.unleased := by
  rw [List.map_map]
  rfl

/-- **Rows are taken oldest first.** Reading answers the first rows of a status, at most `limit` of
them, and a claim the first of those that are pending and whose lease, if there is one, is over; it
puts them under its lease, changes nothing else of them, and leaves all other rows as they are.

If nobody marks rows in between and the leases of a first claim outlast the time of a second, the
two take different rows. If no other lease ends in between either, they take together, in this
order, what one claim at the time of the first would with the sum of their limits. -/
theorem takes_oldest_first {s : Store} (hfiled : Filed s.tables) :
    (∀ limit, ∃ pending failed, Queue (·.status = .pending) s.tables pending ∧
      Queue (·.status = .failed) s.tables failed ∧
      Repository.store.fetchPending (.ok ()) limit s = .ok (pending.take limit) ∧
      Repository.store.fetchFailed (.ok ()) limit s = .ok (failed.take limit)) ∧
    (∀ limit lease (now : Reading), ∃ free after,
      let taken := (free.take limit).map fun r => { r with lockedUntil := some (now.add lease) }
      Queue (fun r => r.status = .pending ∧ ∀ t, r.lockedUntil = some t → t ≤ now) s.tables free ∧
      Repository.store.claimPending (.ok ()) limit lease now s = (.ok taken, after) ∧
      Leases s taken after) ∧
    ∀ limit₁ limit₂ lease₁ lease₂ lease (t₁ t₂ : Reading),
      (t₁ : Instant) ≤ t₂ → t₂ < t₁.add lease₁ →
      ∃ first second both after,
        Repository.store.claimPending (.ok ()) limit₁ lease₁ t₁ s = (.ok first, after) ∧
        (Repository.store.claimPending (.ok ()) limit₂ lease₂ t₂ after).1 = .ok second ∧
        (Repository.store.claimPending (.ok ()) (limit₁ + limit₂) lease t₁ s).1 = .ok both ∧
        (∀ r₁ ∈ first, ∀ r₂ ∈ second, r₁.id ≠ r₂.id) ∧
        ((∀ id r t, rowAt s.tables id = some r → r.status = .pending → r.lockedUntil = some t →
            t ≤ t₁ ∨ t₂ < t) →
          (first ++ second).map Row.unleased = both.map Row.unleased) := by
  refine ⟨fun limit => ?_, fun limit lease now => ?_, ?_⟩
  · have hqueue := fun status : Status => (queue_queued hfiled (·.status = status)).congr fun r =>
      decide_eq_true_iff (p := r.status = status)
    exact ⟨_, _, hqueue .pending, hqueue .failed, fetch_of_filed hfiled .pending limit,
      fetch_of_filed hfiled .failed limit⟩
  · exact ⟨_, _, (queue_queued hfiled (·.isClaimable now)).congr fun r => Row.isClaimable_iff,
      claimPending_of_filed hfiled limit lease now, leases_afterClaim hfiled limit lease now⟩
  · intro limit₁ limit₂ lease₁ lease₂ lease t₁ t₂ hle hlasts
    have hfiled' := filed_afterClaim hfiled limit₁ lease₁ t₁
    refine ⟨leased limit₁ lease₁ t₁ s.tables,
      leased limit₂ lease₂ t₂ (afterClaim limit₁ lease₁ t₁ s).tables,
      leased (limit₁ + limit₂) lease t₁ s.tables, afterClaim limit₁ lease₁ t₁ s,
      claimPending_of_filed hfiled limit₁ lease₁ t₁, ?_, ?_, disjoint_after_claim hfiled hlasts,
      fun hends => ?_⟩
    · exact congrArg Prod.fst (claimPending_of_filed hfiled' limit₂ lease₂ t₂)
    · exact congrArg Prod.fst (claimPending_of_filed hfiled (limit₁ + limit₂) lease t₁)
    · have hnext := (queue_queued hfiled' (·.isClaimable t₂)).eq
        (queue_after_claim hfiled hle hlasts hends)
      rw [List.map_append, leased_eq, leased_eq, leased_eq, hnext, map_unleased_claim,
        map_unleased_claim, map_unleased_claim, List.take_add, List.map_append]

/-- Two processors claim one letter each. -/
theorem takes_oldest_first_letters :
    Filed letterBox.tables ∧ ∃ first second both after,
      Repository.store.claimPending (.ok ()) 1 (.ofSeconds 30) .epoch letterBox =
        (.ok first, after) ∧
      (Repository.store.claimPending (.ok ()) 1 (.ofSeconds 30) .epoch after).1 = .ok second ∧
      (Repository.store.claimPending (.ok ()) 2 (.ofSeconds 30) .epoch letterBox).1 = .ok both ∧
      (∀ r₁ ∈ first, ∀ r₂ ∈ second, r₁.id ≠ r₂.id) ∧
      (first ++ second).map Row.unleased = both.map Row.unleased := by
  obtain ⟨first, second, both, after, hfirst, hsecond, hboth, hdisjoint, htogether⟩ :=
    (takes_oldest_first filed_letterBox).2.2 1 1 (.ofSeconds 30) (.ofSeconds 30) (.ofSeconds 30)
      .epoch .epoch (by decide) (by decide)
  refine ⟨filed_letterBox, first, second, both, after, hfirst, hsecond, hboth, hdisjoint,
    htogether fun id r t hrow _ hlocked => ?_⟩
  have hfree : ∀ r ∈ (letterBox.tables.table tableName).values.filterMap Row.ofJson?,
      r.lockedUntil = none := by decide +kernel
  have hid := id_of_rowAt filed_letterBox hrow
  have hread := (mem_readableRows_iff_rowAt filed_letterBox).2 (by rw [hid]; exact hrow)
  rw [hfree r ((Row.oldestFirst_perm _).mem_iff.1 hread)] at hlocked
  cases hlocked

end Registrar.Outbox
