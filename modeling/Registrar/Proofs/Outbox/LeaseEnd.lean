import Registrar.Proofs.Outbox.Lease
import Registrar.Proofs.Time.Sum

set_option autoImplicit false

/-! # How long a lease runs

A lease ends as long after the claim as it was taken for, to the nanosecond, or with the last
instant where there is none so late (`lease_saturates`). Whatever its length it ends no earlier than
it begins, a later claim or a longer lease ends no earlier, and from its end on, and not before, the
row can be claimed again.

All of this is about a clock outside leap seconds, which have no place of their own in the count of
seconds. -/

namespace Registrar.Outbox

/-- **A row under a lease is free again from the end of the lease on.** -/
theorem Row.isClaimable_claim_iff {r : Row} (hpending : r.status = .pending) (now : Instant)
    (lease : Duration) (t : Instant) :
    (r.claim now lease).isClaimable t = true ↔ now.add lease ≤ t := by
  rw [Row.isClaimable_iff]
  constructor
  · rintro ⟨-, hended⟩
    exact hended _ rfl
  · intro hle
    refine ⟨hpending, fun t' ht' => ?_⟩
    cases ht'
    exact hle

/-- The rows that the store answers are under the lease, and so they are stored. -/
theorem claimPending_leases {context : Except ContextError Unit} {limit : Nat} {lease : Duration}
    {now : Reading} {s s' : Store} {rows : List Row} (hfiled : Filed s.tables)
    (hclaim : Repository.store.claimPending context limit lease now s = (.ok rows, s')) {r : Row}
    (hr : r ∈ rows) :
    ∃ r₀ : Row, r₀.status = .pending ∧ r = r₀.claim now lease ∧ rowAt s'.tables r.id = some r := by
  have htaken : r ∈ (Op.claim context limit lease now).taken s := by
    simpa only [Op.taken, hclaim] using hr
  obtain ⟨limit', lease', now', r₀, hop, -, hclaimable, heq, hafter⟩ :=
    Op.of_mem_taken hfiled htaken
  obtain ⟨-, -, rfl, rfl⟩ := Op.claim.inj hop
  refine ⟨r₀, (Row.isClaimable_iff.1 hclaimable).1, heq, ?_⟩
  simpa only [Op.run, hclaim] using hafter

/-- **A lease ends exactly when it should, or with the last instant there is.** -/
theorem lease_saturates {now : Instant} (hnow : ¬ now.InLeapSecond) (lease : Duration) :
    ∃ leaseEnd : Instant,
      (∀ r : Row, r.claim now lease = { r with lockedUntil := some leaseEnd }) ∧
      (∀ t, now.IsSum lease t → leaseEnd = t) ∧
      ((¬ ∃ t, now.IsSum lease t) → leaseEnd = .last ∧
        Instant.last.toNanos < now.toNanos + lease.toNanos) ∧
      (∀ t : Instant, ¬ t.InLeapSecond → t ≤ .last) ∧
      now ≤ leaseEnd ∧
      (∀ now' lease', ¬ now'.InLeapSecond → now ≤ now' → lease.toNanos ≤ lease'.toNanos →
        ∀ (r : Row) leaseEnd', (r.claim now' lease').lockedUntil = some leaseEnd' →
          leaseEnd ≤ leaseEnd') ∧
      (∀ r : Row, r.status = .pending →
        ∀ t, (r.claim now lease).isClaimable t = true ↔ leaseEnd ≤ t) ∧
      ∀ shown : Reading, shown.toInstant = now → ∀ context limit s rows s', Filed s.tables →
        Repository.store.claimPending context limit lease shown s = (.ok rows, s') →
        ∀ r ∈ rows, rowAt s'.tables r.id = some r ∧ r.lockedUntil = some leaseEnd ∧
          ∀ t, r.isClaimable t = true ↔ leaseEnd ≤ t := by
  refine ⟨now.add lease, fun r => rfl, ?exact, ?largest, fun t => Instant.le_last,
    Instant.le_add lease hnow, ?monotone, ?free, ?stored⟩
  case exact =>
    intro t ht
    rw [Instant.add, (Instant.add?_eq_some_iff hnow).2 ht, Option.getD_some]
  case largest =>
    intro hnone
    have hsum : now.add? lease = none := by
      refine Option.eq_none_iff_forall_ne_some.2 fun t ht => ?_
      exact hnone ⟨t, (Instant.add?_eq_some_iff hnow).1 ht⟩
    exact ⟨by rw [Instant.add, hsum, Option.getD_none], Instant.last_lt_of_add?_eq_none hnow hsum⟩
  case monotone =>
    intro now' lease' hnow' hle hlonger r leaseEnd' hend
    cases hend
    exact Instant.add_le_add hnow hnow' hle hlonger
  case free =>
    intro r hpending t
    exact Row.isClaimable_claim_iff hpending now lease t
  case stored =>
    rintro shown rfl context limit s rows s' hfiled hclaim r hr
    obtain ⟨r₀, hpending, rfl, hstored⟩ := claimPending_leases hfiled hclaim hr
    exact ⟨hstored, rfl, Row.isClaimable_claim_iff hpending shown lease⟩

/-! ## The last second -/

/-- The last second begins. -/
def lastSecond : Instant := { Instant.last with nano := 0, nano_lt := Instant.epoch.nano_lt }

/-- A clock shows that it does. -/
def lastReading : Reading := ⟨lastSecond, by decide⟩

/-- As long as the last second lasts. -/
def toTheEnd : Duration := ⟨0, 999999999, by decide⟩

/-- The longest duration; its seconds do not fit a signed word. -/
def ages : Duration := ⟨0xFFFFFFFFFFFFFFFF, 999999999, by decide⟩

theorem not_isSum_ages : ¬ ∃ t, lastSecond.IsSum ages t := by
  rintro ⟨t, hregular, hcount⟩
  have hend := (Instant.toNanos_bounds hregular).2
  have hpast : Instant.last.toNanos < lastSecond.toNanos + ages.toNanos := by decide
  omega

/-- **In the last second a lease that just fits ends with it, and so does the longest.** -/
theorem lease_saturates_last_second :
    ¬ lastSecond.InLeapSecond ∧ ¬ Instant.last.InLeapSecond ∧ lastSecond ≤ .last ∧
    toTheEnd.toNanos ≤ ages.toNanos ∧ lastSecond.IsSum toTheEnd .last ∧
    (¬ ∃ t, lastSecond.IsSum ages t) ∧ parcel.status = .pending ∧ Filed shelf.tables ∧
    (parcel.claim lastSecond toTheEnd).lockedUntil = some .last ∧
    (parcel.claim lastSecond ages).lockedUntil = some .last ∧
    Instant.last ≤ Instant.last.add ages ∧
    (parcel.claim lastSecond ages).isClaimable lastSecond = false ∧
    (parcel.claim lastSecond ages).isClaimable .last = true ∧
    ∃ rows s', Repository.store.claimPending (.ok ()) 10 ages lastReading shelf = (.ok rows, s') ∧
      rows.length = 1 ∧
      ∀ r ∈ rows, rowAt s'.tables r.id = some r ∧ r.lockedUntil = some .last := by
  have hregular : ¬ lastSecond.InLeapSecond := by decide
  have hle : lastSecond ≤ .last := by decide
  have hlonger : toTheEnd.toNanos ≤ ages.toNanos := by decide
  have hsum : lastSecond.IsSum toTheEnd .last := ⟨by decide, by decide⟩
  obtain ⟨fitting, hfitting, hexact, -, -, -, hmonotone, -, -⟩ :=
    lease_saturates hregular toTheEnd
  obtain ⟨longest, hlongest, -, hlargest, -, -, -, hpending, hstored⟩ :=
    lease_saturates hregular ages
  obtain rfl := hexact _ hsum
  obtain ⟨rfl, -⟩ := hlargest not_isSum_ages
  have hclaim := claimPending_of_filed filed_shelf 10 ages lastReading
  refine ⟨hregular, by decide, hle, hlonger, hsum, not_isSum_ages, rfl, filed_shelf,
    by rw [hfitting], by rw [hlongest],
    hmonotone .last ages (by decide) hle hlonger parcel _ rfl, ?_, ?_, _, _, hclaim,
    by decide +kernel, fun r hr => ?_⟩
  · rw [← Bool.not_eq_true, hpending parcel rfl]
    decide
  · rw [hpending parcel rfl]
    decide
  · obtain ⟨hrow, hend, -⟩ := hstored lastReading rfl _ _ _ _ _ filed_shelf hclaim r hr
    exact ⟨hrow, hend⟩

end Registrar.Outbox
