import Registrar.Proofs.Outbox.Rows

set_option autoImplicit false

/-! # Leases

Any number of processors claim rows and mark them, in any order, perhaps long after their own lease
ran out. **A lease has no owner**: whoever notes a failed attempt at a row ends the lease that the
row is under, also when it is another's (`not_exclusive_by_own_marks`). Apart from that a row is
taken by nobody else before its lease ends (`exclusive_until_freed`).

While a lease runs the row stays as it is, or it is delivered or given up (`Held.run`). A claim
takes only rows that are pending and whose lease has ended, so with a clock that never goes back
none takes this one. -/

namespace Registrar.Outbox

/-! ## Processors at work -/

/-- What a processor calls. -/
structure Deed where
  who : String
  op : Op

namespace Op

/-- When the operation reads the clock. -/
def time? : Op → Option Instant
  | .claim _ _ _ now | .markSent _ _ now | .markFailed _ _ _ now => some now.toInstant
  | .deadLetter .. | .requeue .. => none

/-- The row that a processor says it has dealt with. -/
def marked? : Op → Option Uuid
  | .markSent _ id _ | .markFailed _ id _ _ | .deadLetter _ id => some id
  | .claim .. | .requeue .. => none

/-- The row that may be claimed at once again. -/
def freed? : Op → Option Uuid
  | .markFailed (.ok ()) id _ _ | .requeue (.ok ()) id => some id
  | .claim .. | .markSent .. | .markFailed (.error _) .. | .deadLetter .. | .requeue (.error _) _ =>
      none

def isClaim : Op → Bool
  | .claim .. => true
  | .markSent .. | .markFailed .. | .deadLetter .. | .requeue .. => false

end Op

/-- The store after what processors did. -/
def perform (s : Store) (deeds : List Deed) : Store := deeds.foldl (fun s d => d.op.run s) s

/-- The clock never goes back. -/
def Forward (deeds : List Deed) : Prop := (deeds.filterMap (·.op.time?)).Pairwise (· ≤ ·)

/-- Everybody claims rows and marks rows that an earlier claim gave them; `given` are those. -/
def marksOwn (s : Store) (given : List (String × Uuid)) : List Deed → Bool
  | [] => true
  | d :: deeds =>
      (d.op.isClaim || d.op.marked?.any fun id => given.contains (d.who, id)) &&
        marksOwn (d.op.run s) (given ++ (d.op.taken s).map fun r => (d.who, r.id)) deeds

/-- **Who holds a row holds it alone.** From a claim that takes a row, up to the end of its lease,
no other claim takes that row, unless a deed in between ends the holding. -/
def Exclusive (ends : (holder d : Deed) → Uuid → Prop) (s : Store) (deeds : List Deed) : Prop :=
  ∀ before holder between other after,
    deeds = before ++ holder :: between ++ other :: after →
    ∀ context limit lease (now : Reading), holder.op = .claim context limit lease now →
    ∀ r ∈ holder.op.taken (perform s before), (∀ d ∈ between, ¬ ends holder d r.id) →
    ∀ context' limit' lease' (now' : Reading), other.op = .claim context' limit' lease' now' →
    now' < now.add lease →
    ∀ r' ∈ other.op.taken (perform s (before ++ holder :: between)), r'.id ≠ r.id

theorem perform_append (s : Store) (a b : List Deed) :
    perform s (a ++ b) = perform (perform s a) b := List.foldl_append

theorem filed_perform {s : Store} (h : Filed s.tables) (deeds : List Deed) :
    Filed (perform s deeds).tables := by
  unfold perform
  induction deeds generalizing s with
  | nil => exact h
  | cons d deeds ih => exact ih (Op.run_delivers h d.op).filed

/-! ## Holding a row -/

/-- The row is no longer pending, or it is under a lease with this end. -/
def Held (ts : Tables) (id : Uuid) (leaseEnd : Instant) : Prop :=
  ∀ r, rowAt ts id = some r → r.status = .pending → r.lockedUntil = some leaseEnd

/-- **A row stays held before its lease ends**, unless it is freed. -/
theorem Held.run {s : Store} {id : Uuid} {leaseEnd : Instant} {op : Op}
    (h : Held s.tables id leaseEnd) (hfiled : Filed s.tables) (hfreed : op.freed? ≠ some id)
    (hearly : ∀ now, op.time? = some now → now < leaseEnd) :
    Held (op.run s).tables id leaseEnd := by
  intro r' hr' hpending
  rcases Op.rowAt_run hfiled op id with hsame | ⟨r, r'', hr, hturns, hr''⟩
  · exact h r' (hsame.symm.trans hr') hpending
  · obtain rfl := Option.some.inj (hr''.symm.trans hr')
    cases op with
    | claim context limit lease now =>
        obtain ⟨-, hclaimable, -⟩ := hturns
        obtain ⟨hstatus, hended⟩ := Row.isClaimable_iff.1 hclaimable
        exact absurd (hended _ (h r hr hstatus)) (Instant.not_le_of_lt (hearly now rfl))
    | markSent context id' now =>
        obtain ⟨-, hsent⟩ := check_succeeds_iff.1 hturns.2.2
        obtain rfl := pure_succeeds_iff.1 hsent
        cases hpending
    | markFailed context id' error now =>
        obtain ⟨rfl, rfl, -⟩ := hturns
        exact absurd (congrArg some (id_of_rowAt hfiled hr)) hfreed
    | deadLetter context id' =>
        obtain ⟨-, hgiven⟩ := check_succeeds_iff.1 hturns.2.2
        obtain rfl := pure_succeeds_iff.1 hgiven
        cases hpending
    | requeue context id' =>
        obtain ⟨rfl, rfl, -⟩ := hturns
        exact absurd (congrArg some (id_of_rowAt hfiled hr)) hfreed

theorem Held.perform {s : Store} {id : Uuid} {leaseEnd : Instant} {deeds : List Deed}
    (h : Held s.tables id leaseEnd) (hfiled : Filed s.tables)
    (hfreed : ∀ d ∈ deeds, d.op.freed? ≠ some id)
    (hearly : ∀ d ∈ deeds, ∀ now, d.op.time? = some now → now < leaseEnd) :
    Held (perform s deeds).tables id leaseEnd := by
  unfold Outbox.perform
  induction deeds generalizing s with
  | nil => exact h
  | cons d deeds ih =>
      have hfirst := h.run hfiled (hfreed d List.mem_cons_self) (hearly d List.mem_cons_self)
      exact ih hfirst (Op.run_delivers hfiled d.op).filed
        (fun d' hd' => hfreed d' (List.mem_cons_of_mem _ hd'))
        fun d' hd' => hearly d' (List.mem_cons_of_mem _ hd')

/-- What a claim takes is held. -/
theorem held_of_mem_taken {s : Store} (h : Filed s.tables) {op : Op} {r : Row}
    (hr : r ∈ op.taken s) :
    ∃ limit lease now, op = .claim (.ok ()) limit lease now ∧
      Held (op.run s).tables r.id (now.add lease) := by
  obtain ⟨limit, lease, now, r₀, hop, -, -, hclaim, hafter⟩ := Op.of_mem_taken h hr
  refine ⟨limit, lease, now, hop, fun r' hr' _ => ?_⟩
  obtain rfl := Option.some.inj (hafter.symm.trans hr')
  rw [hclaim]
  rfl

/-- What is held is not taken. -/
theorem Held.id_ne {s : Store} {id : Uuid} {leaseEnd : Instant} (h : Held s.tables id leaseEnd)
    (hfiled : Filed s.tables) {context : Except ContextError Unit} {limit : Nat} {lease : Duration}
    {now : Reading} (hearly : now < leaseEnd) {r : Row}
    (hr : r ∈ (Op.claim context limit lease now).taken s) : r.id ≠ id := by
  rintro rfl
  obtain ⟨limit', lease', now', r₀, hop, hrow, hclaimable, -, -⟩ := Op.of_mem_taken hfiled hr
  obtain ⟨-, -, -, rfl⟩ := Op.claim.inj hop
  obtain ⟨hstatus, hended⟩ := Row.isClaimable_iff.1 hclaimable
  exact Instant.not_le_of_lt hearly (hended _ (h r₀ hrow hstatus))

theorem Forward.le {before after : List Deed} {d other : Deed} (hd : d ∈ before)
    (h : Forward (before ++ other :: after)) {now now' : Instant}
    (hnow : d.op.time? = some now) (hnow' : other.op.time? = some now') : now ≤ now' := by
  unfold Forward at h
  rw [List.pairwise_filterMap, List.pairwise_append] at h
  exact h.2.2 d hd other List.mem_cons_self now hnow now' hnow'

/-- **Before its lease ends a row is taken by nobody else, unless somebody notes a failed attempt at
it or requeues it**, whatever else the processors do. -/
theorem exclusive_until_freed {s : Store} {deeds : List Deed} (hfiled : Filed s.tables)
    (hclock : Forward deeds) :
    Exclusive (fun _ d id => d.op.freed? = some id) s deeds := by
  intro before holder between other after hdeeds context limit lease now hholder r hr hfreed
    context' limit' lease' now' hother hearly r' hr'
  have hbefore := filed_perform hfiled before
  obtain ⟨limit₀, lease₀, now₀, hop, hheld⟩ := held_of_mem_taken hbefore hr
  obtain ⟨-, -, rfl, rfl⟩ := Op.claim.inj (hholder.symm.trans hop)
  have hfiled' := (Op.run_delivers hbefore holder.op).filed
  -- Up to the other claim the clock shows at most its time, which is before the end of the lease.
  have hduring := hheld.perform hfiled' hfreed fun d hd t ht => by
    have hle : t ≤ now' := by
      have hd' : d ∈ before ++ holder :: between :=
        List.mem_append_right _ (List.mem_cons_of_mem _ hd)
      rw [hdeeds] at hclock
      exact hclock.le hd' ht (by rw [hother]; rfl)
    exact Instant.lt_of_le_of_lt hle hearly
  have hstate : perform s (before ++ holder :: between) =
      perform (holder.op.run (perform s before)) between := perform_append s before _
  rw [hother, hstate] at hr'
  exact hduring.id_ne (filed_perform hfiled' between) hearly hr'

/-! ## Three processors and one row -/

/-- A row that waits. -/
def parcel : Row :=
  .pending ⟨1⟩ .epoch (.new ⟨⟨2⟩⟩ .epoch "user.created" ⟨⟨3⟩⟩ []) []

/-- A store with that row. -/
def shelf : Store := { Store.empty with tables := storeRows [parcel] Keyed.empty }

theorem filed_shelf : Filed shelf.tables := by
  have hempty : Filed Keyed.empty := fun k j h => by cases h
  exact hempty.set parcel

def claimFor (who : String) (lease : Duration) (now : Reading) : Deed :=
  ⟨who, .claim (.ok ()) 10 lease now⟩

/-- The lease of one processor has run out when the other claims the row for half a minute. -/
def handover : List Deed :=
  [claimFor "slow" .zero .epoch, claimFor "holder" (.ofSeconds 30) .epoch]

theorem holder_takes : parcel.claim .epoch (.ofSeconds 30) ∈
    (claimFor "holder" (.ofSeconds 30) .epoch).op.taken
      (perform shelf [claimFor "slow" .zero .epoch]) := by decide +kernel

theorem exclusive_until_freed_handover :
    let holder := claimFor "holder" (.ofSeconds 30) .epoch
    let third := claimFor "third" (.ofSeconds 30) .epoch
    Forward (handover ++ [third]) ∧
    parcel.claim .epoch (.ofSeconds 30) ∈
      holder.op.taken (perform shelf [claimFor "slow" .zero .epoch]) ∧
    parcel.id ∉ (third.op.taken (perform shelf handover)).map (·.id) := by
  intro holder third
  have hclock : Forward (handover ++ [third]) := by
    unfold Forward
    decide +kernel
  have hnot := exclusive_until_freed filed_shelf hclock [claimFor "slow" .zero .epoch] holder []
    third [] rfl (.ok ()) 10 (.ofSeconds 30) .epoch rfl (parcel.claim .epoch (.ofSeconds 30))
    holder_takes (fun d hd => by cases hd)
    (.ok ()) 10 (.ofSeconds 30) .epoch rfl (by decide +kernel)
  refine ⟨hclock, holder_takes, fun hmem => ?_⟩
  obtain ⟨r, hr, hid⟩ := List.mem_map.1 hmem
  exact hnot r hr hid

/-- The slow processor notes that its own attempt failed. -/
def lateFailure : Deed := ⟨"slow", .markFailed (.ok ()) parcel.id "too slow" .epoch⟩

/-- **The holder's own marks are not all that ends its lease**: a late failure of another processor
frees the row, and a third one takes it. -/
theorem not_exclusive_by_own_marks :
    ¬ ∀ s deeds, Filed s.tables → Forward deeds → marksOwn s [] deeds = true →
      Exclusive (fun holder d id => d.who = holder.who ∧ d.op.marked? = some id) s deeds := by
  intro h
  have hclock : Forward (handover ++ [lateFailure, claimFor "third" (.ofSeconds 30) .epoch]) := by
    unfold Forward
    decide +kernel
  have hown : marksOwn shelf [] (handover ++ [lateFailure, claimFor "third" (.ofSeconds 30) .epoch])
      = true := by decide +kernel
  have hexclusive := h shelf _ filed_shelf hclock hown [claimFor "slow" .zero .epoch]
    (claimFor "holder" (.ofSeconds 30) .epoch) [lateFailure]
    (claimFor "third" (.ofSeconds 30) .epoch) [] rfl
    (.ok ()) 10 (.ofSeconds 30) .epoch rfl (parcel.claim .epoch (.ofSeconds 30)) holder_takes
    (by simp [lateFailure, claimFor])
    (.ok ()) 10 (.ofSeconds 30) .epoch rfl (by decide +kernel)
  have hthird : parcel.id ∈ ((claimFor "third" (.ofSeconds 30) .epoch).op.taken
      (perform shelf (handover ++ [lateFailure]))).map (·.id) := by decide +kernel
  obtain ⟨r, hr, hid⟩ := List.mem_map.1 hthird
  exact hexclusive r hr hid

end Registrar.Outbox
