import Mathlib.Algebra.Order.BigOperators.Group.List
import Registrar.Proofs.Outbox.Lasting
import Registrar.Proofs.Outbox.Lease

set_option autoImplicit false

/-! # The outbox drains

A processor passes over an outbox again and again (`Patrol`), and nobody else touches the outbox
meanwhile; handlers may answer as they like, each time differently. The measure is `Row.due`: how
often a pending row may be delivered before it is sent or given up. Every trial of a row lowers what
it is due (`Row.due_settled`), whether the row is sent, tried again or given up, and a pass that
finds pending rows gives one of them a trial. So there is an idle pass no later than the sum of what
all rows are due, and from then on no row is pending (`drains`).

Leases do not get in the way: all that a pass takes it settles, and settled rows are under no lease
(`Fair.free`). -/

namespace Registrar.Outbox

variable {σ : Type}

/-! ## Passes one after another -/

/-- One pass of many: its context, its conditions, and what the world becomes before it. -/
structure Round (σ : Type) where
  context : Context
  conditions : Conditions
  enter : World σ → World σ

/-- A processor that passes over an outbox again and again. -/
structure Patrol (σ : Type) where
  processor : Processor Store Transaction σ
  round : Nat → Round σ
  start : Site Store σ

namespace Patrol

/-- The site as a pass finds it. -/
def enter (a : Patrol σ) (k : Nat) (s : Site Store σ) : Site Store σ :=
  { s with world := (a.round k).enter s.world }

/-- What pass number `k` finds. -/
def site (a : Patrol σ) : Nat → Site Store σ
  | 0 => a.enter 0 a.start
  | k + 1 => a.enter (k + 1)
      (a.processor.process (a.round k).context (a.round k).conditions (a.site k)).2

/-- The tables that pass number `k` finds. -/
def tables (a : Patrol σ) (k : Nat) : Tables := (a.site k).store.tables

/-- What pass number `k` answers. -/
def result (a : Patrol σ) (k : Nat) : Except OutboxError Report :=
  (a.processor.process (a.round k).context (a.round k).conditions (a.site k)).1

/-- The trials of pass number `k`. -/
def trials (a : Patrol σ) (k : Nat) : List (Trial σ) :=
  a.processor.trials (a.round k).context (a.round k).conditions (a.site k)

/-- The trials of the first passes, in order. -/
def past (a : Patrol σ) : Nat → List (Trial σ)
  | 0 => []
  | k + 1 => a.past k ++ a.trials k

/-- The rows that pass number `k` takes. -/
def taken (a : Patrol σ) (k : Nat) : List Row :=
  (pendingRows (a.tables k)).take a.processor.config.batchSize

/-- The time at which pass number `k` takes its rows. -/
def time (a : Patrol σ) (k : Nat) : Instant := (a.round k).conditions.clock 0

/-- The passes take at least one row each, the clock does not go back from one to the next, no lease
of a pending row still runs at first, and the context of every pass lasts. -/
structure Fair (a : Patrol σ) : Prop where
  store : a.processor.repository = .store
  filed : Filed a.start.store.tables
  batch : 0 < a.processor.config.batchSize
  forward : ∀ k, a.time k ≤ a.time (k + 1)
  unleased : ∀ r ∈ pendingRows a.start.store.tables, r.isClaimable (a.time 0) = true
  lasts : ∀ k, Pass.Lasts (a.round k).context
    (Pass.start a.processor (a.round k).context (a.round k).conditions (a.site k))

end Patrol

/-! ## One pass of many -/

theorem Row.isClaimable_mono {r : Row} {now later : Instant} (h : r.isClaimable now = true)
    (hle : now ≤ later) : r.isClaimable later = true := by
  obtain ⟨hpending, hlease⟩ := Row.isClaimable_iff.1 h
  exact Row.isClaimable_iff.2 ⟨hpending, fun t ht => Instant.le_trans (hlease t ht) hle⟩

/-- A row that was settled is under no lease. -/
theorem Row.lockedUntil_settled {isLast : UInt32 → Bool} {now : Instant} {r : Row} {d : Delivery}
    (h : ∀ e, d ≠ .interrupted e) : (r.settled isLast now d).lockedUntil = none := by
  cases d with
  | delivered => rfl
  | failed reason => rfl
  | interrupted e => exact absurd rfl (h e)

section

variable {p : Processor Store Transaction σ} {before after : Tables} {rows : List Row} {r : Row}
  {t : Trial σ} {trials : List (Trial σ)}

theorem Tried.ne_interrupted (h : Tried p after r t) (e : ContextError) :
    t.delivery ≠ .interrupted e := by
  obtain ⟨c, o, w, hactive, hdelivery, -⟩ := h.delivered
  rw [hdelivery]
  exact Processor.deliver_ne_interrupted hactive e

theorem Settles.map_id (h : Settles p before after rows trials) :
    trials.map (·.row.id) = rows.map (·.id) := by
  have hids : List.Forall₂ (· = ·) (trials.map (·.row.id)) (rows.map (·.id)) :=
    List.forall₂_map_left_iff.2
      (List.forall₂_map_right_iff.2 (h.tried.flip.imp fun _ _ ht => ht.id))
  rwa [List.forall₂_eq_eq_eq] at hids

/-- A row that is taken has its trial. -/
theorem exists_tried (h : List.Forall₂ (Tried p after) rows trials) (hr : r ∈ rows) :
    ∃ t ∈ trials, Tried p after r t := by
  induction h with
  | nil => cases hr
  | cons hrow _ ih =>
      rcases List.mem_cons.1 hr with rfl | hr
      · exact ⟨_, List.mem_cons_self, hrow⟩
      · obtain ⟨t, ht, hrow'⟩ := ih hr
        exact ⟨t, List.mem_cons_of_mem _ ht, hrow'⟩

theorem fetched_foldl_count (report : Report) (trials : List (Trial σ)) :
    (trials.foldl p.count report).fetched = report.fetched := by
  induction trials generalizing report with
  | nil => rfl
  | cons t trials ih =>
      refine (ih (p.count report t)).trans ?_
      unfold Processor.count
      cases t.delivery with
      | delivered => rfl
      | failed reason =>
          dsimp only
          split <;> rfl
      | interrupted e => rfl

end

/-- Nothing is pending where no row is found pending. -/
theorem pendingRows_eq_nil_iff {ts : Tables} (h : Filed ts) :
    pendingRows ts = [] ↔ ∀ id r, rowAt ts id = some r → r.status ≠ .pending := by
  constructor
  · intro hnone id r hr hpending
    have hmem : r ∈ pendingRows ts :=
      (mem_pendingRows_iff h).2 ⟨by rw [id_of_rowAt h hr]; exact hr, hpending⟩
    rw [hnone] at hmem
    cases hmem
  · intro hnone
    refine List.eq_nil_iff_forall_not_mem.2 fun r hr => ?_
    obtain ⟨hrow, hpending⟩ := (mem_pendingRows_iff h).1 hr
    exact hnone r.id r hrow hpending

namespace Patrol.Fair

variable {a : Patrol σ}

/-- What every pass of a fair patrol finds: a filed outbox, and pending rows that are free. -/
theorem found (h : a.Fair) (k : Nat) :
    Filed (a.tables k) ∧ ∀ r ∈ pendingRows (a.tables k), r.isClaimable (a.time k) = true := by
  induction k with
  | zero => exact ⟨h.filed, h.unleased⟩
  | succ k ih =>
      obtain ⟨hfiled, hfree⟩ := ih
      obtain ⟨-, hsettles⟩ := Processor.process_settles h.store hfiled hfree (h.lasts k)
      refine ⟨hsettles.filed, fun r hr => ?_⟩
      obtain ⟨hrow, hpending⟩ := (mem_pendingRows_iff hsettles.filed).1 hr
      by_cases htaken : r.id ∈ (a.taken k).map (·.id)
      · obtain ⟨r₀, hr₀, hid⟩ := List.mem_map.1 htaken
        obtain ⟨t, -, ht⟩ := exists_tried hsettles.tried hr₀
        obtain ⟨now, hsettled⟩ := ht.settled
        rw [hid] at hsettled
        obtain rfl := Option.some.inj (hrow.symm.trans hsettled)
        refine Row.isClaimable_iff.2 ⟨hpending, fun t' hlocked => ?_⟩
        rw [Row.lockedUntil_settled ht.ne_interrupted] at hlocked
        cases hlocked
      · have hsame := hsettles.others r.id htaken
        refine Row.isClaimable_mono (hfree r ?_) (h.forward k)
        exact (mem_pendingRows_iff hfiled).2 ⟨hsame.symm.trans hrow, hpending⟩

theorem filed_tables (h : a.Fair) (k : Nat) : Filed (a.tables k) := (h.found k).1

/-- **Every pass of a fair patrol succeeds**, and settles the rows that it takes. -/
theorem pass (h : a.Fair) (k : Nat) :
    a.result k = .ok ((a.trials k).foldl a.processor.count ⟨(a.taken k).length, 0, 0, 0⟩) ∧
      Settles a.processor (a.tables k) (a.tables (k + 1)) (a.taken k) (a.trials k) :=
  Processor.process_settles h.store (h.found k).1 (h.found k).2 (h.lasts k)

theorem nodup_taken (h : a.Fair) (k : Nat) : ((a.taken k).map (·.id)).Nodup :=
  (nodup_pendingRows (h.filed_tables k)).sublist ((List.take_sublist _ _).map _)

/-- A row that is taken is pending. -/
theorem of_mem_taken (h : a.Fair) {k : Nat} {r : Row} (hr : r ∈ a.taken k) :
    rowAt (a.tables k) r.id = some r ∧ r.status = .pending :=
  (mem_pendingRows_iff (h.filed_tables k)).1 (List.mem_of_mem_take hr)

/-! ### Idle passes -/

theorem taken_eq_nil_iff (h : a.Fair) {k : Nat} :
    a.taken k = [] ↔ pendingRows (a.tables k) = [] := by
  have hbatch : a.processor.config.batchSize ≠ 0 := Nat.ne_of_gt h.batch
  simp [taken, hbatch]

/-- **A pass that fetches nothing found nothing pending.** -/
theorem idle_iff (h : a.Fair) {k : Nat} :
    a.result k = .ok ⟨0, 0, 0, 0⟩ ↔ pendingRows (a.tables k) = [] := by
  obtain ⟨hresult, hsettles⟩ := h.pass k
  rw [hresult, ← h.taken_eq_nil_iff]
  constructor
  · intro hzero
    have hfetched := congrArg Report.fetched (Except.ok.inj hzero)
    rw [fetched_foldl_count] at hfetched
    exact List.length_eq_zero_iff.1 hfetched
  · intro hnone
    have htrials : a.trials k = [] := by
      refine List.map_eq_nil_iff.1 (hsettles.map_id.trans ?_)
      rw [hnone, List.map_nil]
    rw [hnone, htrials]
    rfl

/-- An idle pass leaves all rows as they are, so the next one is idle too. -/
theorem idle_mono (h : a.Fair) {k m : Nat} (hidle : pendingRows (a.tables k) = []) (hle : k ≤ m) :
    pendingRows (a.tables m) = [] := by
  induction m, hle using Nat.le_induction with
  | base => exact hidle
  | succ m _ ih =>
      have hsettles := (h.pass m).2
      rw [h.taken_eq_nil_iff.2 ih] at hsettles
      rw [pendingRows_eq_nil_iff hsettles.filed]
      intro id r hr
      rw [hsettles.others id List.not_mem_nil] at hr
      exact (pendingRows_eq_nil_iff (h.filed_tables m)).1 ih id r hr

end Patrol.Fair

/-! ## What rows are due -/

/-- How often a row may yet be delivered: a pending one until it has had its attempts, and once in
any case. -/
def Row.due (cap : UInt32) (r : Row) : Nat :=
  if r.status = .pending then max 1 (cap.toNat - r.attempts.toNat) else 0

/-- **A trial lowers what a row is due**, whatever came of it. -/
theorem Row.due_settled {p : Processor Store Transaction σ} {cap : UInt32}
    (hcap : p.config.maxAttempts = some cap) {r : Row} (hpending : r.status = .pending)
    {d : Delivery} (hdelivery : ∀ e, d ≠ .interrupted e) (now : Instant) :
    (r.settled p.isExhausted now d).due cap < r.due cap := by
  have hdue : r.due cap = max 1 (cap.toNat - r.attempts.toNat) := if_pos hpending
  rw [hdue]
  cases d with
  | interrupted e => exact absurd rfl (hdelivery e)
  | delivered =>
      show 0 < _
      omega
  | failed reason =>
      have hlast :
          p.isExhausted (nextAttempts r.attempts) = decide (cap ≤ nextAttempts r.attempts) := by
        rw [Processor.isExhausted, hcap]
      have hattempts := toNat_nextAttempts r.attempts
      by_cases hexhausted : cap ≤ nextAttempts r.attempts
      · simp only [settled, due, hlast, hexhausted, decide_true, if_true, reduceCtorEq, if_false]
        omega
      · simp only [settled, due, hlast, hexhausted, decide_false, Bool.false_eq_true, if_false,
          hpending, if_true]
        rw [UInt32.le_iff_toNat_le] at hexhausted
        have hbound := cap.toNat_lt
        omega

/-- What the row with an id is due; nothing where there is no such row. -/
def dueAt (cap : UInt32) (ts : Tables) (id : Uuid) : Nat := (rowAt ts id).elim 0 (Row.due cap)

theorem dueAt_of_rowAt {cap : UInt32} {ts : Tables} {id : Uuid} {r : Row}
    (h : rowAt ts id = some r) : dueAt cap ts id = r.due cap := by
  rw [dueAt, h, Option.elim_some]

theorem dueAt_pos_iff {cap : UInt32} {ts : Tables} (h : Filed ts) {id : Uuid} :
    0 < dueAt cap ts id ↔ id ∈ (pendingRows ts).map (·.id) := by
  constructor
  · intro hpos
    cases hrow : rowAt ts id with
    | none =>
        rw [dueAt, hrow] at hpos
        cases hpos
    | some r =>
        rw [dueAt_of_rowAt hrow, Row.due] at hpos
        have hpending : r.status = .pending := by
          by_contra hnot
          rw [if_neg hnot] at hpos
          cases hpos
        have hid := id_of_rowAt h hrow
        exact List.mem_map.2 ⟨r, (mem_pendingRows_iff h).2 ⟨by rw [hid]; exact hrow, hpending⟩, hid⟩
  · intro hmem
    obtain ⟨r, hr, rfl⟩ := List.mem_map.1 hmem
    obtain ⟨hrow, hpending⟩ := (mem_pendingRows_iff h).1 hr
    rw [dueAt_of_rowAt hrow, Row.due, if_pos hpending]
    omega

namespace Patrol.Fair

variable {a : Patrol σ} {cap : UInt32}

/-- **What one pass does to what a row is due**: each trial of the row lowers it, and nothing raises
it. -/
theorem due_step (h : a.Fair) (hcap : a.processor.config.maxAttempts = some cap) (k : Nat)
    (id : Uuid) :
    dueAt cap (a.tables (k + 1)) id + ((a.trials k).map (·.row.id)).count id ≤
      dueAt cap (a.tables k) id := by
  have hsettles := (h.pass k).2
  rw [hsettles.map_id]
  by_cases htaken : id ∈ (a.taken k).map (·.id)
  · rw [List.count_eq_one_of_mem (h.nodup_taken k) htaken]
    obtain ⟨r, hr, rfl⟩ := List.mem_map.1 htaken
    obtain ⟨hrow, hpending⟩ := h.of_mem_taken hr
    obtain ⟨t, -, ht⟩ := exists_tried hsettles.tried hr
    obtain ⟨now, hsettled⟩ := ht.settled
    rw [dueAt_of_rowAt hrow, dueAt_of_rowAt hsettled]
    exact Row.due_settled hcap hpending ht.ne_interrupted now
  · rw [List.count_eq_zero_of_not_mem htaken, dueAt, dueAt, hsettles.others id htaken]
    exact Nat.le_refl _

/-- What a row was due at first covers all its trials and what it is due now. -/
theorem due_past (h : a.Fair) (hcap : a.processor.config.maxAttempts = some cap) (k : Nat)
    (id : Uuid) :
    dueAt cap (a.tables k) id + ((a.past k).map (·.row.id)).count id ≤
      dueAt cap (a.tables 0) id := by
  induction k with
  | zero => exact Nat.le_refl _
  | succ k ih =>
      have hstep := h.due_step hcap k id
      rw [past, List.map_append, List.count_append]
      omega

end Patrol.Fair

/-- What all rows that were pending at first are due when pass number `k` begins. -/
def Patrol.outstanding (a : Patrol σ) (cap : UInt32) (k : Nat) : Nat :=
  ((pendingRows (a.tables 0)).map fun r => dueAt cap (a.tables k) r.id).sum

namespace Patrol.Fair

variable {a : Patrol σ} {cap : UInt32}

theorem outstanding_zero (h : a.Fair) :
    a.outstanding cap 0 = ((pendingRows (a.tables 0)).map (·.due cap)).sum := by
  unfold outstanding
  refine congrArg List.sum (List.map_congr_left fun r hr => ?_)
  exact dueAt_of_rowAt ((mem_pendingRows_iff (h.filed_tables 0)).1 hr).1

/-- **A pass that finds something pending lowers what is outstanding.** -/
theorem outstanding_lt (h : a.Fair) (hcap : a.processor.config.maxAttempts = some cap) {k : Nat}
    (hbusy : pendingRows (a.tables k) ≠ []) :
    a.outstanding cap (k + 1) < a.outstanding cap k := by
  refine List.sum_lt_sum _ _ (fun r _ => ?_) ?_
  · have hstep := h.due_step hcap k r.id
    omega
  · -- The pass takes some row, and this row was pending from the first.
    obtain ⟨r, hr⟩ := List.exists_mem_of_ne_nil _ (mt h.taken_eq_nil_iff.1 hbusy)
    have hid : r.id ∈ (a.trials k).map (·.row.id) := by
      rw [(h.pass k).2.map_id]
      exact List.mem_map_of_mem hr
    have hstep := h.due_step hcap k r.id
    have hpast := h.due_past hcap k r.id
    have hcount := List.count_pos_iff.2 hid
    have hfirst : 0 < dueAt cap (a.tables 0) r.id := by omega
    obtain ⟨r₀, hr₀, hid₀⟩ := List.mem_map.1 ((dueAt_pos_iff (h.filed_tables 0)).1 hfirst)
    refine ⟨r₀, hr₀, ?_⟩
    rw [hid₀]
    omega

/-- As long as all passes find something pending, each lowers what is outstanding. -/
theorem outstanding_add_le (h : a.Fair) (hcap : a.processor.config.maxAttempts = some cap) {k : Nat}
    (hbusy : ∀ j < k, pendingRows (a.tables j) ≠ []) :
    a.outstanding cap k + k ≤ a.outstanding cap 0 := by
  induction k with
  | zero => exact Nat.le_refl _
  | succ k ih =>
      have hrest := ih fun j hj => hbusy j (Nat.lt_succ_of_lt hj)
      have hstep := h.outstanding_lt hcap (hbusy k (Nat.lt_succ_self k))
      omega

theorem exists_idle (h : a.Fair) (hcap : a.processor.config.maxAttempts = some cap) :
    ∃ k ≤ a.outstanding cap 0, pendingRows (a.tables k) = [] := by
  by_contra hnone
  have hbusy := h.outstanding_add_le hcap (k := a.outstanding cap 0 + 1) fun j hj hidle =>
    hnone ⟨j, Nat.le_of_lt_succ hj, hidle⟩
  omega

/-- **The outbox drains.** If a row is given up after `cap` attempts, every pass succeeds, and there
is an idle pass after at most as many passes as all pending rows are due together: `max 1 (cap -
attempts)` each. From then on every pass is idle and every row is sent or given up. No row has more
trials than it was due, and a row that was not pending has none. -/
theorem drains (h : a.Fair) (hcap : a.processor.config.maxAttempts = some cap) :
    (∀ k, ∃ report, a.result k = .ok report) ∧
    (∃ k ≤ ((pendingRows a.start.store.tables).map (·.due cap)).sum, ∀ m, k ≤ m →
      a.result m = .ok ⟨0, 0, 0, 0⟩ ∧
        ∀ id r, rowAt (a.tables m) id = some r → r.status = .sent ∨ r.status = .failed) ∧
    ∀ k id, ((a.past k).map (·.row.id)).count id ≤
      (rowAt a.start.store.tables id).elim 0 (Row.due cap) := by
  refine ⟨fun k => ⟨_, (h.pass k).1⟩, ?_, fun k id => ?_⟩
  · obtain ⟨k, hk, hidle⟩ := h.exists_idle hcap
    rw [h.outstanding_zero] at hk
    refine ⟨k, hk, fun m hm => ?_⟩
    have hidle' := h.idle_mono hidle hm
    refine ⟨h.idle_iff.2 hidle', fun id r hr => ?_⟩
    have hnot := (pendingRows_eq_nil_iff (h.filed_tables m)).1 hidle' id r hr
    cases hstatus : r.status with
    | pending => exact absurd hstatus hnot
    | sent => exact .inl rfl
    | failed => exact .inr rfl
  · have hpast := h.due_past hcap k id
    exact Nat.le_trans (Nat.le_add_left _ _) hpast

end Patrol.Fair

/-! ## A handler that never succeeds -/

/-- The contexts of a patrol last if they are one without a deadline, whose flag nobody raises. -/
theorem Patrol.lasts_of_unraised {a : Patrol σ} (hp : a.processor.repository = .store) {c : Context}
    (hcontext : ∀ k, (a.round k).context = c) (hdeadline : c.deadline = none)
    (hleaves : ∀ h ∈ a.processor.dispatcher.handlers, Leaves c.flag h)
    (henter : ∀ k w, Unraised c.flag w.scene → Unraised c.flag ((a.round k).enter w).scene)
    (hstart : Unraised c.flag a.start.world.scene) (k : Nat) :
    Pass.Lasts (a.round k).context
      (Pass.start a.processor (a.round k).context (a.round k).conditions (a.site k)) := by
  have hsite : ∀ k, Unraised c.flag (a.site k).world.scene := by
    intro k
    induction k with
    | zero => exact henter 0 _ hstart
    | succ k ih =>
        have hpass := (Pass.lasts_of_unraised hp hdeadline hleaves (a.round k).conditions ih).2
        rw [← hcontext k] at hpass
        exact henter (k + 1) _ (by rw [← hcontext k]; exact hpass)
  rw [hcontext k]
  exact (Pass.lasts_of_unraised hp hdeadline hleaves (a.round k).conditions (hsite k)).1

def welcome : Event := .new ⟨⟨2⟩⟩ .epoch "user.created" ⟨⟨3⟩⟩ []

/-- Two rows for one event. -/
def letters : List Row :=
  [.pending ⟨1⟩ .epoch welcome welcome.serialize, .pending ⟨4⟩ .epoch welcome welcome.serialize]

def letterBox : Store := { Store.empty with tables := storeRows letters Keyed.empty }

theorem filed_storeRows {ts : Tables} (h : Filed ts) (rows : List Row) :
    Filed (storeRows rows ts) := by
  induction rows generalizing ts with
  | nil => exact h
  | cons r rows ih => exact ih (h.set r)

theorem filed_letterBox : Filed letterBox.tables :=
  filed_storeRows (fun k j h => by cases h) letters

theorem queued_letterBox : queued (·.isClaimable .epoch) letterBox.tables = letters := by
  have hkept : ((letterBox.tables.table tableName).values.filterMap Row.ofJson?).filter
      (·.isClaimable .epoch) = letters := by decide +kernel
  rw [queued, hkept]
  exact List.mergeSort_of_pairwise (by decide +kernel)

/-- A patrol of the two rows, by one handler. -/
def patrolOf (h : EventHandler Unit) (mode : DispatchMode) (config : ProcessorConfig) :
    Patrol Unit where
  processor := ⟨.store, ⟨mode, false, [h]⟩, .json, false, config⟩
  round _ := ⟨⟨0, .nil, none, .empty⟩, ⟨fun _ => .epoch, fun _ => .inOrder⟩, id⟩
  start := ⟨letterBox, .start ⟨.none, 0, ()⟩⟩

theorem fair_patrolOf {h : EventHandler Unit} (hleaves : Leaves 0 h) (mode : DispatchMode)
    {config : ProcessorConfig} (hbatch : 0 < config.batchSize) : (patrolOf h mode config).Fair where
  store := rfl
  filed := filed_letterBox
  batch := hbatch
  forward := fun _ => by
    show Instant.epoch ≤ Instant.epoch
    decide
  unleased := by
    have hfree : ∀ r ∈ ((letterBox.tables.table tableName).values.filterMap Row.ofJson?).filter
        (·.status = .pending), r.isClaimable .epoch = true := by decide +kernel
    exact fun r hr => hfree r ((Row.oldestFirst_perm _).mem_iff.1 hr)
  lasts := Patrol.lasts_of_unraised rfl (fun _ => rfl) rfl
    (fun h' hh' => by
      obtain rfl := List.mem_singleton.1 hh'
      exact hleaves)
    (fun _ _ h => h) rfl

def stubborn : EventHandler Unit where
  name := "stubborn"
  accepts _ := true
  react _ _ s := ⟨.failed ⟨"no", []⟩, [], 0, s.own⟩

/-- The rows are given up after their second attempt. -/
theorem drains_stubborn :
    let a := patrolOf stubborn .concurrent ⟨10, some 2, some (.ofSeconds 30)⟩
    ∃ k ≤ 4, ∀ m, k ≤ m → a.result m = .ok ⟨0, 0, 0, 0⟩ ∧
      ∀ id r, rowAt (a.tables m) id = some r → r.status = .sent ∨ r.status = .failed := by
  intro a
  have hfair : a.Fair := fair_patrolOf (fun _ _ _ => List.not_mem_nil) _ (by decide)
  obtain ⟨-, ⟨k, hk, hidle⟩, -⟩ := @Patrol.Fair.drains Unit a 2 hfair rfl
  have hdue : ((pendingRows a.start.store.tables).map (·.due 2)).sum = 4 := by
    rw [pendingRows, ((Row.oldestFirst_perm _).map _).sum_eq]
    decide +kernel
  rw [hdue] at hk
  exact ⟨k, hk, hidle⟩

end Registrar.Outbox
