import Registrar.Proofs.Outbox.Draining
import Registrar.Proofs.Outbox.Traces

set_option autoImplicit false

/-! # What becomes of the rows of a pass

A row's mark depends on nothing but the row and the calls of its own trial (`Processor.Marks`): it
is sent if its event can be read and everybody who was called with it handled it, and otherwise one
more attempt has failed. What handlers make of other rows, and what other rows hold, has no part in
it. So a pass whose context stays active can be told row by row, and its report and its samples tell
the same (`unbroken_pass`). -/

namespace Registrar.Outbox

variable {σ : Type}

/-! ## One row -/

namespace Processor

variable (p : Processor Store Transaction σ)

/-- Every handler that accepts the row's event was called with it, each once; nobody was if the row
holds no event that can be read. -/
def Heeds (r : Row) (calls : List (Heard σ)) : Prop :=
  match p.serializer.deserialize r.payload r.eventName with
  | .ok e => (calls.map (·.handler)).Perm (p.dispatcher.matching e.name) ∧ ∀ x ∈ calls, x.event = e
  | .error _ => calls = []

/-- The row's event can be read, and all who were called with it handled it. -/
def Handled (r : Row) (calls : List (Heard σ)) : Prop :=
  (∃ e, p.serializer.deserialize r.payload r.eventName = .ok e) ∧ ∀ x ∈ calls, x.verdict = .handled

/-- **How a row is marked after these calls**, at some time. -/
structure Marks (now : Instant) (r : Row) (calls : List (Heard σ)) (marked : Row) : Prop where
  sent : p.Handled r calls →
    marked = { r with status := .sent, sentAt := some now, lockedUntil := none }
  failed : ¬ p.Handled r calls → ∃ reason, marked = { r with
    status := if p.isExhausted (Row.nextAttempts r.attempts) then .failed else .pending
    attempts := Row.nextAttempts r.attempts
    lastError := some reason, lastAttemptAt := some now, lockedUntil := none }

variable {p} {c : Context} {o : Schedule} {row : Row} {w : World σ}

theorem heeds_calls (hactive : w.check c = .ok ()) : p.Heeds row (p.calls c o row w) := by
  have haccounts := (p.deliver_accounts c o row w).2
  unfold Heeds
  cases hread : p.serializer.deserialize row.payload row.eventName with
  | error e =>
      rw [hread] at haccounts
      exact haccounts.1
  | ok e =>
      rw [hread] at haccounts
      unfold Dispatcher.Accounts at haccounts
      rw [hactive] at haccounts
      exact ⟨haccounts.1, haccounts.2.1⟩

theorem delivered_iff_handled (row : Row) (hactive : w.check c = .ok ()) :
    (p.deliver c o row w).1 = .delivered ↔ p.Handled row (p.calls c o row w) := by
  have haccounts := (p.deliver_accounts c o row w).2
  unfold Handled
  cases hread : p.serializer.deserialize row.payload row.eventName with
  | error e =>
      rw [hread] at haccounts
      rw [haccounts.2]
      exact iff_of_false (fun h => by cases h) fun ⟨⟨_, h⟩, _⟩ => by cases h
  | ok e =>
      rw [hread] at haccounts
      unfold Dispatcher.Accounts at haccounts
      rw [hactive] at haccounts
      rw [p.deliver_of_decoded c o hread, Delivery.ofResult_eq_delivered_iff, haccounts.2.2]
      exact (and_iff_right ⟨e, rfl⟩).symm

/-- **A trial marks a row by the calls that it made.** -/
theorem marks_settled (hactive : w.check c = .ok ()) (hpending : row.status = .pending)
    (now : Instant) : p.Marks now row (p.calls c o row w)
      (row.settled p.isExhausted now (p.deliver c o row w).1) := by
  have hhandled := delivered_iff_handled (p := p) (o := o) row hactive
  cases hdelivery : (p.deliver c o row w).1 with
  | delivered => exact ⟨fun _ => rfl, fun hnot => absurd (hhandled.1 hdelivery) hnot⟩
  | failed reason =>
      refine ⟨fun h => ?_, fun _ => ⟨reason, ?_⟩⟩
      · cases hdelivery.symm.trans (hhandled.2 h)
      · rw [← hpending]
        rfl
  | interrupted e => exact absurd hdelivery (deliver_ne_interrupted hactive e)

/-- That a row is held makes no difference. -/
theorem heeds_of_hold {now : Instant} {calls : List (Heard σ)}
    (h : p.Heeds (p.hold now row) calls) : p.Heeds row calls := by
  unfold hold at h
  cases hlease : p.config.lease <;> rw [hlease] at h <;> exact h

theorem marks_of_hold {time now : Instant} {calls : List (Heard σ)} {marked : Row}
    (h : p.Marks now (p.hold time row) calls marked) : p.Marks now row calls marked := by
  unfold hold at h
  cases hlease : p.config.lease with
  | none =>
      rw [hlease] at h
      exact h
  | some lease =>
      rw [hlease] at h
      exact ⟨h.sent, h.failed⟩

end Processor

/-! ## All rows -/

/-- A report of so many rows of which these were marked. -/
def Report.ofMarked (fetched : Nat) (marked : List Row) : Report where
  fetched
  sent := marked.countP (·.status = .sent)
  failed := marked.countP (·.status = .pending)
  deadLettered := marked.countP (·.status = .failed)

theorem length_eq_countP_status (rows : List Row) :
    rows.length = rows.countP (·.status = .sent) + rows.countP (·.status = .pending) +
      rows.countP (·.status = .failed) := by
  induction rows with
  | nil => rfl
  | cons r rows ih =>
      simp only [List.length_cons, List.countP_cons, ih]
      cases r.status <;> simp <;> omega

/-- **What a pass did with the rows that it took**: for as many of them as there are lists of calls
handlers were called, and as many as are marked were marked by that and are now in the tables. -/
structure Processor.Works (p : Processor Store Transaction σ) (conditions : Conditions)
    (taken : List Row) (calls : List (List (Heard σ))) (marked : List Row) (after : Tables) :
    Prop where
  heeds : ∀ (i : Nat) r cs, taken[i]? = some r → calls[i]? = some cs → p.Heeds r cs
  marks : ∀ (i : Nat) r cs m, taken[i]? = some r → calls[i]? = some cs → marked[i]? = some m →
    p.Marks (conditions.clock (i + 1)) r cs m
  stored : ∀ (i : Nat) r m, taken[i]? = some r → marked[i]? = some m → rowAt after r.id = some m

namespace Processor

variable {p : Processor Store Transaction σ} {c : Context} {conditions : Conditions}
  {s site : Site Store σ} {k : Nat} {report : Report}

/-- What a pass did up to where its context is active. -/
theorem After.works (h : p.After c conditions s k report site) (hfiled : Filed s.store.tables)
    {n : Nat} (hactive : ∀ j < n, (p.worldAt c conditions s j).check c = .ok ()) :
    p.Works conditions (p.taken (conditions.clock 0) s.store.tables)
      (((p.allTrials c conditions s).take n).map (·.calls)) ((p.allLeft c conditions s).take k)
      site.store.tables := by
  let now := conditions.clock 0
  have hheld : ∀ (i : Nat) r, (p.taken now s.store.tables)[i]? = some r →
      (p.held conditions s)[i]? = some (p.hold now r) := fun i r hr => by
    rw [held, List.getElem?_map, hr]
    rfl
  -- The calls and the marked rows of a number are those of the trial that has it.
  have hcalls : ∀ (i : Nat) r cs, (p.taken now s.store.tables)[i]? = some r →
      (((p.allTrials c conditions s).take n).map (·.calls))[i]? = some cs →
      (p.worldAt c conditions s i).check c = .ok () ∧
        p.calls c (conditions.schedule i) (p.hold now r) (p.worldAt c conditions s i) = cs := by
    intro i r cs hr hcs
    rw [List.getElem?_map, List.getElem?_take] at hcs
    obtain ⟨t, ht, rfl⟩ := Option.map_eq_some_iff.1 hcs
    obtain ⟨hi, ht⟩ := Option.ite_none_right_eq_some.1 ht
    obtain rfl := Option.some.inj ((getElem?_allTrials (hheld i r hr)).symm.trans ht)
    exact ⟨hactive i hi, rfl⟩
  have hmarked : ∀ (i : Nat) r m, (p.taken now s.store.tables)[i]? = some r →
      ((p.allLeft c conditions s).take k)[i]? = some m →
      i < k ∧ p.left conditions i (p.trial c (conditions.schedule i) (p.hold now r)
        (p.worldAt c conditions s i)) = m := by
    intro i r m hr hm
    rw [List.getElem?_take] at hm
    obtain ⟨hi, hm⟩ := Option.ite_none_right_eq_some.1 hm
    exact ⟨hi, Option.some.inj ((getElem?_allLeft (hheld i r hr)).symm.trans hm)⟩
  refine ⟨fun i r cs hr hcs => ?_, fun i r cs m hr hcs hm => ?_, fun i r m hr hm => ?_⟩
  · obtain ⟨hactive', rfl⟩ := hcalls i r cs hr hcs
    exact heeds_of_hold (heeds_calls hactive')
  · obtain ⟨hactive', rfl⟩ := hcalls i r cs hr hcs
    obtain ⟨-, rfl⟩ := hmarked i r m hr hm
    have hpending := (of_mem_taken hfiled (List.mem_of_getElem? hr)).2
    exact marks_of_hold (marks_settled hactive' ((status_hold now r).trans hpending) _)
  · obtain ⟨hi, rfl⟩ := hmarked i r m hr hm
    have hsettled := h.tables.settled i hi _ (hheld i r hr)
    rwa [getElem?_allLeft (hheld i r hr), id_hold] at hsettled

/-- One trial more is counted by how the row is left. -/
theorem count_eq {t : Trial σ} (hpending : t.row.status = .pending)
    (hdelivery : ∀ e, t.delivery ≠ .interrupted e) (i n : Nat) (marked : List Row) :
    p.count (.ofMarked n marked) t = .ofMarked n (marked ++ [p.left conditions i t]) := by
  unfold count left Report.ofMarked
  simp only [List.countP_append, List.countP_singleton]
  cases hd : t.delivery with
  | delivered => simp [Row.settled]
  | failed reason =>
      cases hlast : p.isExhausted (Row.nextAttempts t.row.attempts) <;>
        simp [Row.settled, hlast, hpending]
  | interrupted e => exact absurd hd (hdelivery e)

/-- **The report counts the rows as they were marked.** -/
theorem After.report_eq (h : p.After c conditions s k report site) (hfiled : Filed s.store.tables)
    (hk : k ≤ (p.held conditions s).length)
    (hactive : ∀ j < k, (p.worldAt c conditions s j).check c = .ok ()) :
    report = .ofMarked (p.held conditions s).length
      ((p.allLeft c conditions s).take k) := by
  rw [h.report]
  clear h
  induction k with
  | zero => rfl
  | succ k ih =>
      have hrow := List.getElem?_eq_getElem hk
      have hpending := pending_of_mem_held hfiled (List.mem_of_getElem? hrow)
      rw [List.take_add_one, List.foldl_append, ih (Nat.le_of_succ_le hk) fun j hj =>
        hactive j (Nat.lt_succ_of_lt hj), List.take_add_one, getElem?_allTrials hrow,
        getElem?_allLeft hrow]
      exact count_eq hpending (deliver_ne_interrupted (hactive k (Nat.lt_succ_self k))) k _ _

/-- What the queue of a pass is, said of its rows. -/
theorem queue_eligible {ts : Tables} (h : Filed ts) (config : ProcessorConfig) (now : Instant) :
    Queue (fun r => r.status = .pending ∧
      (config.lease ≠ none → ∀ t, r.lockedUntil = some t → t ≤ now)) ts
      (queued (config.eligible now) ts) :=
  (queue_queued h (config.eligible now)).congr fun _ => ProcessorConfig.eligible_iff

/-- The names of the events of rows, whether they are held or not. -/
theorem filterMap_eventName?_hold (now : Instant) (rows : List Row) :
    (rows.map (p.hold now)).filterMap p.eventName? = rows.filterMap p.eventName? := by
  rw [List.filterMap_map]
  refine List.filterMap_congr fun r _ => ?_
  unfold hold Function.comp
  cases p.config.lease <;> rfl

/-- **A pass whose context stays active.** It takes the oldest of the rows that are pending and, if
it puts rows under a lease, free, as many as its batch holds. It dispatches the event of each that
holds one, in this order and once, and marks each row by the calls that were made for it; all other
rows stay as they are. It succeeds, its report counts the rows as they were marked, and if it takes
samples, these are one of each row as it was marked. -/
theorem unbroken_pass (hp : p.repository = .store) (hfiled : Filed s.store.tables)
    (hunbroken : p.Unbroken c conditions s) :
    ∃ eligible calls marked report after,
      let taken := eligible.take p.config.batchSize
      Queue (fun r => r.status = .pending ∧
        (p.config.lease ≠ none → ∀ t, r.lockedUntil = some t → t ≤ conditions.clock 0))
        s.store.tables eligible ∧
      p.process c conditions s = (.ok report, after) ∧
      calls.length = taken.length ∧ marked.length = taken.length ∧
      p.Works conditions taken calls marked after.store.tables ∧
      (∀ id, id ∉ taken.map (·.id) → rowAt after.store.tables id = rowAt s.store.tables id) ∧
      report = .ofMarked taken.length marked ∧
      report.fetched = min p.config.batchSize eligible.length ∧
      report.fetched = report.sent + report.failed + report.deadLettered ∧
      (∀ journal, p.noting.process c conditions (s.noted journal) =
        (.ok report, after.noted (journal ++ calls.flatten))) ∧
      (after.world.samplesOf .eventDispatch).map (·.name) =
        (s.world.samplesOf .eventDispatch).map (·.name) ++
          (if p.dispatcher.measured then taken.filterMap p.eventName? else []) ∧
      after.world.samplesOf .outbox = s.world.samplesOf .outbox ++
        if p.measured then marked.map Row.sample else [] := by
  obtain ⟨report, after, hprocess, htrials, h⟩ := process_of_unbroken hp hfiled hunbroken
  have hlength : (p.held conditions s).length =
      (p.taken (conditions.clock 0) s.store.tables).length := List.length_map _
  have hactive : ∀ j < (p.held conditions s).length,
      (p.worldAt c conditions s j).check c = .ok () :=
    fun j hj => hunbroken j (Nat.le_of_lt hj)
  have hworks := h.works hfiled hactive
  have hreport := h.report_eq hfiled (Nat.le_refl _) hactive
  obtain ⟨houtbox, hdispatch⟩ := samples_worldAt (Nat.le_refl _) hactive
  rw [← h.world] at houtbox hdispatch
  rw [List.take_of_length_le (Nat.le_of_eq length_allLeft)] at hworks hreport houtbox
  rw [List.take_of_length_le (Nat.le_of_eq length_allTrials)] at hworks
  rw [List.take_length, held, filterMap_eventName?_hold] at hdispatch
  have hfetched : report.fetched = (p.taken (conditions.clock 0) s.store.tables).length := by
    rw [hreport, ← hlength]
    rfl
  refine ⟨queued (p.config.eligible (conditions.clock 0)) s.store.tables,
    (p.allTrials c conditions s).map Trial.calls, p.allLeft c conditions s, report, after,
    queue_eligible hfiled p.config _, hprocess, ?_, ?_, hworks, fun id hid => ?_, ?_, ?_, ?_,
    fun journal => ?_, hdispatch, houtbox⟩
  · rw [List.length_map, length_allTrials]
    exact hlength
  · rw [length_allLeft]
    exact hlength
  · refine h.tables.others id ?_
    rw [held, map_id_hold]
    exact hid
  · rw [hreport, hlength]
    rfl
  · rw [hfetched, taken, List.length_take]
  · have hsum := length_eq_countP_status (p.allLeft c conditions s)
    rw [length_allLeft, hlength, ← hfetched] at hsum
    rw [hsum, hreport]
    rfl
  · rw [process_noted, hprocess, htrials, List.flatMap_def]

/-- Nobody takes the two letters. -/
theorem unbroken_pass_letters :
    let a := patrolOf stubborn .concurrent ⟨10, some 1, some (.ofSeconds 30)⟩
    a.processor.Unbroken (a.round 0).context (a.round 0).conditions a.start ∧ ∃ report after,
      a.processor.process (a.round 0).context (a.round 0).conditions a.start = (.ok report, after) ∧
      report.fetched = 2 ∧ report.fetched = report.sent + report.failed + report.deadLettered := by
  intro a
  have hfair : a.Fair := fair_patrolOf (fun _ _ _ => List.not_mem_nil) _ (by decide)
  have hunbroken : a.processor.Unbroken (a.round 0).context (a.round 0).conditions a.start :=
    unbroken_of_lasts rfl filed_letterBox (hfair.lasts 0)
  obtain ⟨eligible, -, -, report, after, hqueue, hprocess, -, -, -, -, -, hfetched, hsum, -⟩ :=
    unbroken_pass rfl filed_letterBox hunbroken
  refine ⟨hunbroken, report, after, hprocess, ?_, hsum⟩
  have hlength : (queued (a.processor.config.eligible .epoch) letterBox.tables).length = 2 := by
    show (queued (·.isClaimable .epoch) letterBox.tables).length = 2
    rw [queued_letterBox]
    rfl
  rw [hfetched, hqueue.eq (queue_eligible filed_letterBox a.processor.config .epoch), hlength]
  rfl

end Processor

end Registrar.Outbox
