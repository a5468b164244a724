import Registrar.Proofs.Outbox.Draining

set_option autoImplicit false

/-! # Batching makes no difference

How many rows a pass takes, whether it puts them under a lease, and in what mode their events are
dispatched decides when a row is delivered: rows that fail come back to the front and keep others
waiting. It does not decide what becomes of it. If the handlers are `Steady`, a row is delivered
whenever it is tried or never (`delivered_iff`), so what it comes to in the end can be told from the
row at any time (`Row.fate`), and no pass changes that (`Patrol.Fair.fate_step`).

If no delivery fails, a pass takes the rows off the front of the queue, and each row leaves it at
its first trial. So the handlers that were called so far, and those that the rows still in the queue
would call, are the same list after every pass (`Patrol.Fair.heard_append`). -/

namespace Registrar

variable {σ : Type}

/-! ## Steady handlers -/

/-- Whether the handler handles an event depends on nothing but the event. -/
def EventHandler.Steady (h : EventHandler σ) : Prop :=
  ∀ e c s c' s', (h.react c e s).verdict = .handled ↔ (h.react c' e s').verdict = .handled

/-- The handler handles the event, wherever it is called. -/
def EventHandler.Handles (h : EventHandler σ) (e : Event) : Prop :=
  ∀ c s, (h.react c e s).verdict = .handled

namespace Dispatcher

/-- One call of a steady handler tells of all. -/
theorem handled_hearing_iff (c : Context) (e : Event) {hs : List (EventHandler σ)}
    (hsteady : ∀ h ∈ hs, h.Steady) (s : Scene σ) :
    (∀ x ∈ hearing c e hs s, x.verdict = .handled) ↔ ∀ h ∈ hs, h.Handles e := by
  induction hs generalizing s with
  | nil => exact iff_of_true (fun x hx => by cases hx) (fun h hh => by cases hh)
  | cons h hs ih =>
      have hfirst : (h.react c e s).verdict = .handled ↔ h.Handles e :=
        ⟨fun hhandled c' s' => (hsteady h List.mem_cons_self e c s c' s').1 hhandled,
          fun hhandles => hhandles c s⟩
      rw [hearing, List.forall_mem_cons, List.forall_mem_cons, hfirst,
        ih fun h' hh' => hsteady h' (List.mem_cons_of_mem _ hh')]

theorem callAll_eq_nil_iff (c : Context) (e : Event) {hs : List (EventHandler σ)}
    (hsteady : ∀ h ∈ hs, h.Steady) (s : Scene σ) :
    (callAll c e hs s).1 = [] ↔ ∀ h ∈ hs, h.Handles e := by
  rw [failures_callAll, failures_eq_nil_iff, handled_hearing_iff c e hsteady]

theorem callConcurrently_eq_nil_iff (c : Context) (e : Event) {hs : List (EventHandler σ)}
    (hsteady : ∀ h ∈ hs, h.Steady) (o : Schedule) (s : Scene σ) :
    (callConcurrently c e hs o s).1 = [] ↔ ∀ h ∈ hs, h.Handles e := by
  have hmem : ∀ h, h ∈ inTurn o hs ↔ h ∈ hs := fun h => (inTurn_perm o hs).mem_iff
  rw [eq_nil_iff_of_perm (failures_callConcurrently c e hs o s), failures_eq_nil_iff,
    handled_hearing_iff c e fun h hh => hsteady h ((hmem h).1 hh)]
  exact forall_congr' fun h => by rw [hmem]

/-- **In both modes a dispatch to steady handlers succeeds just when all that accept the event
handle it.** -/
theorem dispatch_eq_ok_iff {d : Dispatcher σ} (hsteady : ∀ h ∈ d.handlers, h.Steady) {c : Context}
    {e : Event} {o : Schedule} {w : World σ} (hactive : w.check c = .ok ()) :
    (d.dispatch c e o w).1 = .ok () ↔ ∀ h ∈ d.matching e.name, h.Handles e := by
  have hmatching : ∀ h ∈ d.matching e.name, h.Steady :=
    fun h hh => hsteady h (List.mem_filter.1 hh).1
  unfold dispatch
  cases d.mode with
  | sequential =>
      simp only [dispatchSequential, dispatchBy, hactive, conclude_succeeds_iff]
      exact callAll_eq_nil_iff c e hmatching _
  | concurrent =>
      simp only [dispatchConcurrent, dispatchBy, hactive, conclude_succeeds_iff]
      exact callConcurrently_eq_nil_iff c e hmatching o _

/-- **In sequential mode handlers are called in the order of registration.** -/
theorem journal_of_sequential {d : Dispatcher σ} (hmode : d.mode = .sequential) {c : Context}
    {e : Event} {o : Schedule} {w : World σ} (hactive : w.check c = .ok ()) :
    ((d.noting.dispatch c e o w.noting).2.scene.own.journal.map fun x => (x.handler, x.event)) =
      (d.matching e.name).map (·, e) := by
  have hmode' : d.noting.mode = .sequential := hmode
  have hcalls : (d.noting.dispatch c e o w.noting).2.scene.own.journal =
      hearing c e (d.matching e.name) w.readClock.2.scene := by
    have hnoted :=
      congrArg (fun out => out.2.scene.own.journal) (dispatchSequential_noted d c e w [])
    simp only [callsOf, hactive] at hnoted
    simp only [dispatch, hmode']
    exact hnoted
  have hpairs : ∀ x ∈ hearing c e (d.matching e.name) w.readClock.2.scene,
      (x.handler, x.event) = (x.handler, e) := fun x hx => by rw [event_of_mem_hearing hx]
  rw [hcalls, List.map_congr_left hpairs]
  exact List.map_map.symm.trans
    (congrArg (List.map (·, e)) (handlers_hearing c e (d.matching e.name) w.readClock.2.scene))

end Dispatcher

namespace Outbox

/-! ## What a row comes to -/

/-- The row holds an event that is handled by every handler that accepts it. -/
def Deliverable (serializer : Serializer) (handlers : List (EventHandler σ)) (r : Row) : Prop :=
  ∃ e, serializer.deserialize r.payload r.eventName = .ok e ∧
    ∀ h ∈ handlers, h.accepts e.name = true → h.Handles e

/-- **A row is delivered whenever it is tried, or never.** -/
theorem delivered_iff {p : Processor Store Transaction σ}
    (hsteady : ∀ h ∈ p.dispatcher.handlers, h.Steady) {c : Context} {o : Schedule} {r : Row}
    {w : World σ} (hactive : w.check c = .ok ()) :
    (p.deliver c o r w).1 = .delivered ↔ Deliverable p.serializer p.dispatcher.handlers r := by
  unfold Deliverable
  cases hread : p.serializer.deserialize r.payload r.eventName with
  | error e =>
      unfold Processor.deliver
      rw [hread]
      exact iff_of_false (fun h => by cases h) fun ⟨_, h, _⟩ => by cases h
  | ok e =>
      rw [p.deliver_of_decoded c o hread, Delivery.ofResult_eq_delivered_iff,
        Dispatcher.dispatch_eq_ok_iff hsteady hactive]
      simp only [Dispatcher.matching, List.mem_filter, and_imp, Except.ok.injEq, exists_eq_left']

/-- The status of a row, and how often it was attempted. -/
def Row.standing (r : Row) : Status × UInt32 := (r.status, r.attempts)

open Classical in
/-- What a row comes to in the end: a pending one is sent at its first trial, or given up when it
has had its attempts. -/
noncomputable def Row.fate (serializer : Serializer) (handlers : List (EventHandler σ))
    (cap : UInt32) (r : Row) : Status × UInt32 :=
  if r.status ≠ .pending then r.standing
  else if Deliverable serializer handlers r then (.sent, r.attempts)
  else (.failed, if cap ≤ nextAttempts r.attempts then nextAttempts r.attempts else cap)

/-- One attempt more does not lead past the cap. -/
theorem Row.last_nextAttempts {cap n : UInt32} (h : ¬ cap ≤ nextAttempts n) :
    (if cap ≤ nextAttempts (nextAttempts n) then nextAttempts (nextAttempts n) else cap) = cap := by
  split
  · next hlast =>
      have hfirst := toNat_nextAttempts n
      have hsecond := toNat_nextAttempts (nextAttempts n)
      have hbound := cap.toNat_lt
      rw [UInt32.le_iff_toNat_le] at h hlast
      refine UInt32.toNat_inj.1 ?_
      omega
  · rfl

section

variable {p : Processor Store Transaction σ} {cap : UInt32} {r : Row}

/-- **A trial does not change what a row comes to**, if it delivers the row just when the row can be
delivered. -/
theorem Row.fate_settled (hcap : p.config.maxAttempts = some cap) (hpending : r.status = .pending)
    {d : Delivery} (hdelivery : ∀ e, d ≠ .interrupted e)
    (hdelivered : d = .delivered ↔ Deliverable p.serializer p.dispatcher.handlers r)
    (now : Instant) :
    (r.settled p.isExhausted now d).fate p.serializer p.dispatcher.handlers cap =
      r.fate p.serializer p.dispatcher.handlers cap := by
  cases d with
  | interrupted e => exact absurd rfl (hdelivery e)
  | delivered =>
      have hdeliverable := hdelivered.1 rfl
      simp only [fate, settled, standing, hpending, hdeliverable, ne_eq, reduceCtorEq,
        not_false_iff, not_true, if_true, if_false]
  | failed reason =>
      have hnot : ¬ Deliverable p.serializer p.dispatcher.handlers r := fun h => by
        cases hdelivered.2 h
      have hlast :
          p.isExhausted (nextAttempts r.attempts) = decide (cap ≤ nextAttempts r.attempts) := by
        rw [Processor.isExhausted, hcap]
      by_cases hexhausted : cap ≤ nextAttempts r.attempts
      · simp only [fate, settled, standing, hlast, hexhausted, hpending, hnot, decide_true, ne_eq,
          reduceCtorEq, not_false_iff, not_true, if_true, if_false]
      · have hagain : ¬ Deliverable p.serializer p.dispatcher.handlers
            (r.settled p.isExhausted now (.failed reason)) := hnot
        have hstatus : (r.settled p.isExhausted now (.failed reason)).status = .pending := by
          simp only [settled, hlast, hexhausted, decide_false, Bool.false_eq_true, if_false,
            hpending]
        have hattempts : (r.settled p.isExhausted now (.failed reason)).attempts =
            nextAttempts r.attempts := rfl
        simp only [fate, hstatus, hpending, hagain, hnot, hattempts, ne_eq, not_true, if_false,
          last_nextAttempts hexhausted, hexhausted]

end

/-! ## The queue -/

/-- The calls that a row's delivery should make: every handler that accepts the event, in the order
of registration. -/
def intended (serializer : Serializer) (handlers : List (EventHandler σ)) (r : Row) :
    List (EventHandler σ × Event) :=
  match serializer.deserialize r.payload r.eventName with
  | .ok e => (handlers.filter (·.accepts e.name)).map (·, e)
  | .error _ => []

/-- The handlers called in these trials, one after another, and what with. -/
def heardIn (trials : List (Trial σ)) : List (EventHandler σ × Event) :=
  (trials.flatMap (·.calls)).map fun x => (x.handler, x.event)

theorem heardIn_append (trials trials' : List (Trial σ)) :
    heardIn (trials ++ trials') = heardIn trials ++ heardIn trials' := by
  unfold heardIn
  rw [List.flatMap_append, List.map_append]

/-- **In sequential mode a delivery calls whom it should.** -/
theorem calls_of_sequential {p : Processor Store Transaction σ}
    (hmode : p.dispatcher.mode = .sequential) {c : Context} {o : Schedule} {r : Row} {w : World σ}
    (hactive : w.check c = .ok ()) :
    (p.calls c o r w).map (fun x => (x.handler, x.event)) =
      intended p.serializer p.dispatcher.handlers r := by
  unfold intended
  cases hread : p.serializer.deserialize r.payload r.eventName with
  | error e =>
      have hread' : p.noting.serializer.deserialize r.payload r.eventName = .error e := hread
      unfold Processor.calls Processor.deliver
      rw [hread']
      rfl
  | ok e =>
      have hread' : p.noting.serializer.deserialize r.payload r.eventName = .ok e := hread
      unfold Processor.calls
      rw [p.noting.deliver_of_decoded c o hread']
      exact Dispatcher.journal_of_sequential hmode hactive

theorem heardIn_of_tried {p : Processor Store Transaction σ}
    (hmode : p.dispatcher.mode = .sequential) {after : Tables} {rows : List Row}
    {trials : List (Trial σ)} (h : List.Forall₂ (Tried p after) rows trials) :
    heardIn trials = rows.flatMap (intended p.serializer p.dispatcher.handlers) := by
  induction h with
  | nil => rfl
  | @cons r t rows trials hrow _ ih =>
      obtain ⟨c, o, w, hactive, -, hcalls⟩ := hrow.delivered
      have hfirst : heardIn [t] = intended p.serializer p.dispatcher.handlers r := by
        rw [heardIn, List.flatMap_singleton, hcalls, calls_of_sequential hmode hactive]
      rw [← List.singleton_append, heardIn_append, hfirst, ih]
      rfl

/-- **If no delivery fails, a pass takes the rows that it tries off the front of the queue.** -/
theorem Settles.pendingRows_eq_drop {p : Processor Store Transaction σ} {before after : Tables}
    {trials : List (Trial σ)} {n : Nat}
    (h : Settles p before after ((pendingRows before).take n) trials) (hfiled : Filed before)
    (hdelivered : ∀ t ∈ trials, t.delivery = .delivered) :
    pendingRows after = (pendingRows before).drop n := by
  have hqueue := queue_pendingRows hfiled
  have hrest : Queue (·.status = .pending) after ((pendingRows before).drop n) := by
    refine ⟨fun r => ?_, hqueue.sorted.sublist (List.drop_sublist _ _)⟩
    by_cases htaken : r.id ∈ ((pendingRows before).take n).map (·.id)
    · refine iff_of_false (fun hr => id_notMem_take hqueue.nodup_id hr htaken) ?_
      rintro ⟨hrow, hpending⟩
      obtain ⟨r₀, hr₀, hid⟩ := List.mem_map.1 htaken
      obtain ⟨t, ht, htried⟩ := exists_tried h.tried hr₀
      obtain ⟨now, hsettled⟩ := htried.settled
      rw [hid, hdelivered t ht] at hsettled
      obtain rfl := Option.some.inj (hrow.symm.trans hsettled)
      cases hpending
    · rw [h.others r.id htaken, ← hqueue.mem]
      refine ⟨List.mem_of_mem_drop, fun hr => ?_⟩
      rw [← List.take_append_drop n (pendingRows before), List.mem_append] at hr
      exact hr.resolve_left fun hr => htaken (List.mem_map_of_mem hr)
  exact (queue_pendingRows h.filed).eq hrest

/-! ## Patrols -/

namespace Patrol

/-- The calls of handlers in the first passes, in order. -/
def heard (a : Patrol σ) (k : Nat) : List (EventHandler σ × Event) := heardIn (a.past k)

namespace Fair

variable {a : Patrol σ} {cap : UInt32}

/-- **A pass does not change what a row comes to.** -/
theorem fate_step (h : a.Fair) (hcap : a.processor.config.maxAttempts = some cap)
    (hsteady : ∀ h ∈ a.processor.dispatcher.handlers, h.Steady) (k : Nat) (id : Uuid) :
    (rowAt (a.tables (k + 1)) id).map
        (Row.fate a.processor.serializer a.processor.dispatcher.handlers cap) =
      (rowAt (a.tables k) id).map
        (Row.fate a.processor.serializer a.processor.dispatcher.handlers cap) := by
  have hsettles := (h.pass k).2
  by_cases htaken : id ∈ (a.taken k).map (·.id)
  · obtain ⟨r, hr, rfl⟩ := List.mem_map.1 htaken
    obtain ⟨hrow, hpending⟩ := h.of_mem_taken hr
    obtain ⟨t, -, ht⟩ := exists_tried hsettles.tried hr
    obtain ⟨now, hsettled⟩ := ht.settled
    obtain ⟨c, o, w, hactive, hdelivery, -⟩ := ht.delivered
    have hdelivered : t.delivery = .delivered ↔
        Deliverable a.processor.serializer a.processor.dispatcher.handlers r := by
      rw [hdelivery]
      exact delivered_iff hsteady hactive
    rw [hrow, hsettled, Option.map_some, Option.map_some,
      Row.fate_settled hcap hpending ht.ne_interrupted hdelivered]
  · rw [hsettles.others id htaken]

theorem fate_tables (h : a.Fair) (hcap : a.processor.config.maxAttempts = some cap)
    (hsteady : ∀ h ∈ a.processor.dispatcher.handlers, h.Steady) (k : Nat) (id : Uuid) :
    (rowAt (a.tables k) id).map
        (Row.fate a.processor.serializer a.processor.dispatcher.handlers cap) =
      (rowAt a.start.store.tables id).map
        (Row.fate a.processor.serializer a.processor.dispatcher.handlers cap) := by
  induction k with
  | zero => rfl
  | succ k ih => rw [h.fate_step hcap hsteady, ih]

/-- **When nothing is pending any more, every row stands as it was to come to.** -/
theorem standing_of_idle (h : a.Fair) (hcap : a.processor.config.maxAttempts = some cap)
    (hsteady : ∀ h ∈ a.processor.dispatcher.handlers, h.Steady) {k : Nat}
    (hidle : a.result k = .ok ⟨0, 0, 0, 0⟩) (id : Uuid) :
    (rowAt (a.tables k) id).map Row.standing =
      (rowAt a.start.store.tables id).map
        (Row.fate a.processor.serializer a.processor.dispatcher.handlers cap) := by
  rw [← h.fate_tables hcap hsteady k]
  cases hrow : rowAt (a.tables k) id with
  | none => rfl
  | some r =>
      have hnot := (pendingRows_eq_nil_iff (h.filed_tables k)).1 (h.idle_iff.1 hidle) id r hrow
      rw [Option.map_some, Option.map_some, Row.fate, if_pos hnot]

/-- **As long as no delivery fails**, what was called and what the rows in the queue should call are
together what the rows of the first queue should call. -/
theorem heard_append (h : a.Fair) (hmode : a.processor.dispatcher.mode = .sequential) {k : Nat}
    (hdelivered : ∀ t ∈ a.past k, t.delivery = .delivered) :
    a.heard k ++ (pendingRows (a.tables k)).flatMap
        (intended a.processor.serializer a.processor.dispatcher.handlers) =
      (pendingRows a.start.store.tables).flatMap
        (intended a.processor.serializer a.processor.dispatcher.handlers) := by
  induction k with
  | zero => rfl
  | succ k ih =>
      rw [past, List.forall_mem_append] at hdelivered
      obtain ⟨hpast, hnow⟩ := hdelivered
      have hsettles := (h.pass k).2
      rw [hsettles.pendingRows_eq_drop (h.filed_tables k) hnow, ← ih hpast, heard, past,
        heardIn_append, heardIn_of_tried hmode hsettles.tried, List.append_assoc,
        ← List.flatMap_append, taken, List.take_append_drop]
      rfl

theorem heard_of_idle (h : a.Fair) (hmode : a.processor.dispatcher.mode = .sequential) {k : Nat}
    (hidle : a.result k = .ok ⟨0, 0, 0, 0⟩)
    (hdelivered : ∀ t ∈ a.past k, t.delivery = .delivered) :
    a.heard k = (pendingRows a.start.store.tables).flatMap
      (intended a.processor.serializer a.processor.dispatcher.handlers) := by
  rw [← h.heard_append hmode hdelivered, h.idle_iff.1 hidle]
  exact (List.append_nil _).symm

end Fair

/-- **Batching makes no difference.** Two patrols of the same tables, whose processors have the same
steady handlers, the same way to read events and the same cap, and nothing else in common: each
comes to an idle pass, and then every row has the same status and the same attempts in both. If no
delivery fails in either and both dispatch sequentially, the same handlers were called with the same
events in the same order: the rows that were pending at first, each once, oldest first, with the
handlers that accept its event in the order of registration. -/
theorem batching_makes_no_difference {a b : Patrol σ} {cap : UInt32} (ha : a.Fair) (hb : b.Fair)
    (hcap : a.processor.config.maxAttempts = some cap)
    (hcap' : b.processor.config.maxAttempts = some cap)
    (hhandlers : b.processor.dispatcher.handlers = a.processor.dispatcher.handlers)
    (hserializer : b.processor.serializer = a.processor.serializer)
    (htables : b.start.store.tables = a.start.store.tables)
    (hsteady : ∀ h ∈ a.processor.dispatcher.handlers, h.Steady) :
    (∃ j, a.result j = .ok ⟨0, 0, 0, 0⟩) ∧ (∃ k, b.result k = .ok ⟨0, 0, 0, 0⟩) ∧
    ∀ j k, a.result j = .ok ⟨0, 0, 0, 0⟩ → b.result k = .ok ⟨0, 0, 0, 0⟩ →
      (∀ id, (rowAt (a.tables j) id).map Row.standing = (rowAt (b.tables k) id).map Row.standing) ∧
      (a.processor.dispatcher.mode = .sequential → b.processor.dispatcher.mode = .sequential →
        (∀ t ∈ a.past j, t.delivery = .delivered) → (∀ t ∈ b.past k, t.delivery = .delivered) →
        a.heard j = b.heard k ∧ a.heard j = (pendingRows a.start.store.tables).flatMap
          (intended a.processor.serializer a.processor.dispatcher.handlers)) := by
  have hexists : ∀ {x : Patrol σ}, x.Fair → x.processor.config.maxAttempts = some cap →
      ∃ k, x.result k = .ok ⟨0, 0, 0, 0⟩ := by
    intro x hx hcapx
    obtain ⟨k, -, hidle⟩ := hx.exists_idle hcapx
    exact ⟨k, hx.idle_iff.2 hidle⟩
  refine ⟨hexists ha hcap, hexists hb hcap', fun j k hj hk => ⟨fun id => ?_, ?_⟩⟩
  · rw [ha.standing_of_idle hcap hsteady hj, hb.standing_of_idle hcap' (hhandlers ▸ hsteady) hk,
      hhandlers, hserializer, htables]
  · intro hmode hmode' hdelivered hdelivered'
    have hheard := ha.heard_of_idle hmode hj hdelivered
    have hheard' := hb.heard_of_idle hmode' hk hdelivered'
    rw [hhandlers, hserializer, htables] at hheard'
    exact ⟨hheard.trans hheard'.symm, hheard⟩

end Patrol

/-! ## One row at a time, or all at once -/

def willing : EventHandler Unit where
  name := "willing"
  accepts _ := true
  react _ _ s := ⟨.handled, [], 0, s.own⟩

theorem batching_makes_no_difference_letters :
    let a := patrolOf willing .sequential ⟨1, some 2, none⟩
    let b := patrolOf willing .concurrent ⟨10, some 2, some (.ofSeconds 30)⟩
    ∃ j k, a.result j = .ok ⟨0, 0, 0, 0⟩ ∧ b.result k = .ok ⟨0, 0, 0, 0⟩ ∧
      ∀ id, (rowAt (a.tables j) id).map Row.standing =
        (rowAt (b.tables k) id).map Row.standing := by
  intro a b
  have hleaves : Leaves 0 willing := fun _ _ _ => List.not_mem_nil
  have ha : a.Fair := fair_patrolOf hleaves _ (by decide)
  have hb : b.Fair := fair_patrolOf hleaves _ (by decide)
  have hsteady : ∀ h ∈ a.processor.dispatcher.handlers, h.Steady := by
    intro h hh
    obtain rfl := List.mem_singleton.1 hh
    exact fun _ _ _ _ _ => Iff.rfl
  obtain ⟨⟨j, hj⟩, ⟨k, hk⟩, hsame⟩ := @Patrol.batching_makes_no_difference Unit a b 2 ha hb rfl rfl
    rfl rfl rfl hsteady
  exact ⟨j, k, hj, hk, (hsame j k hj hk).1⟩

end Outbox

end Registrar
