import Registrar.Proofs.Outbox.Marking

set_option autoImplicit false

/-! # Passes that are interrupted

A handler may end the context of the pass that calls it. The delivery goes on to the other handlers,
but its row is not marked any more, and the pass ends (`settle_interrupted`). So an interrupted pass
stands where the rows before that one had left it: these are marked as a pass over them alone would
have marked them, and the others wait as they were taken, for a later pass (`interrupted_pass`). -/

namespace Registrar.Outbox

variable {σ : Type}

namespace Processor

variable {p : Processor Store Transaction σ} {c : Context} {conditions : Conditions}
  {s : Site Store σ} {e : ContextError}

/-! ## The row that is being delivered -/

/-- **A row whose delivery ends the context is not marked**, and the pass ends with it. -/
theorem settle_interrupted (hp : p.repository = .store) {i : Nat} {row : Row} (report : Report)
    (hbefore : s.world.check c = .ok ())
    (hafter : (p.deliver c (conditions.schedule i) row s.world).2.check c = .error e) :
    p.settle c conditions i row report s = (.error (.context e),
      { s with world := (p.deliver c (conditions.schedule i) row s.world).2 }) := by
  have hnot : ∀ e', (p.deliver c (conditions.schedule i) row s.world).1 ≠ .interrupted e' :=
    deliver_ne_interrupted hbefore
  simp only [settle, hbefore]
  cases hdeliver : p.deliver c (conditions.schedule i) row s.world with
  | mk delivery world =>
      rw [hdeliver] at hnot hafter
      cases delivery with
      | delivered =>
          simp only [settleDelivered, hp, hafter]
          rfl
      | failed reason =>
          simp only [settleFailed, hp, hafter]
          rfl
      | interrupted e' => exact absurd rfl (hnot e')

/-- A pass whose context has ended does nothing. -/
theorem process_of_ended (hended : s.world.check c = .error e) :
    p.process c conditions s = (.error (.context e), s) ∧ p.trials c conditions s = [] :=
  ⟨by simp only [process, hended], by simp only [trials, hended]⟩

/-- **The context ends during a pass**: it is active until this row, number `k` of the pass, is
delivered, and has ended when the delivery is over. -/
structure EndsDuring (p : Processor Store Transaction σ) (c : Context) (conditions : Conditions)
    (s : Site Store σ) (k : Nat) (row : Row) (e : ContextError) : Prop where
  found : (p.held conditions s)[k]? = some row
  active : ∀ j ≤ k, (p.worldAt c conditions s j).check c = .ok ()
  ended :
    (p.deliver c (conditions.schedule k) row (p.worldAt c conditions s k)).2.check c = .error e

theorem process_of_endsDuring (hp : p.repository = .store) (hfiled : Filed s.store.tables) {k : Nat}
    {row : Row} (h : p.EndsDuring c conditions s k row e) :
    ∃ report site, p.After c conditions s k report site ∧
      p.process c conditions s = (.error (.context e),
        { site with world := (p.deliver c (conditions.schedule k) row site.world).2 }) ∧
      p.trials c conditions s = (p.allTrials c conditions s).take (k + 1) := by
  obtain ⟨hk, rfl⟩ := List.getElem?_eq_some_iff.1 h.found
  obtain ⟨report, site, hat⟩ := after_of_active hp hfiled (Nat.le_of_lt hk) h.active
  have hbefore := h.active k (Nat.le_refl k)
  have hafter := h.ended
  rw [← hat.world] at hbefore hafter
  have hsettle := settle_interrupted hp report hbefore hafter
  refine ⟨report, site, hat, ?_, ?_⟩
  · rw [hat.process, List.drop_eq_getElem_cons hk, settleAll, hsettle]
  · rw [hat.trials, List.drop_eq_getElem_cons hk, trialsFrom, hbefore, hsettle, List.take_add_one,
      getElem?_allTrials h.found, hat.world]
    rfl

/-! ## The rows before it -/

/-- The same processor with batches of this size. -/
def limited (p : Processor Store Transaction σ) (k : Nat) : Processor Store Transaction σ :=
  { p with config := { p.config with batchSize := k } }

theorem held_limited {k : Nat} (hk : k ≤ p.config.batchSize) :
    (p.limited k).held conditions s = (p.held conditions s).take k := by
  have htaken : (p.limited k).taken (conditions.clock 0) s.store.tables =
      (p.taken (conditions.clock 0) s.store.tables).take k := by
    unfold taken
    rw [List.take_take, Nat.min_eq_left hk]
    rfl
  rw [held, htaken, held, List.map_take]
  rfl

theorem worldAt_limited {k j : Nat} (hk : k ≤ p.config.batchSize) (hj : j ≤ k) :
    (p.limited k).worldAt c conditions s j = p.worldAt c conditions s j := by
  induction j with
  | zero => rfl
  | succ j ih =>
      have hrow : ((p.limited k).held conditions s)[j]? = (p.held conditions s)[j]? := by
        rw [held_limited hk, List.getElem?_take_of_lt hj]
      unfold worldAt
      rw [hrow, ih (Nat.le_of_succ_le hj)]
      rfl

/-- A pass takes no more rows than its batch holds. -/
theorem length_held_le : (p.held conditions s).length ≤ p.config.batchSize := by
  rw [held, List.length_map, taken, List.length_take]
  exact Nat.min_le_left _ _

/-- **As far as a pass gets, it marks rows as one does that takes no others.** -/
theorem limited_pass (hp : p.repository = .store) (hfiled : Filed s.store.tables) {k : Nat}
    {report : Report} {site : Site Store σ} (hat : p.After c conditions s k report site)
    (hk : k ≤ (p.held conditions s).length)
    (hactive : ∀ j ≤ k, (p.worldAt c conditions s j).check c = .ok ()) :
    ∃ report' full, (p.limited k).process c conditions s = (.ok report', full) ∧
      ∀ row ∈ (p.held conditions s).take k,
        rowAt full.store.tables row.id = rowAt site.store.tables row.id := by
  have hbatch : k ≤ p.config.batchSize := Nat.le_trans hk length_held_le
  have hheld : (p.limited k).held conditions s = (p.held conditions s).take k := held_limited hbatch
  have hlength : ((p.limited k).held conditions s).length = k := by
    rw [hheld, List.length_take, Nat.min_eq_left hk]
  have hunbroken : (p.limited k).Unbroken c conditions s := by
    intro j hj
    rw [hlength] at hj
    rw [worldAt_limited hbatch hj]
    exact hactive j hj
  obtain ⟨report', full, hprocess, -, h⟩ :=
    process_of_unbroken (p := p.limited k) hp hfiled hunbroken
  rw [hlength] at h
  refine ⟨report', full, hprocess, fun row hrow => ?_⟩
  obtain ⟨i, hi⟩ := List.mem_iff_getElem?.1 hrow
  have hi' : ((p.limited k).held conditions s)[i]? = some row := by rwa [hheld]
  rw [List.getElem?_take] at hi
  obtain ⟨hlt, hrow⟩ := Option.ite_none_right_eq_some.1 hi
  rw [h.tables.settled i hlt row hi', hat.tables.settled i hlt row hrow, getElem?_allLeft hi',
    getElem?_allLeft hrow, worldAt_limited hbatch (Nat.le_of_lt hlt)]
  rfl

/-! ## The rows after it -/

/-- The row under the lease of a pass, if the pass has one. -/
theorem hold_eq (now : Instant) (r : Row) :
    ∃ locked, p.hold now r = { r with lockedUntil := locked } ∧
    (p.config.lease = none → locked = r.lockedUntil) ∧
    ∀ lease, p.config.lease = some lease → locked = some (now.add lease) := by
  unfold hold
  cases p.config.lease with
  | none => exact ⟨r.lockedUntil, rfl, fun _ => rfl, fun _ h => by cases h⟩
  | some lease =>
      refine ⟨some (now.add lease), rfl, (fun h => by cases h), fun lease' h => ?_⟩
      rw [Option.some.inj h]

/-- **A pass that is interrupted.** If its context has ended when it begins, nothing happens. If the
context ends while a row is being delivered, the pass fails with that, and every handler that
accepts the row's event was called for it, but none for a later row. The rows before it are marked
by the calls that were made for them, and just as by a pass that takes no more rows than these. The
row itself and those after it are as they were taken, under the lease of the pass if it has one, and
queue for any pass that comes when their lease is over. Of these rows no sample is taken, and rows
that were not taken stay as they are. -/
theorem interrupted_pass (hp : p.repository = .store) (hfiled : Filed s.store.tables) :
    (∀ e, s.world.check c = .error e → p.process c conditions s = (.error (.context e), s) ∧
      ∀ journal, p.noting.process c conditions (s.noted journal) =
        (.error (.context e), s.noted journal)) ∧
    ∀ k row e, p.EndsDuring c conditions s k row e → ∃ calls marked after,
      let taken := p.taken (conditions.clock 0) s.store.tables
      p.process c conditions s = (.error (.context e), after) ∧
      (∀ journal, p.noting.process c conditions (s.noted journal) =
        (.error (.context e), after.noted (journal ++ calls.flatten))) ∧
      calls.length = k + 1 ∧ marked.length = k ∧
      p.Works conditions taken calls marked after.store.tables ∧
      (∃ report full, (p.limited k).process c conditions s = (.ok report, full) ∧
        ∀ r ∈ taken.take k, rowAt full.store.tables r.id = rowAt after.store.tables r.id) ∧
      (∀ r ∈ taken.drop k, ∃ locked, let waiting := { r with lockedUntil := locked }
        (p.config.lease = none → locked = r.lockedUntil) ∧
        (∀ lease, p.config.lease = some lease → locked = some ((conditions.clock 0).add lease)) ∧
        rowAt after.store.tables r.id = some waiting ∧
        ∀ (config : ProcessorConfig) now,
          (config.lease ≠ none → ∀ t, locked = some t → t ≤ now) →
            waiting ∈ queued (config.eligible now) after.store.tables) ∧
      (∀ id, id ∉ taken.map (·.id) → rowAt after.store.tables id = rowAt s.store.tables id) ∧
      after.world.samplesOf .outbox = s.world.samplesOf .outbox ++
        if p.measured then marked.map Row.sample else [] := by
  refine ⟨fun e hended => ?_, fun k row e h => ?_⟩
  · obtain ⟨hprocess, htrials⟩ := @process_of_ended σ p c conditions s e hended
    refine ⟨hprocess, fun journal => ?_⟩
    rw [process_noted, hprocess, htrials, List.flatMap_nil, List.append_nil]
  · obtain ⟨report, site, hat, hprocess, htrials⟩ := process_of_endsDuring hp hfiled h
    have hk : k < (p.held conditions s).length := (List.getElem?_eq_some_iff.1 h.found).1
    have hheld : p.held conditions s =
        (p.taken (conditions.clock 0) s.store.tables).map (p.hold (conditions.clock 0)) := rfl
    have hfull := limited_pass hp hfiled hat (Nat.le_of_lt hk) h.active
    refine ⟨((p.allTrials c conditions s).take (k + 1)).map Trial.calls,
      (p.allLeft c conditions s).take k, _, hprocess, fun journal => ?_, ?_, ?_,
      hat.works hfiled fun j hj => h.active j (Nat.le_of_lt_succ hj), ?_, fun r hr => ?_,
      fun id hid => ?_, ?_⟩
    · rw [process_noted, hprocess, htrials, List.flatMap_def]
    · rw [List.length_map, List.length_take, length_allTrials, Nat.min_eq_left hk]
    · rw [List.length_take, length_allLeft, Nat.min_eq_left (Nat.le_of_lt hk)]
    · obtain ⟨report', full, hlimited, hsame⟩ := hfull
      refine ⟨report', full, hlimited, fun r hr => ?_⟩
      have hmem : p.hold (conditions.clock 0) r ∈ (p.held conditions s).take k := by
        rw [hheld, ← List.map_take]
        exact List.mem_map_of_mem hr
      have hrow := hsame _ hmem
      rwa [id_hold] at hrow
    · obtain ⟨locked, hhold, hnone, hsome⟩ := hold_eq (p := p) (conditions.clock 0) r
      have hmem : p.hold (conditions.clock 0) r ∈ (p.held conditions s).drop k := by
        rw [hheld, ← List.map_drop]
        exact List.mem_map_of_mem hr
      have hwaiting := hat.tables.waiting _ hmem
      rw [hhold] at hwaiting
      refine ⟨locked, hnone, hsome, hwaiting, fun config now hfree => ?_⟩
      refine ((queue_queued hat.tables.filed _).mem _).2 ⟨hwaiting, ?_⟩
      exact ProcessorConfig.eligible_iff.2
        ⟨(of_mem_taken hfiled (List.mem_of_mem_drop hr)).2, hfree⟩
    · refine hat.tables.others id ?_
      rw [hheld, map_id_hold]
      exact hid
    · obtain ⟨hsamples, -⟩ :=
        p.samples_deliver (conditions.schedule k) row (h.active k (Nat.le_refl k))
      rw [hat.world, hsamples]
      exact (samples_worldAt (Nat.le_of_lt hk) fun j hj => h.active j (Nat.le_of_lt hj)).1

/-! ## A handler that quits -/

/-- A handler that ends the first context when it is called for the second time. -/
def quitter : EventHandler Nat where
  name := "quitter"
  accepts _ := true
  react _ _ s := ⟨.handled, if s.own = 1 then [0] else [], 0, s.own + 1⟩

/-- The second letter is not marked. -/
theorem interrupted_pass_letters :
    let p : Processor Store Transaction Nat :=
      ⟨.store, ⟨.sequential, false, [quitter]⟩, .json, true, ⟨10, none, some (.ofSeconds 30)⟩⟩
    let c : Context := ⟨0, .nil, none, .empty⟩
    let conditions : Conditions := ⟨fun _ => .epoch, fun _ => .inOrder⟩
    let s : Site Store Nat := ⟨letterBox, .start ⟨.none, 0, 0⟩⟩
    ∃ row, p.EndsDuring c conditions s 1 row .cancelled ∧
      ∃ after, p.process c conditions s = (.error (.context .cancelled), after) ∧
        (after.world.samplesOf .outbox).length = 1 := by
  intro p c conditions s
  let first : Row := (Row.pending ⟨1⟩ .epoch welcome welcome.serialize).claim .epoch (.ofSeconds 30)
  let second : Row :=
    (Row.pending ⟨4⟩ .epoch welcome welcome.serialize).claim .epoch (.ofSeconds 30)
  have hheld : p.held conditions s = [first, second] := by
    show ((queued (·.isClaimable .epoch) letterBox.tables).take 10).map _ = _
    rw [queued_letterBox]
    rfl
  have hfirst : (p.held conditions s)[0]? = some first := by
    rw [hheld]
    rfl
  have hends : p.EndsDuring c conditions s 1 second .cancelled := by
    refine ⟨by rw [hheld]; rfl, fun j hj => ?_, ?_⟩
    · rcases Nat.le_one_iff_eq_zero_or_eq_one.1 hj with rfl | rfl
      · rfl
      · rw [check_worldAt_succ hfirst]
        decide +kernel
    · rw [worldAt_succ hfirst]
      decide +kernel
  obtain ⟨calls, marked, after, hprocess, -, -, hlength, -, -, -, -, hsamples⟩ :=
    (interrupted_pass rfl filed_letterBox).2 1 second .cancelled hends
  refine ⟨second, hends, after, hprocess, ?_⟩
  rw [hsamples]
  show ([] ++ marked.map Row.sample).length = 1
  rw [List.nil_append, List.length_map, hlength]

end Processor

end Registrar.Outbox
