import Registrar.Outbox.Worker
import Registrar.Proofs.Outbox.Interruption

set_option autoImplicit false

/-! # Bursts

A worker makes passes until one gives it cause to wait. It goes on only after a pass that sent a
full batch, and what was sent is never taken again, so every such pass lowers the number of pending
rows by a batch (`Processor.Steps`). Hence a burst has at most as many passes as there are full
batches of pending rows, and one more (`Processor.burst_ends`). The most passes that the definition
of a burst allows are never used up. -/

namespace Registrar.Outbox

variable {σ : Type}

/-! ## What a pass can do -/

/-- An outbox whose rows can be read has each of them under its id. -/
def Sound (ts : Tables) : Prop := ∀ all, rows ts = .ok all → Filed ts

namespace Processor

variable {p : Processor Store Transaction σ} {c : Context} {conditions : Conditions}
  {s : Site Store σ}

/-- **The context of a pass has ended when the pass begins, stays active, or ends during it.** -/
theorem ended_or_unbroken_or_endsDuring (p : Processor Store Transaction σ) (c : Context)
    (conditions : Conditions) (s : Site Store σ) :
    (∃ e, s.world.check c = .error e) ∨ p.Unbroken c conditions s ∨
      ∃ k row e, p.EndsDuring c conditions s k row e := by
  -- The induction is on how many rows are known to have been dealt with under an active context.
  have hupTo : ∀ k ≤ (p.held conditions s).length, (∃ e, s.world.check c = .error e) ∨
      (∀ j ≤ k, (p.worldAt c conditions s j).check c = .ok ()) ∨
        ∃ k row e, p.EndsDuring c conditions s k row e := by
    intro k
    induction k with
    | zero =>
        intro _
        cases hcheck : s.world.check c with
        | error e => exact .inl ⟨e, rfl⟩
        | ok _ =>
            refine .inr (.inl fun j hj => ?_)
            obtain rfl := Nat.le_zero.1 hj
            exact hcheck
    | succ k ih =>
        intro hk
        rcases ih (Nat.le_of_succ_le hk) with hended | hactive | hends
        · exact .inl hended
        · have hrow := List.getElem?_eq_getElem hk
          cases hcheck : (p.worldAt c conditions s (k + 1)).check c with
          | error e =>
              rw [check_worldAt_succ hrow] at hcheck
              exact .inr (.inr ⟨k, _, e, hrow, hactive, hcheck⟩)
          | ok _ =>
              refine .inr (.inl fun j hj => ?_)
              rcases Nat.le_succ_iff.1 hj with hj | rfl
              · exact hactive j hj
              · exact hcheck
        · exact .inr (.inr hends)
  rcases hupTo _ (Nat.le_refl _) with hended | hactive | hends
  · exact .inl hended
  · exact .inr (.inl hactive)
  · exact .inr (.inr hends)

/-- **What a pass can do to an outbox**: rows that are not pending stay as they are, and it gives
pending rows a trial, each one at most. If the worker goes on after it, the trials sent a full
batch. -/
structure Steps (p : Processor Store Transaction σ) (before : Tables)
    (result : Except OutboxError Report) (trials : List (Trial σ)) (after : Tables) : Prop where
  sound : Sound after
  kept : ∀ id r, rowAt before id = some r → r.status ≠ .pending → rowAt after id = some r
  pending : ∀ t ∈ trials, ∃ r, rowAt before t.row.id = some r ∧ r.status = .pending
  nodup : (trials.map (·.row.id)).Nodup
  counted : ∀ report, result = .ok report →
    report.fetched = report.sent + report.failed + report.deadLettered
  sent : p.goesOn result = true →
    ∀ t ∈ trials, ∃ r, rowAt after t.row.id = some r ∧ r.status = .sent
  lowers : p.goesOn result = true → 0 < p.config.batchSize ∧
    (pendingRows after).length + p.config.batchSize ≤ (pendingRows before).length

/-- A pass that fails before it takes a row. -/
theorem Steps.of_failed {ts : Tables} (h : Sound ts) (e : OutboxError) :
    p.Steps ts (.error e) [] ts where
  sound := h
  kept := fun _ _ hr _ => hr
  pending := fun _ ht => by cases ht
  nodup := .nil
  counted := fun _ hreport => by cases hreport
  sent := fun hgoes => by cases hgoes
  lowers := fun hgoes => by cases hgoes

/-- A pass fails if the outbox cannot be read. -/
theorem process_of_unreadable (hp : p.repository = .store) {err : StoreError}
    (hrows : rows s.store.tables = .error err) :
    ∃ e, p.process c conditions s = (.error e, s) ∧ p.trials c conditions s = [] := by
  unfold process trials
  cases hcheck : s.world.check c with
  | error e => exact ⟨_, rfl, rfl⟩
  | ok _ =>
      have htake : ∃ e, p.takeRows c conditions s = (.error e, s) := by
        unfold takeRows
        rw [hp, hcheck]
        cases p.config.lease with
        | some lease =>
            have hclaim : claim p.config.batchSize lease (conditions.clock 0) s.store.tables =
                .error (.storage unexplained) := by simp only [claim, hrows]
            refine ⟨.storage unexplained, ?_⟩
            simp only [Repository.store, guardContext, hclaim, onTables]
        | none =>
            have hfetch : fetch .pending p.config.batchSize s.store.tables =
                .error (.ofStore err) := by
              rw [fetch, rowsWith, hrows]
              rfl
            exact ⟨.ofStore err, by simp only [Repository.store, guardContext, hfetch]⟩
      obtain ⟨e, htake⟩ := htake
      exact ⟨e, by simp only [htake], by simp only [htake]⟩

/-! ## The rows of a pass -/

theorem goesOn_iff {result : Except OutboxError Report} :
    p.goesOn result = true ↔ ∃ report, result = .ok report ∧ 0 < report.fetched ∧
      p.config.batchSize ≤ report.fetched ∧ report.sent = report.fetched := by
  cases result with
  | error e => simp [goesOn]
  | ok report => simp [goesOn, Report.isFullAndDelivered, and_assoc]

theorem map_row_allTrials : (p.allTrials c conditions s).map (·.row) = p.held conditions s := by
  rw [allTrials, List.map_map]
  exact List.zipIdx_map_fst 0 _

/-- A row that a pass takes is pending before. -/
theorem pending_of_mem_ids (hfiled : Filed s.store.tables) {id : Uuid}
    (h : id ∈ (p.held conditions s).map (·.id)) :
    ∃ r, rowAt s.store.tables id = some r ∧ r.status = .pending := by
  rw [held, map_id_hold] at h
  obtain ⟨r, hr, rfl⟩ := List.mem_map.1 h
  exact ⟨r, of_mem_taken hfiled hr⟩

/-- Where a pass sent all rows that it took, none of them is pending any more. -/
theorem length_pendingRows_of_sent (hfiled : Filed s.store.tables) {after : Tables}
    (hafter : Filed after)
    (hsent : ∀ id ∈ (p.held conditions s).map (·.id),
      ∃ r, rowAt after id = some r ∧ r.status = .sent)
    (hothers : ∀ id, id ∉ (p.held conditions s).map (·.id) →
      rowAt after id = rowAt s.store.tables id) :
    (pendingRows after).length + (p.held conditions s).length ≤
      (pendingRows s.store.tables).length := by
  let ids := (p.held conditions s).map (·.id)
  have hnot : ∀ id ∈ (pendingRows after).map (·.id), id ∉ ids := by
    intro id hid hmem
    obtain ⟨r, hr, rfl⟩ := List.mem_map.1 hid
    obtain ⟨hrow, hpending⟩ := (mem_pendingRows_iff hafter).1 hr
    obtain ⟨r', hrow', hsent'⟩ := hsent _ hmem
    obtain rfl := Option.some.inj (hrow.symm.trans hrow')
    cases hpending.symm.trans hsent'
  have hnodup : ((pendingRows after).map (·.id) ++ ids).Nodup :=
    List.nodup_append.2 ⟨nodup_pendingRows hafter, nodup_held p conditions hfiled,
      fun id hid id' hid' heq => hnot id hid (heq ▸ hid')⟩
  have hsubset :
      (pendingRows after).map (·.id) ++ ids ⊆ (pendingRows s.store.tables).map (·.id) := by
    intro id hid
    have hfound : ∃ r, rowAt s.store.tables id = some r ∧ r.status = .pending := by
      rcases List.mem_append.1 hid with hid | hid
      · have hother := hothers id (hnot id hid)
        obtain ⟨r, hr, rfl⟩ := List.mem_map.1 hid
        obtain ⟨hrow, hpending⟩ := (mem_pendingRows_iff hafter).1 hr
        exact ⟨r, hother.symm.trans hrow, hpending⟩
      · exact pending_of_mem_ids hfiled hid
    obtain ⟨r, hrow, hpending⟩ := hfound
    have hid := id_of_rowAt hfiled hrow
    exact List.mem_map.2
      ⟨r, (mem_pendingRows_iff hfiled).2 ⟨by rw [hid]; exact hrow, hpending⟩, hid⟩
  have hlength := (List.subperm_of_subset hnodup hsubset).length_le
  rwa [List.length_append, List.length_map, List.length_map, List.length_map] at hlength

/-- What a pass can do, from how far it came: it succeeds only if it came to the end of its rows. -/
theorem TablesAfter.steps {k m : Nat} {result : Except OutboxError Report} {after : Tables}
    (h : p.TablesAfter c conditions s k after) (hfiled : Filed s.store.tables)
    (hok : ∀ report, result = .ok report → k = (p.held conditions s).length ∧
      report = .ofMarked (p.held conditions s).length (p.allLeft c conditions s)) :
    p.Steps s.store.tables result ((p.allTrials c conditions s).take m) after := by
  have hrow : ∀ t ∈ (p.allTrials c conditions s).take m, t.row ∈ p.held conditions s :=
    fun t ht => by
    rw [← map_row_allTrials (c := c)]
    exact List.mem_map_of_mem (List.mem_of_mem_take ht)
  have hids : ((p.allTrials c conditions s).take m).map (·.row.id) =
      ((p.held conditions s).map (·.id)).take m := by
    rw [← map_row_allTrials (c := c), List.map_map, List.map_take]
    rfl
  -- After a full batch that was sent all rows are left as sent.
  have hallSent : p.goesOn result = true → (p.held conditions s).length = p.config.batchSize ∧
      0 < p.config.batchSize ∧ ∀ id ∈ (p.held conditions s).map (·.id),
        ∃ r, rowAt after id = some r ∧ r.status = .sent := by
    intro hgoes
    obtain ⟨report, hresult, hpos, hfull, hsent⟩ := goesOn_iff.1 hgoes
    obtain ⟨rfl, rfl⟩ := hok report hresult
    change 0 < (p.held conditions s).length at hpos
    change p.config.batchSize ≤ (p.held conditions s).length at hfull
    have hle : (p.held conditions s).length ≤ p.config.batchSize := length_held_le
    refine ⟨Nat.le_antisymm hle hfull, Nat.lt_of_lt_of_le hpos hle, fun id hid => ?_⟩
    have hstatus : ∀ r ∈ p.allLeft c conditions s, decide (r.status = .sent) = true :=
      List.countP_eq_length.1 (hsent.trans length_allLeft.symm)
    obtain ⟨row, hmem, rfl⟩ := List.mem_map.1 hid
    obtain ⟨i, hi⟩ := List.mem_iff_getElem?.1 hmem
    have hlt := (List.getElem?_eq_some_iff.1 hi).1
    have hleft := getElem?_allLeft (c := c) hi
    exact ⟨_, (h.settled i hlt row hi).trans hleft,
      of_decide_eq_true (hstatus _ (List.mem_of_getElem? hleft))⟩
  refine ⟨fun _ _ => h.filed, fun id r hr hnot => ?_, fun t ht => ?_, ?_, fun report hresult => ?_,
    fun hgoes t ht => ?_, fun hgoes => ?_⟩
  · refine (h.others id fun hmem => ?_).trans hr
    obtain ⟨r', hr', hpending⟩ := pending_of_mem_ids hfiled hmem
    obtain rfl := Option.some.inj (hr.symm.trans hr')
    exact hnot hpending
  · exact pending_of_mem_ids hfiled (List.mem_map_of_mem (hrow t ht))
  · rw [hids]
    exact (nodup_held p conditions hfiled).sublist (List.take_sublist _ _)
  · obtain ⟨-, rfl⟩ := hok report hresult
    show (p.held conditions s).length = _
    rw [← length_allLeft (c := c)]
    exact length_eq_countP_status _
  · exact (hallSent hgoes).2.2 _ (List.mem_map_of_mem (hrow t ht))
  · obtain ⟨hlength, hpos, hsent⟩ := hallSent hgoes
    refine ⟨hpos, ?_⟩
    rw [← hlength]
    exact length_pendingRows_of_sent hfiled h.filed hsent h.others

/-- **What a pass can do**, whatever becomes of its context. -/
theorem process_steps (hp : p.repository = .store) (hsound : Sound s.store.tables) :
    p.Steps s.store.tables (p.process c conditions s).1 (p.trials c conditions s)
      (p.process c conditions s).2.store.tables := by
  cases hrows : rows s.store.tables with
  | error err =>
      obtain ⟨e, hprocess, htrials⟩ := @process_of_unreadable σ p c conditions s hp err hrows
      rw [hprocess, htrials]
      exact .of_failed hsound e
  | ok all =>
      have hfiled := hsound all hrows
      rcases p.ended_or_unbroken_or_endsDuring c conditions s with
        ⟨e, hended⟩ | hunbroken | ⟨k, row, e, hends⟩
      · obtain ⟨hprocess, htrials⟩ := @process_of_ended σ p c conditions s e hended
        rw [hprocess, htrials]
        exact .of_failed hsound _
      · obtain ⟨report, after, hprocess, htrials, h⟩ := process_of_unbroken hp hfiled hunbroken
        have hreport := h.report_eq hfiled (Nat.le_refl _) fun j hj => hunbroken j (Nat.le_of_lt hj)
        rw [List.take_of_length_le (Nat.le_of_eq length_allLeft)] at hreport
        rw [hprocess, htrials, ← List.take_length (l := p.allTrials c conditions s)]
        exact h.tables.steps hfiled fun report' hok => ⟨rfl, Except.ok.inj hok ▸ hreport⟩
      · obtain ⟨report, site, hat, hprocess, htrials⟩ := process_of_endsDuring hp hfiled hends
        rw [hprocess, htrials]
        exact hat.tables.steps hfiled nofun

/-! ## One pass after another -/

section

variable {S T : Type} (p : Processor S T σ) (turns : Nat → Turn) (asked : Nat → Bool) (s : Site S σ)

/-- What pass number `k` finds if the worker makes so many. -/
def siteAt : Nat → Site S σ
  | 0 => s
  | k + 1 => (p.processAfresh (turns k) (siteAt k)).2

/-- What pass number `k` answers. -/
def resultAt (k : Nat) : Except OutboxError Report :=
  (p.processAfresh (turns k) (p.siteAt turns s k)).1

/-- **A burst has `n` passes**: the first is made unless the worker was asked to stop before, and
another after a pass if the worker goes on and was not asked to stop. -/
structure Lasting (n : Nat) : Prop where
  starts : 0 < n ↔ asked 0 = false
  goes : ∀ k < n, k + 1 < n ↔ p.goesOn (p.resultAt turns s k) = true ∧ asked (k + 1) = false

variable {p turns asked s}

/-- A burst is the passes that it has, if that many are allowed. -/
theorem passes_of_lasting {n : Nat} (h : p.Lasting turns asked s n) :
    ∀ most m : Nat, n ≤ m + most → (m < n ∨ m = n ∧ asked n = true) →
      p.passes turns asked m most (p.siteAt turns s m) =
        ((List.range' m (n - m)).map (p.resultAt turns s), p.siteAt turns s n) := by
  intro most
  induction most with
  | zero =>
      intro m hn hm
      obtain rfl : m = n := by omega
      rw [Nat.sub_self]
      rfl
  | succ most ih =>
      intro m hn hm
      rcases hm with hm | ⟨rfl, hasked⟩
      · have hnot : asked m = false := by
          cases m with
          | zero => exact h.starts.1 hm
          | succ k => exact ((h.goes k (Nat.lt_of_succ_lt hm)).1 hm).2
        have hrange : List.range' m (n - m) = m :: List.range' (m + 1) (n - (m + 1)) := by
          rw [show n - m = n - (m + 1) + 1 by omega, List.range'_succ]
        rw [passes, if_neg (by simp [hnot]), hrange, List.map_cons]
        cases hgoes : p.goesOn (p.resultAt turns s m) with
        | false =>
            obtain rfl : n = m + 1 := by
              have hlast : ¬ m + 1 < n := fun hlt => by
                rw [((h.goes m hm).1 hlt).1] at hgoes
                cases hgoes
              omega
            change p.goesOn (p.processAfresh (turns m) (p.siteAt turns s m)).1 = false at hgoes
            simp only [hgoes, Bool.false_eq_true, if_false, Nat.sub_self]
            rfl
        | true =>
            have hnext := ih (m + 1) (by omega) (by
              by_cases hlt : m + 1 < n
              · exact .inl hlt
              · obtain rfl : m + 1 = n := by omega
                refine .inr ⟨rfl, ?_⟩
                by_contra hasked
                exact hlt ((h.goes m hm).2 ⟨hgoes, by simpa using hasked⟩))
            change p.goesOn (p.processAfresh (turns m) (p.siteAt turns s m)).1 = true at hgoes
            simp only [hgoes, if_true]
            change p.passes turns asked (m + 1) most
                (p.processAfresh (turns m) (p.siteAt turns s m)).2 = _
              at hnext
            rw [hnext]
            rfl
      · rw [passes, if_pos hasked, Nat.sub_self]
        rfl

end

/-- A burst has some number of passes if not all of these are followed by another. -/
theorem exists_lasting {S T : Type} {p : Processor S T σ} {turns : Nat → Turn} (asked : Nat → Bool)
    {s : Site S σ} {most : Nat} (h : ∃ k ≤ most, p.goesOn (p.resultAt turns s k) = false) :
    ∃ n ≤ most + 1, p.Lasting turns asked s n := by
  -- The burst is over where the worker was asked to stop, or before which it did not go on.
  let Stops : Nat → Prop := fun n =>
    asked n = true ∨ ∃ k, n = k + 1 ∧ p.goesOn (p.resultAt turns s k) = false
  have hstops : ∃ n, Stops n ∧ n ≤ most + 1 := by
    obtain ⟨k, hk, hwaits⟩ := h
    exact ⟨k + 1, .inr ⟨k, rfl, hwaits⟩, Nat.succ_le_succ hk⟩
  classical
  obtain ⟨hn, hle⟩ := Nat.find_spec hstops
  have hbefore : ∀ k < Nat.find hstops, ¬ Stops k := fun k hk hk' =>
    Nat.find_min hstops hk ⟨hk', Nat.le_trans (Nat.le_of_lt hk) hle⟩
  refine ⟨Nat.find hstops, hle, ⟨fun hpos => ?_, fun hasked => ?_⟩,
    fun k hk => ⟨fun hlt => ?_, fun hgoes => ?_⟩⟩
  · by_contra hasked
    exact hbefore 0 hpos (.inl (by simpa using hasked))
  · refine Nat.pos_of_ne_zero fun hzero => ?_
    rcases hn with hn | ⟨k, hn, -⟩
    · rw [hzero, hasked] at hn
      cases hn
    · omega
  · have hnot := hbefore (k + 1) hlt
    constructor
    · by_contra hgoes
      exact hnot (.inr ⟨k, rfl, by simpa using hgoes⟩)
    · by_contra hasked
      exact hnot (.inl (by simpa using hasked))
  · refine Nat.lt_of_le_of_ne hk fun heq => ?_
    rw [← heq] at hn
    rcases hn with hn | ⟨j, hj, hn⟩
    · rw [hgoes.2] at hn
      cases hn
    · obtain rfl := Nat.succ.inj hj
      rw [hgoes.1] at hn
      cases hn

/-! ## A burst in the store -/

/-- The context of a pass that begins, and its site. -/
def fresh (turn : Turn) (s : Site Store σ) : Context × Site Store σ :=
  let (context, signals) := Context.create turn.correlation s.world.scene.signals
  (context, { s with world := { s.world with scene := { s.world.scene with signals } } })

variable {p : Processor Store Transaction σ} {turns : Nat → Turn} {asked : Nat → Bool}
  {s : Site Store σ}

/-- The trials of pass number `k`. -/
def trialsAt (p : Processor Store Transaction σ) (turns : Nat → Turn) (s : Site Store σ) (k : Nat) :
    List (Trial σ) :=
  let (context, site) := fresh (turns k) (p.siteAt turns s k)
  p.trials context (turns k).conditions site

/-- What pass number `k` can do. -/
theorem steps_at (hp : p.repository = .store) (hsound : Sound s.store.tables) (k : Nat) :
    p.Steps (p.siteAt turns s k).store.tables (p.resultAt turns s k) (p.trialsAt turns s k)
      (p.siteAt turns s (k + 1)).store.tables := by
  have hstep : ∀ k, Sound (p.siteAt turns s k).store.tables →
      p.Steps (p.siteAt turns s k).store.tables (p.resultAt turns s k) (p.trialsAt turns s k)
        (p.siteAt turns s (k + 1)).store.tables := fun k hk =>
    process_steps (c := (fresh (turns k) (p.siteAt turns s k)).1)
      (s := (fresh (turns k) (p.siteAt turns s k)).2) hp hk
  have hsite : Sound (p.siteAt turns s k).store.tables := by
    induction k with
    | zero => exact hsound
    | succ k ih => exact (hstep k ih).sound
  exact hstep k hsite

/-- **Every pass after which the worker goes on lowers what is pending by a batch.** -/
theorem lowers_of_goesOn (hp : p.repository = .store) (hsound : Sound s.store.tables) {k : Nat}
    (hgoes : ∀ j < k, p.goesOn (p.resultAt turns s j) = true) :
    (pendingRows (p.siteAt turns s k).store.tables).length + k * p.config.batchSize ≤
      (pendingRows s.store.tables).length := by
  induction k with
  | zero => simp [siteAt]
  | succ k ih =>
      have hbefore := ih fun j hj => hgoes j (Nat.lt_succ_of_lt hj)
      have hlowers := ((steps_at hp hsound k).lowers (hgoes k (Nat.lt_succ_self k))).2
      rw [Nat.succ_mul]
      omega

/-- The worker waits after a pass that finds less than a batch, if not before. -/
theorem exists_waits (hp : p.repository = .store) (hsound : Sound s.store.tables)
    (turns : Nat → Turn) :
    ∃ k ≤ (pendingRows s.store.tables).length / p.config.batchSize,
      p.goesOn (p.resultAt turns s k) = false := by
  by_contra hnone
  have hgoes : ∀ j < (pendingRows s.store.tables).length / p.config.batchSize + 1,
      p.goesOn (p.resultAt turns s j) = true := fun j hj => by
    by_contra hwaits
    exact hnone ⟨j, Nat.le_of_lt_succ hj, by simpa using hwaits⟩
  have hlowers := lowers_of_goesOn hp hsound hgoes
  have hpos := ((steps_at hp hsound 0).lowers (hgoes 0 (Nat.succ_pos _))).1
  have hlt := Nat.lt_mul_div_succ (pendingRows s.store.tables).length hpos
  rw [Nat.mul_comm] at hlt
  omega

/-- A row that is not pending any more stays as it is. -/
theorem rowAt_siteAt (hp : p.repository = .store) (hsound : Sound s.store.tables) {i k : Nat}
    (hik : i ≤ k) {id : Uuid} {r : Row} (hr : rowAt (p.siteAt turns s i).store.tables id = some r)
    (hdone : r.status ≠ .pending) : rowAt (p.siteAt turns s k).store.tables id = some r := by
  induction k, hik using Nat.le_induction with
  | base => exact hr
  | succ k _ ih => exact (steps_at hp hsound k).kept id r ih hdone

/-- **No row is tried twice in a burst.** -/
theorem nodup_trials (hp : p.repository = .store) (hsound : Sound s.store.tables) {n : Nat}
    (h : p.Lasting turns asked s n) :
    (((List.range n).flatMap (p.trialsAt turns s)).map (·.row.id)).Nodup := by
  rw [List.map_flatMap, List.nodup_flatMap]
  refine ⟨fun k _ => (steps_at hp hsound k).nodup, ?_⟩
  refine (List.pairwise_lt_range).imp_of_mem fun {i j} _ hj hij => ?_
  -- What the earlier pass tried it sent, and the later one takes what is pending.
  refine List.disjoint_left.2 fun id hi hj' => ?_
  obtain ⟨t, ht, rfl⟩ := List.mem_map.1 hi
  obtain ⟨t', ht', hid⟩ := List.mem_map.1 hj'
  have hlt : i + 1 < n := Nat.lt_of_le_of_lt hij (List.mem_range.1 hj)
  have hgoes := ((h.goes i (Nat.lt_of_succ_lt hlt)).1 hlt).1
  obtain ⟨r, hr, hsent⟩ := (steps_at hp hsound i).sent hgoes t ht
  obtain ⟨r', hr', hpending⟩ := (steps_at hp hsound j).pending t' ht'
  have hlater := rowAt_siteAt hp hsound hij hr (by simp [hsent])
  rw [← hid, hr'] at hlater
  rw [Option.some.inj hlater, hsent] at hpending
  cases hpending

/-! ### The journal of a burst -/

theorem processAfresh_noted (p : Processor Store Transaction σ) (turn : Turn) (s : Site Store σ)
    (journal : List (Heard σ)) :
    p.noting.processAfresh turn (s.noted journal) =
      ((p.processAfresh turn s).1, (p.processAfresh turn s).2.noted
        (journal ++
          (p.trials (fresh turn s).1 turn.conditions (fresh turn s).2).flatMap (·.calls))) :=
  p.process_noted (fresh turn s).1 turn.conditions (fresh turn s).2 journal

/-- **A burst goes the same when handlers keep a journal**, and the journal holds the calls of its
trials. -/
theorem siteAt_noted (p : Processor Store Transaction σ) (turns : Nat → Turn) (s : Site Store σ)
    (journal : List (Heard σ)) (k : Nat) :
    p.noting.siteAt turns (s.noted journal) k = (p.siteAt turns s k).noted
      (journal ++ ((List.range k).flatMap (p.trialsAt turns s)).flatMap (·.calls)) := by
  induction k with
  | zero => rw [List.range_zero, List.flatMap_nil, List.flatMap_nil, List.append_nil]; rfl
  | succ k ih =>
      rw [siteAt, ih, processAfresh_noted, List.range_succ, List.flatMap_append,
        List.flatMap_append, ← List.append_assoc, List.flatMap_singleton]
      rfl

theorem resultAt_noted (p : Processor Store Transaction σ) (turns : Nat → Turn) (s : Site Store σ)
    (journal : List (Heard σ)) (k : Nat) :
    p.noting.resultAt turns (s.noted journal) k = p.resultAt turns s k := by
  rw [resultAt, siteAt_noted, processAfresh_noted]
  rfl

theorem Lasting.noted {n : Nat} (h : p.Lasting turns asked s n) (journal : List (Heard σ)) :
    p.noting.Lasting turns asked (s.noted journal) n where
  starts := h.starts
  goes := fun k hk => by
    rw [resultAt_noted]
    exact h.goes k hk

theorem burst_of_lasting {T : Type} {p : Processor Store T σ} {s : Site Store σ} {n : Nat}
    (h : p.Lasting turns asked s n) (hn : n ≤ (s.store.tables.table tableName).size + 1) :
    p.burst turns asked s = ((List.range n).map (p.resultAt turns s), p.siteAt turns s n) := by
  have hstarts : 0 < n ∨ 0 = n ∧ asked n = true := by
    rcases Nat.eq_zero_or_pos n with rfl | hpos
    · refine .inr ⟨rfl, ?_⟩
      by_contra hasked
      exact Nat.lt_irrefl 0 (h.starts.2 (by simpa using hasked))
    · exact .inl hpos
  have hpasses :=
    passes_of_lasting h ((s.store.tables.table tableName).size + 1) 0 (by omega) hstarts
  rw [Nat.sub_zero, ← List.range_eq_range'] at hpasses
  exact hpasses

/-- **A burst ends.** From any outbox the worker makes at most as many passes before it waits or
stops as there are full batches of pending rows, and one more; only one if its batches are empty. It
goes on exactly after a pass that succeeded, took a full batch of at least one row and sent all of
it, unless it was asked to stop meanwhile. So a pass that failed, or after which a row has to be
tried again or was given up, is the last one, and no row is tried twice: the calls of handlers
during the burst are those of the trials, of different rows all. -/
theorem burst_ends (hp : p.repository = .store) (hsound : Sound s.store.tables) (turns : Nat → Turn)
    (asked : Nat → Bool) :
    ∃ n ≤ (pendingRows s.store.tables).length / p.config.batchSize + 1,
      let trials := (List.range n).flatMap (p.trialsAt turns s)
      p.burst turns asked s = ((List.range n).map (p.resultAt turns s), p.siteAt turns s n) ∧
      (0 < n ↔ asked 0 = false) ∧
      (∀ k < n, k + 1 < n ↔
        (∃ report, p.resultAt turns s k = .ok report ∧ 0 < report.fetched ∧
          p.config.batchSize ≤ report.fetched ∧ report.sent = report.fetched) ∧
        asked (k + 1) = false) ∧
      (∀ k < n, ((∃ e, p.resultAt turns s k = .error e) ∨ ∃ report,
        p.resultAt turns s k = .ok report ∧ (0 < report.failed ∨ 0 < report.deadLettered)) →
          k + 1 = n) ∧
      (trials.map (·.row.id)).Nodup ∧
      (∀ journal, p.noting.burst turns asked (s.noted journal) =
        ((p.burst turns asked s).1,
          (p.burst turns asked s).2.noted (journal ++ trials.flatMap (·.calls)))) ∧
      Sound (p.burst turns asked s).2.store.tables := by
  obtain ⟨n, hn, h⟩ := exists_lasting asked (exists_waits hp hsound turns)
  have hfuel : n ≤ (s.store.tables.table tableName).size + 1 :=
    Nat.le_trans hn (Nat.succ_le_succ (Nat.le_trans (Nat.div_le_self _ _) (length_queued_le _ _)))
  have hburst := burst_of_lasting h hfuel
  refine ⟨n, hn, hburst, h.starts, fun k hk => ?_, fun k hk hleft => ?_, nodup_trials hp hsound h,
    fun journal => ?_, ?_⟩
  · rw [← goesOn_iff]
    exact h.goes k hk
  · refine Nat.le_antisymm hk (Nat.le_of_not_lt fun hlt => ?_)
    obtain ⟨report, hreport, -, -, hsent⟩ := goesOn_iff.1 ((h.goes k hk).1 hlt).1
    rcases hleft with ⟨e, herror⟩ | ⟨report', hreport', hleft⟩
    · cases hreport.symm.trans herror
    · obtain rfl := Except.ok.inj (hreport.symm.trans hreport')
      have hcounted := (steps_at hp hsound k).counted report hreport
      omega
  · have hnoted := burst_of_lasting (h.noted journal) hfuel
    rw [hnoted, hburst, siteAt_noted,
      List.map_congr_left fun k _ => resultAt_noted p turns s journal k]
  · rw [hburst]
    cases n with
    | zero => exact hsound
    | succ n => exact (steps_at hp hsound n).sound

/-- A handler that handles everything. -/
def reader : EventHandler Unit where
  name := "reader"
  accepts _ := true
  react _ _ s := ⟨.handled, [], 0, s.own⟩

/-- Two letters are delivered one by one, in three passes at most. -/
theorem burst_ends_letters :
    let p : Processor Store Transaction Unit :=
      ⟨.store, ⟨.sequential, false, [reader]⟩, .json, false, ⟨1, none, some (.ofSeconds 30)⟩⟩
    let turns : Nat → Turn := fun _ => ⟨.nil, fun _ => .epoch, fun _ => .inOrder⟩
    let s : Site Store Unit := ⟨letterBox, .start ⟨.none, 0, ()⟩⟩
    Sound s.store.tables ∧ ∃ n ≤ 3, 0 < n ∧
      p.burst turns (fun _ => false) s =
        ((List.range n).map (p.resultAt turns s), p.siteAt turns s n) ∧
      (((List.range n).flatMap (p.trialsAt turns s)).map (·.row.id)).Nodup := by
  intro p turns s
  have hsound : Sound s.store.tables := fun _ _ => filed_letterBox
  obtain ⟨n, hn, hburst, hstarts, -, -, hnodup, -, -⟩ :=
    burst_ends (p := p) (s := s) rfl hsound turns fun _ => false
  have hpending : (pendingRows letterBox.tables).length = 2 := by
    rw [pendingRows, (Row.oldestFirst_perm _).length_eq]
    decide +kernel
  have hmost : n ≤ 3 := by
    rw [show (pendingRows s.store.tables).length = 2 from hpending] at hn
    exact Nat.le_trans hn (by decide)
  exact ⟨hsound, n, hmost, hstarts.2 rfl, hburst, hnodup⟩

end Processor

end Registrar.Outbox
