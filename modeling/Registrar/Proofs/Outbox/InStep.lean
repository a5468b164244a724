import Registrar.Outbox.Processor
import Registrar.Outbox.Writer
import Registrar.Proofs.InStep
import Registrar.Proofs.Store.Twins

set_option autoImplicit false

/-! # Passes in step

A pass looks at the state through the operations of its repository alone. So if these are in step on
related states, passes are: they hand handlers the same events, take the same samples and report the
same (`Processor.process_inStep`). The outbox of a store is such a repository wherever the rows of
its own table are related only to themselves (`Repository.store_respects`): whatever differs in
other tables stays out of every pass. -/

namespace Registrar.Outbox

variable {S T σ : Type}

/-! ## Passes -/

/-- The operations that passes make of a repository are in step on related states. -/
structure Repository.Respects (repository : Repository S T) (R : S → S → Prop) : Prop where
  fetchPending : ∀ context limit {s s'}, R s s' →
    repository.fetchPending context limit s = repository.fetchPending context limit s'
  claimPending : ∀ context limit lease now {s s'}, R s s' → InStep R
    (repository.claimPending context limit lease now s)
    (repository.claimPending context limit lease now s')
  markSent : ∀ context id now {s s'}, R s s' →
    InStep R (repository.markSent context id now s) (repository.markSent context id now s')
  markFailed : ∀ context id error now {s s'}, R s s' → InStep R
    (repository.markFailed context id error now s) (repository.markFailed context id error now s')
  deadLetter : ∀ context id {s s'}, R s s' →
    InStep R (repository.deadLetter context id s) (repository.deadLetter context id s')

/-- Sites with related states in the same world. -/
inductive Site.Twins (R : S → S → Prop) : Site S σ → Site S σ → Prop
  | intro {s s' : S} (h : R s s') (world : World σ) : Twins R ⟨s, world⟩ ⟨s', world⟩

namespace Processor

variable {R : S → S → Prop} {p : Processor S T σ} {s s' : Site S σ}

theorem note_twins (hs : s.Twins R s') (row : Row) (result : String) :
    (p.note row result s).Twins R (p.note row result s') := by
  obtain ⟨h, world⟩ := hs
  unfold note
  split
  · exact ⟨h, _⟩
  · exact ⟨h, world⟩

theorem takeRows_inStep (hp : p.repository.Respects R) (c : Context) (conditions : Conditions)
    (hs : s.Twins R s') :
    InStep (Site.Twins R) (p.takeRows c conditions s) (p.takeRows c conditions s') := by
  obtain ⟨h, world⟩ := hs
  unfold takeRows
  cases p.config.lease with
  | none => exact ⟨hp.fetchPending _ _ h, ⟨h, world⟩⟩
  | some lease =>
      have hclaim := hp.claimPending (world.check c) p.config.batchSize lease (conditions.clock 0) h
      exact ⟨hclaim.answer, ⟨hclaim.left, world⟩⟩

theorem settleDelivered_inStep (hp : p.repository.Respects R) (c : Context) (now : Reading)
    (row : Row) (r : Report) (hs : s.Twins R s') :
    InStep (Site.Twins R) (p.settleDelivered c now row r s) (p.settleDelivered c now row r s') := by
  obtain ⟨h, world⟩ := hs
  obtain ⟨marked, t, t', ht, ht', hleft⟩ := (hp.markSent (world.check c) row.id now h).spread
  simp only [settleDelivered, ht, ht']
  cases marked with
  | error e => exact .still ⟨hleft, world⟩ _
  | ok _ => exact .still (note_twins ⟨hleft, world⟩ row "sent") _

theorem settleFailed_inStep (hp : p.repository.Respects R) (c : Context) (now : Reading)
    (row : Row) (reason : String) (r : Report) (hs : s.Twins R s') :
    InStep (Site.Twins R) (p.settleFailed c now row reason r s)
      (p.settleFailed c now row reason r s') := by
  obtain ⟨h, world⟩ := hs
  obtain ⟨attempts, t, t', ht, ht', hleft⟩ :=
    (hp.markFailed (world.check c) row.id reason now h).spread
  simp only [settleFailed, ht, ht']
  cases attempts with
  | error e => exact .still ⟨hleft, world⟩ _
  | ok attempts =>
      simp only
      split
      · obtain ⟨given, u, u', hu, hu', hgiven⟩ :=
          (hp.deadLetter (world.check c) row.id hleft).spread
        simp only [hu, hu']
        cases given with
        | error e => exact .still ⟨hgiven, world⟩ _
        | ok _ => exact .still (note_twins ⟨hgiven, world⟩ row "dead_letter") _
      · exact .still (note_twins ⟨hleft, world⟩ row "retry") _

theorem settle_inStep (hp : p.repository.Respects R) (c : Context) (conditions : Conditions)
    (i : Nat) (row : Row) (r : Report) (hs : s.Twins R s') :
    InStep (Site.Twins R) (p.settle c conditions i row r s) (p.settle c conditions i row r s') := by
  obtain ⟨h, world⟩ := hs
  simp only [settle]
  cases world.check c with
  | error e => exact .still ⟨h, world⟩ _
  | ok _ =>
      -- The row is delivered before the state is looked at again.
      obtain ⟨delivery, after⟩ := p.deliver c (conditions.schedule i) row world
      cases delivery with
      | delivered => exact settleDelivered_inStep hp c _ row r ⟨h, after⟩
      | interrupted e => exact .still ⟨h, after⟩ _
      | failed reason => exact settleFailed_inStep hp c _ row reason r ⟨h, after⟩

theorem settleAll_inStep (hp : p.repository.Respects R) (c : Context) (conditions : Conditions)
    (rows : List Row) (i : Nat) (r : Report) (hs : s.Twins R s') :
    InStep (Site.Twins R) (p.settleAll c conditions i rows r s)
      (p.settleAll c conditions i rows r s') := by
  induction rows generalizing i r s s' with
  | nil => exact .still hs _
  | cons row rows ih =>
      obtain ⟨settled, t, t', ht, ht', hleft⟩ := (settle_inStep hp c conditions i row r hs).spread
      simp only [settleAll, ht, ht']
      cases settled with
      | error e => exact .still hleft _
      | ok r => exact ih (i + 1) r hleft

/-- **Passes over related states are in step**, in any world: the report is the same, and so are
the world and with it all that handlers were given. -/
theorem process_inStep (hp : p.repository.Respects R) (c : Context) (conditions : Conditions)
    (hs : s.Twins R s') :
    InStep (Site.Twins R) (p.process c conditions s) (p.process c conditions s') := by
  have hcheck : s.world.check c = s'.world.check c := by
    obtain ⟨_, _⟩ := hs
    rfl
  unfold process
  rw [← hcheck]
  cases s.world.check c with
  | error e => exact .still hs _
  | ok _ =>
      obtain ⟨rows, t, t', ht, ht', hleft⟩ := (takeRows_inStep hp c conditions hs).spread
      simp only [ht, ht']
      cases rows with
      | error e => exact .still hleft _
      | ok rows => exact settleAll_inStep hp c conditions rows 0 _ hleft

end Processor

/-! ## The outbox of a store -/

section Store

variable {R : String → Json → Json → Prop}

/-- The rows of the outbox are related exactly to themselves. -/
def Plain (R : String → Json → Json → Prop) : Prop :=
  ∀ {row row'}, R tableName row row' ↔ row = row'

/-- Operations that give the same answer and leave twin tables. -/
abbrev SameMove (R : String → Json → Json → Prop) {α : Type} :
    Except OutboxError (α × Tables) → Except OutboxError (α × Tables) → Prop :=
  SameResult (InStep (Tables.Twins R))

theorem onTables_inStep {s s' : Store} (hs : s.Twins R s') {α : Type}
    {moved moved' : Except OutboxError (α × Tables)} (h : SameMove R moved moved') :
    InStep (Store.Twins R) (onTables s moved) (onTables s' moved') := by
  cases h with
  | error e => exact .still hs _
  | ok hm => exact ⟨congrArg Except.ok hm.answer, hs.with_tables hm.left⟩

theorem guardContext_same {α : Type} {Q : α → α → Prop} (context : Except ContextError Unit)
    {go go' : Except OutboxError α} (h : SameResult Q go go') :
    SameResult Q (guardContext context go) (guardContext context go') := by
  cases context with
  | error e => exact .error _
  | ok _ => exact h

variable {ts ts' : Tables}

theorem row?_outbox_eq (hR : Plain R) (h : ts.Twins R ts') (key : String) :
    ts.row? tableName key = ts'.row? tableName key :=
  congrArg (·.get? key) (h.table_eq hR.1)

theorem rows_eq (hR : Plain R) (h : ts.Twins R ts') : rows ts = rows ts' := by
  unfold rows Tables.scan
  rw [h.table_eq hR.1]

theorem storeRows_twins (hR : Plain R) (h : ts.Twins R ts') (rs : List Row) :
    (storeRows rs ts).Twins R (storeRows rs ts') := by
  induction rs generalizing ts ts' with
  | nil => exact h
  | cons r rs ih => exact ih (h.set r.id.text (hR.2 rfl))

theorem claim_same (hR : Plain R) (h : ts.Twins R ts') (limit : Nat) (lease : Duration)
    (now : Reading) : SameMove R (claim limit lease now ts) (claim limit lease now ts') := by
  unfold claim
  rw [rows_eq hR h]
  cases rows ts' with
  | error e => exact .error _
  | ok all => exact .ok (.still (storeRows_twins hR h _) _)

/-- What is put back under a key of the outbox depends on the row that was there. -/
theorem modify_same (hR : Plain R) (h : ts.Twins R ts') {α β : Type} (read : Json → Option α)
    (write : α → Json) (key : String) (change : α → Except OutboxError (β × α)) :
    SameMove R (ts.modify read write OutboxError.ofStore tableName key change)
      (ts'.modify read write OutboxError.ofStore tableName key change) := by
  unfold Tables.modify
  rw [row?_outbox_eq hR h]
  cases ts'.row? tableName key with
  | none => exact .ok (.still h none)
  | some row =>
      refine (SameResult.self _).bind ?_
      rintro a _ rfl
      refine (SameResult.self _).bind ?_
      rintro ⟨b, a⟩ _ rfl
      exact .ok (.still (h.set key (hR.2 rfl)) _)

theorem move_same (hR : Plain R) (h : ts.Twins R ts') {α : Type} (id : Uuid)
    (step : Row → Except BadMove Row) (answer : Row → α) :
    SameMove R (move id step answer ts) (move id step answer ts') := by
  refine (modify_same hR h ..).bind fun hm => ?_
  obtain ⟨found, t, t', rfl, rfl, hleft⟩ := hm.spread
  cases found with
  | none => exact .error _
  | some a => exact .ok (.still hleft a)

/-! ### Writing -/

theorem insertRow_inStep (hR : Plain R) {s s' : Store} (hs : s.Twins R s') {tx tx' : Transaction}
    (htx : tx.Twins R tx') (context : Except ContextError Unit) (r : Row) :
    InStep (Transaction.Open R) (insertRow context r s (some tx))
      (insertRow context r s' (some tx')) := by
  cases context with
  | error e => exact .still ⟨htx⟩ _
  | ok _ =>
      have hrow : R tableName r.toJson.canonical r.toJson.canonical := hR.2 rfl
      rcases (htx.insert hs.tables r.id.text hrow).either with
        ⟨e, he, he'⟩ | ⟨_, _, hstaged, hstaged', hleft⟩
      · simp only [insertRow, he, he']
        exact .still ⟨htx⟩ _
      · simp only [insertRow, hstaged, hstaged']
        exact .still ⟨hleft⟩ _

/-- The same events are staged in step. -/
theorem writeFrom_inStep (hR : Plain R) (serializer : Serializer) {s s' : Store}
    (hs : s.Twins R s') (watch : Watch) (stamps : Nat → Stamp) (events : List Event) (n : Nat)
    {tx tx' : Transaction} (htx : tx.Twins R tx') :
    InStep (Transaction.Open R)
      (writeFrom serializer .store watch stamps s n events (some tx))
      (writeFrom serializer .store watch stamps s' n events (some tx')) := by
  induction events generalizing n tx tx' with
  | nil => exact .still ⟨htx⟩ _
  | cons e events ih =>
      unfold writeFrom
      cases serializer.serialize e with
      | error err => exact .still ⟨htx⟩ _
      | ok payload =>
          obtain ⟨inserted, _, _, ht, ht', ⟨hleft⟩⟩ := (insertRow_inStep hR hs htx (watch n)
            (.pending (stamps n).id (stamps n).now e payload)).spread
          simp only [Repository.store, ht, ht']
          cases inserted with
          | error err => exact .still ⟨hleft⟩ _
          | ok _ => exact ih (n + 1) hleft

theorem write_inStep (hR : Plain R) (serializer : Serializer) {s s' : Store} (hs : s.Twins R s')
    (watch : Watch) (stamps : Nat → Stamp) (events : List Event) {tx tx' : Transaction}
    (htx : tx.Twins R tx') :
    InStep (Transaction.Open R) (write serializer .store watch stamps events s (some tx))
      (write serializer .store watch stamps events s' (some tx')) := by
  have hwritten := writeFrom_inStep hR serializer hs watch stamps events 0 htx
  exact ⟨congrArg (Except.map fun _ => events.length) hwritten.answer, hwritten.left⟩

/-! ### Passing -/

/-- **The outbox of a store does not look at other tables.** -/
theorem Repository.store_respects (hR : Plain R) :
    Repository.store.Respects (Store.Twins R) where
  fetchPending context limit s s' hs := by
    show guardContext context (fetch .pending limit s.tables) =
      guardContext context (fetch .pending limit s'.tables)
    unfold fetch rowsWith
    rw [rows_eq hR hs.tables]
  claimPending context limit lease now s s' hs :=
    onTables_inStep hs (guardContext_same context (claim_same hR hs.tables limit lease now))
  markSent context id now s s' hs :=
    onTables_inStep hs (guardContext_same context (move_same hR hs.tables id _ _))
  markFailed context id error now s s' hs :=
    onTables_inStep hs (guardContext_same context (move_same hR hs.tables id _ _))
  deadLetter context id s s' hs :=
    onTables_inStep hs (guardContext_same context (move_same hR hs.tables id _ _))

end Store

end Registrar.Outbox
