import Registrar.Outbox.Processor
import Registrar.Proofs.Codec.Record
import Registrar.Proofs.Store.Transaction

set_option autoImplicit false

/-! # Delivering leaves what was written

Claiming a row, marking it and requeueing it change its state of delivery only: which rows there
are, what each was written with, and every other table stay as they are (`Op.run_delivers`). A pass
of a processor is made of such operations, so the same holds of it (`Processor.process_delivers`).

This needs the rows to be filed under their own ids (`Filed`), which the operations keep. What is
found in a filed outbox is in civil time, and clocks note no other. -/

namespace Registrar.Outbox

/-! ## Rows -/

/-- The row as it was when written, before anything was done to deliver it. -/
def Row.written (r : Row) : Row :=
  { r with status := .pending, attempts := 0, lastError := none, lastAttemptAt := none
           sentAt := none, lockedUntil := none }

@[simp] theorem Row.written_claim (r : Row) (now : Instant) (lease : Duration) :
    (r.claim now lease).written = r.written := rfl

theorem Row.IsCivil.claim {r : Row} (h : r.IsCivil) (now : Reading) (lease : Duration) :
    (r.claim now lease).IsCivil :=
  ⟨h.createdAt, h.lastAttemptAt, h.sentAt,
    Instant.isCivil_of_mem_some (Instant.isCivil_add now.civil lease)⟩

/-- A move that is allowed changes nothing of what was written, and leaves the row in civil time. -/
structure KeepsWritten (step : Row → Except BadMove Row) : Prop where
  written : ∀ {r r'}, step r = .ok r' → r'.written = r.written
  civil : ∀ {r r'}, step r = .ok r' → r.IsCivil → r'.IsCivil

theorem Row.keepsWritten_of_require (origin target : Status) {change : Row → Row}
    (hwritten : ∀ r, (change r).written = r.written)
    (hcivil : ∀ {r}, r.IsCivil → (change r).IsCivil) :
    KeepsWritten fun r => do r.require origin target; return change r := by
  have hchange : ∀ {r r'}, (do r.require origin target; return change r) = .ok r' →
      change r = r' := fun hr => pure_succeeds_iff.1 (check_succeeds_iff.1 hr).2
  refine ⟨fun {r r'} hr => ?_, fun {r r'} hr h => ?_⟩
  · rw [← hchange hr]
    exact hwritten r
  · rw [← hchange hr]
    exact hcivil h

theorem Row.keepsWritten_markSent (now : Reading) : KeepsWritten (·.markSent now) :=
  keepsWritten_of_require _ _ (fun _ => rfl) fun h => ⟨h.createdAt, h.lastAttemptAt,
    Instant.isCivil_of_mem_some now.civil, Instant.isCivil_of_mem_none⟩

theorem Row.keepsWritten_markFailed (error : String) (now : Reading) :
    KeepsWritten (·.markFailed error now) :=
  keepsWritten_of_require _ _ (fun _ => rfl) fun h => ⟨h.createdAt,
    Instant.isCivil_of_mem_some now.civil, h.sentAt, Instant.isCivil_of_mem_none⟩

theorem Row.keepsWritten_deadLetter : KeepsWritten Row.deadLetter :=
  keepsWritten_of_require _ _ (fun _ => rfl) fun h => ⟨h.createdAt, h.lastAttemptAt, h.sentAt,
    Instant.isCivil_of_mem_none⟩

theorem Row.keepsWritten_requeue : KeepsWritten Row.requeue :=
  keepsWritten_of_require _ _ (fun _ => rfl) fun h => ⟨h.createdAt, h.lastAttemptAt, h.sentAt,
    h.lockedUntil⟩

/-! ## Tables -/

/-- Every row of the outbox is a row in canonical form under its own id. -/
def Filed (ts : Tables) : Prop :=
  ∀ k j, ts.row? tableName k = some j → ∃ r : Row, j = r.toJson.canonical ∧ r.id.text = k

/-- The row that is found under a key. -/
theorem Filed.find {ts : Tables} (h : Filed ts) {k : String} {j : Json}
    (hj : ts.row? tableName k = some j) :
    ∃ r : Row, r.IsCivil ∧ j = r.toJson.canonical ∧ r.id.text = k := by
  obtain ⟨r, rfl, hid⟩ := h k j hj
  exact ⟨r.asRead, r.isCivil_asRead, by rw [r.toJson_asRead], hid⟩

/-- What was written under a key. -/
def writtenAt (ts : Tables) (k : String) : Option Row :=
  ((ts.row? tableName k).bind Row.ofJson?).map Row.written

/-- **Nothing but the delivery of rows changed.** -/
structure Delivers (before after : Tables) : Prop where
  filed : Filed after
  written : ∀ k, writtenAt after k = writtenAt before k
  others : ∀ t k, t ≠ tableName → after.row? t k = before.row? t k

theorem Delivers.refl {ts : Tables} (h : Filed ts) : Delivers ts ts :=
  ⟨h, fun _ => rfl, fun _ _ _ => rfl⟩

theorem Delivers.trans {a b c : Tables} (hab : Delivers a b) (hbc : Delivers b c) : Delivers a c :=
  ⟨hbc.filed, fun k => (hbc.written k).trans (hab.written k),
    fun t k ht => (hbc.others t k ht).trans (hab.others t k ht)⟩

theorem writtenAt_eq_some_iff {ts : Tables} (h : Filed ts) {k : String} {w : Row} :
    writtenAt ts k = some w ↔ ∃ r : Row, r.IsCivil ∧
      ts.row? tableName k = some r.toJson.canonical ∧ r.id.text = k ∧ r.written = w := by
  unfold writtenAt
  constructor
  · intro hw
    cases hrow : ts.row? tableName k with
    | none => simp [hrow] at hw
    | some j =>
        obtain ⟨r, hcivil, rfl, hid⟩ := h.find hrow
        exact ⟨r, hcivil, rfl, hid, by simpa [hrow, hcivil.asRead_eq] using hw⟩
  · rintro ⟨r, hcivil, hrow, -, rfl⟩
    simp [hrow, hcivil.asRead_eq]

/-- A row put under its own id leaves the outbox filed. -/
theorem Filed.set {ts : Tables} (h : Filed ts) (r : Row) :
    Filed (ts.set tableName r.id.text r.toJson.canonical) := by
  intro k j hrow
  rw [Tables.row?_set] at hrow
  by_cases hk : k = r.id.text
  · rw [if_pos ⟨rfl, hk⟩] at hrow
    exact ⟨r, (Option.some.inj hrow).symm, hk.symm⟩
  · rw [if_neg fun hc => hk hc.2] at hrow
    exact h k j hrow

/-- Putting back a row of which only the delivery changed. -/
theorem set_delivers {ts : Tables} (h : Filed ts) {r : Row} (hcivil : r.IsCivil)
    (hw : writtenAt ts r.id.text = some r.written) :
    Delivers ts (ts.set tableName r.id.text r.toJson.canonical) := by
  refine ⟨h.set r, fun k => ?_, fun t k ht => ?_⟩
  · by_cases hk : k = r.id.text
    · rw [hk, hw, writtenAt, Tables.row?_set, if_pos ⟨rfl, rfl⟩, Option.bind_some,
        hcivil.ofJson?_canonical, Option.map_some]
    · rw [writtenAt, writtenAt, Tables.row?_set, if_neg fun hc => hk hc.2]
  · rw [Tables.row?_set, if_neg fun hc => ht hc.1]

theorem storeRows_delivers {ts : Tables} (h : Filed ts) {rows : List Row}
    (hw : ∀ r ∈ rows, r.IsCivil ∧ writtenAt ts r.id.text = some r.written) :
    Delivers ts (storeRows rows ts) := by
  unfold storeRows
  induction rows generalizing ts with
  | nil => exact .refl h
  | cons r rows ih =>
      obtain ⟨hcivil, hwritten⟩ := hw r List.mem_cons_self
      have hfirst := set_delivers h hcivil hwritten
      refine hfirst.trans (ih hfirst.filed fun r' hr' => ?_)
      rw [hfirst.written]
      exact hw r' (List.mem_cons_of_mem _ hr')

/-- A row of a scan is the one under its id. -/
theorem writtenAt_of_mem_rows {ts : Tables} (h : Filed ts) {all : List Row}
    (hrows : rows ts = .ok all) {r : Row} (hr : r ∈ all) :
    r.IsCivil ∧ writtenAt ts r.id.text = some r.written := by
  obtain ⟨j, hj, hdecode⟩ := mem_of_mapM_succeeds hrows hr
  obtain ⟨k, hk⟩ := Keyed.mem_values_iff.1 hj
  obtain ⟨r', hcivil, rfl, hid⟩ := h.find hk
  rw [Tables.decode_succeeds_iff, hcivil.ofJson?_canonical] at hdecode
  obtain rfl := Option.some.inj hdecode
  rw [writtenAt_eq_some_iff h]
  exact ⟨hcivil, r', hcivil, by rw [hid]; exact hk, rfl, rfl⟩

/-! ## Operations -/

theorem claim_delivers {limit : Nat} {lease : Duration} {now : Reading} {ts ts' : Tables}
    {claimed : List Row} (h : Filed ts) (hc : claim limit lease now ts = .ok (claimed, ts')) :
    Delivers ts ts' := by
  unfold claim at hc
  cases hrows : rows ts with
  | error e => simp [hrows] at hc
  | ok all =>
      simp only [hrows, Except.ok.injEq, Prod.mk.injEq] at hc
      rw [← hc.2]
      refine storeRows_delivers h fun r hr => ?_
      obtain ⟨r₀, hr₀, rfl⟩ := List.mem_map.1 hr
      -- What is put back was scanned, and claiming it changed its delivery only.
      have hmem : r₀ ∈ all.filter (·.isClaimable now) :=
        (List.mergeSort_perm _ _).subset (List.mem_of_mem_take hr₀)
      obtain ⟨hcivil, hwritten⟩ := writtenAt_of_mem_rows h hrows (List.mem_filter.1 hmem).1
      exact ⟨hcivil.claim now lease, hwritten⟩

/-- What a move does, when it does something. -/
theorem move_succeeds_iff {α : Type} {id : Uuid} {step : Row → Except BadMove Row}
    {answer : Row → α} {ts ts' : Tables} {a : α} :
    move id step answer ts = .ok (a, ts') ↔
      ∃ row r r', ts.row? tableName id.text = some row ∧ Row.ofJson? row = some r ∧
        step r = .ok r' ∧ a = answer r' ∧ ts' = ts.set tableName id.text r'.toJson.canonical := by
  unfold move
  rw [bind_succeeds_iff]
  constructor
  · rintro ⟨⟨found, ts''⟩, hmodify, hanswer⟩
    cases found with
    | none => cases hanswer
    | some a' =>
        obtain ⟨rfl, rfl⟩ : a' = a ∧ ts'' = ts' := by simpa using pure_succeeds_iff.1 hanswer
        obtain ⟨row, r, r', hrow, hread, hchange, rfl⟩ := Tables.modify_succeeds_iff.1 hmodify
        obtain ⟨r'', hstep, hpure⟩ := bind_succeeds_iff.1 hchange
        obtain ⟨rfl, rfl⟩ : answer r'' = a' ∧ r'' = r' := by simpa using pure_succeeds_iff.1 hpure
        exact ⟨row, r, r'', hrow, hread, mapError_succeeds_iff.1 hstep, rfl, rfl⟩
  · rintro ⟨row, r, r', hrow, hread, hstep, rfl, rfl⟩
    refine ⟨(some (answer r'), _),
      Tables.modify_succeeds_iff.2 ⟨row, r, r', hrow, hread, ?_, rfl⟩, rfl⟩
    exact bind_succeeds_iff.2 ⟨r', mapError_succeeds_iff.2 hstep, rfl⟩

theorem move_delivers {α : Type} {id : Uuid} {step : Row → Except BadMove Row} {answer : Row → α}
    {ts ts' : Tables} {a : α} (hstep : KeepsWritten step) (h : Filed ts)
    (hm : move id step answer ts = .ok (a, ts')) : Delivers ts ts' := by
  obtain ⟨row, r, r', hrow, hread, hr, -, rfl⟩ := move_succeeds_iff.1 hm
  obtain ⟨r₀, hcivil, rfl, hid⟩ := h.find hrow
  rw [hcivil.ofJson?_canonical] at hread
  obtain rfl := Option.some.inj hread
  have hwritten := hstep.written hr
  -- The id is part of what was written, so the row goes back where it was found.
  have hid' : r'.written.id = r₀.written.id := by rw [hwritten]
  change r'.id = r₀.id at hid'
  rw [← hid, ← hid']
  refine set_delivers h (hstep.civil hr hcivil) ?_
  rw [hwritten, writtenAt_eq_some_iff h]
  exact ⟨r₀, hcivil, by rw [hid', hid]; exact hrow, by rw [hid'], rfl⟩

/-- Only an active context lets an operation through. -/
theorem guardContext_succeeds_iff {α : Type} {context : Except ContextError Unit}
    {go : Except OutboxError α} {a : α} :
    guardContext context go = .ok a ↔ context = .ok () ∧ go = .ok a := by
  cases context with
  | error e => simp [guardContext]
  | ok _ => simp [guardContext]

theorem onTables_delivers {α : Type} {s : Store} {r : Except OutboxError (α × Tables)}
    (h : Filed s.tables) (hr : ∀ a ts, r = .ok (a, ts) → Delivers s.tables ts) :
    Delivers s.tables (onTables s r).2.tables := by
  cases r with
  | error e => exact .refl h
  | ok p => exact hr p.1 p.2 rfl

/-- The operations that change committed rows; each first asks the context. -/
inductive Op where
  | claim (context : Except ContextError Unit) (limit : Nat) (lease : Duration) (now : Reading)
  | markSent (context : Except ContextError Unit) (id : Uuid) (now : Reading)
  | markFailed (context : Except ContextError Unit) (id : Uuid) (error : String) (now : Reading)
  | deadLetter (context : Except ContextError Unit) (id : Uuid)
  | requeue (context : Except ContextError Unit) (id : Uuid)

/-- The store after an operation. -/
def Op.run (s : Store) : Op → Store
  | .claim context limit lease now => (Repository.store.claimPending context limit lease now s).2
  | .markSent context id now => (Repository.store.markSent context id now s).2
  | .markFailed context id error now => (Repository.store.markFailed context id error now s).2
  | .deadLetter context id => (Repository.store.deadLetter context id s).2
  | .requeue context id => (Repository.store.requeue context id s).2

theorem guarded_move_delivers {α : Type} {context : Except ContextError Unit} {id : Uuid}
    {step : Row → Except BadMove Row} {answer : Row → α} {s : Store} (hstep : KeepsWritten step)
    (h : Filed s.tables) :
    Delivers s.tables
      (onTables s (guardContext context (move id step answer s.tables))).2.tables := by
  refine onTables_delivers h fun a ts hm => ?_
  exact move_delivers hstep h (guardContext_succeeds_iff.1 hm).2

/-- **An operation of the outbox changes nothing but the delivery of rows.** -/
theorem Op.run_delivers {s : Store} (h : Filed s.tables) (op : Op) :
    Delivers s.tables (op.run s).tables := by
  cases op with
  | claim context limit lease now =>
      refine onTables_delivers h fun claimed ts hc => ?_
      exact claim_delivers h (guardContext_succeeds_iff.1 hc).2
  | markSent context id now =>
      exact guarded_move_delivers (Row.keepsWritten_markSent now) h
  | markFailed context id error now =>
      exact guarded_move_delivers (Row.keepsWritten_markFailed error now) h
  | deadLetter context id =>
      exact guarded_move_delivers Row.keepsWritten_deadLetter h
  | requeue context id =>
      exact guarded_move_delivers Row.keepsWritten_requeue h

/-! ## Passes

What every operation keeps, a pass keeps: its part for one row is at most two operations, and all
its rows are an induction. -/

namespace Processor

variable {σ : Type} {P : Store → Prop} (hop : ∀ (op : Op) s, P s → P (op.run s))
  (p : Processor Store Transaction σ) (hp : p.repository = .store)

@[simp] theorem store_note (row : Row) (result : String) (s : Site Store σ) :
    (p.note row result s).store = s.store := by
  unfold note
  split <;> rfl

include hop hp

theorem takeRows_preserves (c : Context) (conditions : Conditions) (s : Site Store σ)
    (h : P s.store) : P (p.takeRows c conditions s).2.store := by
  unfold takeRows
  cases p.config.lease with
  | none => exact h
  | some lease =>
      simp only [hp]
      exact hop (.claim (s.world.check c) p.config.batchSize lease (conditions.clock 0)) s.store h

theorem settleDelivered_preserves (c : Context) (now : Reading) (row : Row) (r : Report)
    (s : Site Store σ) (h : P s.store) : P (p.settleDelivered c now row r s).2.store := by
  have hsent := hop (.markSent (s.world.check c) row.id now) s.store h
  unfold settleDelivered
  rw [hp]
  cases hmark : Repository.store.markSent (s.world.check c) row.id now s.store with
  | mk result store =>
      simp only [Op.run, hmark] at hsent
      cases result with
      | error e => exact hsent
      | ok _ =>
          simp only [store_note]
          exact hsent

theorem settleFailed_preserves (c : Context) (now : Reading) (row : Row) (reason : String)
    (r : Report) (s : Site Store σ) (h : P s.store) :
    P (p.settleFailed c now row reason r s).2.store := by
  have hfailed := hop (.markFailed (s.world.check c) row.id reason now) s.store h
  unfold settleFailed
  simp only [hp]
  cases hmark : Repository.store.markFailed (s.world.check c) row.id reason now s.store with
  | mk result store =>
      simp only [Op.run, hmark] at hfailed
      cases result with
      | error e => exact hfailed
      | ok attempts =>
          -- A row that failed too often is given up by a second operation on the same store.
          have hdead := hop (.deadLetter (s.world.check c) row.id) store hfailed
          simp only
          split
          · cases hgive : Repository.store.deadLetter (s.world.check c) row.id store with
            | mk result store' =>
                simp only [Op.run, hgive] at hdead
                cases result with
                | error e => exact hdead
                | ok _ =>
                    simp only [store_note]
                    exact hdead
          · simp only [store_note]
            exact hfailed

theorem settle_preserves (c : Context) (conditions : Conditions) (i : Nat) (row : Row) (r : Report)
    (s : Site Store σ) (h : P s.store) : P (p.settle c conditions i row r s).2.store := by
  unfold settle
  split
  · exact h
  · simp only
    split
    · exact settleDelivered_preserves hop p hp _ _ _ _ _ h
    · exact h
    · exact settleFailed_preserves hop p hp _ _ _ _ _ _ h

theorem settleAll_preserves (c : Context) (conditions : Conditions) (rows : List Row) :
    ∀ (i : Nat) (r : Report) (s : Site Store σ), P s.store →
      P (p.settleAll c conditions i rows r s).2.store := by
  induction rows with
  | nil =>
      intro i r s h
      exact h
  | cons row rows ih =>
      intro i r s h
      have hrow := settle_preserves hop p hp c conditions i row r s h
      unfold settleAll
      split
      · next hsettle =>
          rw [hsettle] at hrow
          exact hrow
      · next hsettle =>
          rw [hsettle] at hrow
          exact ih _ _ _ hrow

theorem process_preserves (c : Context) (conditions : Conditions) (s : Site Store σ)
    (h : P s.store) : P (p.process c conditions s).2.store := by
  unfold process
  split
  · exact h
  · have htake := takeRows_preserves hop p hp c conditions s h
    split
    · next htaken =>
        rw [htaken] at htake
        exact htake
    · next htaken =>
        rw [htaken] at htake
        exact settleAll_preserves hop p hp c conditions _ _ _ _ htake

omit hop in
/-- **A pass changes nothing but the delivery of rows.** -/
theorem process_delivers (c : Context) (conditions : Conditions) (s : Site Store σ)
    (h : Filed s.store.tables) :
    Delivers s.store.tables (p.process c conditions s).2.store.tables :=
  process_preserves (P := fun s' => Delivers s.store.tables s'.tables)
    (fun op _ h' => h'.trans (Op.run_delivers h'.filed op)) p hp c conditions s (.refl h)

end Processor

end Registrar.Outbox
