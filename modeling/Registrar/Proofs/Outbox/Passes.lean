import Mathlib.Logic.Relation
import Registrar.Proofs.Dispatch.Journal
import Registrar.Proofs.Outbox.Rows

set_option autoImplicit false

/-! # Passes, step by step

A pass turns to the store once at a time: it takes its rows, and then delivers one after another,
marks each and gives it up if that was its last attempt. Between these steps the store and the world
are nobody's. Left alone, a pass that goes on step by step ends where `Processor.process` does
(`Pass.reaches_process`).

What a step does to the store is one operation (`Pass.advance_spec`). -/

namespace Registrar.Outbox

variable {S T σ : Type}

/-! ## What a delivery calls -/

/-- What comes of a delivery whose dispatch had this result. -/
def Delivery.ofResult : Except DispatchError Unit → Delivery
  | .ok () => .delivered
  | .error (.context e) => .interrupted e
  | .error e => .failed e.message

theorem Delivery.ofResult_eq_delivered_iff {result : Except DispatchError Unit} :
    ofResult result = .delivered ↔ result = .ok () := by
  cases result with
  | ok _ => exact iff_of_true rfl rfl
  | error e => cases e <;> simp [ofResult]

namespace Processor

/-- The same processor over handlers that keep a journal. -/
def noting (p : Processor S T σ) : Processor S T (Noted σ) :=
  { p with dispatcher := p.dispatcher.noting }

/-- The handlers' journal of one delivery. -/
def calls (p : Processor S T σ) (c : Context) (o : Schedule) (row : Row) (w : World σ) :
    List (Heard σ) :=
  (p.noting.deliver c o row w.noting).2.scene.own.journal

theorem deliver_of_decoded (p : Processor S T σ) (c : Context) (o : Schedule) {row : Row}
    {e : Event} (h : p.serializer.deserialize row.payload row.eventName = .ok e) (w : World σ) :
    p.deliver c o row w =
      (.ofResult (p.dispatcher.dispatch c e o w).1, (p.dispatcher.dispatch c e o w).2) := by
  simp only [deliver, h]
  cases p.dispatcher.dispatch c e o w with
  | mk result world =>
      cases result with
      | ok _ => rfl
      | error e => cases e <;> rfl

/-- **A delivery does the same when handlers keep a journal.** What it adds to the journal are calls
with the row's event only, and it delivers the row only if every handler that accepts the event's
name was called and handled it. -/
theorem deliver_accounts (p : Processor S T σ) (c : Context) (o : Schedule) (row : Row)
    (w : World σ) :
    (∀ journal, p.noting.deliver c o row (w.noted journal) =
      ((p.deliver c o row w).1, (p.deliver c o row w).2.noted (journal ++ p.calls c o row w))) ∧
    match p.serializer.deserialize row.payload row.eventName with
    | .error e => p.calls c o row w = [] ∧ p.deliver c o row w = (.failed e.message, w)
    | .ok e => p.dispatcher.Accounts e (w.check c) (p.dispatcher.dispatch c e o w).1
        (p.calls c o row w) := by
  cases hread : p.serializer.deserialize row.payload row.eventName with
  | error e =>
      have hplain : p.deliver c o row w = (.failed e.message, w) := by
        unfold deliver
        rw [hread]
      have hnoted : ∀ journal, p.noting.deliver c o row (w.noted journal) =
          (.failed e.message, w.noted journal) := by
        intro journal
        have hread' : p.noting.serializer.deserialize row.payload row.eventName = .error e := hread
        unfold deliver
        rw [hread']
      have hcalls : p.calls c o row w = [] :=
        congrArg (fun out => out.2.scene.own.journal) (hnoted [])
      refine ⟨fun journal => ?_, hcalls, hplain⟩
      rw [hnoted, hplain, hcalls, List.append_nil]
  | ok e =>
      have hread' : p.noting.serializer.deserialize row.payload row.eventName = .ok e := hread
      obtain ⟨calls, hdispatch, haccounts⟩ := p.dispatcher.dispatch_noted c e o w
      have hnoted : ∀ journal, p.noting.deliver c o row (w.noted journal) =
          ((p.deliver c o row w).1, (p.deliver c o row w).2.noted (journal ++ calls)) := by
        intro journal
        rw [deliver_of_decoded p c o hread, deliver_of_decoded p.noting c o hread']
        simp only [show p.noting.dispatcher = p.dispatcher.noting from rfl, hdispatch]
      -- The journal starts empty, so it is the list of the calls.
      have hcalls : p.calls c o row w = calls :=
        congrArg (fun out => out.2.scene.own.journal) (hnoted [])
      rw [hcalls]
      exact ⟨hnoted, haccounts⟩

/-- **A delivery calls handlers with the row's event only, and delivers the row only if every
handler that accepts the event's name was called and handled it.** -/
theorem calls_spec (p : Processor S T σ) (c : Context) (o : Schedule) (row : Row) (w : World σ) :
    (∀ x ∈ p.calls c o row w,
      p.serializer.deserialize row.payload row.eventName = .ok x.event) ∧
    ((p.deliver c o row w).1 = .delivered →
      ∃ e, p.serializer.deserialize row.payload row.eventName = .ok e ∧
        ((p.calls c o row w).map (·.handler)).Perm (p.dispatcher.matching e.name) ∧
        ∀ x ∈ p.calls c o row w, x.verdict = .handled) := by
  have haccounts := (p.deliver_accounts c o row w).2
  cases hread : p.serializer.deserialize row.payload row.eventName with
  | error e =>
      rw [hread] at haccounts
      rw [haccounts.1, haccounts.2]
      exact ⟨(fun x hx => by cases hx), (fun h => by cases h)⟩
  | ok e =>
      rw [hread] at haccounts
      rw [deliver_of_decoded p c o hread, Delivery.ofResult_eq_delivered_iff]
      unfold Dispatcher.Accounts at haccounts
      cases hcheck : w.check c with
      | error err =>
          rw [hcheck] at haccounts
          rw [haccounts.1, haccounts.2]
          exact ⟨(fun x hx => by cases hx), (fun h => by cases h)⟩
      | ok _ =>
          rw [hcheck] at haccounts
          obtain ⟨hperm, hevent, hhandled⟩ := haccounts
          refine ⟨fun x hx => congrArg Except.ok (hevent x hx).symm, fun hok => ?_⟩
          exact ⟨e, rfl, hperm, hhandled.1 hok⟩

end Processor

/-! ## Steps -/

/-- How far a pass is: it is to deliver rows, to mark a row whose delivery called these handlers, to
give up a row, or it has ended. The rows at the end of each are to be delivered after that. -/
inductive PassPhase (σ : Type) where
  | delivering (rows : List Row)
  | marking (row : Row) (delivery : Delivery) (calls : List (Heard σ)) (rows : List Row)
  | givingUp (row : Row) (rows : List Row)
  | ended (result : Except OutboxError Report)

/-- A pass on its way: `number` rows were dealt with, as `report` says. -/
structure Pass (σ : Type) where
  processor : Processor Store Transaction σ
  context : Context
  conditions : Conditions
  number : Nat
  report : Report
  phase : PassPhase σ

namespace Pass

def finish (pass : Pass σ) (result : Except OutboxError Report) : Pass σ :=
  { pass with phase := .ended result }

/-- Goes on to the next row, or ends with a failure. -/
def next (pass : Pass σ) (rows : List Row) : Except OutboxError Report → Pass σ
  | .error e => pass.finish (.error e)
  | .ok report => { pass with number := pass.number + 1, report, phase := .delivering rows }

/-- Begins a pass and takes its rows. -/
def start (p : Processor Store Transaction σ) (c : Context) (conditions : Conditions)
    (s : Site Store σ) : Pass σ × Site Store σ :=
  let begun : Pass σ := ⟨p, c, conditions, 0, ⟨0, 0, 0, 0⟩, .delivering []⟩
  match s.world.check c with
  | .error e => (begun.finish (.error (.context e)), s)
  | .ok () => match p.takeRows c conditions s with
      | (.error e, s) => (begun.finish (.error e), s)
      | (.ok rows, s) =>
          ({ begun with report := ⟨rows.length, 0, 0, 0⟩, phase := .delivering rows }, s)

/-- The next step of a pass. -/
def advance (pass : Pass σ) (s : Site Store σ) : Pass σ × Site Store σ :=
  let p := pass.processor
  let c := pass.context
  let now := pass.conditions.clock (pass.number + 1)
  match pass.phase with
  | .delivering [] => (pass.finish (.ok pass.report), s)
  | .delivering (row :: rows) => match s.world.check c with
      | .error e => (pass.finish (.error (.context e)), s)
      | .ok () =>
          let o := pass.conditions.schedule pass.number
          let (delivery, world) := p.deliver c o row s.world
          ({ pass with phase := .marking row delivery (p.calls c o row s.world) rows },
            { s with world })
  | .marking row .delivered _ rows =>
      let (result, s) := p.settleDelivered c now row pass.report s
      (pass.next rows result, s)
  | .marking _ (.interrupted e) _ _ => (pass.finish (.error (.context e)), s)
  | .marking row (.failed reason) _ rows =>
      match p.repository.markFailed (s.world.check c) row.id reason now s.store with
      | (.error e, store) => (pass.finish (.error e), { s with store })
      | (.ok attempts, store) =>
          let s := { s with store }
          if p.isExhausted attempts then ({ pass with phase := .givingUp row rows }, s)
          else (pass.next rows (.ok { pass.report with failed := pass.report.failed + 1 }),
            p.note row "retry" s)
  | .givingUp row rows => match p.repository.deadLetter (s.world.check c) row.id s.store with
      | (.error e, store) => (pass.finish (.error e), { s with store })
      | (.ok (), store) =>
          (pass.next rows
            (.ok { pass.report with deadLettered := pass.report.deadLettered + 1 }),
            p.note row "dead_letter" { s with store })
  | .ended _ => (pass, s)

/-! ## A pass left alone -/

/-- Going on step by step. -/
def Reaches : Pass σ × Site Store σ → Pass σ × Site Store σ → Prop :=
  Relation.ReflTransGen fun a b => a.1.advance a.2 = b

theorem Reaches.of_advance {a b : Pass σ × Site Store σ} (h : a.1.advance a.2 = b) :
    Reaches a b :=
  Relation.ReflTransGen.single h

theorem Reaches.refl {a : Pass σ × Site Store σ} : Reaches a a := Relation.ReflTransGen.refl

theorem Reaches.trans {a b c : Pass σ × Site Store σ} (hab : Reaches a b) (hbc : Reaches b c) :
    Reaches a c :=
  Relation.ReflTransGen.trans hab hbc

/-- What a pass comes to when the row that it is at was settled with this result. -/
def Settled (pass : Pass σ) (rows : List Row) (result : Except OutboxError Report)
    (last : Pass σ) : Prop :=
  match result with
  | .error e => last.phase = .ended (.error e)
  | .ok report => last = pass.next rows (.ok report)

/-- Which step of the row the pass is at does not matter for what it comes to. -/
theorem settled_next (pass : Pass σ) (phase : PassPhase σ) (rows : List Row)
    (result : Except OutboxError Report) :
    Settled pass rows result ({ pass with phase }.next rows result) := by
  cases result with
  | error e => rfl
  | ok report => rfl

theorem reaches_settleFailed (pass : Pass σ) (row : Row) (reason : String) (calls : List (Heard σ))
    (rows : List Row) (s : Site Store σ) :
    let settled := pass.processor.settleFailed pass.context
      (pass.conditions.clock (pass.number + 1)) row reason pass.report s
    ∃ last, Reaches ({ pass with phase := .marking row (.failed reason) calls rows }, s)
        (last, settled.2) ∧
      Settled pass rows settled.1 last := by
  unfold Processor.settleFailed
  cases hmark : pass.processor.repository.markFailed (s.world.check pass.context) row.id reason
      (pass.conditions.clock (pass.number + 1)) s.store with
  | mk result store =>
      cases result with
      | error e =>
          refine ⟨pass.finish (.error e), .of_advance ?_, rfl⟩
          simp only [advance, hmark]
          rfl
      | ok attempts =>
          cases hexhausted : pass.processor.isExhausted attempts with
          | false =>
              refine ⟨_, .of_advance ?_, settled_next pass (.givingUp row rows) rows _⟩
              simp only [advance, hmark, hexhausted]
              rfl
          | true =>
              -- The second operation is a step of its own.
              have hfirst : advance
                  { pass with phase := .marking row (.failed reason) calls rows } s =
                  ({ pass with phase := .givingUp row rows }, { s with store }) := by
                simp only [advance, hmark, hexhausted]
                rfl
              simp only [hexhausted, if_true]
              cases hgive : pass.processor.repository.deadLetter
                  (World.check s.world pass.context) row.id store with
              | mk result store' =>
                  cases result with
                  | error e =>
                      refine ⟨pass.finish (.error e),
                        .trans (.of_advance hfirst) (.of_advance ?_), rfl⟩
                      simp only [advance, hgive]
                      rfl
                  | ok _ =>
                      refine ⟨_, .trans (.of_advance hfirst) (.of_advance ?_),
                        settled_next pass (.givingUp row rows) rows _⟩
                      simp only [advance, hgive]

/-- **One row**: the steps from its delivery on do what `Processor.settle` does. -/
theorem reaches_settle (pass : Pass σ) (row : Row) (rows : List Row)
    (hphase : pass.phase = .delivering (row :: rows)) (s : Site Store σ) :
    let settled := pass.processor.settle pass.context pass.conditions pass.number row pass.report s
    ∃ last, Reaches (pass, s) (last, settled.2) ∧ Settled pass rows settled.1 last := by
  unfold Processor.settle
  cases hcheck : s.world.check pass.context with
  | error e =>
      refine ⟨pass.finish (.error (.context e)), .of_advance ?_, rfl⟩
      simp only [advance, hphase, hcheck]
  | ok _ =>
      cases hdeliver :
          pass.processor.deliver pass.context (pass.conditions.schedule pass.number) row
            s.world with
      | mk delivery world =>
          have hfirst : pass.advance s = ({ pass with
              phase := .marking row delivery (pass.processor.calls pass.context
                (pass.conditions.schedule pass.number) row s.world) rows }, { s with world }) := by
            simp only [advance, hphase, hcheck, hdeliver]
          cases delivery with
          | delivered =>
              refine ⟨_, .trans (.of_advance hfirst) (.of_advance ?_),
                settled_next pass (.givingUp row rows) rows _⟩
              rfl
          | interrupted e =>
              exact ⟨pass.finish (.error (.context e)),
                .trans (.of_advance hfirst) (.of_advance rfl), rfl⟩
          | failed reason =>
              obtain ⟨last, hlast, hsettled⟩ := reaches_settleFailed pass row reason
                (pass.processor.calls pass.context (pass.conditions.schedule pass.number) row
                  s.world)
                rows { s with world }
              exact ⟨last, .trans (.of_advance hfirst) hlast, hsettled⟩

/-- The rows of a pass, one after another. -/
theorem reaches_settleAll (rows : List Row) :
    ∀ (pass : Pass σ) (s : Site Store σ), pass.phase = .delivering rows →
      let settled := pass.processor.settleAll pass.context pass.conditions pass.number rows
        pass.report s
      ∃ last, Reaches (pass, s) (last, settled.2) ∧ last.phase = .ended settled.1 := by
  induction rows with
  | nil =>
      intro pass s hphase
      refine ⟨pass.finish (.ok pass.report), .of_advance ?_, rfl⟩
      simp only [advance, hphase]
      rfl
  | cons row rows ih =>
      intro pass s hphase
      unfold Processor.settleAll
      obtain ⟨next, hnext, hsettled⟩ := reaches_settle pass row rows hphase s
      cases hsettle : pass.processor.settle pass.context pass.conditions pass.number row pass.report
          s with
      | mk result s' =>
          rw [hsettle] at hnext hsettled
          cases result with
          | error e => exact ⟨next, hnext, hsettled⟩
          | ok report =>
              obtain rfl : next = pass.next rows (.ok report) := hsettled
              obtain ⟨last, hlast, hended⟩ := ih (pass.next rows (.ok report)) s' rfl
              exact ⟨last, .trans hnext hlast, hended⟩

/-- **A pass that nobody interrupts does what `Processor.process` does.** -/
theorem reaches_process (p : Processor Store Transaction σ) (c : Context) (conditions : Conditions)
    (s : Site Store σ) :
    ∃ last, Reaches (start p c conditions s) (last, (p.process c conditions s).2) ∧
      last.phase = .ended (p.process c conditions s).1 := by
  unfold start Processor.process
  cases s.world.check c with
  | error e => exact ⟨_, .refl, rfl⟩
  | ok _ =>
      cases p.takeRows c conditions s with
      | mk result s' =>
          cases result with
          | error e => exact ⟨_, .refl, rfl⟩
          | ok rows =>
              exact reaches_settleAll rows
                ⟨p, c, conditions, 0, ⟨rows.length, 0, 0, 0⟩, .delivering rows⟩ s' rfl

/-! ## What a step does -/

/-- The rows that a pass still has to do with. -/
def rows (pass : Pass σ) : List Row :=
  match pass.phase with
  | .delivering rows => rows
  | .marking row _ _ rows | .givingUp row rows => row :: rows
  | .ended _ => []

/-- The operation of the next step, if it turns to the store. -/
def op? (pass : Pass σ) (w : World σ) : Option Op :=
  let context := w.check pass.context
  let now := pass.conditions.clock (pass.number + 1)
  match pass.phase with
  | .marking row .delivered _ _ => some (.markSent context row.id now)
  | .marking row (.failed reason) _ _ => some (.markFailed context row.id reason now)
  | .givingUp row _ => some (.deadLetter context row.id)
  | .delivering _ | .marking _ (.interrupted _) _ _ | .ended _ => none

/-- A row is marked as sent where it was delivered. -/
theorem of_op?_markSent {pass : Pass σ} {w : World σ} {context : Except ContextError Unit}
    {id : Uuid} {now : Reading} (h : pass.op? w = some (.markSent context id now)) :
    ∃ row calls rows, pass.phase = .marking row .delivered calls rows ∧ row.id = id := by
  obtain ⟨p, c, conditions, number, report, phase⟩ := pass
  cases phase with
  | delivering rows => cases h
  | marking row delivery calls rows =>
      cases delivery with
      | delivered =>
          obtain ⟨-, rfl, -⟩ := Op.markSent.inj (Option.some.inj h)
          exact ⟨row, calls, rows, rfl, rfl⟩
      | interrupted e => cases h
      | failed reason => cases h
  | givingUp row rows => cases h
  | ended result => cases h

theorem next_processor (pass : Pass σ) (rows : List Row) (result : Except OutboxError Report) :
    (pass.next rows result).processor = pass.processor := by
  cases result <;> rfl

/-- Going on leaves the other rows. -/
theorem rows_next_subset (pass : Pass σ) (rows : List Row) (result : Except OutboxError Report) :
    (pass.next rows result).rows ⊆ rows := by
  cases result with
  | error e => exact List.nil_subset _
  | ok report => exact List.Subset.refl _

/-- **What a step changes in the pass and in the store.** -/
theorem advance_spec (pass : Pass σ) (s : Site Store σ)
    (hp : pass.processor.repository = .store) :
    (pass.advance s).1.processor = pass.processor ∧
      (pass.advance s).1.rows ⊆ pass.rows ∧
      (pass.advance s).2.store = (pass.op? s.world).elim s.store (Op.run s.store) := by
  obtain ⟨p, c, conditions, number, report, phase⟩ := pass
  change p.repository = .store at hp
  cases phase with
  | delivering rows =>
      cases rows with
      | nil => exact ⟨rfl, List.nil_subset _, rfl⟩
      | cons row rows =>
          cases hcheck : s.world.check c with
          | error e =>
              simp only [advance, hcheck]
              exact ⟨rfl, List.nil_subset _, rfl⟩
          | ok _ =>
              simp only [advance, hcheck]
              exact ⟨trivial, List.Subset.refl _, rfl⟩
  | marking row delivery calls rows =>
      cases delivery with
      | delivered =>
          simp only [advance, op?, Processor.settleDelivered, hp]
          refine ⟨next_processor _ _ _, ?_, ?_⟩
          · exact fun r hr => List.mem_cons_of_mem row (rows_next_subset _ _ _ hr)
          · simp only [Option.elim, Op.run]
            split
            · next h => rw [h]
            · next h => rw [Processor.store_note, h]
      | interrupted e => exact ⟨rfl, List.nil_subset _, rfl⟩
      | failed reason =>
          simp only [advance, op?, hp, Option.elim, Op.run]
          split
          · next h =>
              rw [h]
              exact ⟨rfl, List.nil_subset _, rfl⟩
          · next h =>
              rw [h]
              split
              · exact ⟨rfl, List.Subset.refl _, rfl⟩
              · rw [Processor.store_note]
                exact ⟨rfl, List.subset_cons_self row rows, rfl⟩
  | givingUp row rows =>
      simp only [advance, op?, hp, Option.elim, Op.run]
      split
      · next h =>
          rw [h]
          exact ⟨rfl, List.nil_subset _, rfl⟩
      · next h =>
          rw [Processor.store_note, h]
          exact ⟨rfl, List.subset_cons_self row rows, rfl⟩
  | ended result => exact ⟨rfl, List.Subset.refl _, rfl⟩

theorem phase_next_ne_marking (pass : Pass σ) (rows : List Row)
    (result : Except OutboxError Report) {row : Row} {delivery : Delivery} {calls : List (Heard σ)}
    {rows' : List Row} : (pass.next rows result).phase ≠ .marking row delivery calls rows' := by
  cases result with
  | error e => exact fun h => by cases h
  | ok report => exact fun h => by cases h

/-- A pass comes to marking a row by delivering it. -/
theorem of_advance_marking {pass : Pass σ} {s : Site Store σ} {row : Row} {delivery : Delivery}
    {calls : List (Heard σ)} {rows : List Row}
    (h : (pass.advance s).1.phase = .marking row delivery calls rows) :
    row ∈ pass.rows ∧ ∃ o, calls = pass.processor.calls pass.context o row s.world ∧
      delivery = (pass.processor.deliver pass.context o row s.world).1 := by
  obtain ⟨p, c, conditions, number, report, phase⟩ := pass
  cases phase with
  | delivering rows' =>
      cases rows' with
      | nil => cases h
      | cons row' rows' =>
          cases hcheck : s.world.check c with
          | error e =>
              simp only [advance, hcheck] at h
              cases h
          | ok _ =>
              simp only [advance, hcheck] at h
              obtain ⟨rfl, rfl, rfl, -⟩ := PassPhase.marking.inj h
              exact ⟨List.mem_cons_self, conditions.schedule number, rfl, rfl⟩
  | marking row' delivery' calls' rows' =>
      cases delivery' with
      | delivered => exact absurd h (phase_next_ne_marking _ _ _)
      | interrupted e => cases h
      | failed reason =>
          simp only [advance] at h
          split at h
          · cases h
          · split at h
            · cases h
            · exact absurd h (phase_next_ne_marking _ _ _)
  | givingUp row' rows' =>
      simp only [advance] at h
      split at h
      · cases h
      · exact absurd h (phase_next_ne_marking _ _ _)
  | ended result => cases h

/-- Rows are taken while they are pending; at most they are put under a lease. -/
theorem takeRows_spec {p : Processor Store Transaction σ} (hp : p.repository = .store) (c : Context)
    (conditions : Conditions) (s : Site Store σ) (h : Filed s.store.tables) :
    (∀ rows, (p.takeRows c conditions s).1 = .ok rows → ∀ row ∈ rows,
      ∃ r, rowAt s.store.tables row.id = some r ∧ r.status = .pending ∧ row.written = r.written) ∧
    ((p.takeRows c conditions s).2.store = s.store ∨ ∃ context limit lease now,
      (p.takeRows c conditions s).2.store = Op.run s.store (.claim context limit lease now)) := by
  unfold Processor.takeRows
  rw [hp]
  cases p.config.lease with
  | none =>
      refine ⟨fun rows hrows row hrow => ?_, .inl rfl⟩
      obtain ⟨pending, hpending, hmem⟩ := exists_rowsWith h .pending
      obtain ⟨-, hfetch⟩ := guardContext_succeeds_iff.1 hrows
      obtain ⟨all, hall, rfl⟩ := map_succeeds_iff.1 hfetch
      obtain rfl := Except.ok.inj (hpending.symm.trans hall)
      obtain ⟨hfound, hstatus⟩ := (hmem row).1 (List.mem_of_mem_take hrow)
      exact ⟨row, hfound, hstatus, rfl⟩
  | some lease =>
      refine ⟨fun rows hrows row hrow => ?_, .inr ⟨_, _, _, _, rfl⟩⟩
      have htaken : row ∈ (Op.claim (s.world.check c) p.config.batchSize lease
          (conditions.clock 0)).taken s.store := by
        simp only [Op.taken]
        rw [show (Repository.store.claimPending (s.world.check c) p.config.batchSize lease
          (conditions.clock 0) s.store).1 = .ok rows from hrows]
        exact hrow
      obtain ⟨-, lease', now, r, -, hfound, hclaimable, hclaim, -⟩ := Op.of_mem_taken h htaken
      refine ⟨r, hfound, (Row.isClaimable_iff.1 hclaimable).1, ?_⟩
      rw [hclaim, Row.written_claim]

/-- **A pass begins with rows that are pending**, and claiming them is all that it does to the
store. -/
theorem start_spec {p : Processor Store Transaction σ} (hp : p.repository = .store) (c : Context)
    (conditions : Conditions) (s : Site Store σ) (h : Filed s.store.tables) :
    (start p c conditions s).1.processor = p ∧
      (∀ row delivery calls rows,
        (start p c conditions s).1.phase ≠ .marking row delivery calls rows) ∧
      (∀ row ∈ (start p c conditions s).1.rows, ∃ r, rowAt s.store.tables row.id = some r ∧
        r.status = .pending ∧ row.written = r.written) ∧
      ((start p c conditions s).2.store = s.store ∨ ∃ context limit lease now,
        (start p c conditions s).2.store = Op.run s.store (.claim context limit lease now)) := by
  unfold start
  cases s.world.check c with
  | error e =>
      exact ⟨rfl, fun _ _ _ _ h => (by cases h), fun row hrow => (by cases hrow), .inl rfl⟩
  | ok _ =>
      have htake := takeRows_spec hp c conditions s h
      cases htaken : p.takeRows c conditions s with
      | mk result s' =>
          rw [htaken] at htake
          cases result with
          | error e =>
              exact ⟨rfl, fun _ _ _ _ h => (by cases h), fun row hrow => (by cases hrow), htake.2⟩
          | ok rows =>
              exact ⟨rfl, fun _ _ _ _ h => (by cases h), htake.1 rows rfl, htake.2⟩

end Pass

end Registrar.Outbox
