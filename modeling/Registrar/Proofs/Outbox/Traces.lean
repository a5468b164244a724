import Registrar.Proofs.Outbox.Settling

set_option autoImplicit false

/-! # The traces of a pass

Besides its marks a pass leaves two traces. Handlers that keep a journal find in it the calls of all
trials, one trial after another, and for the rest the pass goes as if they kept none
(`process_noted`). And there are samples: one of each event that was dispatched, if the dispatcher
takes samples, and one of each row as it was left, if the processor does (`samples_worldAt`). -/

namespace Registrar

variable {σ : Type}

/-- The samples of one kind, in order. -/
def World.samplesOf (w : World σ) (kind : MetricKind) : List Sample :=
  w.samples.filter (·.kind = kind)

theorem World.samplesOf_take (w : World σ) (x : Sample) (kind : MetricKind) :
    (w.take x).samplesOf kind = w.samplesOf kind ++ if x.kind = kind then [x] else [] := by
  by_cases h : x.kind = kind <;> simp [samplesOf, World.take, h]

/-- A measured dispatch takes one sample, under the event's name. -/
theorem Dispatcher.samples_dispatch (d : Dispatcher σ) {c : Context} (e : Event) (o : Schedule)
    {w : World σ} (hactive : w.check c = .ok ()) :
    ∃ x : Sample, x.kind = .eventDispatch ∧ x.name = e.name ∧
      (d.dispatch c e o w).2.samples = w.samples ++ if d.measured then [x] else [] := by
  have hby : ∀ call : List (EventHandler σ) → Scene σ → List HandlerFailure × Scene σ,
      ∃ x : Sample, x.kind = .eventDispatch ∧ x.name = e.name ∧
        (d.dispatchBy c e call w).2.samples = w.samples ++ if d.measured then [x] else [] := by
    intro call
    unfold dispatchBy conclude
    rw [hactive]
    cases d.measured with
    | true => exact ⟨_, rfl, rfl, rfl⟩
    | false => exact ⟨.timed .eventDispatch e.name .success 0, rfl, rfl, (List.append_nil _).symm⟩
  unfold dispatch
  cases d.mode with
  | sequential => exact hby _
  | concurrent => exact hby _

namespace Outbox

/-! ## Journals -/

/-- The site with a journal. -/
def Site.noted (s : Site Store σ) (journal : List (Heard σ)) : Site Store (Noted σ) :=
  ⟨s.store, s.world.noted journal⟩

namespace Processor

variable (p : Processor Store Transaction σ) (c : Context) (conditions : Conditions)

theorem takeRows_noted (s : Site Store σ) (journal : List (Heard σ)) :
    p.noting.takeRows c conditions (s.noted journal) =
      ((p.takeRows c conditions s).1, (p.takeRows c conditions s).2.noted journal) := by
  have hconfig : p.noting.config = p.config := rfl
  unfold takeRows
  rw [hconfig]
  cases p.config.lease with
  | none => rfl
  | some lease => rfl

theorem note_noted (row : Row) (result : String) (s : Site Store σ) (journal : List (Heard σ)) :
    p.noting.note row result (s.noted journal) = (p.note row result s).noted journal := by
  have hmeasured : p.noting.measured = p.measured := rfl
  unfold note
  rw [hmeasured]
  cases p.measured with
  | true => rfl
  | false => rfl

theorem settleDelivered_noted (now : Reading) (row : Row) (r : Report) (s : Site Store σ)
    (journal : List (Heard σ)) :
    p.noting.settleDelivered c now row r (s.noted journal) =
      ((p.settleDelivered c now row r s).1, (p.settleDelivered c now row r s).2.noted journal) := by
  have hmark : p.noting.repository.markSent ((s.noted journal).world.check c) row.id now
      (s.noted journal).store = p.repository.markSent (s.world.check c) row.id now s.store := rfl
  unfold settleDelivered
  rw [hmark]
  cases p.repository.markSent (s.world.check c) row.id now s.store with
  | mk result store =>
      cases result with
      | error e => rfl
      | ok _ => exact congrArg (Prod.mk _) (p.note_noted row "sent" { s with store } journal)

theorem settleFailed_noted (now : Reading) (row : Row) (reason : String) (r : Report)
    (s : Site Store σ) (journal : List (Heard σ)) :
    p.noting.settleFailed c now row reason r (s.noted journal) =
      ((p.settleFailed c now row reason r s).1,
        (p.settleFailed c now row reason r s).2.noted journal) := by
  have hmark : p.noting.repository.markFailed ((s.noted journal).world.check c) row.id reason now
      (s.noted journal).store =
        p.repository.markFailed (s.world.check c) row.id reason now s.store := rfl
  have hexhausted : p.noting.isExhausted = p.isExhausted := rfl
  unfold settleFailed
  rw [hmark, hexhausted]
  cases p.repository.markFailed (s.world.check c) row.id reason now s.store with
  | mk result store =>
      cases result with
      | error e => rfl
      | ok attempts =>
          cases hlast : p.isExhausted attempts with
          | false =>
              simp only [hlast, Bool.false_eq_true, if_false]
              exact congrArg (Prod.mk _) (p.note_noted row "retry" { s with store } journal)
          | true =>
              have hgive : p.noting.repository.deadLetter
                  (({ s.noted journal with store } : Site Store (Noted σ)).world.check c) row.id
                    store =
                    p.repository.deadLetter (s.world.check c) row.id store := rfl
              simp only [hlast, if_true, hgive]
              cases p.repository.deadLetter (s.world.check c) row.id store with
              | mk result store' =>
                  cases result with
                  | error e => rfl
                  | ok _ =>
                      exact congrArg (Prod.mk _)
                        (p.note_noted row "dead_letter" { s with store := store' } journal)

/-- A row whose delivery is called for adds the calls of its delivery. -/
theorem settle_noted (i : Nat) (row : Row) (r : Report) {s : Site Store σ}
    (hactive : s.world.check c = .ok ()) (journal : List (Heard σ)) :
    p.noting.settle c conditions i row r (s.noted journal) =
      ((p.settle c conditions i row r s).1, (p.settle c conditions i row r s).2.noted
        (journal ++ p.calls c (conditions.schedule i) row s.world)) := by
  have hactive' : (s.noted journal).world.check c = .ok () := hactive
  have hdeliver := (p.deliver_accounts c (conditions.schedule i) row s.world).1 journal
  unfold settle
  rw [hactive, hactive', show (s.noted journal).world = s.world.noted journal from rfl, hdeliver]
  cases p.deliver c (conditions.schedule i) row s.world with
  | mk delivery world =>
      cases delivery with
      | delivered => exact p.settleDelivered_noted c _ row r { s with world } _
      | interrupted e => rfl
      | failed reason => exact p.settleFailed_noted c _ row reason r { s with world } _

theorem settleAll_noted (rows : List Row) :
    ∀ (i : Nat) (r : Report) (s : Site Store σ) (journal : List (Heard σ)),
      p.noting.settleAll c conditions i rows r (s.noted journal) =
        ((p.settleAll c conditions i rows r s).1, (p.settleAll c conditions i rows r s).2.noted
          (journal ++ (p.trialsFrom c conditions i rows r s).flatMap (·.calls))) := by
  induction rows with
  | nil =>
      intro i r s journal
      simp only [settleAll, trialsFrom, List.flatMap_nil, List.append_nil]
  | cons row rows ih =>
      intro i r s journal
      cases hactive : s.world.check c with
      | error e =>
          have hactive' : (s.noted journal).world.check c = .error e := hactive
          simp only [settleAll, settle, trialsFrom, hactive, hactive', List.flatMap_nil,
            List.append_nil]
      | ok _ =>
          simp only [settleAll, trialsFrom, p.settle_noted c conditions i row r hactive, hactive]
          cases p.settle c conditions i row r s with
          | mk result s' =>
              cases result with
              | error e => simp [trial]
              | ok r' => simp [trial, ih]

/-- **A pass does the same when handlers keep a journal, and adds the calls of its trials
to it.** -/
theorem process_noted (s : Site Store σ) (journal : List (Heard σ)) :
    p.noting.process c conditions (s.noted journal) =
      ((p.process c conditions s).1, (p.process c conditions s).2.noted
        (journal ++ (p.trials c conditions s).flatMap (·.calls))) := by
  have hcheck : (s.noted journal).world.check c = s.world.check c := rfl
  unfold process trials
  rw [hcheck, p.takeRows_noted]
  cases s.world.check c with
  | error e => simp
  | ok _ =>
      cases p.takeRows c conditions s with
      | mk result s' =>
          cases result with
          | error e => simp
          | ok rows => exact p.settleAll_noted c conditions rows 0 _ s' journal

end Processor

/-! ## Samples -/

namespace Processor

variable {p : Processor Store Transaction σ} {c : Context} {conditions : Conditions}

/-- The name of the event that a row holds, if it can be read. -/
def eventName? (p : Processor Store Transaction σ) (row : Row) : Option String :=
  match p.serializer.deserialize row.payload row.eventName with
  | .ok e => some e.name
  | .error _ => none

/-- A delivery takes no samples but that of its dispatch. -/
theorem samples_deliver (p : Processor Store Transaction σ) (o : Schedule) (row : Row) {w : World σ}
    (hactive : w.check c = .ok ()) :
    (p.deliver c o row w).2.samplesOf .outbox = w.samplesOf .outbox ∧
      ((p.deliver c o row w).2.samplesOf .eventDispatch).map (·.name) =
        (w.samplesOf .eventDispatch).map (·.name) ++
          if p.dispatcher.measured then (p.eventName? row).toList else [] := by
  unfold eventName?
  cases hread : p.serializer.deserialize row.payload row.eventName with
  | error e =>
      have hworld : (p.deliver c o row w).2 = w := by
        unfold deliver
        rw [hread]
      rw [hworld]
      exact ⟨rfl, by simp⟩
  | ok e =>
      rw [p.deliver_of_decoded c o hread]
      obtain ⟨x, hkind, hname, hsamples⟩ := p.dispatcher.samples_dispatch e o hactive
      unfold World.samplesOf
      rw [hsamples]
      cases p.dispatcher.measured <;> simp [hkind, hname]

theorem samples_tell (p : Processor Store Transaction σ) (row : Row) (w : World σ) :
    (p.tell row w).samplesOf .outbox =
        w.samplesOf .outbox ++ (if p.measured then [row.sample] else []) ∧
      (p.tell row w).samplesOf .eventDispatch = w.samplesOf .eventDispatch := by
  unfold tell
  cases p.measured with
  | true =>
      refine ⟨w.samplesOf_take row.sample .outbox,
        (w.samplesOf_take row.sample .eventDispatch).trans ?_⟩
      exact List.append_nil _
  | false => exact ⟨(List.append_nil _).symm, rfl⟩

/-- **The samples after the first `k` trials**: of each row as it was left, and of each dispatch. -/
theorem samples_worldAt {s : Site Store σ} {k : Nat} (hk : k ≤ (p.held conditions s).length)
    (hactive : ∀ j < k, (p.worldAt c conditions s j).check c = .ok ()) :
    (p.worldAt c conditions s k).samplesOf .outbox = s.world.samplesOf .outbox ++
        (if p.measured then ((p.allLeft c conditions s).take k).map Row.sample else []) ∧
      ((p.worldAt c conditions s k).samplesOf .eventDispatch).map (·.name) =
        (s.world.samplesOf .eventDispatch).map (·.name) ++
          if p.dispatcher.measured then ((p.held conditions s).take k).filterMap p.eventName?
          else [] := by
  induction k with
  | zero => simp [worldAt]
  | succ k ih =>
      obtain ⟨houtbox, hdispatch⟩ := ih (Nat.le_of_succ_le hk) fun j hj =>
        hactive j (Nat.lt_succ_of_lt hj)
      let row := (p.held conditions s)[k]
      have hrow : (p.held conditions s)[k]? = some row := List.getElem?_eq_getElem hk
      obtain ⟨hdeliver, hdeliver'⟩ := p.samples_deliver (conditions.schedule k) row
        (hactive k (Nat.lt_succ_self k))
      rw [worldAt_succ hrow, afterTrial, (samples_tell _ _ _).1, (samples_tell _ _ _).2, hdeliver,
        hdeliver', houtbox, hdispatch, List.take_add_one, List.take_add_one, getElem?_allLeft hrow,
        hrow]
      constructor
      · cases p.measured <;> simp
      · have hname : [row].filterMap p.eventName? = (p.eventName? row).toList := by
          cases hname : p.eventName? row <;> simp [hname]
        rw [Option.toList_some, List.filterMap_append, hname]
        cases p.dispatcher.measured <;> simp

end Processor

end Outbox

end Registrar
