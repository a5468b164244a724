import Mathlib.Data.List.Nodup
import Registrar.Dispatch.Dispatcher

set_option autoImplicit false

/-! # What handlers are called with

Handlers can keep a journal of their calls without doing anything else differently (`noting`):
whatever the journal holds, a dispatch to such handlers has the same result, leaves the same world,
and adds the same calls to the journal (`Dispatcher.dispatch_noted`). So its journal tells what any
dispatch does. **A dispatch that its context does not refuse calls every handler that accepts the
event's name once, with that event, and succeeds exactly if all of them handled it.** -/

namespace Registrar

/-! ## Journals -/

/-- A call that a handler got, and its answer. -/
structure Heard (σ : Type) where
  handler : EventHandler σ
  event : Event
  verdict : Verdict

/-- What handlers keep, and the journal of their calls beside it. -/
structure Noted (σ : Type) where
  journal : List (Heard σ)
  own : σ

variable {σ : Type}

def Scene.forget (s : Scene (Noted σ)) : Scene σ := ⟨s.signals, s.clock, s.own.own⟩

/-- The world with an empty journal. -/
def World.noting (w : World σ) : World (Noted σ) :=
  ⟨⟨w.scene.signals, w.scene.clock, ⟨[], w.scene.own⟩⟩, w.samples, w.records⟩

def Scene.noted (s : Scene σ) (journal : List (Heard σ)) : Scene (Noted σ) :=
  ⟨s.signals, s.clock, ⟨journal, s.own⟩⟩

/-- The world with a journal. -/
def World.noted (w : World σ) (journal : List (Heard σ)) : World (Noted σ) :=
  ⟨w.scene.noted journal, w.samples, w.records⟩

/-- The same handler, keeping the journal. -/
def EventHandler.noting (h : EventHandler σ) : EventHandler (Noted σ) where
  name := h.name
  accepts := h.accepts
  react c e s :=
    let r := h.react c e s.forget
    ⟨r.verdict, r.raised, r.took, ⟨s.own.journal ++ [⟨h, e, r.verdict⟩], r.own⟩⟩

theorem EventHandler.call_noted (h : EventHandler σ) (c : Context) (e : Event) (s : Scene σ)
    (journal : List (Heard σ)) :
    h.noting.call c e (s.noted journal) =
      ((h.call c e s).1, (h.call c e s).2.noted (journal ++ [⟨h, e, (h.react c e s).verdict⟩])) :=
  rfl

theorem Verdict.failure?_eq_none_iff {v : Verdict} : v.failure? = none ↔ v = .handled := by
  cases v with
  | handled => simp [failure?]
  | failed e => simp [failure?]
  | panicked p => simp [failure?]

/-- The failure of a call, if it was one. -/
def Heard.failure? (x : Heard σ) : Option HandlerFailure :=
  x.verdict.failure?.map (⟨x.handler.name, ·⟩)

theorem eq_nil_iff_of_perm {α : Type} {l l' : List α} (h : l.Perm l') : l = [] ↔ l' = [] := by
  rw [← List.isEmpty_iff, h.isEmpty_eq, List.isEmpty_iff]

/-- Calls without a failure were all handled. -/
theorem failures_eq_nil_iff {calls : List (Heard σ)} :
    calls.filterMap Heard.failure? = [] ↔ ∀ x ∈ calls, x.verdict = .handled := by
  rw [List.filterMap_eq_nil_iff]
  exact forall₂_congr fun x _ => by
    rw [Heard.failure?, Option.map_eq_none_iff, Verdict.failure?_eq_none_iff]

namespace Dispatcher

/-- The same dispatcher over handlers that keep the journal. -/
def noting (d : Dispatcher σ) : Dispatcher (Noted σ) :=
  { d with handlers := d.handlers.map EventHandler.noting }

theorem matching_noting (d : Dispatcher σ) (name : String) :
    d.noting.matching name = (d.matching name).map EventHandler.noting :=
  List.filter_map

/-! ## One after another -/

/-- The calls that handlers get one after another, each in the scene that the one before it left. -/
def hearing (c : Context) (e : Event) : List (EventHandler σ) → Scene σ → List (Heard σ)
  | [], _ => []
  | h :: hs, s => ⟨h, e, (h.react c e s).verdict⟩ :: hearing c e hs (h.call c e s).2

theorem handlers_hearing (c : Context) (e : Event) (hs : List (EventHandler σ)) (s : Scene σ) :
    (hearing c e hs s).map (·.handler) = hs := by
  induction hs generalizing s with
  | nil => rfl
  | cons h hs ih => exact congrArg (h :: ·) (ih _)

theorem event_of_mem_hearing {c : Context} {e : Event} {hs : List (EventHandler σ)} {s : Scene σ}
    {x : Heard σ} (hx : x ∈ hearing c e hs s) : x.event = e := by
  induction hs generalizing s with
  | nil => cases hx
  | cons h hs ih =>
      rcases List.mem_cons.1 hx with rfl | hx
      · rfl
      · exact ih hx

/-- A failure that was collected in front of others, or none. -/
theorem filterMap_failure?_cons (h : EventHandler σ) (e : Event) (v : Verdict)
    (calls : List (Heard σ)) : (⟨h, e, v⟩ :: calls).filterMap Heard.failure? =
      match v.failure? with
      | some t => ⟨h.name, t⟩ :: calls.filterMap Heard.failure?
      | none => calls.filterMap Heard.failure? := by
  rw [List.filterMap_cons, Heard.failure?]
  cases v.failure? with
  | none => rfl
  | some t => rfl

theorem callAll_noted (c : Context) (e : Event) (hs : List (EventHandler σ)) (s : Scene σ)
    (journal : List (Heard σ)) :
    callAll c e (hs.map .noting) (s.noted journal) =
      ((callAll c e hs s).1, (callAll c e hs s).2.noted (journal ++ hearing c e hs s)) := by
  induction hs generalizing s journal with
  | nil =>
      rw [hearing, List.append_nil]
      rfl
  | cons h hs ih =>
      simp only [List.map_cons, callAll, h.call_noted, ih, hearing, List.append_assoc]
      rfl

theorem failures_callAll (c : Context) (e : Event) (hs : List (EventHandler σ)) (s : Scene σ) :
    (callAll c e hs s).1 = (hearing c e hs s).filterMap Heard.failure? := by
  induction hs generalizing s with
  | nil => rfl
  | cons h hs ih =>
      rw [hearing, filterMap_failure?_cons, ← ih]
      rfl

/-! ## Side by side -/

/-- Handlers in the order in which their tasks run. -/
def inTurn (o : Schedule) (hs : List (EventHandler σ)) : List (EventHandler σ) :=
  (o.runs hs.length).filterMap (hs[·]?)

theorem filterMap_getElem?_range (hs : List (EventHandler σ)) :
    (List.range hs.length).filterMap (hs[·]?) = hs := by
  induction hs with
  | nil => rfl
  | cons h hs ih =>
      have hfirst : (fun i => (h :: hs)[i]?) 0 = some h := rfl
      rw [List.length_cons, List.range_succ_eq_map, List.filterMap_cons_some hfirst,
        List.filterMap_map]
      exact congrArg (h :: ·) ih

theorem inTurn_perm (o : Schedule) (hs : List (EventHandler σ)) : (inTurn o hs).Perm hs := by
  have hruns := (o.runs_perm hs.length).filterMap (hs[·]?)
  rwa [filterMap_getElem?_range] at hruns

theorem runTasks_noted (c : Context) (e : Event) (hs : List (EventHandler σ)) (is : List Nat)
    (s : Scene σ) (journal : List (Heard σ)) :
    runTasks c e (hs.map .noting) is (s.noted journal) =
      ((runTasks c e hs is s).1, (runTasks c e hs is s).2.noted
        (journal ++ hearing c e (is.filterMap (hs[·]?)) s)) := by
  induction is generalizing s journal with
  | nil =>
      rw [List.filterMap_nil, hearing, List.append_nil]
      rfl
  | cons i is ih =>
      simp only [runTasks, List.getElem?_map]
      cases hi : hs[i]? with
      | none =>
          rw [List.filterMap_cons_none hi]
          exact ih s journal
      | some h =>
          rw [List.filterMap_cons_some hi]
          simp only [Option.map_some, h.call_noted, ih, hearing, List.append_assoc]
          rfl

theorem failures_runTasks (c : Context) (e : Event) (hs : List (EventHandler σ)) (is : List Nat)
    (s : Scene σ) : (runTasks c e hs is s).1.map (·.2) =
      (hearing c e (is.filterMap (hs[·]?)) s).filterMap Heard.failure? := by
  induction is generalizing s with
  | nil => rfl
  | cons i is ih =>
      simp only [runTasks]
      cases hi : hs[i]? with
      | none =>
          rw [List.filterMap_cons_none hi]
          exact ih s
      | some h =>
          rw [List.filterMap_cons_some hi, hearing, filterMap_failure?_cons, ← ih]
          simp only [EventHandler.call]
          cases (h.react c e s).verdict.failure? with
          | none => rfl
          | some t => rfl

/-- Tasks that fail are among those that ran, and fail in the order in which they ran. -/
theorem tasks_runTasks_sublist (c : Context) (e : Event) (hs : List (EventHandler σ))
    (is : List Nat) (s : Scene σ) : ((runTasks c e hs is s).1.map (·.1)).Sublist is := by
  induction is generalizing s with
  | nil => exact List.Sublist.slnil
  | cons i is ih =>
      simp only [runTasks]
      cases hs[i]? with
      | none => exact (ih s).cons i
      | some h =>
          simp only
          cases (h.call c e s).1 with
          | none => exact (ih _).cons i
          | some t => exact (ih _).cons_cons i

/-- The failure of a task, if it was one. -/
def failureOf (failures : List (Nat × HandlerFailure)) (i : Nat) : Option HandlerFailure :=
  (failures.find? (·.1 == i)).map (·.2)

theorem failureOf_of_mem {failures : List (Nat × HandlerFailure)}
    (hnodup : (failures.map (·.1)).Nodup) {f : Nat × HandlerFailure} (hf : f ∈ failures) :
    failureOf failures f.1 = some f.2 := by
  unfold failureOf
  cases hfind : failures.find? (·.1 == f.1) with
  | none => exact absurd (beq_self_eq_true f.1) (List.find?_eq_none.1 hfind f hf)
  | some g =>
      have hsame : g.1 = f.1 := by simpa using List.find?_some hfind
      rw [List.inj_on_of_nodup_map hnodup (List.mem_of_find?_eq_some hfind) hf hsame]
      rfl

theorem failureOf_of_not_mem {failures : List (Nat × HandlerFailure)} {i : Nat}
    (hi : i ∉ failures.map (·.1)) : failureOf failures i = none := by
  refine Option.map_eq_none_iff.2 (List.find?_eq_none.2 fun f hf hsame => hi ?_)
  rw [← beq_iff_eq.1 hsame]
  exact List.mem_map_of_mem hf

/-- Looking up all finished tasks finds every failure once. -/
theorem filterMap_failureOf_perm {failures : List (Nat × HandlerFailure)} {finished : List Nat}
    (hfinished : finished.Nodup) (hnodup : (failures.map (·.1)).Nodup)
    (hmem : ∀ f ∈ failures, f.1 ∈ finished) :
    (finished.filterMap (failureOf failures)).Perm (failures.map (·.2)) := by
  -- The finished tasks are those that failed, and others, which have nothing to report.
  have hsplit : finished.Perm (failures.map (·.1) ++
      finished.filter fun i => decide (i ∉ failures.map (·.1))) := by
    have hfailed : (finished.filter fun i => decide (i ∈ failures.map (·.1))).Perm
        (failures.map (·.1)) := by
      rw [List.perm_ext_iff_of_nodup (hfinished.filter _) hnodup]
      intro i
      rw [List.mem_filter, decide_eq_true_iff, and_iff_right_iff_imp]
      intro hi
      obtain ⟨f, hf, rfl⟩ := List.mem_map.1 hi
      exact hmem f hf
    have hparts := List.filter_append_perm (fun i => decide (i ∈ failures.map (·.1))) finished
    simp only [← decide_not] at hparts
    exact hparts.symm.trans (hfailed.append_right _)
  have hothers : (finished.filter fun i => decide (i ∉ failures.map (·.1))).filterMap
      (failureOf failures) = [] := by
    refine List.filterMap_eq_nil_iff.2 fun i hi => failureOf_of_not_mem ?_
    exact of_decide_eq_true (List.mem_filter.1 hi).2
  have hreported : (failures.map (·.1)).filterMap (failureOf failures) = failures.map (·.2) := by
    rw [List.filterMap_map, List.filterMap_eq_map_iff_forall_eq_some]
    exact fun f hf => failureOf_of_mem hnodup hf
  have hall := hsplit.filterMap (failureOf failures)
  rwa [List.filterMap_append, hothers, hreported, List.append_nil] at hall

/-- **What the joined tasks report are the failures of the calls**, in some order. -/
theorem failures_callConcurrently (c : Context) (e : Event) (hs : List (EventHandler σ))
    (o : Schedule) (s : Scene σ) :
    (callConcurrently c e hs o s).1.Perm
      ((hearing c e (inTurn o hs) s).filterMap Heard.failure?) := by
  have hsublist := tasks_runTasks_sublist c e hs (o.runs hs.length) s
  have hruns : (o.runs hs.length).Nodup := (o.runs_perm _).nodup_iff.2 List.nodup_range
  have hfinishes : (o.finishes hs.length).Nodup := (o.finishes_perm _).nodup_iff.2 List.nodup_range
  rw [inTurn, ← failures_runTasks]
  refine filterMap_failureOf_perm hfinishes (hruns.sublist hsublist) fun f hf => ?_
  rw [(o.finishes_perm _).mem_iff, ← (o.runs_perm _).mem_iff]
  exact hsublist.subset (List.mem_map_of_mem hf)

theorem callConcurrently_noted (c : Context) (e : Event) (o : Schedule)
    (hs : List (EventHandler σ)) (s : Scene σ) (journal : List (Heard σ)) :
    callConcurrently c e (hs.map .noting) o (s.noted journal) =
      ((callConcurrently c e hs o s).1, (callConcurrently c e hs o s).2.noted
        (journal ++ hearing c e (inTurn o hs) s)) := by
  simp only [callConcurrently, List.length_map, runTasks_noted]
  rfl

/-! ## Dispatches -/

theorem conclude_succeeds_iff (d : Dispatcher σ) (e : Event) (attempted : Nat)
    (failures : List HandlerFailure) (started : Nat) (w : World σ) :
    (d.conclude e attempted failures started w).1 = .ok () ↔ failures = [] := by
  unfold conclude
  cases failures with
  | nil => simp
  | cons f fs => simp

theorem conclude_noted (d : Dispatcher σ) (e : Event) (attempted : Nat)
    (failures : List HandlerFailure) (started : Nat) (w : World σ) (journal : List (Heard σ)) :
    d.noting.conclude e attempted failures started (w.noted journal) =
      ((d.conclude e attempted failures started w).1,
        (d.conclude e attempted failures started w).2.noted journal) := by
  unfold conclude
  have hmeasured : d.noting.measured = d.measured := rfl
  rw [hmeasured]
  cases d.measured with
  | true => rfl
  | false => rfl

/-- What a dispatch did: its context refused it before any call, or it called every handler that
accepts the event's name once, and its result says whether all of them handled the event. -/
def Accounts (d : Dispatcher σ) (e : Event) (check : Except ContextError Unit)
    (result : Except DispatchError Unit) (calls : List (Heard σ)) : Prop :=
  match check with
  | .error err => calls = [] ∧ result = .error (.context err)
  | .ok () => (calls.map (·.handler)).Perm (d.matching e.name) ∧ (∀ x ∈ calls, x.event = e) ∧
      (result = .ok () ↔ ∀ x ∈ calls, x.verdict = .handled)

theorem dispatchBy_of_ended (d : Dispatcher σ) {c : Context} (e : Event)
    (call : List (EventHandler σ) → Scene σ → List HandlerFailure × Scene σ) {w : World σ}
    {err : ContextError} (h : w.check c = .error err) :
    d.dispatchBy c e call w = (.error (.context err), w) := by
  simp only [dispatchBy, h]

theorem dispatchBy_of_active (d : Dispatcher σ) {c : Context} (e : Event)
    (call : List (EventHandler σ) → Scene σ → List HandlerFailure × Scene σ) {w : World σ}
    (h : w.check c = .ok ()) :
    d.dispatchBy c e call w =
      d.conclude e (d.matching e.name).length (call (d.matching e.name) w.readClock.2.scene).1
        w.scene.clock ⟨(call (d.matching e.name) w.readClock.2.scene).2, w.samples, w.records⟩ := by
  simp only [dispatchBy, h]
  rfl

/-- The calls of a dispatch that calls handlers in this order: none in a context that has ended. -/
def callsOf (c : Context) (e : Event) (order : List (EventHandler σ)) (w : World σ) :
    List (Heard σ) :=
  match w.check c with
  | .error _ => []
  | .ok () => hearing c e order w.readClock.2.scene

/-- What a way to call handlers adds to their journal is what a dispatch in this way adds. -/
theorem dispatchBy_noted (d : Dispatcher σ) {c : Context} {e : Event}
    {order : List (EventHandler σ)}
    {call : List (EventHandler σ) → Scene σ → List HandlerFailure × Scene σ}
    {call' : List (EventHandler (Noted σ)) → Scene (Noted σ) →
      List HandlerFailure × Scene (Noted σ)}
    (h : ∀ s journal, call' ((d.matching e.name).map .noting) (s.noted journal) =
      ((call (d.matching e.name) s).1,
        (call (d.matching e.name) s).2.noted (journal ++ hearing c e order s)))
    (w : World σ) (journal : List (Heard σ)) :
    d.noting.dispatchBy c e call' (w.noted journal) = ((d.dispatchBy c e call w).1,
      (d.dispatchBy c e call w).2.noted (journal ++ callsOf c e order w)) := by
  have hsame : (w.noted journal).check c = w.check c := rfl
  unfold callsOf
  cases hcheck : w.check c with
  | error err =>
      rw [hcheck] at hsame
      rw [dispatchBy_of_ended d e call hcheck, dispatchBy_of_ended d.noting e call' hsame,
        List.append_nil]
  | ok _ =>
      rw [hcheck] at hsame
      have hread : (w.noted journal).readClock.2.scene = w.readClock.2.scene.noted journal := rfl
      rw [dispatchBy_of_active d e call hcheck, dispatchBy_of_active d.noting e call' hsame,
        matching_noting, hread, h, List.length_map]
      exact conclude_noted d e _ _ _ ⟨_, w.samples, w.records⟩ _

theorem dispatchSequential_noted (d : Dispatcher σ) (c : Context) (e : Event) (w : World σ)
    (journal : List (Heard σ)) :
    d.noting.dispatchSequential c e (w.noted journal) = ((d.dispatchSequential c e w).1,
      (d.dispatchSequential c e w).2.noted (journal ++ callsOf c e (d.matching e.name) w)) :=
  dispatchBy_noted d (callAll_noted c e _) w journal

theorem dispatchConcurrent_noted (d : Dispatcher σ) (c : Context) (e : Event) (o : Schedule)
    (w : World σ) (journal : List (Heard σ)) :
    d.noting.dispatchConcurrent c e o (w.noted journal) = ((d.dispatchConcurrent c e o w).1,
      (d.dispatchConcurrent c e o w).2.noted
        (journal ++ callsOf c e (inTurn o (d.matching e.name)) w)) :=
  dispatchBy_noted d (callConcurrently_noted c e o _) w journal

/-- A dispatch that collects the failures of its calls accounts for them. -/
theorem accounts_dispatchBy (d : Dispatcher σ) {c : Context} {e : Event}
    {order : List (EventHandler σ)} (horder : order.Perm (d.matching e.name))
    {call : List (EventHandler σ) → Scene σ → List HandlerFailure × Scene σ}
    (h : ∀ s, (call (d.matching e.name) s).1.Perm ((hearing c e order s).filterMap Heard.failure?))
    (w : World σ) :
    d.Accounts e (w.check c) (d.dispatchBy c e call w).1 (callsOf c e order w) := by
  unfold Accounts callsOf
  cases hcheck : w.check c with
  | error err => exact ⟨rfl, congrArg Prod.fst (dispatchBy_of_ended d e call hcheck)⟩
  | ok _ =>
      refine ⟨?_, fun x hx => event_of_mem_hearing hx, ?_⟩
      · rw [handlers_hearing]
        exact horder
      · rw [dispatchBy_of_active d e call hcheck, conclude_succeeds_iff, ← failures_eq_nil_iff]
        exact eq_nil_iff_of_perm (h _)

/-- **A dispatch does the same when handlers keep a journal, and what it adds to the journal says
what it did.** -/
theorem dispatch_noted (d : Dispatcher σ) (c : Context) (e : Event) (o : Schedule) (w : World σ) :
    ∃ calls, (∀ journal, d.noting.dispatch c e o (w.noted journal) =
        ((d.dispatch c e o w).1, (d.dispatch c e o w).2.noted (journal ++ calls))) ∧
      d.Accounts e (w.check c) (d.dispatch c e o w).1 calls := by
  have hmode : d.noting.mode = d.mode := rfl
  unfold dispatch
  rw [hmode]
  cases d.mode with
  | sequential =>
      exact ⟨_, dispatchSequential_noted d c e w, accounts_dispatchBy d (.refl _)
        (fun s => .of_eq (failures_callAll c e _ s)) w⟩
  | concurrent =>
      exact ⟨_, dispatchConcurrent_noted d c e o w, accounts_dispatchBy d (inTurn_perm o _)
        (failures_callConcurrently c e _ o) w⟩

end Dispatcher

end Registrar
