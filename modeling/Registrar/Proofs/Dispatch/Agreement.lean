import Registrar.Proofs.Dispatch.Reports

set_option autoImplicit false

/-! # Both modes agree

Tasks that run side by side may run in any order, and their results may come in any other. As long
as the verdicts of the handlers do not depend on each other (`Independent`), neither order matters:
every handler comes to the verdict that it would come to alone (`hearing_tasks`), so the calls and
the failures are those of a dispatch that calls one handler after another, in some order
(`modes_agree`).

How long a dispatch took is not compared: side by side is not one after another. -/

namespace Registrar

variable {σ : Type}

namespace Dispatcher

/-! ## Independent handlers -/

/-- **Whichever of the others ran before it, and in whatever order, a handler comes to the verdict
that it would come to at the start.** A handler is told from the others by its place. -/
def Independent (c : Context) (e : Event) (hs : List (EventHandler σ)) (s : Scene σ) : Prop :=
  ∀ i h, hs[i]? = some h → ∀ others : List Nat, others.Nodup → i ∉ others →
    (h.react c e (callAll c e (others.filterMap (hs[·]?)) s).2).verdict = (h.react c e s).verdict

/-- The call that the handler at a place would get if it were called first. -/
def firstCall (c : Context) (e : Event) (hs : List (EventHandler σ)) (s : Scene σ) (i : Nat) :
    Option (Heard σ) :=
  hs[i]?.map fun h => ⟨h, e, (h.react c e s).verdict⟩

theorem scene_callAll_append (c : Context) (e : Event) (hs hs' : List (EventHandler σ))
    (s : Scene σ) :
    (callAll c e (hs ++ hs') s).2 = (callAll c e hs' (callAll c e hs s).2).2 := by
  induction hs generalizing s with
  | nil => rfl
  | cons h hs ih => exact ih _

/-- Each of some tasks that run after others is called as if it were the first. -/
theorem hearing_tasks {c : Context} {e : Event} {hs : List (EventHandler σ)} {s : Scene σ}
    (h : Independent c e hs s) (ran is : List Nat) (hnodup : (ran ++ is).Nodup) :
    hearing c e (is.filterMap (hs[·]?)) (callAll c e (ran.filterMap (hs[·]?)) s).2 =
      is.filterMap (firstCall c e hs s) := by
  -- The induction is on the tasks to come; those that ran are all that a verdict could depend on.
  induction is generalizing ran with
  | nil => rfl
  | cons i is ih =>
      have hrest : (ran ++ [i] ++ is).Nodup := by rwa [List.append_cons] at hnodup
      have hnext := ih (ran ++ [i]) hrest
      rw [List.filterMap_append, scene_callAll_append] at hnext
      cases hi : hs[i]? with
      | none =>
          have hfirst : firstCall c e hs s i = none := by rw [firstCall, hi, Option.map_none]
          rw [List.filterMap_cons_none hi, List.filterMap_nil] at hnext
          rw [List.filterMap_cons_none hi, List.filterMap_cons_none hfirst]
          exact hnext
      | some handler =>
          have hran : ran.Nodup := hnodup.sublist (List.sublist_append_left _ _)
          have hnew : i ∉ ran := fun hmem =>
            (List.nodup_append.1 hnodup).2.2 i hmem i List.mem_cons_self rfl
          have hfirst : firstCall c e hs s i =
              some ⟨handler, e, (handler.react c e s).verdict⟩ := by
            rw [firstCall, hi, Option.map_some]
          rw [List.filterMap_cons_some hi, List.filterMap_nil] at hnext
          rw [List.filterMap_cons_some hi, List.filterMap_cons_some hfirst, hearing,
            h i handler hi ran hran hnew]
          exact congrArg _ hnext

/-- **Side by side, independent handlers get the same calls**, in some order. -/
theorem hearing_inTurn_perm {c : Context} {e : Event} {hs : List (EventHandler σ)} {s : Scene σ}
    (h : Independent c e hs s) (o : Schedule) :
    (hearing c e (inTurn o hs) s).Perm (hearing c e hs s) := by
  have hside : hearing c e (inTurn o hs) s = (o.runs hs.length).filterMap (firstCall c e hs s) :=
    hearing_tasks h [] _ ((o.runs_perm _).nodup_iff.2 List.nodup_range)
  have hone : hearing c e ((List.range hs.length).filterMap (hs[·]?)) s =
      (List.range hs.length).filterMap (firstCall c e hs s) :=
    hearing_tasks h [] _ List.nodup_range
  rw [filterMap_getElem?_range] at hone
  rw [hside, hone]
  exact (o.runs_perm _).filterMap _

/-! ## Results -/

/-- Results that tell the same, but perhaps the failures in another order. -/
inductive SameTold : Except DispatchError Unit → Except DispatchError Unit → Prop where
  | succeeded : SameTold (.ok ()) (.ok ())
  | failed (eventName : String) (attempted : Nat) {failures failures' : List HandlerFailure}
      (reordered : failures'.Perm failures) :
      SameTold (.error (.handlersFailed eventName attempted failures))
        (.error (.handlersFailed eventName attempted failures'))

theorem SameTold.of_reports {d : Dispatcher σ} {e : Event} {w : World σ}
    {failures failures' : List HandlerFailure} {out out' : Except DispatchError Unit × World σ}
    (h : d.Reports e failures w out) (h' : d.Reports e failures' w out')
    (hperm : failures'.Perm failures) : SameTold out.1 out'.1 := by
  rw [h.result, h'.result]
  by_cases hnone : failures = []
  · rw [if_pos hnone, if_pos ((eq_nil_iff_of_perm hperm).2 hnone)]
    exact .succeeded
  · rw [if_neg hnone, if_neg fun hnone' => hnone ((eq_nil_iff_of_perm hperm).1 hnone')]
    exact .failed _ _ hperm

theorem SameTold.outcome_eq {result result' : Except DispatchError Unit}
    (h : SameTold result result') : Outcome.ofExcept result = Outcome.ofExcept result' := by
  cases h with
  | succeeded => rfl
  | failed eventName attempted reordered => rfl

/-- **Both modes agree** on handlers whose verdicts do not depend on each other, whatever the orders
in which tasks run and finish: side by side the same handlers get the same calls, each once, the
result is the same but for the order of the failures, and the sample but for the time. In a context
that has ended neither mode calls anybody or does anything else. -/
theorem modes_agree (d : Dispatcher σ) (c : Context) (e : Event) (o : Schedule) (w : World σ)
    (hindependent : Independent c e (d.matching e.name) w.readClock.2.scene) :
    let one := d.dispatchSequential c e w
    let side := d.dispatchConcurrent c e o w
    ∃ calls calls' : List (Heard σ),
      (∀ journal, d.noting.dispatchSequential c e (w.noted journal) =
        (one.1, one.2.noted (journal ++ calls))) ∧
      (∀ journal, d.noting.dispatchConcurrent c e o (w.noted journal) =
        (side.1, side.2.noted (journal ++ calls'))) ∧
      calls'.Perm calls ∧
      match w.check c with
      | .error err => calls = [] ∧ one = (.error (.context err), w) ∧ side = one
      | .ok () => calls.map (·.handler) = d.handlers.filter (·.accepts e.name) ∧
          SameTold one.1 side.1 ∧
          ∃ outcome nanos nanos',
            one.2.samples = w.samples ++
              (if d.measured then [.timed .eventDispatch e.name outcome nanos] else []) ∧
            side.2.samples = w.samples ++
              (if d.measured then [.timed .eventDispatch e.name outcome nanos'] else []) := by
  intro one side
  refine ⟨_, _, dispatchSequential_noted d c e w, dispatchConcurrent_noted d c e o w, ?_⟩
  unfold callsOf
  cases hcheck : w.check c with
  | error err =>
      have hone : one = (.error (.context err), w) := dispatchBy_of_ended d e _ hcheck
      have hside : side = (.error (.context err), w) := dispatchBy_of_ended d e _ hcheck
      exact ⟨.refl _, rfl, hone, hside.trans hone.symm⟩
  | ok _ =>
      have hcalls := hearing_inTurn_perm hindependent o
      have hone : d.Reports e (callAll c e (d.matching e.name) w.readClock.2.scene).1 w one :=
        dispatchBy_reports d e _ hcheck
      have hside : d.Reports e
          (callConcurrently c e (d.matching e.name) o w.readClock.2.scene).1 w side :=
        dispatchBy_reports d e (fun hs => callConcurrently c e hs o) hcheck
      have hfailures : (callConcurrently c e (d.matching e.name) o w.readClock.2.scene).1.Perm
          (callAll c e (d.matching e.name) w.readClock.2.scene).1 := by
        rw [failures_callAll]
        exact (failures_callConcurrently ..).trans (hcalls.filterMap _)
      have hsame : SameTold one.1 side.1 := .of_reports hone hside hfailures
      obtain ⟨nanos, hsample⟩ := hone.sample
      obtain ⟨nanos', hsample'⟩ := hside.sample
      rw [← hsame.outcome_eq] at hsample'
      exact ⟨hcalls, handlers_hearing c e _ _, hsame, _, nanos, nanos', hsample, hsample'⟩

/-! ## Three handlers -/

/-- Handlers that do not look at the scene are independent. -/
theorem independent_of_unmoved {c : Context} {e : Event} {hs : List (EventHandler σ)}
    (h : ∀ handler ∈ hs, ∀ s s', (handler.react c e s).verdict = (handler.react c e s').verdict)
    (s : Scene σ) : Independent c e hs s :=
  fun _ handler hi _ _ _ => h handler (List.mem_of_getElem? hi) _ s

/-- Counts its call, cancels the context, and comes to this verdict. -/
def unmoved (name : String) (verdict : Verdict) : EventHandler Nat :=
  ⟨name, fun _ => true, fun c _ s => ⟨verdict, [c.flag], 1, s.own + 1⟩⟩

/-- One handler that handles everything, one that panics and one that fails. -/
def threeUnmoved : Dispatcher Nat :=
  ⟨.concurrent, true, [unmoved "audit" .handled, unmoved "bomb" (.panicked (.text "boom")),
    unmoved "mailer" (.failed ⟨"not sent", ["no route"]⟩)]⟩

/-- Tasks run and finish last first. -/
def lastFirst : Schedule :=
  ⟨fun n => (List.range n).reverse, fun n => (List.range n).reverse,
    fun _ => List.reverse_perm _, fun _ => List.reverse_perm _⟩

/-- A context and a world in which nothing has happened yet. -/
def daybreak : Context × World Nat :=
  let (c, signals) := Context.create .nil .none
  (c, .start ⟨signals, 0, 0⟩)

def someHappening : Event := .new ⟨.ofNat 1⟩ .epoch "user.created" ⟨.ofNat 2⟩ []

/-- Last first, the panic is reported after the failure; otherwise the modes agree. -/
theorem modes_agree_lastFirst :
    let side := threeUnmoved.dispatchConcurrent daybreak.1 someHappening lastFirst daybreak.2
    SameTold (threeUnmoved.dispatchSequential daybreak.1 someHappening daybreak.2).1 side.1 ∧
      side.1 = .error (.handlersFailed "user.created" 3
        [⟨"mailer", "not sent: no route"⟩, ⟨"bomb", "panicked: boom"⟩]) := by
  have hunmoved : ∀ handler ∈ threeUnmoved.matching someHappening.name, ∀ s s',
      (handler.react daybreak.1 someHappening s).verdict =
        (handler.react daybreak.1 someHappening s').verdict := by
    intro handler hmem s s'
    have hone : handler ∈ threeUnmoved.handlers := (List.mem_filter.1 hmem).1
    simp only [threeUnmoved, List.mem_cons, List.not_mem_nil, or_false] at hone
    rcases hone with rfl | rfl | rfl <;> rfl
  obtain ⟨calls, calls', -, -, -, hagree⟩ := modes_agree threeUnmoved daybreak.1 someHappening
    lastFirst daybreak.2 (independent_of_unmoved hunmoved _)
  exact ⟨hagree.2.1, rfl⟩

end Dispatcher

end Registrar
