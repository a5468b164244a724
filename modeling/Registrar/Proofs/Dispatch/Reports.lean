import Registrar.Proofs.Dispatch.Journal

set_option autoImplicit false

/-! # What a dispatch reports

A dispatch that its context does not refuse reports on its calls in two ways: its result names the
handlers that failed, and its sample says whether there were any (`Reports`). One after another,
every handler that accepts the event's name is called once, in the order of registration, whatever
became of those before it (`sequential_calls_all`). -/

namespace Registrar

variable {σ : Type}

namespace Dispatcher

/-- **What is reported of these failures**: they all, in their order, or a success if there are
none; and the sample of a measured dispatcher tells the two apart. -/
structure Reports (d : Dispatcher σ) (e : Event) (failures : List HandlerFailure) (w : World σ)
    (out : Except DispatchError Unit × World σ) : Prop where
  result : out.1 = if failures = [] then .ok ()
    else .error (.handlersFailed e.name (d.matching e.name).length failures)
  sample : ∃ nanos, out.2.samples = w.samples ++
    if d.measured then [.timed .eventDispatch e.name (.ofExcept out.1) nanos] else []

theorem dispatchBy_reports (d : Dispatcher σ) {c : Context} (e : Event)
    (call : List (EventHandler σ) → Scene σ → List HandlerFailure × Scene σ) {w : World σ}
    (hactive : w.check c = .ok ()) :
    d.Reports e (call (d.matching e.name) w.readClock.2.scene).1 w (d.dispatchBy c e call w) := by
  rw [dispatchBy_of_active d e call hactive]
  constructor
  · simp only [conclude, List.isEmpty_iff]
  · simp only [conclude]
    cases d.measured with
    | true => exact ⟨_, rfl⟩
    | false => exact ⟨0, (List.append_nil _).symm⟩

theorem Reports.succeeds_iff {d : Dispatcher σ} {e : Event} {failures : List HandlerFailure}
    {w : World σ} {out : Except DispatchError Unit × World σ} (h : d.Reports e failures w out) :
    out.1 = .ok () ↔ failures = [] := by
  rw [h.result]
  by_cases hnone : failures = []
  · simp [hnone]
  · simp [hnone]

/-- A result that is none of a success names the failures. -/
theorem Reports.error_eq {d : Dispatcher σ} {e : Event} {failures : List HandlerFailure}
    {w : World σ} {out : Except DispatchError Unit × World σ} (h : d.Reports e failures w out)
    {err : DispatchError} (herr : out.1 = .error err) :
    err = .handlersFailed e.name (d.matching e.name).length failures := by
  rw [h.result] at herr
  split at herr
  · cases herr
  · exact (Except.error.inj herr).symm

/-- **One after another**, every handler that accepts the event's name is called once with the
event, in the order of registration; what the handlers that are called could write down shows it.
The dispatch fails just if one of them does, and then names all that failed with what each of them
said; either way it takes one sample. In a context that has ended nobody is called, and nothing else
happens. -/
theorem sequential_calls_all (d : Dispatcher σ) (c : Context) (e : Event) (w : World σ) :
    let out := d.dispatchSequential c e w
    let noted := fun journal => d.noting.dispatchSequential c e (w.noted journal)
    match w.check c with
    | .error err => out = (.error (.context err), w) ∧
        ∀ journal, noted journal = (.error (.context err), w.noted journal)
    | .ok () => ∃ calls : List (Heard σ),
        (∀ journal, noted journal = (out.1, out.2.noted (journal ++ calls))) ∧
        calls.map (·.handler) = d.handlers.filter (·.accepts e.name) ∧
        (∀ x ∈ calls, x.event = e) ∧
        (out.1 = .ok () ↔ ∀ x ∈ calls, x.verdict = .handled) ∧
        (∀ err, out.1 = .error err → err = .handlersFailed e.name
          (d.handlers.filter (·.accepts e.name)).length (calls.filterMap Heard.failure?)) ∧
        ∃ nanos, out.2.samples = w.samples ++
          if d.measured then [.timed .eventDispatch e.name (.ofExcept out.1) nanos] else [] := by
  intro out noted
  have hnoted := dispatchSequential_noted d c e w
  unfold callsOf at hnoted
  cases hcheck : w.check c with
  | error err =>
      have hout : out = (.error (.context err), w) := dispatchBy_of_ended d e _ hcheck
      refine ⟨hout, fun journal => ?_⟩
      simp only [hcheck, List.append_nil] at hnoted
      rw [show noted journal = _ from hnoted journal, show d.dispatchSequential c e w = _ from hout]
  | ok _ =>
      simp only [hcheck] at hnoted
      have hreports := dispatchBy_reports d e (callAll c e) hcheck
      rw [failures_callAll] at hreports
      exact ⟨_, hnoted, handlers_hearing c e _ _, fun x hx => event_of_mem_hearing hx,
        hreports.succeeds_iff.trans failures_eq_nil_iff, fun err herr => hreports.error_eq herr,
        hreports.sample⟩

end Dispatcher

end Registrar
