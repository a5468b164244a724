import Registrar.Proofs.Dispatch.Journal

set_option autoImplicit false

/-! # Events in succession

A dispatcher goes through a list of events as long as each dispatch succeeds. The reference is the
succession of turns (`turns`): every event is dispatched in the world that the turn before it left,
whatever came of that turn. **A dispatch of the whole list takes these turns up to and including the
first that fails** (`dispatchFrom_taken`). So it ends with the error of that turn under its number,
and calls whom the turns that it took call (`stops_at_first_failure`).

A handler may end the context that all turns share. The turn after its own is then the first that
fails: its context refuses it before anybody is called. -/

namespace Registrar

variable {σ : Type}

/-- An event whose turn it is: its number, and the world in which it is dispatched. -/
structure Turn (σ : Type) where
  index : Nat
  event : Event
  before : World σ

namespace Dispatcher

section

variable (d : Dispatcher σ) (c : Context) (schedules : Nat → Schedule)

/-! ## Turns -/

/-- What comes of a turn, and the world that it leaves. -/
def outcome (t : Turn σ) : Except DispatchError Unit × World σ :=
  d.dispatch c t.event (schedules t.index) t.before

/-- The calls that handlers get in a turn, as they write them down. -/
def called (t : Turn σ) : List (Heard σ) :=
  (d.noting.dispatch c t.event (schedules t.index) (t.before.noted [])).2.scene.own.journal

/-- **A turn for each event**, the first of which has the given number. Each begins in the world
that the turn before it left, also if that turn failed. -/
def turns (index : Nat) : List Event → World σ → List (Turn σ)
  | [], _ => []
  | e :: es, w => ⟨index, e, w⟩ :: turns (index + 1) es (d.outcome c schedules ⟨index, e, w⟩).2

/-- The world that some turns leave which began in the given one. -/
def leaves (w : World σ) (ts : List (Turn σ)) : World σ :=
  ts.getLast?.elim w fun t => (d.outcome c schedules t).2

/-- **The turns that are taken**: all there are, if they all succeed, or those up to and including
the first that fails. -/
inductive Taken : List (Turn σ) → List (Turn σ) → Except DispatchAllError Unit → Prop where
  | all {ts : List (Turn σ)} (succeeded : ∀ t ∈ ts, (d.outcome c schedules t).1 = .ok ()) :
      Taken ts ts (.ok ())
  | upTo {done rest : List (Turn σ)} {t : Turn σ} {source : DispatchError}
      (succeeded : ∀ t' ∈ done, (d.outcome c schedules t').1 = .ok ())
      (failed : (d.outcome c schedules t).1 = .error source) :
      Taken (done ++ t :: rest) (done ++ [t]) (.error ⟨t.index, t.event.name, source⟩)

end

variable {d : Dispatcher σ} {c : Context} {schedules : Nat → Schedule}

theorem map_event_turns (index : Nat) (es : List Event) (w : World σ) :
    (d.turns c schedules index es w).map (·.event) = es := by
  induction es generalizing index w with
  | nil => rfl
  | cons e es ih => exact congrArg (e :: ·) (ih _ _)

/-- Turns are numbered without gaps. -/
theorem index_of_getElem?_turns {index i : Nat} {es : List Event} {w : World σ} {t : Turn σ}
    (ht : (d.turns c schedules index es w)[i]? = some t) : t.index = index + i := by
  induction es generalizing index i w with
  | nil => cases ht
  | cons e es ih =>
      cases i with
      | zero =>
          obtain rfl : _ = t := Option.some.inj ht
          rfl
      | succ i =>
          have hrest : t.index = index + 1 + i := ih ht
          omega

/-- A turn begins where the one before it ended. -/
theorem before_of_getElem?_turns {index i : Nat} {es : List Event} {w : World σ} {t next : Turn σ}
    (ht : (d.turns c schedules index es w)[i]? = some t)
    (hnext : (d.turns c schedules index es w)[i + 1]? = some next) :
    next.before = (d.outcome c schedules t).2 := by
  induction es generalizing index i w with
  | nil => cases ht
  | cons e es ih =>
      cases i with
      | zero =>
          obtain rfl : _ = t := Option.some.inj ht
          cases es with
          | nil => cases hnext
          | cons e' es =>
              obtain rfl : _ = next := Option.some.inj hnext
              rfl
      | succ i => exact ih ht hnext

theorem leaves_cons (w : World σ) (t : Turn σ) (ts : List (Turn σ)) :
    d.leaves c schedules w (t :: ts) = d.leaves c schedules (d.outcome c schedules t).2 ts := by
  cases ts with
  | nil => rfl
  | cons t' ts => simp only [leaves, List.getLast?_cons_cons]; rfl

/-- What the turn of an event adds to a journal are its calls, and they account for its outcome. -/
theorem outcome_noted (d : Dispatcher σ) (c : Context) (schedules : Nat → Schedule) (t : Turn σ) :
    (∀ journal, d.noting.dispatch c t.event (schedules t.index) (t.before.noted journal) =
      ((d.outcome c schedules t).1,
        (d.outcome c schedules t).2.noted (journal ++ d.called c schedules t))) ∧
    d.Accounts t.event (t.before.check c) (d.outcome c schedules t).1 (d.called c schedules t) := by
  obtain ⟨calls, hnoted, haccounts⟩ := dispatch_noted d c t.event (schedules t.index) t.before
  have hcalled : d.called c schedules t = calls := by
    rw [called, hnoted]
    exact List.nil_append calls
  rw [hcalled]
  exact ⟨hnoted, haccounts⟩

/-! ## Taking turns -/

/-- Another turn in front, which succeeded. -/
theorem Taken.cons {t : Turn σ} {ts taken : List (Turn σ)} {result : Except DispatchAllError Unit}
    (ht : (d.outcome c schedules t).1 = .ok ()) (h : d.Taken c schedules ts taken result) :
    d.Taken c schedules (t :: ts) (t :: taken) result := by
  cases h with
  | all succeeded => exact .all (List.forall_mem_cons.2 ⟨ht, succeeded⟩)
  | @upTo done rest t' source succeeded failed =>
      exact upTo (List.forall_mem_cons.2 ⟨ht, succeeded⟩) failed

theorem dispatchFrom_of_succeeded {index : Nat} {e : Event} {es : List Event} {w w' : World σ}
    (h : d.dispatch c e (schedules index) w = (.ok (), w')) :
    d.dispatchFrom c schedules index (e :: es) w =
      d.dispatchFrom c schedules (index + 1) es w' := by
  simp only [dispatchFrom, h]

theorem dispatchFrom_of_failed {index : Nat} {e : Event} {es : List Event} {w w' : World σ}
    {source : DispatchError} (h : d.dispatch c e (schedules index) w = (.error source, w')) :
    d.dispatchFrom c schedules index (e :: es) w = (.error ⟨index, e.name, source⟩, w') := by
  simp only [dispatchFrom, h]

/-- **Dispatching events in turn takes their turns up to the first that fails**, and nobody is
called in the turns that it does not take. -/
theorem dispatchFrom_taken (d : Dispatcher σ) (c : Context) (schedules : Nat → Schedule)
    (index : Nat) (es : List Event) (w : World σ) :
    let out := d.dispatchFrom c schedules index es w
    ∃ taken, d.Taken c schedules (d.turns c schedules index es w) taken out.1 ∧
      out.2 = d.leaves c schedules w taken ∧
      ∀ journal, d.noting.dispatchFrom c schedules index es (w.noted journal) =
        (out.1, out.2.noted (journal ++ taken.flatMap (d.called c schedules))) := by
  -- The rest of the events begin in the world that the first turn leaves, under the next number.
  induction es generalizing index w with
  | nil =>
      refine ⟨[], .all fun t ht => absurd ht List.not_mem_nil, rfl, fun journal => ?_⟩
      rw [List.flatMap_nil, List.append_nil]
      rfl
  | cons e es ih =>
      intro out
      let t : Turn σ := ⟨index, e, w⟩
      have hnoted := (outcome_noted d c schedules t).1
      cases hresult : (d.outcome c schedules t).1 with
      | error source =>
          have hout : out = (.error ⟨index, e.name, source⟩, (d.outcome c schedules t).2) :=
            dispatchFrom_of_failed (Prod.ext hresult rfl)
          simp only [hresult] at hnoted
          have hnone : ∀ t' ∈ ([] : List (Turn σ)), (d.outcome c schedules t').1 = .ok () :=
            fun t' ht' => absurd ht' List.not_mem_nil
          refine ⟨[t], ?_, by rw [hout]; rfl, fun journal => ?_⟩
          · rw [hout]
            exact .upTo hnone hresult
          · rw [dispatchFrom_of_failed (hnoted journal), hout, List.flatMap_singleton]
      | ok _ =>
          have hout : out =
              d.dispatchFrom c schedules (index + 1) es (d.outcome c schedules t).2 :=
            dispatchFrom_of_succeeded (Prod.ext hresult rfl)
          simp only [hresult] at hnoted
          obtain ⟨taken, htaken, hleaves, hrest⟩ := ih (index + 1) (d.outcome c schedules t).2
          rw [← hout] at htaken hleaves hrest
          refine ⟨t :: taken, htaken.cons hresult, by rw [hleaves, leaves_cons], fun journal => ?_⟩
          rw [dispatchFrom_of_succeeded (hnoted journal), hrest, List.flatMap_cons,
            List.append_assoc]

/-! ## The first failure -/

/-- How many turns were taken of so many, if this is the result. -/
def reached (all : Nat) : Except DispatchAllError Unit → Nat
  | .ok () => all
  | .error err => err.index + 1

/-- Turns that are numbered from zero on. -/
def Numbered (ts : List (Turn σ)) : Prop :=
  ∀ (i : Nat) (t : Turn σ), ts[i]? = some t → t.index = i

theorem numbered_turns (es : List Event) (w : World σ) :
    Numbered (d.turns c schedules 0 es w) :=
  fun i _ ht => (index_of_getElem?_turns ht).trans (Nat.zero_add i)

theorem Numbered.index_append_cons {done rest : List (Turn σ)} {t : Turn σ}
    (h : Numbered (done ++ t :: rest)) : t.index = done.length :=
  h done.length t (by rw [List.getElem?_append_right (Nat.le_refl _), Nat.sub_self]; rfl)

namespace Taken

variable {ts taken : List (Turn σ)} {result : Except DispatchAllError Unit}

/-- The result tells how many turns were taken. -/
theorem eq_take (h : d.Taken c schedules ts taken result) (hts : Numbered ts) :
    taken = ts.take (reached ts.length result) := by
  cases h with
  | all succeeded => exact (List.take_length).symm
  | @upTo done rest t source succeeded failed =>
      have hindex : t.index = done.length := hts.index_append_cons
      have hreached : reached (done ++ t :: rest).length (.error ⟨t.index, t.event.name, source⟩) =
          (done ++ [t]).length := by
        rw [reached, hindex, List.length_append]
        rfl
      rw [hreached, List.append_cons done t rest, List.take_left]

theorem succeeds_iff (h : d.Taken c schedules ts taken result) :
    result = .ok () ↔ ∀ t ∈ ts, (d.outcome c schedules t).1 = .ok () := by
  cases h with
  | all succeeded => exact iff_of_true rfl succeeded
  | @upTo done rest t source succeeded failed =>
      refine iff_of_false (fun hok => by cases hok) fun hall => ?_
      rw [hall t (List.mem_append_right _ List.mem_cons_self)] at failed
      cases failed

/-- **The error is that of the first turn that fails.** -/
theorem fails_iff (h : d.Taken c schedules ts taken result) (hts : Numbered ts)
    {err : DispatchAllError} :
    result = .error err ↔ ∃ t, ts[err.index]? = some t ∧ t.event.name = err.eventName ∧
      (d.outcome c schedules t).1 = .error err.source ∧
      ∀ t' ∈ ts.take err.index, (d.outcome c schedules t').1 = .ok () := by
  cases h with
  | all succeeded =>
      refine iff_of_false (fun herr => by cases herr) ?_
      rintro ⟨t, ht, -, hfailed, -⟩
      rw [succeeded t (List.mem_of_getElem? ht)] at hfailed
      cases hfailed
  | @upTo done rest t source succeeded failed =>
      have hindex : t.index = done.length := hts.index_append_cons
      have ht : (done ++ t :: rest)[done.length]? = some t := by
        rw [List.getElem?_append_right (Nat.le_refl _), Nat.sub_self]
        rfl
      constructor
      · intro herr
        obtain rfl := Except.error.inj herr
        refine ⟨t, by rw [hindex]; exact ht, rfl, failed, fun t' ht' => succeeded t' ?_⟩
        have hdone : (done ++ t :: rest).take done.length = done := List.take_left
        rwa [hindex, hdone] at ht'
      · rintro ⟨t', ht', hname, hfailed, hbefore⟩
        -- Neither a turn that succeeded nor one behind the failure can be the first that fails.
        have hle : ¬ err.index < done.length := fun hlt => by
          have hmem : t' ∈ done := by
            rw [List.getElem?_append_left hlt] at ht'
            exact List.mem_of_getElem? ht'
          rw [succeeded t' hmem] at hfailed
          cases hfailed
        have hge : ¬ done.length < err.index := fun hlt => by
          have hmem : t ∈ (done ++ t :: rest).take err.index :=
            List.mem_of_getElem? ((List.getElem?_take_of_lt hlt).trans ht)
          rw [hbefore t hmem] at failed
          cases failed
        have hsame : err.index = done.length := by omega
        rw [hsame, ht] at ht'
        obtain rfl : t = t' := Option.some.inj ht'
        rw [failed] at hfailed
        obtain rfl : source = err.source := Except.error.inj hfailed
        rw [hindex, hname, ← hsame]

end Taken

/-- **A list of events is dispatched up to the first that fails.** With all that handlers keep
between the events, and whatever contexts they end: the result is a success just if every turn
succeeds, and otherwise it is the error of the first turn that does not, under its number and the
name of its event. When a turn that is taken leaves the context ended, the next one fails with that
and calls nobody. The calls are those of the turns up to the failure, in their order, and nobody is
called afterwards. -/
theorem stops_at_first_failure (d : Dispatcher σ) (c : Context) (schedules : Nat → Schedule)
    (es : List Event) (w : World σ) :
    let out := d.dispatchAll c schedules es w
    let ts := d.turns c schedules 0 es w
    let taken := ts.take (reached ts.length out.1)
    ts.map (·.event) = es ∧
    (out.1 = .ok () ↔ ∀ t ∈ ts, (d.outcome c schedules t).1 = .ok ()) ∧
    (∀ err, out.1 = .error err ↔ ∃ t, ts[err.index]? = some t ∧ t.event.name = err.eventName ∧
      (d.outcome c schedules t).1 = .error err.source ∧
      ∀ t' ∈ ts.take err.index, (d.outcome c schedules t').1 = .ok ()) ∧
    (∀ i t next e, ts[i]? = some t → ts[i + 1]? = some next →
      (∀ t' ∈ ts.take (i + 1), (d.outcome c schedules t').1 = .ok ()) →
      (d.outcome c schedules t).2.check c = .error e →
      out.1 = .error ⟨i + 1, next.event.name, .context e⟩ ∧ d.called c schedules next = []) ∧
    out.2 = d.leaves c schedules w taken ∧
    (∀ journal, d.noting.dispatchAll c schedules es (w.noted journal) =
      (out.1, out.2.noted (journal ++ taken.flatMap (d.called c schedules)))) ∧
    ∀ t ∈ ts, d.Accounts t.event (t.before.check c) (d.outcome c schedules t).1
      (d.called c schedules t) := by
  intro out ts taken
  obtain ⟨taken', htaken, hleaves, hnoted⟩ := dispatchFrom_taken d c schedules 0 es w
  have hnumbered : Numbered ts := numbered_turns es w
  obtain rfl : taken' = taken := htaken.eq_take hnumbered
  refine ⟨map_event_turns 0 es w, htaken.succeeds_iff, fun err => htaken.fails_iff hnumbered, ?_,
    hleaves, hnoted, fun t ht => (outcome_noted d c schedules t).2⟩
  intro i t next e ht hnext hbefore hended
  have haccounts := (outcome_noted d c schedules next).2
  rw [before_of_getElem?_turns ht hnext, hended] at haccounts
  obtain ⟨hcalls, hresult⟩ := haccounts
  exact ⟨(htaken.fails_iff hnumbered).2 ⟨next, hnext, rfl, hresult, hbefore⟩, hcalls⟩

/-- The first event is handled by a handler that cancels the context; the second is refused. -/
example :
    let canceller : EventHandler Unit :=
      ⟨"canceller", fun _ => true, fun c _ s => ⟨.handled, [c.flag], 0, s.own⟩⟩
    let d : Dispatcher Unit := ⟨.sequential, false, [canceller]⟩
    let (c, signals) := Context.create .nil .none
    let event := fun n name => Event.new ⟨.ofNat n⟩ .epoch name ⟨.ofNat 9⟩ []
    (d.dispatchAll c (fun _ => .inOrder) [event 1 "a", event 2 "b", event 3 "c"]
      (.start ⟨signals, 0, ()⟩)).1 = .error ⟨1, "b", .context .cancelled⟩ := rfl

end Dispatcher

end Registrar
