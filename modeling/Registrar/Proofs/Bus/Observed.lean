import Registrar.Bus

set_option autoImplicit false

/-! # Buses that are only observed

A bus that is traced, measured and logged does what the handler does, and says what the handler says
(`execute_observed`). Each of the three layers reads the clock once on the way inwards, so the
handler finds the scene three readings later. What a tracer's observer keeps for itself may change
on the way; the part of the scene that it leaves alone is given as a `view`. -/

namespace Registrar

variable {σ β : Type}

/-! ## Tracers -/

/-- A tracer whose observer does not change what a view shows. -/
def Tracer.Keeps (t : Tracer σ) (view : σ → β) : Prop :=
  ∀ operation n (w : World σ), view (t.tell operation n w).scene.own = view w.scene.own

namespace Bus

variable {L : Catalogue}

/-- A scene some readings of the clock later, with the same view. -/
structure Arrives (view : σ → β) (readings : Nat) (s s' : Scene σ) : Prop where
  signals : s'.signals = s.signals
  clock : s'.clock = s.clock + readings
  view : view s'.own = view s.own

namespace Arrives

variable {view : σ → β}

theorem refl (s : Scene σ) : Arrives view 0 s s := ⟨rfl, rfl, rfl⟩

theorem trans {n m : Nat} {s s' s'' : Scene σ} (h : Arrives view n s s')
    (h' : Arrives view m s' s'') : Arrives view (n + m) s s'' where
  signals := h'.signals.trans h.signals
  clock := by rw [h'.clock, h.clock, Nat.add_assoc]
  view := h'.view.trans h.view

theorem tell {t : Tracer σ} (ht : t.Keeps view) (operation : String) (n : SpanNote) (w : World σ) :
    Arrives view 0 w.scene (t.tell operation n w).scene := by
  refine ⟨?_, ?_, ht operation n w⟩
  · cases t with
    | recorded => cases n <;> rfl
    | _ => rfl
  · cases t with
    | recorded => cases n <;> rfl
    | _ => rfl

theorem tellAll {t : Tracer σ} (ht : t.Keeps view) (operation : String) (ns : List SpanNote)
    (w : World σ) : Arrives view 0 w.scene (Layer.tellAll t operation ns w).scene := by
  induction ns generalizing w with
  | nil => exact .refl _
  | cons n ns ih => exact (tell ht operation n w).trans (ih _)

theorem readClock (w : World σ) : Arrives view 1 w.scene w.readClock.2.scene := ⟨rfl, rfl, rfl⟩

end Arrives

theorem scene_foldl_log (records : List LogRecord) (w : World σ) :
    (records.foldl World.log w).scene = w.scene := by
  induction records generalizing w with
  | nil => rfl
  | cons r records ih => exact ih _

/-! ## The way to a handler -/

/-- **The way inwards leads to a handler**, some readings of the clock later and with the same view;
back come the handler's result and what it made of the view. -/
def Reaches (view : σ → β) (kind : MessageKind) (c : Context) (m : Message L)
    (h : Handler L σ m.topic) (readings : Nat) (inner : Inner L σ) : Prop :=
  ∀ w, ∃ s w', Arrives view readings w.scene s ∧
    inner c m w = (.returned (Handler.result kind m.topic (h.handle c m.body s).1), w') ∧
    view w'.scene.own = view (h.handle c m.body s).2.own

section Layers

variable {view : σ → β} {kind : MessageKind} {c : Context} {m : Message L}
  {h : Handler L σ m.topic} {n : Nat} {inner : Inner L σ}

theorem reaches_inmost : Reaches view kind c m h 0 (h.inmost kind) := by
  intro w
  obtain ⟨topic, body⟩ := m
  refine ⟨w.scene, { w with scene := (h.handle c body w.scene).2 }, .refl _, ?_, rfl⟩
  simp only [Handler.inmost, Message.body?_self]

theorem Reaches.trace (hi : Reaches view kind c m h n inner) {t : Tracer σ} (ht : t.Keeps view)
    (threshold : Duration) :
    Reaches view kind c m h (1 + n) (Layer.trace t threshold kind inner) := by
  intro w
  let opened := Layer.tellAll t (m.operation kind) (Layer.openingNotes kind c m) w
  obtain ⟨s, w', harrives, hinner, hview⟩ := hi opened.readClock.2
  refine ⟨s, Layer.tellAll t (m.operation kind)
      (Layer.closingNotes threshold (w'.readClock.1 - opened.readClock.1)
        (Handler.result kind m.topic (h.handle c m.body s).1)) w'.readClock.2, ?_, ?_, ?_⟩
  · have hopened : Arrives view (0 + 1) w.scene opened.readClock.2.scene :=
      (Arrives.tellAll ht _ _ w).trans (Arrives.readClock opened)
    exact hopened.trans harrives
  · simp only [Layer.trace]
    rw [hinner]
  · -- Closing the span tells the observer alone.
    exact (Arrives.tellAll ht _ _ w'.readClock.2).view.trans hview

theorem Reaches.measure (hi : Reaches view kind c m h n inner) :
    Reaches view kind c m h (1 + n) (Layer.measure kind inner) := by
  intro w
  obtain ⟨s, w', harrives, hinner, hview⟩ := hi w.readClock.2
  refine ⟨s, w'.readClock.2.take (.timed (Layer.metricKind kind) m.name
      (.ofExcept (Handler.result kind m.topic (h.handle c m.body s).1))
      (w'.readClock.1 - w.readClock.1)), (Arrives.readClock w).trans harrives, ?_, hview⟩
  simp only [Layer.measure]
  rw [hinner]

theorem Reaches.note (hi : Reaches view kind c m h n inner) (threshold : Duration) :
    Reaches view kind c m h (1 + n) (Layer.note threshold kind inner) := by
  intro w
  let opened := w.log (.event .debug "executing" (Layer.logFields kind c m))
  obtain ⟨s, w', harrives, hinner, hview⟩ := hi opened.readClock.2
  refine ⟨s, (Layer.closingRecords threshold kind c m (w'.readClock.1 - opened.readClock.1)
      (Handler.result kind m.topic (h.handle c m.body s).1)).foldl World.log w'.readClock.2,
    (Arrives.readClock opened).trans harrives, ?_, ?_⟩
  · simp only [Layer.note]
    rw [hinner]
  · rw [scene_foldl_log]
    exact hview

end Layers

/-! ## Executing -/

/-- What a handler's ending means to whoever asked. -/
def told (kind : MessageKind) (t : L.Topic) :
    Ending L.Failure (L.Value (L.form t)) → Except (BusError L.Failure) (L.Value (L.form t))
  | .returned v => .ok v
  | .failed e => .error (.handler e)
  | .panicked p => .error (.panicked kind (L.name t) p.message)

theorem answer_result (kind : MessageKind) (t : L.Topic)
    (ending : Ending L.Failure (L.Value (L.form t))) :
    answer t (Handler.result kind t ending) = told kind t ending := by
  cases ending with
  | returned v => simp [Handler.result, answer, told]
  | failed e => rfl
  | panicked p => rfl

/-- The layers of a bus that is only observed. -/
def observers (tracer : Tracer σ) (threshold : Duration) : List (Layer L σ) :=
  [.tracing tracer threshold, .metrics, .logging threshold]

/-- **An observed bus does what the handler does and says what it says**, for every message that is
not refused and every context that is active when the message arrives. -/
theorem execute_observed {view : σ → β} {b : Bus L σ} {tracer : Tracer σ} {threshold : Duration}
    (hlayers : b.layers = observers tracer threshold) (htracer : tracer.Keeps view) {c : Context}
    {m : Message L} {h : Handler L σ m.topic} (hhandler : b.handler? m.topic = some h) {w : World σ}
    (hnil : b.refusesNil m = false) (hactive : w.check c = .ok ()) :
    ∃ s, Arrives view 3 w.scene s ∧
      (b.execute c m w).1 = told b.kind m.topic (h.handle c m.body s).1 ∧
      view (b.execute c m w).2.scene.own = view (h.handle c m.body s).2.own := by
  have hreaches : Reaches view b.kind c m h 3
      (Layer.nest b.kind (h.inmost b.kind) (observers tracer threshold)) :=
    ((reaches_inmost.note threshold).measure).trace htracer threshold
  obtain ⟨s, w', harrives, hnest, hview⟩ := hreaches w
  have hexecute : b.execute c m w =
      (told b.kind m.topic (h.handle c m.body s).1, w') := by
    simp only [execute, hnil, hactive, hhandler, send, hlayers, hnest, answer_result,
      Bool.false_eq_true, if_false]
  rw [hexecute]
  exact ⟨s, harrives, rfl, hview⟩

end Bus

end Registrar
