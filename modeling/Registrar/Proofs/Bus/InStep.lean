import Registrar.Proofs.Bus.Observed
import Registrar.Proofs.InStep

set_option autoImplicit false

/-! # Buses in step

Two observed buses whose handlers are in step are in step themselves (`Abreast.Buses.execute`): what
is traced, measured and logged around an execution depends on the message and on the result alone.
So whatever handlers keep from whoever asked, the bus keeps too. -/

namespace Registrar

variable {σ : Type} {R : σ → σ → Prop}

/-- A tracer whose observer does not look at what differs. -/
def Tracer.Respects (t : Tracer σ) (R : σ → σ → Prop) : Prop :=
  ∀ operation n {w w' : World σ}, w.Twins R w' →
    (t.tell operation n w).Twins R (t.tell operation n w')

theorem Tracer.Respects.tellAll {t : Tracer σ} (ht : t.Respects R) (operation : String)
    (ns : List SpanNote) {w w' : World σ} (hw : w.Twins R w') :
    (Bus.Layer.tellAll t operation ns w).Twins R (Bus.Layer.tellAll t operation ns w') := by
  induction ns generalizing w w' with
  | nil => exact hw
  | cons n ns ih => exact ih (ht operation n hw)

namespace Bus

variable {L : Catalogue}

/-- Handlers in step: the endings are the same, and the scenes stay twins. -/
def Handler.InStep {t : L.Topic} (R : σ → σ → Prop) (h h' : Handler L σ t) : Prop :=
  ∀ c body {s s' : Scene σ}, s.Twins R s' →
    Registrar.InStep (Scene.Twins R) (h.handle c body s) (h'.handle c body s')

/-- Ways inwards that are in step in twin worlds. -/
def Abreast (R : σ → σ → Prop) (inner inner' : Inner L σ) : Prop :=
  ∀ c m {w w' : World σ}, w.Twins R w' →
    Registrar.InStep (World.Twins R) (inner c m w) (inner' c m w')

section Layers

variable {kind : MessageKind} {inner inner' : Inner L σ}

theorem Handler.InStep.inmost {t : L.Topic} {h h' : Handler L σ t} (hh : h.InStep R h') :
    Abreast R (h.inmost kind) (h'.inmost kind) := by
  intro c m w w' hw
  unfold Handler.inmost
  cases m.body? t with
  | none => exact .still hw _
  | some body =>
      obtain ⟨hscene, samples, records⟩ := hw
      have hhandled := hh c body hscene
      exact ⟨congrArg (fun e => Passage.returned (Handler.result kind t e)) hhandled.answer,
        ⟨hhandled.left, samples, records⟩⟩

theorem Abreast.trace (hi : Abreast R inner inner') {t : Tracer σ} (ht : t.Respects R)
    (threshold : Duration) :
    Abreast R (Layer.trace t threshold kind inner) (Layer.trace t threshold kind inner') := by
  intro c m w w' hw
  have hopened := ht.tellAll (m.operation kind) (Layer.openingNotes kind c m) hw
  obtain ⟨started, v, v', hv, hv', htwins⟩ := hopened.readClock.spread
  obtain ⟨passage, u, u', hu, hu', hback⟩ := (hi c m htwins).spread
  simp only [Layer.trace, hv, hv', hu, hu']
  cases passage with
  | panicked p => exact .still (ht _ _ hback) _
  | returned r =>
      obtain ⟨now, x, x', hx, hx', hclosing⟩ := hback.readClock.spread
      simp only [hx, hx']
      exact .still (ht.tellAll _ _ hclosing) _

theorem Abreast.measure (hi : Abreast R inner inner') :
    Abreast R (Layer.measure kind inner) (Layer.measure kind inner') := by
  intro c m w w' hw
  obtain ⟨started, v, v', hv, hv', htwins⟩ := hw.readClock.spread
  obtain ⟨passage, u, u', hu, hu', hback⟩ := (hi c m htwins).spread
  simp only [Layer.measure, hv, hv', hu, hu']
  cases passage with
  | panicked p => exact .still hback _
  | returned r =>
      obtain ⟨now, x, x', hx, hx', hclosing⟩ := hback.readClock.spread
      simp only [hx, hx']
      exact .still (hclosing.take _) _

theorem Abreast.note (hi : Abreast R inner inner') (threshold : Duration) :
    Abreast R (Layer.note threshold kind inner) (Layer.note threshold kind inner') := by
  intro c m w w' hw
  have hopened := hw.log (.event .debug "executing" (Layer.logFields kind c m))
  obtain ⟨started, v, v', hv, hv', htwins⟩ := hopened.readClock.spread
  obtain ⟨passage, u, u', hu, hu', hback⟩ := (hi c m htwins).spread
  simp only [Layer.note, hv, hv', hu, hu']
  cases passage with
  | panicked p => exact .still hback _
  | returned r =>
      obtain ⟨now, x, x', hx, hx', hclosing⟩ := hback.readClock.spread
      simp only [hx, hx']
      exact .still (hclosing.logAll _) _

end Layers

/-- Buses of one kind that are observed alike, with handlers in step for every topic. -/
structure Abreast.Buses (R : σ → σ → Prop) (b b' : Bus L σ) : Prop where
  kind : b'.kind = b.kind
  layers : ∃ (tracer : Tracer σ) (threshold : Duration), tracer.Respects R ∧
    b.layers = observers tracer threshold ∧ b'.layers = observers tracer threshold
  handlers : ∀ t, ∃ h h', b.handler? t = some h ∧ b'.handler? t = some h' ∧ h.InStep R h'

/-- **Every message is executed in step.** -/
theorem Abreast.Buses.execute {b b' : Bus L σ} (hb : Abreast.Buses R b b') (c : Context)
    (m : Message L) {w w' : World σ} (hw : w.Twins R w') :
    Registrar.InStep (World.Twins R) (b.execute c m w) (b'.execute c m w') := by
  obtain ⟨tracer, threshold, htracer, hlayers, hlayers'⟩ := hb.layers
  obtain ⟨h, h', hhandler, hhandler', hh⟩ := hb.handlers m.topic
  have hnil : b'.refusesNil m = b.refusesNil m := by rw [refusesNil, hb.kind]; rfl
  have habreast : Abreast R (Layer.nest b.kind (h.inmost b.kind) (observers tracer threshold))
      (Layer.nest b.kind (h'.inmost b.kind) (observers tracer threshold)) :=
    ((hh.inmost.note threshold).measure).trace htracer threshold
  unfold Bus.execute
  rw [hnil]
  split
  · exact .still hw _
  rw [← hw.check c]
  cases w.check c with
  | error e => exact .still hw _
  | ok _ =>
      obtain ⟨passage, v, v', hv, hv', hback⟩ := (habreast c m hw).spread
      simp only [hhandler, hhandler', send, hlayers, hlayers', hb.kind, hv, hv']
      cases passage with
      | returned r => exact .still hback _
      | panicked p => exact .still hback _

end Bus

end Registrar
