import Registrar.Proofs.Bus.Routing
import Registrar.Rehearsal.Messages

set_option autoImplicit false

/-! # How executions are measured

An observed bus takes its sample where a result passes on its way back, and its answer is settled
further out: a panic that unwinds the layers becomes an error there, and so does an output in a form
that the topic does not have. So the samples tell of what came back through the layers (`back`), and
an execution is measured as it was answered just when that was a result `InForm`. A panic of a
further layer leaves no sample, and an output in another form a sample of a success that
was none. -/

namespace Registrar.Bus

variable {L : Catalogue} {σ : Type}

/-! ## Samples of an execution -/

/-- What comes back through the layers of a bus. -/
def back (b : Bus L σ) (c : Context) (m : Message L) (h : Handler L σ m.topic) (w : World σ) :
    Passage L :=
  (Layer.nest b.kind (h.inmost b.kind) b.layers c m w).1

/-- A result, and if it is an output, one in the form of the topic. -/
def Passage.InForm (t : L.Topic) : Passage L → Prop
  | .returned (.ok o) => o.form = L.form t
  | .returned (.error _) => True
  | .panicked _ => False

/-- The execution takes one sample: of the kind of the bus, under the name of the message, and with
this outcome. -/
def SampledAs (b : Bus L σ) (c : Context) (m : Message L) (w : World σ) (o : Outcome) : Prop :=
  ∃ nanos, (b.execute c m w).2.samples =
    w.samples ++ [.timed (Layer.metricKind b.kind) m.name o nanos]

/-- **The execution takes one sample, which says how it was answered.** -/
def Measured (b : Bus L σ) (c : Context) (m : Message L) (w : World σ) : Prop :=
  b.SampledAs c m w (.ofExcept (b.execute c m w).1)

theorem SampledAs.outcome_eq {b : Bus L σ} {c : Context} {m : Message L} {w : World σ}
    {o o' : Outcome} (h : b.SampledAs c m w o) (h' : b.SampledAs c m w o') : o = o' := by
  obtain ⟨nanos, hsamples⟩ := h
  obtain ⟨nanos', hsamples'⟩ := h'
  rw [hsamples, List.append_cancel_left_eq] at hsamples'
  have hlabel : o.label = o'.label := congrArg Sample.label (List.head_eq_of_cons_eq hsamples')
  revert hlabel
  cases o <;> cases o' <;> decide

/-! ## Samples on the way back -/

/-- What takes no samples. -/
def Quiet (inner : Inner L σ) : Prop :=
  ∀ c m w, (inner c m w).2.samples = w.samples

theorem samples_tell (t : Tracer σ) (operation : String) (n : SpanNote) (w : World σ) :
    (t.tell operation n w).samples = w.samples := by
  cases t with
  | silent => rfl
  | recorded => cases n <;> rfl
  | observed tell => rfl

theorem samples_tellAll (t : Tracer σ) (operation : String) (ns : List SpanNote) (w : World σ) :
    (Layer.tellAll t operation ns w).samples = w.samples := by
  induction ns generalizing w with
  | nil => rfl
  | cons n ns ih => exact (ih (t.tell operation n w)).trans (samples_tell t operation n w)

theorem samples_foldl_log (records : List LogRecord) (w : World σ) :
    (records.foldl World.log w).samples = w.samples := by
  induction records generalizing w with
  | nil => rfl
  | cons r records ih => exact ih (w.log r)

theorem quiet_inmost (kind : MessageKind) {t : L.Topic} (h : Handler L σ t) :
    Quiet (h.inmost kind) := by
  intro c m w
  unfold Handler.inmost
  cases m.body? t with
  | none => rfl
  | some body => rfl

section Layers

variable {kind : MessageKind} {inner : Inner L σ}

/-- A span takes no samples: those of what lies within are all there are. -/
theorem trace_samples (t : Tracer σ) (threshold : Duration) (kind : MessageKind)
    (inner : Inner L σ) (c : Context) (m : Message L) (w : World σ) :
    ∃ opened : World σ, opened.samples = w.samples ∧
      (Layer.trace t threshold kind inner c m w).1 = (inner c m opened).1 ∧
      (Layer.trace t threshold kind inner c m w).2.samples = (inner c m opened).2.samples := by
  let opened := (Layer.tellAll t (m.operation kind) (Layer.openingNotes kind c m) w).readClock.2
  refine ⟨opened, samples_tellAll t _ _ w, ?_⟩
  simp only [Layer.trace]
  cases hback : inner c m opened with
  | mk passage w' =>
      cases passage with
      | returned r => exact ⟨rfl, samples_tellAll ..⟩
      | panicked p => exact ⟨rfl, samples_tell ..⟩

theorem Quiet.trace (h : Quiet inner) (t : Tracer σ) (threshold : Duration) :
    Quiet (Layer.trace t threshold kind inner) := by
  intro c m w
  obtain ⟨opened, hopened, -, hsamples⟩ := trace_samples t threshold kind inner c m w
  rw [hsamples, h, hopened]

theorem Quiet.note (h : Quiet inner) (threshold : Duration) :
    Quiet (Layer.note threshold kind inner) := by
  intro c m w
  let opened := (w.log (.event .debug "executing" (Layer.logFields kind c m))).readClock.2
  have hinner : (inner c m opened).2.samples = w.samples := h c m opened
  simp only [Layer.note]
  cases hback : inner c m opened with
  | mk passage w' =>
      rw [hback] at hinner
      cases passage with
      | returned r => exact (samples_foldl_log ..).trans hinner
      | panicked p => exact hinner

theorem Quiet.wrap (h : Quiet inner) (enter : Context → Message L → Scene σ → Course L σ) :
    Quiet (Layer.wrap enter inner) := by
  intro c m w
  simp only [Layer.wrap]
  cases enter c m w.scene with
  | answers r s => rfl
  | panics p s => rfl
  | passes c' m' s leave unwind =>
      have hinner := h c' m' { w with scene := s }
      dsimp only
      cases hback : inner c' m' { w with scene := s } with
      | mk passage w' =>
          rw [hback] at hinner
          cases passage with
          | returned r => exact hinner
          | panicked p => exact hinner

/-- **Samples are taken by the layers that measure and by nothing else.** -/
theorem Quiet.nest (h : Quiet inner) {layers : List (Layer L σ)} (hlayers : .metrics ∉ layers) :
    Quiet (Layer.nest kind inner layers) := by
  induction layers with
  | nil => exact h
  | cons l layers ih =>
      have hrest := ih fun hl => hlayers (List.mem_cons_of_mem _ hl)
      cases l with
      | tracing t threshold => exact hrest.trace t threshold
      | metrics => exact absurd List.mem_cons_self hlayers
      | logging threshold => exact hrest.note threshold
      | foreign enter => exact hrest.wrap (enter kind)

/-- The samples tell of a message and of what came back of it: one if it was a result, and none of a
panic. -/
def TellOf (kind : MessageKind) (m : Message L) (before after : List Sample) : Passage L → Prop
  | .returned r =>
      ∃ nanos, after = before ++ [.timed (Layer.metricKind kind) m.name (.ofExcept r) nanos]
  | .panicked _ => after = before

theorem tellOf_measure (h : Quiet inner) (c : Context) (m : Message L) (w : World σ) :
    TellOf kind m w.samples (Layer.measure kind inner c m w).2.samples
      (Layer.measure kind inner c m w).1 := by
  have hinner := h c m w.readClock.2
  simp only [Layer.measure]
  cases hback : inner c m w.readClock.2 with
  | mk passage w' =>
      rw [hback] at hinner
      cases passage with
      | returned r =>
          refine ⟨w'.readClock.1 - w.readClock.1, ?_⟩
          show w'.samples ++ _ = w.samples ++ _
          rw [hinner]
          rfl
      | panicked p => exact hinner

end Layers

/-- The samples of an observed bus tell of what comes back, whatever the further layers do. -/
theorem tellOf_back {b : Bus L σ} {tracer : Tracer σ} {threshold : Duration}
    {further : List (Layer L σ)} (hlayers : b.layers = observers tracer threshold ++ further)
    (hfurther : .metrics ∉ further) (c : Context) (m : Message L) (h : Handler L σ m.topic)
    (w : World σ) :
    TellOf b.kind m w.samples (Layer.nest b.kind (h.inmost b.kind) b.layers c m w).2.samples
      (b.back c m h w) := by
  have hquiet : Quiet (Layer.note threshold b.kind
      (Layer.nest b.kind (h.inmost b.kind) further)) :=
    ((quiet_inmost b.kind h).nest hfurther).note threshold
  have hnest : Layer.nest b.kind (h.inmost b.kind) b.layers =
      Layer.trace tracer threshold b.kind (Layer.measure b.kind (Layer.note threshold b.kind
        (Layer.nest b.kind (h.inmost b.kind) further))) := by
    rw [hlayers]
    rfl
  unfold back
  rw [hnest]
  obtain ⟨opened, hopened, hpassage, hsamples⟩ := trace_samples tracer threshold b.kind
    (Layer.measure b.kind (Layer.note threshold b.kind
      (Layer.nest b.kind (h.inmost b.kind) further))) c m w
  rw [hpassage, hsamples, ← hopened]
  exact tellOf_measure hquiet c m opened

/-! ## Layers that keep to the form -/

/-- A layer that never panics, and answers in the form of the topic if what lies within does. -/
def Layer.KeepsForm (kind : MessageKind) (t : L.Topic) (l : Layer L σ) : Prop :=
  l.Entered (fun _ passage => passage.InForm t) (fun _ => True) kind

theorem back_inForm {b : Bus L σ} {m : Message L}
    (hlayers : ∀ l ∈ b.layers, l.KeepsForm b.kind m.topic) (c : Context)
    (h : Handler L σ m.topic) (w : World σ) : (b.back c m h w).InForm m.topic := by
  have hinmost : Account (fun _ passage => passage.InForm m.topic) (fun _ => True)
      (h.inmost b.kind) (h.noting.inmost b.kind) := by
    refine account_inmost h (fun body _ ending => ?_) fun _ _ _ => trivial
    cases ending with
    | returned v => exact rfl
    | failed e => trivial
    | panicked p => trivial
  obtain ⟨-, -, hback⟩ := hinmost.nest hlayers c m trivial w []
  exact hback

/-! ## Measured executions -/

theorem answer_of_form_ne {t : L.Topic} {o : Output L} (h : o.form ≠ L.form t) :
    answer t (.ok o) = .error (.typeMismatch (L.name t)) := by
  simp only [answer, Output.value?, h, dite_false]

theorem outcome_answer_of_form {t : L.Topic} {o : Output L} (h : o.form = L.form t) :
    Outcome.ofExcept (answer t (.ok o)) = .success := by
  simp only [answer, Output.value?, h, dite_true]
  rfl

section

variable {b : Bus L σ} {tracer : Tracer σ} {threshold : Duration} {further : List (Layer L σ)}
  {c : Context} {m : Message L} {h : Handler L σ m.topic} {w : World σ}

/-- What came back decides both the answer and the sample. -/
theorem answered_and_told (hlayers : b.layers = observers tracer threshold ++ further)
    (hfurther : .metrics ∉ further) (hnil : b.refusesNil m = false) (hactive : w.check c = .ok ())
    (hhandler : b.handler? m.topic = some h) :
    (b.execute c m w).1 = conclude b.kind m (b.back c m h w) ∧
      TellOf b.kind m w.samples (b.execute c m w).2.samples (b.back c m h w) := by
  have hexecute := execute_of_handler hnil hactive hhandler
  refine ⟨congrArg Prod.fst hexecute, ?_⟩
  rw [hexecute]
  exact tellOf_back hlayers hfurther c m h w

theorem measured_iff_of_told (hanswer : (b.execute c m w).1 = conclude b.kind m (b.back c m h w))
    (htold : TellOf b.kind m w.samples (b.execute c m w).2.samples (b.back c m h w)) :
    b.Measured c m w ↔ (b.back c m h w).InForm m.topic := by
  unfold Measured
  rw [hanswer]
  cases hback : b.back c m h w with
  | panicked p =>
      rw [hback] at htold
      refine iff_of_false ?_ id
      rintro ⟨nanos, hsampled⟩
      rw [htold] at hsampled
      exact absurd (congrArg List.length hsampled) (by simp)
  | returned r =>
      rw [hback] at htold
      cases r with
      | error e => exact iff_of_true htold trivial
      | ok o =>
          by_cases hform : o.form = L.form m.topic
          · refine iff_of_true ?_ hform
            rw [conclude, outcome_answer_of_form hform]
            exact htold
          · refine iff_of_false (fun hsampled => ?_) hform
            have houtcome := hsampled.outcome_eq htold
            rw [conclude, answer_of_form_ne hform] at houtcome
            cases houtcome

/-- **What an observed bus measures.** A message is not refused, its topic has a handler, and no
further layer measures it again; the handler and the further layers may do anything else. The
execution is measured as it was answered just when a result in the form of the topic came back, as
it does where every further layer keeps to the form. A panic of a further layer leaves no sample; an
output in another form leaves one of a success, and the answer is an error. -/
theorem measured_iff_inForm (hlayers : b.layers = observers tracer threshold ++ further)
    (hfurther : .metrics ∉ further) (hnil : b.refusesNil m = false) (hactive : w.check c = .ok ())
    (hhandler : b.handler? m.topic = some h) :
    (b.Measured c m w ↔ (b.back c m h w).InForm m.topic) ∧
    ((∀ l ∈ further, l.KeepsForm b.kind m.topic) → b.Measured c m w) ∧
    (∀ p, b.back c m h w = .panicked p →
      (b.execute c m w).1 = .error (.panicked b.kind m.name p.message) ∧
        (b.execute c m w).2.samples = w.samples) ∧
    ∀ o, b.back c m h w = .returned (.ok o) → o.form ≠ L.form m.topic →
      (b.execute c m w).1 = .error (.typeMismatch m.name) ∧ b.SampledAs c m w .success := by
  obtain ⟨hanswer, htold⟩ := answered_and_told hlayers hfurther hnil hactive hhandler
  have hmeasured := measured_iff_of_told hanswer htold
  refine ⟨hmeasured, fun hkeeps => ?_, fun p hback => ?_, fun o hback hform => ?_⟩
  · refine hmeasured.2 (back_inForm (fun l hl => ?_) c h w)
    rw [hlayers] at hl
    rcases List.mem_append.1 hl with hl | hl
    · simp only [observers, List.mem_cons, List.not_mem_nil, or_false] at hl
      rcases hl with rfl | rfl | rfl <;> trivial
    · exact hkeeps l hl
  · rw [hback] at hanswer htold
    exact ⟨hanswer, htold⟩
  · rw [hback] at hanswer htold
    exact ⟨hanswer.trans (answer_of_form_ne hform), htold⟩

end

/-! ## Executions that are not counted, or counted wrongly -/

open Rehearsal (texts Topic)

/-- Answers with the text that it gets. -/
def echo (t : Topic) : Handler texts Unit t := ⟨fun _ text s => (.returned text, s)⟩

/-- An observed bus with one handler, and one further layer that is entered so. -/
def observedEcho (entry : Entry texts Unit) : Bus texts Unit :=
  ((observed .command .silent standardThreshold).setHandler Topic.create (echo .create)).use
    (.foreign entry)

def someText : Message texts := ⟨Topic.create, "a"⟩

/-- A context and a world in which nothing has happened yet. -/
def outset : Context × World Unit :=
  let (c, signals) := Context.create .nil .none
  (c, .start ⟨signals, 0, ()⟩)

theorem measured_iff_inForm_panic :
    let b := observedEcho (Entry.panicBefore .other)
    (b.execute outset.1 someText outset.2).1 =
        .error (.panicked .command "create_account" PanicPayload.other.message) ∧
      (b.execute outset.1 someText outset.2).2.samples = [] :=
  (@measured_iff_inForm texts Unit (observedEcho (Entry.panicBefore .other)) .silent
    standardThreshold [.foreign (Entry.panicBefore .other)] outset.1 someText (echo .create)
    outset.2 rfl (by simp) rfl rfl rfl).2.2.1 .other rfl

/-- **Not every execution is measured as it was answered**: a panic of a further layer is not
counted, and an output in another form counts as a success. -/
theorem not_every_execution_measured :
    ¬ (observedEcho (Entry.panicBefore .other)).Measured outset.1 someText outset.2 ∧
      ¬ (observedEcho (Entry.answer (.ok ⟨false, (7 : Nat)⟩))).Measured outset.1 someText
        outset.2 := by
  refine ⟨?_, fun hmeasured => ?_⟩
  · rintro ⟨nanos, hsamples⟩
    have hnone : ((observedEcho (Entry.panicBefore .other)).execute outset.1 someText
      outset.2).2.samples = [] := rfl
    rw [hnone] at hsamples
    cases hsamples
  · have hsuccess : (observedEcho (Entry.answer (.ok ⟨false, (7 : Nat)⟩))).SampledAs outset.1
      someText outset.2 .success := ⟨3, rfl⟩
    cases hmeasured.outcome_eq hsuccess

end Registrar.Bus
