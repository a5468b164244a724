import Registrar.Proofs.Bus.Observed

set_option autoImplicit false

/-! # One handler for each topic

The clones of a bus share one registry, so what is done through any of them is one list of calls: a
handler is registered, a layer added, a message executed (`run`). The handler that was registered
first for a topic stays (`first?`), and a message on the topic is brought to it and to no other.

What an execution runs is told by its notes. Handlers and layers can note what they do beside what
they keep (`noting`): a handler that it ran, with what, and how it ended; a foreign layer that it
was entered, and that it panicked. The notes change nothing else, and what holds of the notes of
everything within a layer holds of the layer too (`Account.around`), for all three of our own and
for foreign ones that are `Entered` by it. -/

namespace Registrar

variable {L : Catalogue} {σ : Type}

/-! ## Notes -/

namespace Bus

/-- A handler that ran, what it was given, and how it ended. -/
structure Handling (L : Catalogue) (σ : Type) where
  topic : L.Topic
  handler : Handler L σ topic
  body : L.Body topic
  ending : Ending L.Failure (L.Value (L.form topic))

/-- What is noted during an execution. -/
inductive Note (L : Catalogue) (σ : Type) where
  | entered
  | handled (x : Handling L σ)
  | panicked (p : PanicPayload)

/-- What handlers and layers keep, and the notes beside it. -/
structure Kept (L : Catalogue) (σ : Type) where
  notes : List (Note L σ)
  own : σ

def Note.handling? : Note L σ → Option (Handling L σ)
  | .handled x => some x
  | .entered | .panicked _ => none

/-- The handlers that ran. -/
def handlings (notes : List (Note L σ)) : List (Handling L σ) := notes.filterMap Note.handling?

/-- What a layer notes when it comes to an end so. -/
def Passage.notes : Passage L → List (Note L σ)
  | .returned _ => []
  | .panicked p => [.panicked p]

theorem handlings_append_notes (notes : List (Note L σ)) (passage : Passage L) :
    handlings (notes ++ passage.notes) = handlings notes := by
  cases passage with
  | returned r => rw [Passage.notes, List.append_nil]
  | panicked p =>
      unfold handlings
      rw [List.filterMap_append]
      exact List.append_nil _

end Bus

/-- The scene with these notes. -/
def Scene.kept (s : Scene σ) (notes : List (Bus.Note L σ)) : Scene (Bus.Kept L σ) :=
  ⟨s.signals, s.clock, ⟨notes, s.own⟩⟩

/-- The scene without its notes. -/
def Scene.bare (s : Scene (Bus.Kept L σ)) : Scene σ := ⟨s.signals, s.clock, s.own.own⟩

/-- The world with these notes. -/
def World.kept (w : World σ) (notes : List (Bus.Note L σ)) : World (Bus.Kept L σ) :=
  ⟨w.scene.kept notes, w.samples, w.records⟩

/-- The same tracer; it notes nothing. -/
def Tracer.noting : Tracer σ → Tracer (Bus.Kept L σ)
  | .silent => .silent
  | .recorded => .recorded
  | .observed tell => .observed fun operation n kept =>
      { kept with own := tell operation n kept.own }

namespace Bus

/-- The same handler, noting that it ran. -/
def Handler.noting {t : L.Topic} (h : Handler L σ t) : Handler L (Kept L σ) t where
  handle c body s :=
    let r := h.handle c body s.bare
    (r.1, r.2.kept (s.own.notes ++ [.handled ⟨t, h, body, r.1⟩]))

/-- The same course after these notes, noting panics. -/
def Course.noting (notes : List (Note L σ)) : Course L σ → Course L (Kept L σ)
  | .answers r s => .answers r (s.kept notes)
  | .panics p s => .panics p (s.kept (notes ++ Passage.notes (L := L) (.panicked p)))
  | .passes c m s leave unwind => .passes c m (s.kept notes)
      (fun r s =>
        let left := leave r s.bare
        (left.1, left.2.kept (s.own.notes ++ left.1.notes)))
      (fun s => (unwind s.bare).kept s.own.notes)

def Layer.noting : Layer L σ → Layer L (Kept L σ)
  | .tracing tracer threshold => .tracing tracer.noting threshold
  | .metrics => .metrics
  | .logging threshold => .logging threshold
  | .foreign enter => .foreign fun kind c m s =>
      (enter kind c m s.bare).noting (s.own.notes ++ [.entered])

/-- The same bus, over handlers and layers that note what they do. -/
def noting (b : Bus L σ) : Bus L (Kept L σ) :=
  ⟨b.kind, fun t => (b.handler? t).map Handler.noting, b.layers.map Layer.noting⟩

/-- **What an execution runs.** -/
def notes (b : Bus L σ) (c : Context) (m : Message L) (w : World σ) : List (Note L σ) :=
  (b.noting.execute c m (w.kept [])).2.scene.own.notes

/-! ## Accounts -/

/-- **The notes change nothing**: with them what lies within a layer does what it does without. And
what is noted of a message of some kind accounts for how it comes to an end. -/
def Account (P : List (Note L σ) → Passage L → Prop) (M : Message L → Prop) (inner : Inner L σ)
    (inner' : Inner L (Kept L σ)) : Prop :=
  ∀ c m, M m → ∀ (w : World σ) (before : List (Note L σ)), ∃ notes,
    inner' c m (w.kept before) = ((inner c m w).1, (inner c m w).2.kept (before ++ notes)) ∧
      P notes (inner c m w).1

/-- A course that leaves an account as it is. -/
def Course.Entered (P : List (Note L σ) → Passage L → Prop) (M : Message L → Prop) :
    Course L σ → Prop
  | .answers r _ => P [.entered] (.returned r)
  | .panics p _ => P [.entered, .panicked p] (.panicked p)
  | .passes _ m _ leave _ => M m ∧
      (∀ notes r s, P notes (.returned r) →
        P (.entered :: notes ++ (leave r s).1.notes) (leave r s).1) ∧
      ∀ notes p, P notes (.panicked p) → P (.entered :: notes) (.panicked p)

/-- A layer that leaves an account as it is. -/
def Layer.Entered (P : List (Note L σ) → Passage L → Prop) (M : Message L → Prop)
    (kind : MessageKind) : Layer L σ → Prop
  | .tracing .. | .metrics | .logging _ => True
  | .foreign enter => ∀ c m, M m → ∀ s, (enter kind c m s).Entered P M

theorem tell_noting (t : Tracer σ) (operation : String) (n : SpanNote) (w : World σ)
    (before : List (Note L σ)) :
    t.noting.tell operation n (w.kept before) = (t.tell operation n w).kept before := by
  cases t with
  | silent => rfl
  | recorded => cases n <;> rfl
  | observed tell => rfl

theorem tellAll_noting (t : Tracer σ) (operation : String) (ns : List SpanNote) (w : World σ)
    (before : List (Note L σ)) :
    Layer.tellAll t.noting operation ns (w.kept before) =
      (Layer.tellAll t operation ns w).kept before := by
  unfold Layer.tellAll
  induction ns generalizing w with
  | nil => rfl
  | cons n ns ih => rw [List.foldl_cons, List.foldl_cons, tell_noting, ih]

theorem foldl_log_kept (records : List LogRecord) (w : World σ) (before : List (Note L σ)) :
    records.foldl World.log (w.kept before) = (records.foldl World.log w).kept before := by
  induction records generalizing w with
  | nil => rfl
  | cons r records ih => exact ih (w.log r)

section Layers

variable {P : List (Note L σ) → Passage L → Prop} {M : Message L → Prop} {kind : MessageKind}
  {inner : Inner L σ} {inner' : Inner L (Kept L σ)}

theorem readClock_kept (w : World σ) (before : List (Note L σ)) :
    (w.kept before).readClock = (w.readClock.1, w.readClock.2.kept before) := rfl

theorem Account.trace (h : Account P M inner inner') (t : Tracer σ) (threshold : Duration) :
    Account P M (Layer.trace t threshold kind inner)
      (Layer.trace t.noting threshold kind inner') := by
  intro c m hm w before
  let opened := Layer.tellAll t (m.operation kind) (Layer.openingNotes kind c m) w
  have hopened : Layer.tellAll t.noting (m.operation kind) (Layer.openingNotes kind c m)
      (w.kept before) = opened.kept before := tellAll_noting ..
  obtain ⟨notes, hinner, hnotes⟩ := h c m hm opened.readClock.2 before
  refine ⟨notes, ?_⟩
  simp only [Layer.trace, hopened, readClock_kept, hinner]
  cases hback : inner c m opened.readClock.2 with
  | mk passage w' =>
      rw [hback] at hnotes
      cases passage with
      | returned r =>
          have hclosed := tellAll_noting t (m.operation kind) (Layer.closingNotes threshold
            (w'.readClock.1 - opened.readClock.1) r) w'.readClock.2 (before ++ notes)
          exact ⟨congrArg (Prod.mk (Passage.returned r)) hclosed, hnotes⟩
      | panicked p =>
          have hclosed := tell_noting t (m.operation kind) .ended w' (before ++ notes)
          exact ⟨congrArg (Prod.mk (Passage.panicked p)) hclosed, hnotes⟩

theorem Account.measure (h : Account P M inner inner') :
    Account P M (Layer.measure kind inner) (Layer.measure kind inner') := by
  intro c m hm w before
  obtain ⟨notes, hinner, hnotes⟩ := h c m hm w.readClock.2 before
  refine ⟨notes, ?_⟩
  simp only [Layer.measure, readClock_kept, hinner]
  cases hback : inner c m w.readClock.2 with
  | mk passage w' =>
      rw [hback] at hnotes
      cases passage with
      | returned r => exact ⟨rfl, hnotes⟩
      | panicked p => exact ⟨rfl, hnotes⟩

theorem Account.note (h : Account P M inner inner') (threshold : Duration) :
    Account P M (Layer.note threshold kind inner) (Layer.note threshold kind inner') := by
  intro c m hm w before
  let opened := w.log (.event .debug "executing" (Layer.logFields kind c m))
  have hopened : (w.kept before).log (.event .debug "executing" (Layer.logFields kind c m)) =
      opened.kept before := rfl
  obtain ⟨notes, hinner, hnotes⟩ := h c m hm opened.readClock.2 before
  refine ⟨notes, ?_⟩
  simp only [Layer.note, hopened, readClock_kept, hinner]
  cases hback : inner c m opened.readClock.2 with
  | mk passage w' =>
      rw [hback] at hnotes
      cases passage with
      | returned r =>
          have hclosed := foldl_log_kept (Layer.closingRecords threshold kind c m
            (w'.readClock.1 - opened.readClock.1) r) w'.readClock.2 (before ++ notes)
          exact ⟨congrArg (Prod.mk (Passage.returned r)) hclosed, hnotes⟩
      | panicked p => exact ⟨rfl, hnotes⟩

theorem Account.wrap (h : Account P M inner inner')
    {enter : Context → Message L → Scene σ → Course L σ}
    (henter : ∀ c m, M m → ∀ s, (enter c m s).Entered P M) :
    Account P M (Layer.wrap enter inner)
      (Layer.wrap (fun c m s => (enter c m s.bare).noting (s.own.notes ++ [.entered])) inner') := by
  intro c m hm w before
  have hentered := henter c m hm w.scene
  have hscene : (w.kept before).scene.bare = w.scene := rfl
  have hbefore : (w.kept before).scene.own.notes = before := rfl
  simp only [Layer.wrap, hscene, hbefore]
  cases hcourse : enter c m w.scene with
  | answers r s =>
      rw [hcourse] at hentered
      exact ⟨[.entered], rfl, hentered⟩
  | panics p s =>
      rw [hcourse] at hentered
      refine ⟨[.entered, .panicked p], ?_, hentered⟩
      rw [List.append_cons before .entered [.panicked p]]
      rfl
  | passes c' m' s leave unwind =>
      rw [hcourse] at hentered
      obtain ⟨hm', hleave, hunwind⟩ := hentered
      -- What lies within begins with the note that the layer was entered.
      obtain ⟨notes, hinner, hnotes⟩ := h c' m' hm' { w with scene := s } (before ++ [.entered])
      have hworld : { w.kept before with scene := s.kept (before ++ [.entered]) } =
          World.kept { w with scene := s } (before ++ [.entered]) := rfl
      simp only [Course.noting, hworld, hinner]
      cases hback : inner c' m' { w with scene := s } with
      | mk passage w' =>
          rw [hback] at hnotes
          cases passage with
          | returned r =>
              refine ⟨.entered :: notes ++ (leave r w'.scene).1.notes, ?_,
                hleave notes r w'.scene hnotes⟩
              rw [List.cons_append,
                List.append_cons before .entered (notes ++ (leave r w'.scene).1.notes),
                ← List.append_assoc]
              rfl
          | panicked p =>
              refine ⟨.entered :: notes, ?_, hunwind notes p hnotes⟩
              rw [List.append_cons before .entered notes]
              rfl

/-- **An account of what lies within a layer is one of the layer.** -/
theorem Account.around (h : Account P M inner inner') {l : Layer L σ} (hl : l.Entered P M kind) :
    Account P M (l.around kind inner) (l.noting.around kind inner') := by
  cases l with
  | tracing t threshold => exact h.trace t threshold
  | metrics => exact h.measure
  | logging threshold => exact h.note threshold
  | foreign enter => exact h.wrap hl

theorem Account.nest (h : Account P M inner inner') {layers : List (Layer L σ)}
    (hlayers : ∀ l ∈ layers, l.Entered P M kind) :
    Account P M (Layer.nest kind inner layers)
      (Layer.nest kind inner' (layers.map Layer.noting)) := by
  induction layers with
  | nil => exact h
  | cons l layers ih =>
      have hrest := ih fun l' hl' => hlayers l' (List.mem_cons_of_mem _ hl')
      exact hrest.around (hlayers l List.mem_cons_self)

theorem account_inmost {t : L.Topic} (h : Handler L σ t)
    (hhandled : ∀ body, M ⟨t, body⟩ → ∀ ending,
      P [.handled ⟨t, h, body, ending⟩] (.returned (Handler.result kind t ending)))
    (hmissed : ∀ m, M m → m.topic ≠ t → P [] (.returned (.error (.typeMismatch (L.name t))))) :
    Account P M (h.inmost kind) (h.noting.inmost kind) := by
  intro c m hm w before
  obtain ⟨topic, body⟩ := m
  by_cases ht : topic = t
  · subst ht
    refine ⟨[.handled ⟨topic, h, body, (h.handle c body w.scene).1⟩], ?_, ?_⟩
    · simp only [Handler.inmost, Message.body?_self]
      rfl
    · simp only [Handler.inmost, Message.body?_self]
      exact hhandled body hm _
  · have hnone : (Message.mk topic body).body? t = none := dif_neg ht
    refine ⟨[], ?_, ?_⟩
    · simp only [Handler.inmost, hnone, List.append_nil]
    · simp only [Handler.inmost, hnone]
      exact hmissed ⟨topic, body⟩ hm ht

end Layers

/-! ## What an execution runs -/

/-- What comes of a message when what came back through the layers is this. -/
def conclude (kind : MessageKind) (m : Message L) :
    Passage L → Except (BusError L.Failure) (L.Value (L.form m.topic))
  | .returned r => answer m.topic r
  | .panicked p => .error (.panicked kind m.name p.message)

/-- A message that is not refused goes through the layers to its handler. -/
theorem execute_of_handler {b : Bus L σ} {c : Context} {m : Message L} {w : World σ}
    {h : Handler L σ m.topic} (hnil : b.refusesNil m = false) (hactive : w.check c = .ok ())
    (hhandler : b.handler? m.topic = some h) :
    let nested := Layer.nest b.kind (h.inmost b.kind) b.layers c m w
    b.execute c m w = (conclude b.kind m nested.1, nested.2) := by
  simp only [execute, hnil, hactive, hhandler, send, Bool.false_eq_true, if_false]
  cases Layer.nest b.kind (h.inmost b.kind) b.layers c m w with
  | mk passage w' =>
      cases passage with
      | returned r => rfl
      | panicked p => rfl

/-- Why a message is not brought to a handler: it is an empty command, its context has ended, or its
topic has no handler. -/
def refusal? (b : Bus L σ) (c : Context) (m : Message L) (w : World σ) :
    Option (BusError L.Failure) :=
  if b.refusesNil m then some (.nilCommand m.name)
  else match w.check c, b.handler? m.topic with
    | .error e, _ => some (.context e)
    | .ok (), none => some (.handlerNotFound b.kind m.name)
    | .ok (), some _ => none

theorem refusal?_noting (b : Bus L σ) (c : Context) (m : Message L) (w : World σ) :
    b.noting.refusal? c m (w.kept []) = b.refusal? c m w := by
  have hcheck : (w.kept ([] : List (Note L σ))).check c = w.check c := rfl
  have hhandler : b.noting.handler? m.topic = (b.handler? m.topic).map Handler.noting := rfl
  have hnil : b.noting.refusesNil m = b.refusesNil m := rfl
  simp only [refusal?, hcheck, hhandler, hnil]
  cases w.check c with
  | error e => rfl
  | ok _ => cases b.handler? m.topic <;> rfl

theorem execute_of_refusal {b : Bus L σ} {c : Context} {m : Message L} {w : World σ}
    {e : BusError L.Failure} (h : b.refusal? c m w = some e) : b.execute c m w = (.error e, w) := by
  unfold refusal? at h
  unfold execute
  cases hnil : b.refusesNil m with
  | true =>
      simp only [hnil, if_true, Option.some.injEq] at h ⊢
      rw [h]
  | false =>
      simp only [hnil, Bool.false_eq_true, if_false] at h ⊢
      cases hcheck : w.check c with
      | error e' =>
          simp only [hcheck, Option.some.injEq] at h ⊢
          rw [h]
      | ok _ =>
          cases hhandler : b.handler? m.topic with
          | none =>
              simp only [hcheck, hhandler, Option.some.injEq] at h ⊢
              rw [h]
          | some h' => simp only [hcheck, hhandler, reduceCtorEq] at h

theorem handler_of_no_refusal {b : Bus L σ} {c : Context} {m : Message L} {w : World σ}
    (h : b.refusal? c m w = none) :
    b.refusesNil m = false ∧ w.check c = .ok () ∧ ∃ h', b.handler? m.topic = some h' := by
  unfold refusal? at h
  cases hnil : b.refusesNil m with
  | true => simp only [hnil, if_true, reduceCtorEq] at h
  | false =>
      simp only [hnil, Bool.false_eq_true, if_false] at h
      cases hcheck : w.check c with
      | error e => simp only [hcheck, reduceCtorEq] at h
      | ok _ =>
          cases hhandler : b.handler? m.topic with
          | none => simp only [hcheck, hhandler, reduceCtorEq] at h
          | some h' => exact ⟨rfl, rfl, h', rfl⟩

/-- A message that is refused runs nothing. -/
theorem notes_of_refusal {b : Bus L σ} {c : Context} {m : Message L} {w : World σ}
    {e : BusError L.Failure} (h : b.refusal? c m w = some e) : b.notes c m w = [] := by
  unfold Bus.notes
  rw [execute_of_refusal ((b.refusal?_noting c m w).trans h)]
  rfl

/-- **The notes of an execution account for its answer**, if the handler and the layers do. -/
theorem notes_of_account {b : Bus L σ} {c : Context} {m : Message L} {w : World σ}
    {h : Handler L σ m.topic} {P : List (Note L σ) → Passage L → Prop} {M : Message L → Prop}
    (hnil : b.refusesNil m = false) (hactive : w.check c = .ok ())
    (hhandler : b.handler? m.topic = some h) (hm : M m)
    (hinmost : Account P M (h.inmost b.kind) (h.noting.inmost b.kind))
    (hlayers : ∀ l ∈ b.layers, l.Entered P M b.kind) :
    b.noting.execute c m (w.kept []) =
        ((b.execute c m w).1, (b.execute c m w).2.kept (b.notes c m w)) ∧
      ∃ passage, (b.execute c m w).1 = conclude b.kind m passage ∧ P (b.notes c m w) passage := by
  obtain ⟨notes, hnest, hnotes⟩ := hinmost.nest hlayers c m hm w []
  have hhandler' : b.noting.handler? m.topic = some h.noting := by
    show (b.handler? m.topic).map Handler.noting = _
    rw [hhandler, Option.map_some]
  have hexecute := execute_of_handler hnil hactive hhandler
  have hnoting : b.noting.execute c m (w.kept []) =
      ((b.execute c m w).1, (b.execute c m w).2.kept notes) := by
    rw [execute_of_handler (b := b.noting) (w := w.kept []) hnil hactive hhandler', hexecute]
    show (conclude b.kind m (Layer.nest b.kind (h.noting.inmost b.kind)
      (b.layers.map Layer.noting) c m (w.kept [])).1, (Layer.nest b.kind (h.noting.inmost b.kind)
      (b.layers.map Layer.noting) c m (w.kept [])).2) = _
    rw [hnest]
    rfl
  have hkept : b.notes c m w = notes := by
    unfold Bus.notes
    rw [hnoting]
    rfl
  rw [hkept]
  exact ⟨hnoting, _, congrArg Prod.fst hexecute, hnotes⟩

/-- **At most this handler ran, and once at most**; and if a layer panicked, that is what
comes out. -/
structure Routed {t : L.Topic} (h : Handler L σ t) (notes : List (Note L σ)) (passage : Passage L) :
    Prop where
  handlings : handlings notes = [] ∨ ∃ body ending, handlings notes = [⟨t, h, body, ending⟩]
  panics : ∀ p, .panicked p ∈ notes → passage = .panicked p

theorem routed_of_silent {t : L.Topic} (h : Handler L σ t) (passage : Passage L) :
    Routed h passage.notes passage where
  handlings := .inl (handlings_append_notes [] passage)
  panics := fun p hp => by
    cases passage with
    | returned r => cases hp
    | panicked p' =>
        cases List.mem_singleton.1 hp
        rfl

/-- That a layer was entered makes no difference. -/
theorem Routed.entered {t : L.Topic} {h : Handler L σ t} {notes : List (Note L σ)}
    {passage : Passage L} (hrouted : Routed h notes passage) :
    Routed h (.entered :: notes) passage where
  handlings := hrouted.handlings
  panics := fun p hp => by
    rcases List.mem_cons.1 hp with hp | hp
    · cases hp
    · exact hrouted.panics p hp

/-- A layer that goes on with a result may panic, and then nothing panicked before. -/
theorem Routed.left {t : L.Topic} {h : Handler L σ t} {notes : List (Note L σ)} {r : Result L}
    (hrouted : Routed h notes (.returned r)) (passage : Passage L) :
    Routed h (notes ++ passage.notes) passage where
  handlings := by
    rw [handlings_append_notes]
    exact hrouted.handlings
  panics := fun p hp => by
    rcases List.mem_append.1 hp with hp | hp
    · cases hrouted.panics p hp
    · exact (routed_of_silent h passage).panics p hp

theorem Layer.entered_routed {t : L.Topic} (h : Handler L σ t) (kind : MessageKind)
    (l : Layer L σ) : l.Entered (Routed h) (fun _ => True) kind := by
  cases l with
  | tracing tracer threshold => trivial
  | metrics => trivial
  | logging threshold => trivial
  | foreign enter =>
      intro c m _ s
      cases enter kind c m s with
      | answers r s' => exact (routed_of_silent h (.returned r)).entered
      | panics p s' => exact (routed_of_silent h (.panicked p)).entered
      | passes c' m' s' leave unwind =>
          exact ⟨trivial, fun notes r s hrouted => (hrouted.left _).entered,
            fun notes p hrouted => hrouted.entered⟩

theorem account_routed {t : L.Topic} (h : Handler L σ t) (kind : MessageKind) :
    Account (Routed h) (fun _ => True) (h.inmost kind) (h.noting.inmost kind) := by
  refine account_inmost h (fun body _ ending => ?_) fun m _ _ => routed_of_silent h (.returned _)
  refine ⟨.inr ⟨body, ending, rfl⟩, fun p hp => ?_⟩
  cases List.mem_singleton.1 hp

/-! ### Layers that pass a message on -/

/-- The layer passes the message on, once, and goes on so when the result is back. -/
def Layer.Passes (kind : MessageKind) (m : Message L)
    (goesOn : (Result L → Scene σ → Passage L × Scene σ) → Prop) : Layer L σ → Prop
  | .tracing .. | .metrics | .logging _ => True
  | .foreign enter => ∀ c s, ∃ c' s' leave unwind,
      enter kind c m s = .passes c' m s' leave unwind ∧ goesOn leave

/-- The layer passes the message on, whatever it does with the result. -/
def Layer.PassesOn (kind : MessageKind) (m : Message L) (l : Layer L σ) : Prop :=
  l.Passes kind m fun _ => True

/-- The layer passes the message on and hands back what comes of it. -/
def Layer.HandsBack (kind : MessageKind) (m : Message L) (l : Layer L σ) : Prop :=
  l.Passes kind m fun leave => ∀ r s, (leave r s).1 = .returned r

/-- The handler ran once, with the message, and its ending comes out so. -/
def Handled (m : Message L) (h : Handler L σ m.topic)
    (comesOut : Ending L.Failure (L.Value (L.form m.topic)) → Passage L → Prop)
    (notes : List (Note L σ)) (passage : Passage L) : Prop :=
  ∃ ending, handlings notes = [⟨m.topic, h, m.body, ending⟩] ∧ comesOut ending passage

theorem Layer.Passes.entered {kind : MessageKind} {m : Message L} {h : Handler L σ m.topic}
    {goesOn : (Result L → Scene σ → Passage L × Scene σ) → Prop}
    {comesOut : Ending L.Failure (L.Value (L.form m.topic)) → Passage L → Prop}
    {l : Layer L σ} (hl : l.Passes kind m goesOn)
    (hout : ∀ leave, goesOn leave → ∀ ending r s, comesOut ending (.returned r) →
      comesOut ending (leave r s).1) :
    l.Entered (Handled m h comesOut) (· = m) kind := by
  cases l with
  | tracing tracer threshold => trivial
  | metrics => trivial
  | logging threshold => trivial
  | foreign enter =>
      rintro c _ rfl s
      obtain ⟨c', s', leave, unwind, henter, hleave⟩ := hl c s
      rw [henter]
      refine ⟨rfl, fun notes r s hhandled => ?_, fun notes p hhandled => hhandled⟩
      obtain ⟨ending, hhandlings, hending⟩ := hhandled
      exact ⟨ending, (handlings_append_notes ..).trans hhandlings,
        hout leave hleave ending r s hending⟩

theorem account_handled {kind : MessageKind} {m : Message L} (h : Handler L σ m.topic)
    (comesOut : Ending L.Failure (L.Value (L.form m.topic)) → Passage L → Prop)
    (hout : ∀ ending, comesOut ending (.returned (Handler.result kind m.topic ending))) :
    Account (Handled m h comesOut) (· = m) (h.inmost kind) (h.noting.inmost kind) := by
  refine account_inmost h (fun body hm ending => ?_) fun m' hm hne => absurd (congrArg _ hm) hne
  obtain ⟨topic, body'⟩ := m
  cases hm
  exact ⟨ending, rfl, hout ending⟩

/-- **What comes of a message that is brought to a handler**: whatever the layers do, at most this
handler runs, once at most, and a layer's panic becomes the answer. If they pass the message on, it
runs once with it, and if they hand back what comes of it, the handler's ending is the answer. -/
structure Served (b : Bus L σ) (c : Context) (m : Message L) (w : World σ)
    (h : Handler L σ m.topic) : Prop where
  noOther : handlings (b.notes c m w) = [] ∨
    ∃ body ending, handlings (b.notes c m w) = [⟨m.topic, h, body, ending⟩]
  panicked : ∀ p, .panicked p ∈ b.notes c m w →
    (b.execute c m w).1 = .error (.panicked b.kind m.name p.message)
  once : (∀ l ∈ b.layers, l.PassesOn b.kind m) →
    ∃ ending, handlings (b.notes c m w) = [⟨m.topic, h, m.body, ending⟩]
  answer : (∀ l ∈ b.layers, l.HandsBack b.kind m) →
    ∃ ending, handlings (b.notes c m w) = [⟨m.topic, h, m.body, ending⟩] ∧
      (b.execute c m w).1 = told b.kind m.topic ending

theorem served_of_handler {b : Bus L σ} {c : Context} {m : Message L} {w : World σ}
    {h : Handler L σ m.topic} (hnil : b.refusesNil m = false) (hactive : w.check c = .ok ())
    (hhandler : b.handler? m.topic = some h) : Served b c m w h := by
  obtain ⟨-, passage, hexecute, hrouted⟩ := notes_of_account hnil hactive hhandler trivial
    (account_routed h b.kind) fun l _ => l.entered_routed h b.kind
  refine ⟨hrouted.handlings, fun p hp => ?_, fun hlayers => ?_, fun hlayers => ?_⟩
  · rw [hexecute, hrouted.panics p hp]
    rfl
  · obtain ⟨-, _, -, ending, hhandlings, -⟩ := notes_of_account (M := (· = m)) hnil hactive hhandler
      rfl (account_handled h (fun _ _ => True) fun _ => trivial)
      fun l hl => (hlayers l hl).entered fun _ _ _ _ _ _ => trivial
    exact ⟨ending, hhandlings⟩
  · obtain ⟨-, passage', hexecute', ending, hhandlings, rfl⟩ := notes_of_account (M := (· = m)) hnil
      hactive hhandler rfl
      (account_handled h (fun ending passage =>
        passage = .returned (Handler.result b.kind m.topic ending)) fun _ => rfl)
      fun l hl => (hlayers l hl).entered fun leave hleave ending r s hr => (hleave r s).trans hr
    exact ⟨ending, hhandlings, hexecute'.trans (answer_result b.kind m.topic ending)⟩

/-- **The notes are of the same execution**: without them it answers the same and leaves the same
world. -/
theorem execute_noting (b : Bus L σ) (c : Context) (m : Message L) (w : World σ) :
    b.noting.execute c m (w.kept []) =
      ((b.execute c m w).1, (b.execute c m w).2.kept (b.notes c m w)) := by
  cases hrefusal : b.refusal? c m w with
  | some e =>
      rw [notes_of_refusal hrefusal, execute_of_refusal hrefusal,
        execute_of_refusal ((b.refusal?_noting c m w).trans hrefusal)]
  | none =>
      obtain ⟨hnil, hactive, h, hhandler⟩ := handler_of_no_refusal hrefusal
      exact (notes_of_account hnil hactive hhandler trivial (account_routed h b.kind)
        fun l _ => l.entered_routed h b.kind).1

/-! ## Calls on a bus -/

/-- What is done to a bus, through whichever of its clones, and to the world meanwhile. -/
inductive Call (L : Catalogue) (σ : Type) where
  | register (t : L.Topic) (h : Handler L σ t)
  | use (l : Layer L σ)
  | execute (c : Context) (m : Message L)
  | elsewhere (change : World σ → World σ)

/-- A bus, and the world around it. -/
structure Floor (L : Catalogue) (σ : Type) where
  bus : Bus L σ
  world : World σ

def Floor.step (f : Floor L σ) : Call L σ → Floor L σ
  | .register t h => match f.bus.register t h f.world with
      | (.ok bus, world) => ⟨bus, world⟩
      | (.error _, world) => { f with world }
  | .use l => { f with bus := f.bus.use l }
  | .execute c m => { f with world := (f.bus.execute c m f.world).2 }
  | .elsewhere change => { f with world := change f.world }

/-- **Any calls on a new bus**, one after another. -/
def run (kind : MessageKind) (w : World σ) (calls : List (Call L σ)) : Floor L σ :=
  calls.foldl Floor.step ⟨empty kind, w⟩

/-- A bus that is traced, measured and logged is one with three layers. -/
example (kind : MessageKind) (w : World σ) (tracer : Tracer σ) (threshold : Duration) :
    (run (L := L) kind w [.use (.tracing tracer threshold), .use .metrics,
      .use (.logging threshold)]).bus = observed kind tracer threshold := rfl

/-- The handler that was registered first for a topic. -/
def first? (t : L.Topic) : List (Call L σ) → Option (Handler L σ t)
  | [] => none
  | .register u h :: calls => if e : u = t then some (e ▸ h) else first? t calls
  | .use _ :: calls | .execute .. :: calls | .elsewhere _ :: calls => first? t calls

/-- The layers in the order in which they were added. -/
def added : List (Call L σ) → List (Layer L σ)
  | [] => []
  | .use l :: calls => l :: added calls
  | .register .. :: calls | .execute .. :: calls | .elsewhere _ :: calls => added calls

theorem register_of_none {b : Bus L σ} {t : L.Topic} (hnone : b.handler? t = none)
    (h : Handler L σ t) (w : World σ) :
    b.register t h w = (.ok (b.setHandler t h), w.log (registrationRecord b.kind (L.name t))) := by
  simp [register, isRegistered, hnone]

/-- **A topic that has a handler is not registered again.** -/
theorem register_of_some {b : Bus L σ} {t : L.Topic} {h₀ : Handler L σ t}
    (hsome : b.handler? t = some h₀) (h : Handler L σ t) (w : World σ) :
    b.register t h w = (.error (.alreadyRegistered b.kind (L.name t)), w) := by
  simp [register, isRegistered, hsome]

/-- What a bus has come to after calls on it. -/
structure Holds (b b' : Bus L σ) (calls : List (Call L σ)) : Prop where
  kind : b'.kind = b.kind
  handler : ∀ t, b'.handler? t = (b.handler? t).or (first? t calls)
  layers : b'.layers = b.layers ++ added calls

/-- One call more in front, which changes neither handlers nor layers. -/
theorem Holds.cons_of_same {b b' : Bus L σ} {calls : List (Call L σ)} (h : Holds b b' calls)
    {call : Call L σ} (hfirst : ∀ t, first? t (call :: calls) = first? t calls)
    (hadded : added (call :: calls) = added calls) : Holds b b' (call :: calls) where
  kind := h.kind
  handler := fun t => by rw [hfirst, h.handler]
  layers := by rw [hadded, h.layers]

theorem holds_foldl (calls : List (Call L σ)) :
    ∀ f : Floor L σ, Holds f.bus (calls.foldl Floor.step f).bus calls := by
  induction calls with
  | nil => exact fun f => ⟨rfl, fun t => (Option.or_none).symm, (List.append_nil _).symm⟩
  | cons call calls ih =>
      intro f
      have hrest := ih (f.step call)
      cases call with
      | register u h =>
          cases hbefore : f.bus.handler? u with
          | none =>
              have hstep : f.step (.register u h) =
                  ⟨f.bus.setHandler u h,
                    f.world.log (registrationRecord f.bus.kind (L.name u))⟩ := by
                simp only [Floor.step, register_of_none hbefore]
              rw [List.foldl_cons]
              rw [hstep] at hrest ⊢
              refine ⟨hrest.kind, fun t => ?_, hrest.layers⟩
              rw [hrest.handler t]
              by_cases ht : u = t
              · subst ht
                simp [setHandler, first?, hbefore]
              · simp [setHandler, first?, ht]
          | some h₀ =>
              -- The topic keeps its handler, so the call is as good as none.
              have hstep : f.step (.register u h) = f := by
                simp only [Floor.step, register_of_some hbefore]
              rw [List.foldl_cons]
              rw [hstep] at hrest ⊢
              refine ⟨hrest.kind, fun t => ?_, hrest.layers⟩
              rw [hrest.handler t]
              by_cases ht : u = t
              · subst ht
                simp [hbefore]
              · simp [first?, ht]
      | use l =>
          refine ⟨hrest.kind, hrest.handler, ?_⟩
          rw [List.foldl_cons, hrest.layers]
          exact List.append_assoc f.bus.layers [l] (added calls)
      | execute c m => exact hrest.cons_of_same (fun t => rfl) rfl
      | elsewhere change => exact hrest.cons_of_same (fun t => rfl) rfl

theorem holds_run (kind : MessageKind) (w : World σ) (calls : List (Call L σ)) :
    (run kind w calls).bus.kind = kind ∧
      (∀ t, (run kind w calls).bus.handler? t = first? t calls) ∧
      (run kind w calls).bus.layers = added calls := by
  have hholds := holds_foldl calls ⟨empty kind, w⟩
  exact ⟨hholds.kind, fun t => (hholds.handler t).trans Option.none_or,
    hholds.layers.trans (List.nil_append _)⟩

/-! ## Routing -/

/-- **What an execution comes to** when this is the handler of the message's topic. -/
inductive Executed (b : Bus L σ) (c : Context) (m : Message L) (w : World σ)
    (registered : Option (Handler L σ m.topic)) : Prop where
  | nil (command : b.kind = .command) (empty : L.isNil m.topic m.body = true)
      (out : b.execute c m w = (.error (.nilCommand m.name), w)) (silent : b.notes c m w = [])
  | ended (e : ContextError) (nonempty : ¬ (b.kind = .command ∧ L.isNil m.topic m.body = true))
      (context : w.check c = .error e) (out : b.execute c m w = (.error (.context e), w))
      (silent : b.notes c m w = [])
  | unknown (nonempty : ¬ (b.kind = .command ∧ L.isNil m.topic m.body = true))
      (active : w.check c = .ok ()) (nobody : registered = none)
      (out : b.execute c m w = (.error (.handlerNotFound b.kind m.name), w))
      (silent : b.notes c m w = [])
  | served (h : Handler L σ m.topic)
      (nonempty : ¬ (b.kind = .command ∧ L.isNil m.topic m.body = true))
      (active : w.check c = .ok ()) (first : registered = some h) (served : Served b c m w h)

theorem refusesNil_iff {b : Bus L σ} {m : Message L} :
    b.refusesNil m = true ↔ b.kind = .command ∧ L.isNil m.topic m.body = true := by
  simp [refusesNil]

theorem executed (b : Bus L σ) (c : Context) (m : Message L) (w : World σ) :
    Executed b c m w (b.handler? m.topic) := by
  have hout : ∀ e, b.refusal? c m w = some e →
      b.execute c m w = (.error e, w) ∧ b.notes c m w = [] :=
    fun e he => ⟨execute_of_refusal he, notes_of_refusal he⟩
  unfold refusal? at hout
  cases hnil : b.refusesNil m with
  | true =>
      obtain ⟨hcommand, hempty⟩ := refusesNil_iff.1 hnil
      obtain ⟨hexecute, hsilent⟩ := hout _ (if_pos hnil)
      exact .nil hcommand hempty hexecute hsilent
  | false =>
      have hnonempty : ¬ (b.kind = .command ∧ L.isNil m.topic m.body = true) := by
        rw [← refusesNil_iff, hnil]
        exact Bool.false_ne_true
      simp only [hnil, Bool.false_eq_true, if_false] at hout
      cases hactive : w.check c with
      | error e =>
          simp only [hactive] at hout
          obtain ⟨hexecute, hsilent⟩ := hout _ rfl
          exact .ended e hnonempty hactive hexecute hsilent
      | ok _ =>
          cases hhandler : b.handler? m.topic with
          | none =>
              simp only [hactive, hhandler] at hout
              obtain ⟨hexecute, hsilent⟩ := hout _ rfl
              exact .unknown hnonempty hactive rfl hexecute hsilent
          | some h =>
              exact .served h hnonempty hactive rfl (served_of_handler hnil hactive hhandler)

/-- **One handler for each topic.** After any calls on a bus and its clones: a topic without a
handler takes the first that is registered for it; one that has a handler refuses every other, and
neither the bus nor the world shows later that it was asked. A message is refused without running
anything, or is served by the handler that was registered first. An execution leaves the bus as it
is. -/
theorem routes_to_first (kind : MessageKind) (w : World σ) (calls : List (Call L σ)) :
    let f := run kind w calls
    f.bus.kind = kind ∧ f.bus.layers = added calls ∧
    (∀ t (h : Handler L σ t), first? t calls = none →
      ∃ b world, f.bus.register t h f.world = (.ok b, world)) ∧
    (∀ t (h₀ h : Handler L σ t), first? t calls = some h₀ →
      f.bus.register t h f.world = (.error (.alreadyRegistered kind (L.name t)), f.world) ∧
      ∀ later, run kind w (calls ++ .register t h :: later) = run kind w (calls ++ later)) ∧
    ∀ c m,
      Executed f.bus c m f.world (first? m.topic calls) ∧
      f.bus.noting.execute c m (f.world.kept []) = ((f.bus.execute c m f.world).1,
        (f.bus.execute c m f.world).2.kept (f.bus.notes c m f.world)) ∧
      (run kind w (calls ++ [.execute c m])).bus = f.bus := by
  intro f
  obtain ⟨hkind, hhandler, hlayers⟩ := holds_run kind w calls
  have hcons : ∀ call later,
      run kind w (calls ++ call :: later) = later.foldl Floor.step (f.step call) := by
    intro call later
    rw [run, List.foldl_append, List.foldl_cons]
    rfl
  refine ⟨hkind, hlayers, fun t h hfirst => ?_, fun t h₀ h hfirst => ?_, fun c m => ⟨?_, ?_, ?_⟩⟩
  · exact ⟨_, _, register_of_none ((hhandler t).trans hfirst) h f.world⟩
  · have hregister := register_of_some ((hhandler t).trans hfirst) h f.world
    rw [hkind] at hregister
    refine ⟨hregister, fun later => ?_⟩
    have hsame : f.step (.register t h) = f := by
      simp only [Floor.step]
      rw [hregister]
    rw [hcons, hsame, run, List.foldl_append]
    rfl
  · rw [← hhandler]
    exact executed f.bus c m f.world
  · exact execute_noting f.bus c m f.world
  · rw [hcons]
    rfl

end Bus

end Registrar
