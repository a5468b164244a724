import Registrar.Proofs.Bus.Routing
import Registrar.Rehearsal.Messages

set_option autoImplicit false

/-! # Layers nest like a stack

Layers that log when they are entered and when they are left show how a message goes inwards and how
the reply comes back. What a layer does with the messages on a topic is its `Conduct`; whatever else
it does to the scene, and in which context it passes the message on, is left open. Layers of our own
may stand between them: they only observe.

The layers that are entered are those up to the first that does not hand the message on. **Their
entries are logged in order, then the handler if all hand the message on, then their exits in
reverse, as far as nobody panics** (`logged`). A panic of a layer skips its own exit and those of
all layers around it; a panic of the handler is a reply like any other. What comes back is the panic
of the innermost layer that panics, or the innermost reply as the layers around change it, from the
inside out (`comesBack`). Both are proved of any layers by induction from the handler outwards
(`Chain.goes`), with a step for one layer more that only observes, that hands the message on, or
that does not. -/

namespace Registrar.Bus

variable {L : Catalogue} {σ ℓ : Type} {t : L.Topic}

/-! ## What layers do -/

/-- A line of the log. -/
inductive Mark (ℓ : Type) where
  | entered (label : ℓ)
  | handled
  | left (label : ℓ)
  deriving DecidableEq

/-- A reply in the form of a topic. -/
abbrev Reply (L : Catalogue) (t : L.Topic) : Type :=
  Except (BusError L.Failure) (L.Value (L.form t))

/-- The reply on its way back. -/
def Reply.result : Reply L t → Result L
  | .ok v => .ok ⟨L.form t, v⟩
  | .error e => .error e

theorem answer_reply (r : Reply L t) : answer t (Reply.result r) = r := by
  cases r with
  | ok v => simp [Reply.result, answer]
  | error e => rfl

theorem result_eq_reply (kind : MessageKind) (t : L.Topic)
    (ending : Ending L.Failure (L.Value (L.form t))) :
    Handler.result kind t ending = Reply.result (told kind t ending) := by
  cases ending with
  | returned v => rfl
  | failed e => rfl
  | panicked p => rfl

/-- **What a layer does with the messages on a topic**: it passes them on and makes something of the
reply, answers in place of all that lies within, or panics before what lies within or after it. -/
inductive Conduct (L : Catalogue) (t : L.Topic) where
  | passes (change : Reply L t → Reply L t)
  | answers (r : Reply L t)
  | panicsBefore (p : PanicPayload)
  | panicsAfter (p : PanicPayload)

namespace Conduct

def handsOn : Conduct L t → Bool
  | .passes _ | .panicsAfter _ => true
  | .answers _ | .panicsBefore _ => false

def panic? : Conduct L t → Option PanicPayload
  | .panicsBefore p | .panicsAfter p => some p
  | .passes _ | .answers _ => none

def change : Conduct L t → Reply L t → Reply L t
  | .passes f => f
  | .answers _ | .panicsBefore _ | .panicsAfter _ => id

/-- The course logs the entry and passes the message on. A reply then comes out so, and these marks
are logged; a panic that comes back leaves no mark. -/
def Passes (log : σ → List (Mark ℓ)) (label : ℓ) (m : Message L) (s : Scene σ)
    (out : Reply L m.topic → Passage L) (marks : List (Mark ℓ)) (course : Course L σ) : Prop :=
  ∃ c s' leave unwind, course = .passes c m s' leave unwind ∧
    log s'.own = log s.own ++ [.entered label] ∧
    (∀ r back, (leave (Reply.result r) back).1 = out r ∧
      log (leave (Reply.result r) back).2.own = log back.own ++ marks) ∧
    ∀ back, log (unwind back).own = log back.own

/-- **The course of a layer with this label that conducts itself so**: it logs that it is entered,
and that it is left if it comes to that. -/
def Takes (log : σ → List (Mark ℓ)) (label : ℓ) (m : Message L) (s : Scene σ)
    (course : Course L σ) : Conduct L m.topic → Prop
  | .passes change =>
      Passes log label m s (fun r => .returned (Reply.result (change r))) [.left label] course
  | .panicsAfter p => Passes log label m s (fun _ => .panicked p) [] course
  | .answers r => ∃ s', course = .answers (Reply.result r) s' ∧
      log s'.own = log s.own ++ [.entered label, .left label]
  | .panicsBefore p => ∃ s', course = .panics p s' ∧ log s'.own = log s.own ++ [.entered label]

end Conduct

/-- A layer that logs under a label. -/
structure Member (ℓ : Type) (L : Catalogue) (t : L.Topic) where
  label : ℓ
  conduct : Conduct L t

/-- A layer of our own, which leaves the log as it is. -/
def Layer.Observes (log : σ → List (Mark ℓ)) : Layer L σ → Prop
  | .tracing tracer _ => tracer.Keeps log
  | .metrics | .logging _ => True
  | .foreign _ => False

/-- **Layers of which some are members** that do with a message what they are said to do, and the
others only observe. -/
inductive Chain (log : σ → List (Mark ℓ)) (kind : MessageKind) (m : Message L) :
    List (Layer L σ) → List (Member ℓ L m.topic) → Prop where
  | nil : Chain log kind m [] []
  | observer {l : Layer L σ} {layers : List (Layer L σ)} {ms : List (Member ℓ L m.topic)}
      (observes : l.Observes log) (rest : Chain log kind m layers ms) :
      Chain log kind m (l :: layers) ms
  | member {enter : MessageKind → Context → Message L → Scene σ → Course L σ}
      {layers : List (Layer L σ)} {x : Member ℓ L m.topic} {ms : List (Member ℓ L m.topic)}
      (takes : ∀ c s, x.conduct.Takes log x.label m s (enter kind c m s))
      (rest : Chain log kind m layers ms) : Chain log kind m (.foreign enter :: layers) (x :: ms)

/-! ## What is logged and what comes back -/

/-- The members that are entered: those up to the first that does not hand the message on. -/
def entered (ms : List (Member ℓ L t)) : List (Member ℓ L t) :=
  ms.takeWhile (·.conduct.handsOn) ++ (ms.dropWhile (·.conduct.handsOn)).take 1

/-- All members hand the message on, so that it comes to the handler. -/
def allHandOn (ms : List (Member ℓ L t)) : Bool := ms.all (·.conduct.handsOn)

/-- The members that are left: from the inside out, until one panics. -/
def left (ms : List (Member ℓ L t)) : List (Member ℓ L t) :=
  (entered ms).reverse.takeWhile (·.conduct.panic?.isNone)

/-- **The log of a message on its way** inwards and back. -/
def logged (ms : List (Member ℓ L t)) : List (Mark ℓ) :=
  (entered ms).map (.entered ·.label) ++ (if allHandOn ms then [.handled] else []) ++
    (left ms).map (.left ·.label)

/-- What comes back first: the answer of the member that does not hand the message on, if there is
one, or else what the handler replied. -/
def inmost (ms : List (Member ℓ L t)) (reply : Reply L t) : Reply L t :=
  match ms.find? (!·.conduct.handsOn) with
  | some ⟨_, .answers r⟩ => r
  | _ => reply

/-- The panic of the innermost member that is entered and panics. -/
def panicOf (ms : List (Member ℓ L t)) : Option PanicPayload :=
  (entered ms).reverse.findSome? (·.conduct.panic?)

/-- The innermost reply as the members around it change it, from the inside out. -/
def changed (ms : List (Member ℓ L t)) (reply : Reply L t) : Reply L t :=
  (entered ms).foldr (fun x r => x.conduct.change r) (inmost ms reply)

/-- **What comes back.** -/
def comesBack (ms : List (Member ℓ L t)) (reply : Reply L t) : Passage L :=
  match panicOf ms with
  | some p => .panicked p
  | none => .returned (Reply.result (changed ms reply))

/-! ### One member more -/

section

variable {x : Member ℓ L t} {ms : List (Member ℓ L t)} {reply : Reply L t}

theorem entered_cons_of_handsOn (hx : x.conduct.handsOn = true) :
    entered (x :: ms) = x :: entered ms := by
  simp [entered, hx]

theorem allHandOn_cons_of_handsOn (hx : x.conduct.handsOn = true) :
    allHandOn (x :: ms) = allHandOn ms := by
  simp [allHandOn, hx]

theorem inmost_cons_of_handsOn (hx : x.conduct.handsOn = true) :
    inmost (x :: ms) reply = inmost ms reply := by
  simp [inmost, hx]

theorem panicOf_cons_of_handsOn (hx : x.conduct.handsOn = true) :
    panicOf (x :: ms) = (panicOf ms).or x.conduct.panic? := by
  rw [panicOf, entered_cons_of_handsOn hx, List.reverse_cons, List.findSome?_append,
    List.findSome?_singleton]
  rfl

/-- Those around a member that panics are not left, and it is not left either. -/
theorem left_cons_of_panic (hx : x.conduct.handsOn = true) {p : PanicPayload}
    (hpanic : panicOf ms = some p) : left (x :: ms) = left ms := by
  -- Outwards, what comes behind the one that panics is not reached, this member included.
  obtain ⟨before, y, after, hentered, hy, hbefore⟩ := List.findSome?_eq_some_iff.1 hpanic
  have hleft : ∀ z ∈ before, z.conduct.panic?.isNone = true := fun z hz => by
    rw [hbefore z hz]
    rfl
  have hstop : ∀ rest, (y :: rest).takeWhile (·.conduct.panic?.isNone) = [] := fun rest => by
    simp [hy]
  rw [left, left, entered_cons_of_handsOn hx, List.reverse_cons, hentered, List.append_assoc,
    List.takeWhile_append_of_pos hleft, List.takeWhile_append_of_pos hleft, List.cons_append,
    hstop, hstop]

/-- Where nobody within panics, a member is left after all of them, unless it panics itself. -/
theorem left_cons_of_no_panic (hx : x.conduct.handsOn = true) (hnone : panicOf ms = none) :
    left (x :: ms) = left ms ++ if x.conduct.panic?.isNone then [x] else [] := by
  have hleft : ∀ z ∈ (entered ms).reverse, z.conduct.panic?.isNone = true := fun z hz => by
    rw [List.findSome?_eq_none_iff.1 hnone z hz]
    rfl
  have hall : left ms = (entered ms).reverse := by
    have happend : ((entered ms).reverse ++ []).takeWhile (·.conduct.panic?.isNone) =
        (entered ms).reverse ++ [] := List.takeWhile_append_of_pos hleft
    rwa [List.append_nil] at happend
  rw [hall, left, entered_cons_of_handsOn hx, List.reverse_cons,
    List.takeWhile_append_of_pos hleft, List.takeWhile_cons, List.takeWhile_nil]

/-- A member that hands the message on is entered before all others, and left after them if nobody
panics. -/
theorem logged_cons_of_handsOn (hx : x.conduct.handsOn = true) :
    logged (x :: ms) = .entered x.label :: logged ms ++
      (panicOf ms).elim (if x.conduct.panic?.isNone then [.left x.label] else []) fun _ => [] := by
  rw [logged, logged, allHandOn_cons_of_handsOn hx, entered_cons_of_handsOn hx]
  cases hpanic : panicOf ms with
  | some p =>
      rw [left_cons_of_panic hx hpanic]
      exact (List.append_nil _).symm
  | none =>
      rw [left_cons_of_no_panic hx hpanic, List.map_append]
      cases x.conduct.panic? with
      | none => simp
      | some p => simp

theorem comesBack_cons_of_handsOn (hx : x.conduct.handsOn = true) :
    comesBack (x :: ms) reply = (panicOf ms).elim
      (x.conduct.panic?.elim (.returned (Reply.result (x.conduct.change (changed ms reply))))
        .panicked) .panicked := by
  rw [comesBack, panicOf_cons_of_handsOn hx, changed, entered_cons_of_handsOn hx,
    inmost_cons_of_handsOn hx]
  cases panicOf ms with
  | some p => rfl
  | none => cases x.conduct.panic? <;> rfl

end

/-! ## Going through -/

section

variable {log : σ → List (Mark ℓ)} {kind : MessageKind} {m : Message L}
  {h : Handler L σ m.topic} {inner : Inner L σ} {ms : List (Member ℓ L m.topic)}

/-- **A message goes through these members to the handler and back**: all that is logged is
`logged`, and what comes back is `comesBack`. If all hand it on, the reply is what a run of the
handler comes to, which begins when all entries are logged. -/
def Goes (log : σ → List (Mark ℓ)) (kind : MessageKind) (m : Message L)
    (h : Handler L σ m.topic) (ms : List (Member ℓ L m.topic)) (inner : Inner L σ) : Prop :=
  ∀ c w, ∃ reply,
    (allHandOn ms = true → ∃ c' s,
      log s.own = log w.scene.own ++ (entered ms).map (.entered ·.label) ∧
        told kind m.topic (h.handle c' m.body s).1 = reply) ∧
    (inner c m w).1 = comesBack ms reply ∧
    log (inner c m w).2.scene.own = log w.scene.own ++ logged ms

/-- A handler that logs that it was called. -/
def Handler.Marks (log : σ → List (Mark ℓ)) (m : Message L) (h : Handler L σ m.topic) : Prop :=
  ∀ c s, log (h.handle c m.body s).2.own = log s.own ++ [.handled]

theorem goes_inmost (hmarks : h.Marks log m) : Goes log kind m h [] (h.inmost kind) := by
  intro c w
  obtain ⟨topic, body⟩ := m
  refine ⟨told kind topic (h.handle c body w.scene).1, fun _ => ⟨c, w.scene, ?_, rfl⟩, ?_, ?_⟩
  · exact (List.append_nil _).symm
  · simp only [Handler.inmost, Message.body?_self]
    exact congrArg Passage.returned (result_eq_reply kind topic _)
  · simp only [Handler.inmost, Message.body?_self]
    exact hmarks c w.scene

/-- What lies within one of our own layers begins with the same log and decides everything. -/
theorem Layer.Observes.around {l : Layer L σ} (hl : l.Observes log) (kind : MessageKind)
    (inner : Inner L σ) (c : Context) (m : Message L) (w : World σ) :
    ∃ opened : World σ, log opened.scene.own = log w.scene.own ∧
      (l.around kind inner c m w).1 = (inner c m opened).1 ∧
      log (l.around kind inner c m w).2.scene.own = log (inner c m opened).2.scene.own := by
  cases l with
  | tracing t threshold =>
      let opened := (Layer.tellAll t (m.operation kind) (Layer.openingNotes kind c m) w).readClock.2
      refine ⟨opened, (Arrives.tellAll hl _ _ w).view, ?_⟩
      simp only [Layer.around, Layer.trace]
      cases hback : inner c m opened with
      | mk passage w' => cases passage with
        | returned r => exact ⟨rfl, (Arrives.tellAll hl _ _ w'.readClock.2).view⟩
        | panicked p => exact ⟨rfl, hl _ _ w'⟩
  | metrics =>
      refine ⟨w.readClock.2, rfl, ?_⟩
      simp only [Layer.around, Layer.measure]
      cases hback : inner c m w.readClock.2 with
      | mk passage w' => cases passage <;> exact ⟨rfl, rfl⟩
  | logging threshold =>
      let opened := (w.log (.event .debug "executing" (Layer.logFields kind c m))).readClock.2
      refine ⟨opened, rfl, ?_⟩
      simp only [Layer.around, Layer.note]
      cases hback : inner c m opened with
      | mk passage w' => cases passage with
        | returned r => exact ⟨rfl, by rw [scene_foldl_log]; rfl⟩
        | panicked p => exact ⟨rfl, rfl⟩
  | foreign enter => exact hl.elim

theorem Goes.observed (hi : Goes log kind m h ms inner) {l : Layer L σ} (hl : l.Observes log) :
    Goes log kind m h ms (l.around kind inner) := by
  intro c w
  obtain ⟨opened, hopened, hpassage, hlog⟩ := hl.around kind inner c m w
  obtain ⟨reply, hreply, hback, hlogged⟩ := hi c opened
  rw [hopened] at hreply hlogged
  exact ⟨reply, hreply, hpassage.trans hback, hlog.trans hlogged⟩

/-- What comes back through a member that hands the message on. -/
theorem Goes.passed (hi : Goes log kind m h ms inner) {label : ℓ}
    {enter : Context → Message L → Scene σ → Course L σ} {out : Reply L m.topic → Passage L}
    {marks : List (Mark ℓ)}
    (hpasses : ∀ c s, Conduct.Passes log label m s out marks (enter c m s)) (c : Context)
    (w : World σ) :
    ∃ reply,
      (allHandOn ms = true → ∃ c' s,
        log s.own = log w.scene.own ++ .entered label :: (entered ms).map (.entered ·.label) ∧
          told kind m.topic (h.handle c' m.body s).1 = reply) ∧
      (Layer.wrap enter inner c m w).1 =
        ((panicOf ms).elim (out (changed ms reply)) .panicked) ∧
      log (Layer.wrap enter inner c m w).2.scene.own =
        log w.scene.own ++ .entered label :: logged ms ++
          ((panicOf ms).elim marks fun _ => []) := by
  obtain ⟨c', s, leave, unwind, henter, hentered, hleave, hunwind⟩ := hpasses c w.scene
  obtain ⟨reply, hreply, hback, hlogged⟩ := hi c' { w with scene := s }
  have happend : ∀ marks : List (Mark ℓ),
      log s.own ++ marks = log w.scene.own ++ .entered label :: marks := fun marks => by
    rw [hentered, List.append_assoc]
    rfl
  rw [happend] at hlogged
  refine ⟨reply, fun hall => ?_, ?_⟩
  · obtain ⟨c'', s', hbefore, htold⟩ := hreply hall
    exact ⟨c'', s', hbefore.trans (happend _), htold⟩
  · simp only [Layer.wrap, henter]
    rw [comesBack] at hback
    -- A panic from within only unwinds, which logs nothing; a reply is what the layer leaves with.
    cases hinner : inner c' m { w with scene := s } with
    | mk passage w' =>
        rw [hinner] at hback hlogged
        cases hpanic : panicOf ms with
        | some p =>
            rw [hpanic] at hback
            obtain rfl : passage = .panicked p := hback
            exact ⟨rfl, ((hunwind _).trans hlogged).trans (List.append_nil _).symm⟩
        | none =>
            rw [hpanic] at hback
            obtain rfl : passage = .returned (Reply.result (changed ms reply)) := hback
            obtain ⟨hout, hmarks⟩ := hleave (changed ms reply) w'.scene
            refine ⟨hout, hmarks.trans ?_⟩
            exact congrArg (· ++ marks) hlogged

/-- What a member that hands the message on does with a reply. -/
theorem Conduct.Takes.passes {label : ℓ} {s : Scene σ} {course : Course L σ}
    {conduct : Conduct L m.topic} (htakes : conduct.Takes log label m s course)
    (hx : conduct.handsOn = true) :
    Conduct.Passes log label m s
      (fun r => conduct.panic?.elim (.returned (Reply.result (conduct.change r))) .panicked)
      (if conduct.panic?.isNone then [.left label] else []) course := by
  cases conduct with
  | passes change => exact htakes
  | panicsAfter p => exact htakes
  | answers r => exact absurd hx Bool.false_ne_true
  | panicsBefore p => exact absurd hx Bool.false_ne_true

section

variable {x : Member ℓ L m.topic} {enter : Context → Message L → Scene σ → Course L σ}
  (htakes : ∀ c s, x.conduct.Takes log x.label m s (enter c m s))

include htakes

/-- One member more that hands the message on. -/
theorem Goes.handedOn (hi : Goes log kind m h ms inner) (hx : x.conduct.handsOn = true) :
    Goes log kind m h (x :: ms) (Layer.wrap enter inner) := by
  intro c w
  obtain ⟨reply, hreply, hback, hlogged⟩ := hi.passed (fun c s => (htakes c s).passes hx) c w
  have hall : allHandOn (x :: ms) = allHandOn ms := allHandOn_cons_of_handsOn hx
  refine ⟨reply, ?_, ?_, ?_⟩
  · rw [hall, entered_cons_of_handsOn hx]
    exact hreply
  · rw [hback, comesBack_cons_of_handsOn hx]
  · rw [hlogged, logged_cons_of_handsOn hx, List.append_assoc]

/-- One member more that does not hand the message on: what lies within is not entered. -/
theorem goes_of_not_handsOn (hx : x.conduct.handsOn = false) (inner : Inner L σ) :
    Goes log kind m h (x :: ms) (Layer.wrap enter inner) := by
  intro c w
  have hcourse := htakes c w.scene
  obtain ⟨label, conduct⟩ := x
  cases conduct with
  | passes change => cases hx
  | panicsAfter p => cases hx
  | answers r =>
      obtain ⟨s', henter, hlog⟩ := hcourse
      refine ⟨r, fun hall => (Bool.false_ne_true hall).elim, ?_, ?_⟩
      · simp only [Layer.wrap, henter]
        rfl
      · simp only [Layer.wrap, henter]
        exact hlog
  | panicsBefore p =>
      obtain ⟨s', henter, hlog⟩ := hcourse
      refine ⟨.error (.panicked kind m.name p.message),
        fun hall => (Bool.false_ne_true hall).elim, ?_, ?_⟩
      · simp only [Layer.wrap, henter]
        rfl
      · simp only [Layer.wrap, henter]
        exact hlog

end

/-- **Any chain of layers**, from the handler outwards. -/
theorem Chain.goes {layers : List (Layer L σ)} (hchain : Chain log kind m layers ms)
    (hmarks : h.Marks log m) : Goes log kind m h ms (Layer.nest kind (h.inmost kind) layers) := by
  induction hchain with
  | nil => exact goes_inmost hmarks
  | observer observes rest ih => exact ih.observed observes
  | @member enter layers x ms takes rest ih =>
      cases hx : x.conduct.handsOn with
      | true => exact ih.handedOn takes hx
      | false => exact goes_of_not_handsOn takes hx _

end

/-! ## Executing -/

/-- **Layers nest like a stack.** A message that is not refused goes through layers of which some
log when they are entered and left, to a handler that logs that it was called. The log grows by the
entries up to the first member that does not hand the message on, by the handler's mark if there is
none, and by the exits in reverse up to the first panic. A panic of a member is the answer, the
innermost if there are several; otherwise it is the innermost reply, changed by the members from the
inside out. -/
theorem nests_like_a_stack {log : σ → List (Mark ℓ)} {b : Bus L σ} {m : Message L}
    {h : Handler L σ m.topic} {ms : List (Member ℓ L m.topic)}
    (hchain : Chain log b.kind m b.layers ms) (hmarks : h.Marks log m)
    (hhandler : b.handler? m.topic = some h) (hnil : b.refusesNil m = false) {c : Context}
    {w : World σ} (hactive : w.check c = .ok ()) :
    ∃ reply,
      (allHandOn ms = true → ∃ c' s,
        log s.own = log w.scene.own ++ (entered ms).map (.entered ·.label) ∧
          told b.kind m.topic (h.handle c' m.body s).1 = reply) ∧
      log (b.execute c m w).2.scene.own = log w.scene.own ++
        ((entered ms).map (.entered ·.label) ++ (if allHandOn ms then [.handled] else []) ++
          (left ms).map (.left ·.label)) ∧
      (b.execute c m w).1 = match panicOf ms with
        | some p => .error (.panicked b.kind m.name p.message)
        | none => changed ms reply := by
  obtain ⟨reply, hreply, hback, hlogged⟩ := hchain.goes hmarks c w
  rw [execute_of_handler hnil hactive hhandler]
  refine ⟨reply, hreply, hlogged, ?_⟩
  show conclude b.kind m (Layer.nest b.kind (h.inmost b.kind) b.layers c m w).1 = _
  rw [hback, comesBack]
  cases panicOf ms with
  | some p => rfl
  | none => exact answer_reply (changed ms reply)

/-! ## Layers that keep a log -/

/-- Adds to a log. -/
def noted (marks : List (Mark ℓ)) (s : Scene (List (Mark ℓ))) : Scene (List (Mark ℓ)) :=
  { s with own := s.own ++ marks }

/-- **A layer that does what a member does**, and keeps nothing but the log. -/
def marking (x : Member ℓ L t) : Layer L (List (Mark ℓ)) :=
  .foreign fun _ c m s => match x.conduct with
    | .passes change => .passes c m (noted [.entered x.label] s)
        (fun r back =>
          (.returned (Reply.result (change (answer t r))), noted [.left x.label] back)) id
    | .panicsAfter p => .passes c m (noted [.entered x.label] s)
        (fun _ back => (.panicked p, back)) id
    | .answers r => .answers (Reply.result r) (noted [.entered x.label, .left x.label] s)
    | .panicsBefore p => .panics p (noted [.entered x.label] s)

/-- Whatever the members are said to do, there are layers that do it. -/
theorem chain_marking (kind : MessageKind) (m : Message L) (ms : List (Member ℓ L m.topic)) :
    Chain id kind m (ms.map marking) ms := by
  induction ms with
  | nil => exact .nil
  | cons x ms ih =>
      refine .member (fun c s => ?_) ih
      obtain ⟨label, conduct⟩ := x
      cases conduct with
      | passes change =>
          refine ⟨c, _, _, _, rfl, rfl, fun r back => ⟨?_, rfl⟩, fun back => rfl⟩
          rw [answer_reply]
      | panicsAfter p =>
          exact ⟨c, _, _, _, rfl, rfl, fun r back => ⟨rfl, (List.append_nil _).symm⟩,
            fun back => rfl⟩
      | answers r => exact ⟨_, rfl, rfl⟩
      | panicsBefore p => exact ⟨_, rfl, rfl⟩

open Rehearsal (texts Topic)

def hello : Message texts := ⟨Topic.ping, "hello"⟩

/-- Three layers that all hand the message on; the second panics on the way back. -/
def trio : List (Member String texts hello.topic) :=
  [⟨"a", .passes id⟩, ⟨"b", .panicsAfter (.text "late")⟩, ⟨"c", .passes fun _ => .ok "instead"⟩]

def panicking : Handler texts (List (Mark String)) Topic.ping :=
  ⟨fun _ _ s => (.panicked .other, noted [.handled] s)⟩

/-- A bus of these layers around a handler that panics. -/
def stacked (ms : List (Member String texts hello.topic)) : Bus texts (List (Mark String)) :=
  { (empty .command).setHandler Topic.ping panicking with layers := ms.map marking }

/-- A context and a world with an empty log. -/
def unlogged : Context × World (List (Mark String)) :=
  let (c, signals) := Context.create .nil .none
  (c, .start ⟨signals, 0, []⟩)

theorem nests_like_a_stack_trio :
    ((stacked trio).execute unlogged.1 hello unlogged.2).2.scene.own =
        [.entered "a", .entered "b", .entered "c", .handled, .left "c"] ∧
      ((stacked trio).execute unlogged.1 hello unlogged.2).1 =
        .error (.panicked .command "ping" "late") := by
  have hchain : Chain id .command hello (trio.map marking) trio := chain_marking .command hello trio
  have hmarks : panicking.Marks id hello := fun c s => rfl
  have hactive : unlogged.2.check unlogged.1 = .ok () := rfl
  obtain ⟨reply, -, hlog, hanswer⟩ :=
    nests_like_a_stack (b := stacked trio) hchain hmarks rfl rfl hactive
  exact ⟨hlog, hanswer⟩

end Registrar.Bus
