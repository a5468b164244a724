import Registrar.Proofs.Accounts.Refinement
import Registrar.Proofs.Accounts.Twins
import Registrar.Proofs.Bus.InStep
import Registrar.Proofs.Dispatch.Journal

set_option autoImplicit false

/-! # Hashes stay inside

Requests and passes over the outbox, in any order, run on two systems that differ in their hashers
alone. If the hashers are kin, nobody can tell the runs apart (`hashes_stay_inside`): every answer
and every report is the same, handlers are given the same events, the same samples are taken and the
same records logged, and the outboxes are the same. The tables of users differ in the field of the
hash and in nothing else.

One errand keeps the two systems in step (`Assembly.Abreast.perform`), so all of them do. -/

namespace Registrar

/-- An object without its fields of one name. -/
def Json.without (name : String) : Json → Json
  | .obj fields => .obj (fields.filter (·.1 != name))
  | j => j

/-- A tracer of what handlers keep, as one that leaves their journal alone. -/
def Tracer.besideJournal {σ : Type} : Tracer σ → Tracer (Noted σ)
  | .silent => .silent
  | .recorded => .recorded
  | .observed tell => .observed fun operation n kept =>
      { kept with own := tell operation n kept.own }

namespace Accounts

variable {S T ρ σ : Type} {hasher hasher' : Hasher}

/-! ## Errands -/

/-- What a system is asked to do: to answer a request, or to make a pass over its outbox. Either
comes in a context, with the flags that are raised by then and what the clock reads. -/
inductive Errand where
  | visit (v : Visit)
  | pass (context : Context) (conditions : Outbox.Conditions) (signals : Signals) (clock : Nat)

/-- What comes of an errand. -/
def Errand.Reply : Errand → Type
  | .visit v => v.request.Answer
  | .pass .. => Except OutboxError Outbox.Report

/-- An errand and what came of it. -/
abbrev Replied : Type := (e : Errand) × e.Reply

namespace Assembly

def perform (sys : Assembly S T ρ) :
    (e : Errand) → World (Desk S T ρ) → e.Reply × World (Desk S T ρ)
  | .visit v, w => sys.send v.context v.request (v.enter w)
  | .pass context conditions signals clock, w =>
      sys.process context conditions { w with scene := ⟨signals, clock, w.scene.own⟩ }

/-- Errands, one after another. -/
def run (sys : Assembly S T ρ) :
    List Errand → World (Desk S T ρ) → List Replied × World (Desk S T ρ)
  | [], w => ([], w)
  | e :: errands, w =>
      let (reply, w) := sys.perform e w
      let (replies, w) := sys.run errands w
      (⟨e, reply⟩ :: replies, w)

/-- The system with these event handlers, which keep a journal of what they are given; it changes
nothing else (`Dispatcher.dispatch_noted`). -/
def hearing (sys : Assembly S T (Noted σ)) (handlers : List (EventHandler σ)) :
    Assembly S T (Noted σ) :=
  { sys with dispatcher :=
      (handlers.map EventHandler.noting).foldl Dispatcher.register sys.dispatcher }

end Assembly

/-! ## Desks -/

/-- Desks over twin rooms. -/
inductive Desk.Twins (hasher hasher' : Hasher) :
    Desk Store Transaction ρ → Desk Store Transaction ρ → Prop
  | intro {room room' : Room Store Transaction} (h : RoomTwins hasher hasher' room room')
      (served : Nat) (own : ρ) : Twins hasher hasher' ⟨room, served, own⟩ ⟨room', served, own⟩

abbrev WorldTwins (hasher hasher' : Hasher) :
    World (Desk Store Transaction ρ) → World (Desk Store Transaction ρ) → Prop :=
  World.Twins (Desk.Twins hasher hasher')

theorem respects_onDesk (t : Tracer ρ) :
    (t.onDesk : Tracer (Desk Store Transaction ρ)).Respects (Desk.Twins hasher hasher') := by
  intro operation n w w' hw
  cases t with
  | silent => exact hw
  | recorded =>
      cases n with
      | ended => exact hw
      | _ => exact hw.log _
  | observed tell =>
      obtain ⟨⟨signals, clock, ⟨hroom, served, own⟩⟩, samples, records⟩ := hw
      exact ⟨⟨signals, clock, ⟨hroom, served, tell operation n own⟩⟩, samples, records⟩

theorem commandHandler_inStep (hkin : hasher.Kin hasher') (supply : Nat → Draws)
    (t : CommandTopic) :
    (commandHandler (ρ := ρ) (Service.over hasher) supply t).InStep (Desk.Twins hasher hasher')
      (commandHandler (Service.over hasher') supply t) := by
  intro c body s s' hs
  rw [commandHandler_handle, commandHandler_handle]
  obtain ⟨signals, clock, ⟨hroom, served, own⟩⟩ := hs
  have hserved := call_inStep hkin hroom (fun _ => c.check signals clock) t body (supply served)
  exact ⟨hserved.answer, ⟨signals, clock, ⟨hserved.left, served + 1, own⟩⟩⟩

theorem queryHandler_inStep (t : QueryTopic) :
    (queryHandler (ρ := ρ) (Service.over hasher) t).InStep (Desk.Twins hasher hasher')
      (queryHandler (Service.over hasher') t) := by
  intro c body s s' hs
  rw [queryHandler_handle, queryHandler_handle]
  obtain ⟨signals, clock, ⟨hroom, served, own⟩⟩ := hs
  have hasked := ask_same hroom.manager (fun _ => c.check signals clock) t body
  exact ⟨congrArg (orFail · .returned) hasked, ⟨signals, clock, ⟨hroom, served, own⟩⟩⟩

/-! ## Systems -/

/-- **A system as it is assembled**: wired, observed by one tracer, with a processor over the outbox
of its backend and no event handler yet. -/
structure Assembled (config : Config) (tracer : Tracer ρ) (s : Service S T) (supply : Nat → Draws)
    (sys : Assembly S T ρ) : Prop extends Wired sys s supply where
  commandObservers : sys.commands.layers = Bus.observers tracer.onDesk config.slowThreshold
  queryObservers : sys.queries.layers = Bus.observers tracer.onDesk config.slowThreshold
  dispatcher : sys.dispatcher = ⟨config.dispatchMode, true, []⟩
  outbox : sys.service.backend.outbox = s.backend.outbox
  settings : sys.config = config

/-- What assembling a system writes to the log. -/
def registrations : List LogRecord :=
  commandTopics.map (fun t => Bus.registrationRecord .command (commands.name t)) ++
    queryTopics.map (fun t => Bus.registrationRecord .query (queries.name t))

theorem assemble_assembled (config : Config) (tracer : Tracer ρ) (s : Service S T)
    (supply : Nat → Draws) (w : World (Desk S T ρ)) :
    ∃ sys, Assembly.assemble config tracer.onDesk s supply w =
      (.ok sys, registrations.foldl World.log w) ∧ Assembled config tracer s supply sys := by
  refine ⟨_, rfl, ⟨rfl, rfl, ?_, ?_, ⟨tracer, config.slowThreshold, rfl⟩,
    ⟨tracer, config.slowThreshold, rfl⟩⟩, rfl, rfl, rfl, rfl, rfl⟩
  · intro t
    cases t <;> rfl
  · intro t
    cases t <;> rfl

/-- Systems whose buses are in step and which deliver alike. -/
structure Assembly.Abreast (hasher hasher' : Hasher) (sys sys' : Assembly Store Transaction ρ) :
    Prop where
  commands : Bus.Abreast.Buses (Desk.Twins hasher hasher') sys.commands sys'.commands
  queries : Bus.Abreast.Buses (Desk.Twins hasher hasher') sys.queries sys'.queries
  processor : sys'.processor = sys.processor
  outbox : sys.processor.repository = .store

/-- **Assembled alike over kin, two systems are abreast.** -/
theorem Assembled.abreast (hkin : hasher.Kin hasher') {config : Config} {tracer : Tracer ρ}
    {supply : Nat → Draws} {sys sys' : Assembly Store Transaction ρ}
    (h : Assembled config tracer (Service.over hasher) supply sys)
    (h' : Assembled config tracer (Service.over hasher') supply sys') :
    Assembly.Abreast hasher hasher' sys sys' where
  commands :=
    { kind := h'.commandKind.trans h.commandKind.symm
      layers := ⟨tracer.onDesk, config.slowThreshold, respects_onDesk tracer, h.commandObservers,
        h'.commandObservers⟩
      handlers := fun t =>
        ⟨_, _, h.commandHandlers t, h'.commandHandlers t, commandHandler_inStep hkin supply t⟩ }
  queries :=
    { kind := h'.queryKind.trans h.queryKind.symm
      layers := ⟨tracer.onDesk, config.slowThreshold, respects_onDesk tracer, h.queryObservers,
        h'.queryObservers⟩
      handlers := fun t =>
        ⟨_, _, h.queryHandlers t, h'.queryHandlers t, queryHandler_inStep t⟩ }
  processor := by
    simp only [Assembly.processor, h.dispatcher, h'.dispatcher, h.outbox, h'.outbox, h.settings,
      h'.settings]
    rfl
  outbox := h.outbox

namespace Assembly.Abreast

variable {sys sys' : Assembly Store Transaction ρ} {w w' : World (Desk Store Transaction ρ)}

theorem hearing {sys sys' : Assembly Store Transaction (Noted σ)}
    (h : Assembly.Abreast hasher hasher' sys sys') (handlers : List (EventHandler σ)) :
    Assembly.Abreast hasher hasher' (sys.hearing handlers) (sys'.hearing handlers) where
  commands := h.commands
  queries := h.queries
  processor := by
    have hprocessor := h.processor
    simp only [Assembly.processor, Outbox.Processor.mk.injEq, true_and] at hprocessor
    obtain ⟨hrepository, hdispatcher, hconfig⟩ := hprocessor
    simp only [Assembly.processor, Assembly.hearing, hrepository, hdispatcher, hconfig]
  outbox := h.outbox

theorem send (h : Assembly.Abreast hasher hasher' sys sys') (c : Context) (r : Request)
    (hw : WorldTwins hasher hasher' w w') :
    InStep (WorldTwins hasher hasher') (sys.send c r w) (sys'.send c r w') := by
  cases r with
  | registerUser cmd => exact h.commands.execute c ⟨.registerUser, cmd⟩ hw
  | login cmd => exact h.commands.execute c ⟨.login, cmd⟩ hw
  | changePassword cmd => exact h.commands.execute c ⟨.changePassword, cmd⟩ hw
  | getUser q => exact h.queries.execute c ⟨.getUser, q⟩ hw
  | findUserByEmail q => exact h.queries.execute c ⟨.findUserByEmail, q⟩ hw

theorem process (h : Assembly.Abreast hasher hasher' sys sys') (c : Context)
    (conditions : Outbox.Conditions) (hw : WorldTwins hasher hasher' w w') :
    InStep (WorldTwins hasher hasher') (sys.process c conditions w)
      (sys'.process c conditions w') := by
  have hrespects : sys.processor.repository.Respects (StoreTwins hasher hasher') := by
    rw [h.outbox]
    exact Outbox.Repository.store_respects plain_rowTwins
  obtain ⟨⟨signals, clock, ⟨⟨hs, cells⟩, served, own⟩⟩, samples, records⟩ := hw
  obtain ⟨report, _, _, hpass, hpass', ⟨hleft, world⟩⟩ :=
    (Outbox.Processor.process_inStep hrespects c conditions
      ⟨hs, ⟨⟨signals, clock, own⟩, samples, records⟩⟩).spread
  simp only [Assembly.process, Desk.onSite, Desk.site, h.processor, hpass, hpass']
  exact .still ⟨⟨_, _, ⟨⟨hleft, cells⟩, served, _⟩⟩, _, _⟩ report

/-- **One errand keeps the systems in step.** -/
theorem perform (h : Assembly.Abreast hasher hasher' sys sys') (e : Errand)
    (hw : WorldTwins hasher hasher' w w') :
    InStep (WorldTwins hasher hasher') (sys.perform e w) (sys'.perform e w') := by
  cases e with
  | visit v =>
      refine h.send v.context v.request ?_
      obtain ⟨⟨_, _, hdesk⟩, samples, records⟩ := hw
      exact ⟨⟨v.signals, v.clock, hdesk⟩, samples, records⟩
  | pass context conditions signals clock =>
      refine h.process context conditions ?_
      obtain ⟨⟨_, _, hdesk⟩, samples, records⟩ := hw
      exact ⟨⟨signals, clock, hdesk⟩, samples, records⟩

theorem run (h : Assembly.Abreast hasher hasher' sys sys') (errands : List Errand)
    (hw : WorldTwins hasher hasher' w w') :
    InStep (WorldTwins hasher hasher') (sys.run errands w) (sys'.run errands w') := by
  induction errands generalizing w w' with
  | nil => exact .still hw _
  | cons e errands ih =>
      obtain ⟨reply, _, _, he, he', hnext⟩ := (h.perform e hw).spread
      obtain ⟨replies, _, _, hrest, hrest', hleft⟩ := (ih hnext).spread
      simp only [Assembly.run, he, he', hrest, hrest']
      exact .still hleft _

end Assembly.Abreast

/-! ## What is seen -/

/-- The rows of twins differ in the field of the hash alone. -/
theorem without_hash_eq {r r' : UserRecord} (h : r.Twins hasher hasher' r') :
    r.toJson.canonical.without "password_hash" = r'.toJson.canonical.without "password_hash" := by
  obtain ⟨hh⟩ := h
  -- The objects are maps, in which every other name finds the same.
  have herase : ∀ fields : List (String × Json),
      (Json.obj fields).canonical.without "password_hash" =
        .obj ((Keyed.ofList (Json.canonicalFields fields)).erase "password_hash").entries :=
    fun _ => rfl
  rw [UserRecord.toJson, UserRecord.toJson, herase, herase]
  refine congrArg (fun m : Keyed Json => Json.obj m.entries) (Keyed.ext_get? fun name => ?_)
  rw [Keyed.get?_erase, Keyed.get?_erase]
  by_cases hname : name = "password_hash"
  · rw [if_pos hname, if_pos hname]
  · rw [if_neg hname, if_neg hname, Keyed.get?_ofList (by simp [Json.keys_canonicalFields]),
      Keyed.get?_ofList (by simp [Json.keys_canonicalFields])]
    simp [Json.canonicalFields_eq_map, Keyed.find?, hname]

/-- **Worlds that nobody tells apart without looking at a hash.** Handlers were given the same
events and keep the same, the same was measured and logged, every table but that of the users is the
same, the outbox among them, and the users have the same rows up to the field of the hash. -/
structure Indistinct (w w' : World (Desk Store Transaction (Noted σ))) : Prop where
  journal : w.scene.own.own.journal = w'.scene.own.own.journal
  kept : w.scene.own.own.own = w'.scene.own.own.own
  samples : w.samples = w'.samples
  records : w.records = w'.records
  tables : ∀ name, name ≠ usersTable →
    w.scene.own.room.manager.tables.table name = w'.scene.own.room.manager.tables.table name
  users : ∀ key,
    (w.scene.own.room.manager.tables.row? usersTable key).map (Json.without "password_hash") =
      (w'.scene.own.room.manager.tables.row? usersTable key).map (Json.without "password_hash")

theorem indistinct_of_twins {w w' : World (Desk Store Transaction (Noted σ))}
    (h : WorldTwins hasher hasher' w w') : Indistinct w w' := by
  obtain ⟨⟨_, _, ⟨⟨hs, _⟩, _, _⟩⟩, _, _⟩ := h
  refine ⟨rfl, rfl, rfl, rfl, fun name hname => ?_, fun key => ?_⟩
  · exact hs.tables.table_eq fun hrow => hrow.eq hname
  · rcases RowTwins.users_cases (hs.tables usersTable key) with
      ⟨hrow, hrow'⟩ | ⟨r, r', hrow, hrow', hr⟩
    · simp only [hrow, hrow']
    · simp only [hrow, hrow', Option.map_some, without_hash_eq hr]

theorem opening_twins (own : ρ) : WorldTwins hasher hasher' (opening own) (opening own) :=
  ⟨⟨.none, 0, ⟨⟨.empty, []⟩, 0, own⟩⟩, [], []⟩

/-- **Hashes stay inside.** Two systems over empty stores, with kin for hashers and otherwise the
same, run any errands with the same replies, and leave worlds that nobody tells apart. -/
theorem hashes_stay_inside (hkin : hasher.Kin hasher') (config : Config) (tracer : Tracer σ)
    (handlers : List (EventHandler σ)) (supply : Nat → Draws) (errands : List Errand) (own : σ) :
    ∃ sys sys' w,
      Assembly.assemble config tracer.besideJournal.onDesk (Service.over hasher) supply
        (opening ⟨[], own⟩) = (.ok sys, w) ∧
      Assembly.assemble config tracer.besideJournal.onDesk (Service.over hasher') supply
        (opening ⟨[], own⟩) = (.ok sys', w) ∧
      ((sys.hearing handlers).run errands w).1 = ((sys'.hearing handlers).run errands w).1 ∧
      Indistinct ((sys.hearing handlers).run errands w).2
        ((sys'.hearing handlers).run errands w).2 := by
  obtain ⟨sys, hassemble, hsys⟩ := assemble_assembled config tracer.besideJournal
    (Service.over hasher) supply (opening ⟨[], own⟩)
  obtain ⟨sys', hassemble', hsys'⟩ := assemble_assembled config tracer.besideJournal
    (Service.over hasher') supply (opening ⟨[], own⟩)
  have hrun := ((hsys.abreast hkin hsys').hearing handlers).run errands
    ((opening_twins ⟨[], own⟩).logAll registrations)
  exact ⟨sys, sys', _, hassemble, hassemble', hrun.answer, indistinct_of_twins hrun.left⟩

/-! ### With salt

The hasher of the day, and one that salts its hashes. -/

/-- A hasher that writes the hashes of another in a way of its own. -/
def recoded (hasher : Hasher) (write : PasswordHash → PasswordHash) : Hasher where
  hash password := (hasher.hash password).map write
  verify password h := (hasher.hash password).map write = .returned h

theorem recoded_hash_iff {write : PasswordHash → PasswordHash} {password : String}
    {h : PasswordHash} :
    (recoded hasher write).hash password = .returned h ↔
      ∃ h₀, hasher.hash password = .returned h₀ ∧ write h₀ = h := by
  simp only [recoded]
  cases hasher.hash password with
  | returned h₀ => simp [Ending.map]
  | failed e => simp [Ending.map]
  | panicked p => simp [Ending.map]

/-- Written another way, but each in its own, hashes are those of kin. -/
theorem kin_recoded (hfaithful : hasher.Faithful) {write : PasswordHash → PasswordHash}
    (hwrite : Function.Injective write) : hasher.Kin (recoded hasher write) where
  faithful := hfaithful
  faithful' :=
    { verify := fun _ _ => decide_eq_true_iff
      distinct := fun p q h hp hq => by
        obtain ⟨h₁, hhash, rfl⟩ := recoded_hash_iff.1 hp
        obtain ⟨h₂, hhash', hsame⟩ := recoded_hash_iff.1 hq
        obtain rfl := hwrite hsame
        exact hfaithful.distinct p q h₂ hhash hhash' }
  alike password := by
    simp only [recoded]
    cases hasher.hash password <;> rfl

def salted (h : PasswordHash) : PasswordHash := ⟨"salt" ++ h.encoded⟩

/-- The requests of the day, with a pass over the outbox after each. -/
def shift : List Errand :=
  (minutes day).flatMap fun v =>
    [.visit v, .pass v.context ⟨fun _ => .epoch, fun _ => .inOrder⟩ v.signals v.clock]

def attentive : EventHandler Unit where
  name := "attentive"
  accepts _ := true
  react _ _ s := ⟨.handled, [], 0, s.own⟩

theorem salted_injective : Function.Injective salted := by
  rintro ⟨text⟩ ⟨text'⟩ h
  simpa [salted] using h

theorem hashes_stay_inside_salted :
    pickyHasher.hash "one" ≠ (recoded pickyHasher salted).hash "one" ∧
    ∃ sys sys' w,
      Assembly.assemble .standard (Tracer.silent : Tracer Unit).besideJournal.onDesk
        (Service.over pickyHasher) numberedDraws (opening ⟨[], ()⟩) = (.ok sys, w) ∧
      Assembly.assemble .standard (Tracer.silent : Tracer Unit).besideJournal.onDesk
        (Service.over (recoded pickyHasher salted)) numberedDraws (opening ⟨[], ()⟩) =
          (.ok sys', w) ∧
      ((sys.hearing [attentive]).run shift w).1 = ((sys'.hearing [attentive]).run shift w).1 ∧
      Indistinct ((sys.hearing [attentive]).run shift w).2
        ((sys'.hearing [attentive]).run shift w).2 :=
  ⟨by decide, hashes_stay_inside (kin_recoded pickyHasher_faithful salted_injective) .standard
    .silent [attentive] numberedDraws shift ()⟩

end Accounts

end Registrar
