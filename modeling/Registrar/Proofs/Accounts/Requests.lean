import Registrar.Proofs.Accounts.Command
import Registrar.Proofs.Bus.Observed
import Registrar.Accounts.Assembly

set_option autoImplicit false

/-! # Requests on the buses of a system

A request is a command or a query, sent over its bus (`Assembly.send`). On a system over a store it
comes down to the call of its service (`Wired.send_command`, `Wired.send_query`): the bus refuses an
empty command, and otherwise only names what the service answered. -/

namespace Registrar

/-! ## Observers of a system -/

/-- A tracer of what observers keep, as one of the whole desk. -/
def Tracer.onDesk {S T ρ : Type} : Tracer ρ → Tracer (Accounts.Desk S T ρ)
  | .silent => .silent
  | .recorded => .recorded
  | .observed tell => .observed fun operation n desk =>
      { desk with own := tell operation n desk.own }

namespace Accounts

variable {S T ρ : Type}

/-- What of a desk the handlers work on. -/
def Desk.work (desk : Desk S T ρ) : Room S T × Nat := (desk.room, desk.served)

theorem keeps_onDesk (t : Tracer ρ) :
    (t.onDesk : Tracer (Desk S T ρ)).Keeps Desk.work := by
  intro operation n w
  cases t with
  | silent => rfl
  | recorded => cases n <;> rfl
  | observed tell => rfl

/-! ## Requests -/

/-- A message on one of the two buses. -/
inductive Request where
  | registerUser (cmd : RegisterUser)
  | login (cmd : Login)
  | changePassword (cmd : ChangePassword)
  | getUser (q : GetUser)
  | findUserByEmail (q : FindUserByEmail)

namespace Request

/-- What answers a request. -/
def Value : Request → Type
  | .registerUser _ => UserId
  | .login _ => LoginResult
  | .changePassword _ => Unit
  | .getUser _ => UserView
  | .findUserByEmail _ => Option UserView

abbrev Answer (r : Request) : Type := Except (BusError AccountError) r.Value

end Request

/-- A request and its answer. -/
abbrev Answered : Type := (r : Request) × r.Answer

/-- Sends a request over its bus. -/
def Assembly.send (sys : Assembly S T ρ) (c : Context) :
    (r : Request) → World (Desk S T ρ) → r.Answer × World (Desk S T ρ)
  | .registerUser cmd => sys.commands.execute c ⟨.registerUser, cmd⟩
  | .login cmd => sys.commands.execute c ⟨.login, cmd⟩
  | .changePassword cmd => sys.commands.execute c ⟨.changePassword, cmd⟩
  | .getUser q => sys.queries.execute c ⟨.getUser, q⟩
  | .findUserByEmail q => sys.queries.execute c ⟨.findUserByEmail, q⟩

/-! ## Wiring -/

/-- **A system with all its handlers**, whose buses are only observed. -/
structure Wired (sys : Assembly S T ρ) (s : Service S T) (supply : Nat → Draws) : Prop where
  commandKind : sys.commands.kind = .command
  queryKind : sys.queries.kind = .query
  commandHandlers : ∀ t : CommandTopic, sys.commands.handler? t = some (commandHandler s supply t)
  queryHandlers : ∀ t : QueryTopic, sys.queries.handler? t = some (queryHandler s t)
  commandLayers : ∃ (tracer : Tracer ρ) (threshold : Duration),
    sys.commands.layers = Bus.observers tracer.onDesk threshold
  queryLayers : ∃ (tracer : Tracer ρ) (threshold : Duration),
    sys.queries.layers = Bus.observers tracer.onDesk threshold

/-- Every configuration describes a system, whose assembly does nothing but write to the log. -/
theorem assemble_wired (config : Config) (tracer : Tracer ρ) (s : Service S T)
    (supply : Nat → Draws) (w : World (Desk S T ρ)) :
    ∃ sys w', Assembly.assemble config tracer.onDesk s supply w = (.ok sys, w') ∧
      Wired sys s supply ∧ w'.scene = w.scene := by
  refine ⟨_, _, rfl, ⟨rfl, rfl, ?_, ?_, ⟨tracer, config.slowThreshold, rfl⟩,
    ⟨tracer, config.slowThreshold, rfl⟩⟩, rfl⟩
  · intro t
    cases t <;> rfl
  · intro t
    cases t <;> rfl

/-! ## What a request comes to -/

/-- The service call of a command. -/
def Service.call (s : Service S T) (watch : Watch) :
    (t : CommandTopic) → commands.Body t → Draws → Room S T →
      Ending AccountError (commands.Value t) × Room S T
  | .registerUser, cmd => s.register watch cmd
  | .login, cmd => s.login watch cmd
  | .changePassword, cmd => s.changePassword watch cmd

/-- The service call of a query. -/
def Service.ask (s : Service S T) (watch : Watch) :
    (t : QueryTopic) → queries.Body t → S → Except AccountError (queries.Value t)
  | .getUser, q => s.getUser watch q
  | .findUserByEmail, q => s.findUserByEmail watch q

theorem serve_answer {α : Type} (supply : Nat → Draws)
    (command : Draws → Room S T → Ending AccountError α × Room S T) (scene : Scene (Desk S T ρ)) :
    (serve supply command scene).1 = (command (supply scene.own.served) scene.own.room).1 := rfl

theorem serve_work {α : Type} (supply : Nat → Draws)
    (command : Draws → Room S T → Ending AccountError α × Room S T) (scene : Scene (Desk S T ρ)) :
    (serve supply command scene).2.own.work =
      ((command (supply scene.own.served) scene.own.room).2, scene.own.served + 1) := rfl

theorem commandHandler_handle (s : Service S T) (supply : Nat → Draws) (t : CommandTopic)
    (c : Context) (body : commands.Body t) (scene : Scene (Desk S T ρ)) :
    (commandHandler s supply t).handle c body scene =
      serve supply (s.call (scene.watch c) t body) scene := by
  cases t <;> rfl

theorem queryHandler_handle (s : Service S T) (t : QueryTopic) (c : Context) (body : queries.Body t)
    (scene : Scene (Desk S T ρ)) :
    (queryHandler s t).handle c body scene =
      (orFail (s.ask (scene.watch c) t body scene.own.room.manager) .returned, scene) := by
  cases t <;> rfl

/-- **A context that is active until a request is answered**: nobody cancels it, and its deadline is
later than the readings of the clock on the way to the handler. -/
def ActiveFor (c : Context) (signals : Signals) (clock : Nat) : Prop :=
  c.isCancelled signals = false ∧ ∀ d, c.deadline = some d → clock + 3 < d

theorem ActiveFor.check {c : Context} {signals : Signals} {clock : Nat}
    (h : ActiveFor c signals clock) {now : Nat} (hnow : now ≤ clock + 3) :
    c.check signals now = .ok () := by
  unfold Context.check
  rw [h.1]
  cases hdeadline : c.deadline with
  | none => rfl
  | some d =>
      have hd := h.2 d hdeadline
      simp only [Bool.false_eq_true, if_false]
      rw [if_neg (by omega)]

/-- The handler finds a context that is still active. -/
theorem ActiveFor.watch {c : Context} {scene scene' : Scene (Desk S T ρ)}
    (h : ActiveFor c scene.signals scene.clock)
    (harrives : Bus.Arrives Desk.work 3 scene scene') : scene'.watch c = .active := by
  funext n
  show c.check scene'.signals scene'.clock = .ok ()
  rw [harrives.signals, harrives.clock]
  exact h.check (Nat.le_refl _)

namespace Wired

variable {sys : Assembly S T ρ} {s : Service S T} {supply : Nat → Draws} {c : Context}
  {w : World (Desk S T ρ)}

/-- An empty command is refused. -/
theorem refuse (h : Wired sys s supply) (t : CommandTopic) (body : commands.Body t)
    (hnil : commands.isNil t body = true) :
    sys.commands.execute c ⟨t, body⟩ w = (.error (.nilCommand (commands.name t)), w) := by
  have hrefuses : sys.commands.refusesNil ⟨t, body⟩ = true := by
    rw [Bus.refusesNil, h.commandKind, hnil]
    rfl
  rw [Bus.execute, if_pos hrefuses]
  rfl

/-- **Any other command is the call of its service** with draws of its own. -/
theorem send_command (h : Wired sys s supply)
    (hactive : ActiveFor c w.scene.signals w.scene.clock) (t : CommandTopic)
    (body : commands.Body t) (hnil : commands.isNil t body = false) :
    let called := s.call .active t body (supply w.scene.own.served) w.scene.own.room
    (sys.commands.execute c ⟨t, body⟩ w).1 = Bus.told (L := commands) .command t called.1 ∧
      (sys.commands.execute c ⟨t, body⟩ w).2.scene.own.work =
        (called.2, w.scene.own.served + 1) := by
  obtain ⟨tracer, threshold, hlayers⟩ := h.commandLayers
  have hkeeps : sys.commands.refusesNil ⟨t, body⟩ = false := by
    rw [Bus.refusesNil, hnil, Bool.and_false]
  obtain ⟨scene, harrives, hanswer, hwork⟩ :=
    Bus.execute_observed hlayers (keeps_onDesk tracer) (h.commandHandlers t) hkeeps
      (hactive.check (Nat.le_add_right _ 3))
  have hroom : scene.own.room = w.scene.own.room := congrArg Prod.fst harrives.view
  have hserved : scene.own.served = w.scene.own.served := congrArg Prod.snd harrives.view
  rw [h.commandKind] at hanswer
  rw [hanswer, hwork, commandHandler_handle, hactive.watch harrives]
  rw [serve_answer, serve_work, hroom, hserved]
  exact ⟨rfl, rfl⟩

/-- **A query is the call of its service** and changes nothing that handlers work on. -/
theorem send_query (h : Wired sys s supply)
    (hactive : ActiveFor c w.scene.signals w.scene.clock) (t : QueryTopic) (body : queries.Body t) :
    (sys.queries.execute c ⟨t, body⟩ w).1 =
        (s.ask .active t body w.scene.own.room.manager).mapError .handler ∧
      (sys.queries.execute c ⟨t, body⟩ w).2.scene.own.work = w.scene.own.work := by
  obtain ⟨tracer, threshold, hlayers⟩ := h.queryLayers
  have hkeeps : sys.queries.refusesNil ⟨t, body⟩ = false := by
    rw [Bus.refusesNil, h.queryKind]
    rfl
  obtain ⟨scene, harrives, hanswer, hwork⟩ :=
    Bus.execute_observed hlayers (keeps_onDesk tracer) (h.queryHandlers t) hkeeps
      (hactive.check (Nat.le_add_right _ 3))
  have hroom : scene.own.room = w.scene.own.room := congrArg Prod.fst harrives.view
  rw [hanswer, hwork, queryHandler_handle, hactive.watch harrives, hroom]
  refine ⟨?_, harrives.view⟩
  cases s.ask .active t body w.scene.own.room.manager <;> rfl

end Wired

end Accounts

end Registrar
