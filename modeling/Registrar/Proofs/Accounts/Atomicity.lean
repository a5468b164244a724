import Registrar.Proofs.Accounts.Staging
import Registrar.Proofs.Codec.Event

set_option autoImplicit false

/-! # Commands are atomic

A command that fails, at whatever point and for whatever reason, leaves every row as it was; one
that succeeds stores its user and one outbox row that announces what happened, and touches no other
row (`serve_all_or_nothing`). This does not depend on being alone: other clients may change the
store after the command loaded and again after it staged (`serveAmid`), and the rows are then
compared with those right before the end of the command. -/

namespace Registrar.Accounts

/-! ## Statement -/

/-- A row that is due at once, was never tried, is under no lease, and reads back as an event. -/
def Announces (row : Json) (e : Event) : Prop :=
  ∃ r, Outbox.Row.ofJson? row = some r ∧ r.status = .pending ∧ r.attempts = 0 ∧
    r.lockedUntil = none ∧ Event.deserialize r.payload r.eventName = .ok e

/-- **All or nothing.** A command that succeeded stored what it had decided; any other changed no
row. -/
def AllOrNothing (c : Command) (decided : Ending AccountError User) (stamp : Outbox.Stamp)
    (answer : Ending AccountError Unit) (before after : Tables) : Prop :=
  match answer with
  | .returned () => ∃ u e row, decided = .returned u ∧ u.pending = [e] ∧ e.name = c.eventName ∧
      Stored c.mode u e stamp before after ∧
      after.row? Outbox.tableName stamp.id.text = some row ∧ Announces row e
  | .failed _ | .panicked _ => after = before

/-- A service call that loads from one store, stages over a second and ends in a third: what other
clients did meanwhile. -/
def Command.serveAmid (hasher : Hasher) (watch : Watch) (d : Draws) (loaded asked last : Store)
    (c : Command) : Ending AccountError Unit × Store :=
  match c.decideAt hasher watch d loaded with
  | .failed e => (.failed e, last)
  | .panicked p => (.panicked p, last)
  | .returned u => match stageAt hasher (c.afterLoad watch) c.mode u d.stamps asked with
      | .error e => (.failed e, last)
      | .ok staged =>
          let settled := UnitOfWork.settle .ofTransaction staged.1 staged.2 last
          (.ofExcept settled.1, settled.2)

/-! ## Proof -/

theorem announces_outboxRow (stamp : Outbox.Stamp) {e : Event} (h : e.occurredAt.IsCivil) :
    Announces (outboxRow stamp e).toJson.canonical e :=
  ⟨outboxRow stamp e, (Outbox.Row.isCivil_pending ..).ofJson?_canonical, rfl, rfl, rfl,
    Event.deserialize_serialize_eq_self_iff.2 h⟩

/-- A service call is the one that nobody interrupts. -/
theorem Command.serve_eq_serveAmid (hasher : Hasher) (watch : Watch) (d : Draws)
    (room : Room Store Transaction) (c : Command) :
    ((c.serve hasher watch d room).1, (c.serve hasher watch d room).2.manager) =
      c.serveAmid hasher watch d room.manager room.manager room.manager := by
  rw [serve_eq_storing]
  unfold serveAmid
  cases hdecided : c.decideAt hasher watch d room.manager with
  | failed e => rfl
  | panicked p => rfl
  | returned u =>
      obtain ⟨found, e, -, hd⟩ := decideAt_spec hdecided
      -- Begun, staged and settled on one store.
      simp only [Service.storing, persist_eq hasher _ _ _ _ hd.recorded]
      cases stageAt hasher (c.afterLoad watch) c.mode u d.stamps room.manager with
      | error err => rfl
      | ok staged =>
          simp only
          cases (UnitOfWork.settle .ofTransaction staged.1 staged.2 room.manager).1 <;> rfl

theorem Command.serveAmid_all_or_nothing (hasher : Hasher) (watch : Watch) (d : Draws)
    (loaded asked last : Store) (c : Command) :
    AllOrNothing c (c.decideAt hasher watch d loaded) (d.stamps 0)
      (c.serveAmid hasher watch d loaded asked last).1 last.tables
      (c.serveAmid hasher watch d loaded asked last).2.tables := by
  unfold serveAmid
  cases hdecided : c.decideAt hasher watch d loaded with
  | failed e => rfl
  | panicked p => rfl
  | returned u =>
      obtain ⟨found, e, -, hd⟩ := decideAt_spec hdecided
      simp only
      cases hstage : stageAt hasher (c.afterLoad watch) c.mode u d.stamps asked with
      | error err => rfl
      | ok staged =>
          obtain ⟨result, tx⟩ := staged
          -- From here on it does not matter over which store the command was staged.
          have hplan := stageAt_spec hd.recorded hstage
          rcases settle_plan hplan .ofTransaction last with
            ⟨err, s', hsettle, htables⟩ | ⟨s', hsettle, -, hstored⟩
          · simp only [hsettle]
            exact htables
          · simp only [hsettle]
            exact ⟨u, e, _, rfl, hd.recorded, hd.name, hstored, hstored.event,
              announces_outboxRow _ hd.civil.2⟩

/-- **Every command is all or nothing**, called alone in any state of the store or amid whatever
others do to it. -/
theorem Command.serve_all_or_nothing (hasher : Hasher) (watch : Watch) (d : Draws) (c : Command) :
    (∀ room : Room Store Transaction,
      AllOrNothing c (c.decideAt hasher watch d room.manager) (d.stamps 0)
        (c.serve hasher watch d room).1 room.manager.tables
        (c.serve hasher watch d room).2.manager.tables) ∧
    (∀ loaded asked last : Store,
      AllOrNothing c (c.decideAt hasher watch d loaded) (d.stamps 0)
        (c.serveAmid hasher watch d loaded asked last).1 last.tables
        (c.serveAmid hasher watch d loaded asked last).2.tables) := by
  refine ⟨fun room => ?_, fun loaded asked last => serveAmid_all_or_nothing ..⟩
  have halone := serveAmid_all_or_nothing hasher watch d room.manager room.manager room.manager c
  rw [← serve_eq_serveAmid] at halone
  exact halone

end Registrar.Accounts
