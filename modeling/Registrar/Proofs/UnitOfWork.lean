import Registrar.UnitOfWork

set_option autoImplicit false

/-! # A unit of work over a store

Seen from the store, a unit of work that runs a body on its own comes down to three steps: it asks
the context, lets the body stage into an empty transaction, and settles that transaction
(`alone_store`). Between these steps the store is nobody's: other units may change it. -/

namespace Registrar

namespace Room

variable {M T : Type}

@[simp] theorem cell_allot (r : Room M T) (t : T) : (r.allot t).2.cell (r.allot t).1 = some t := by
  simp [allot, cell]

theorem setCell_allot (r : Room M T) (t : T) (c : Option T) :
    (r.allot t).2.setCell (r.allot t).1 c = { r with cells := r.cells ++ [c] } := by
  simp [allot, setCell]

end Room

namespace UnitOfWork

variable {ε : Type}

/-- The last step of a unit of work: commits what was staged, or drops it after a failure. -/
def settle (refused : TransactionError → ε) (result : Except ε Unit) (tx : Transaction)
    (s : Store) : Except ε Unit × Store :=
  match result with
  | .ok () => ((tx.commit s).1.mapError refused, (tx.commit s).2)
  | .error e => (.error e, (tx.rollback s).2)

/-- The handle of a unit alone with its transaction is open until the unit finishes it. -/
theorem finish_active {M T : Type} (f : T → M → Except TransactionError Unit × M) (h : Handle)
    (r : Room M T) (tx : T) (hcell : r.cell h = some tx) :
    finish f h (.active h) r =
      ((f tx r.manager).1, .idle, { r.setCell h none with manager := (f tx r.manager).2 }) := by
  simp [finish, close, hcell, Room.setCell]

/-- What comes of a body that ended so, and of the store: what was staged is committed,
or dropped. -/
def settleEnding {α : Type} (refused : TransactionError → ε) (ending : Ending ε α)
    (tx : Transaction) (s : Store) : Except ε α × Store :=
  match ending with
  | .returned a => (((tx.commit s).1.mapError refused).map fun () => a, (tx.commit s).2)
  | .failed e => (.error e, (tx.rollback s).2)
  | .panicked p => (.error (refused (.panicked p.message)), (tx.rollback s).2)

/-- A body's unit that is still active settles the body's transaction and is idle again. -/
theorem conclude_active {α E : Type} (refused : TransactionError → ε) (ending : Ending ε α)
    {h : Handle} {r : Room Store Transaction} {tx : Transaction} (own : E)
    (hcell : r.cell h = some tx) :
    conclude .store refused h ending ⟨.active h, r, own⟩ =
      ((settleEnding refused ending tx r.manager).1, ⟨.idle, { r.setCell h none with
        manager := (settleEnding refused ending tx r.manager).2 }, own⟩) := by
  cases ending with
  | returned a =>
      simp only [conclude, commit, finish_active _ _ _ _ hcell]
      rfl
  | failed e =>
      simp only [conclude, rollback, finish_active _ _ _ _ hcell]
      rfl
  | panicked p =>
      simp only [conclude, rollback, finish_active _ _ _ _ hcell]
      rfl

theorem settleEnding_ofExcept (refused : TransactionError → ε) (result : Except ε Unit)
    (tx : Transaction) (s : Store) :
    settleEnding refused (.ofExcept result) tx s = settle refused result tx s := by
  cases result with
  | error e => rfl
  | ok u =>
      simp only [settleEnding, Ending.ofExcept, settle]
      cases (tx.commit s).1 <;> rfl

/-- **Asking the context, staging, settling** is all that a unit of work does to the store. -/
theorem alone_store {refused : TransactionError → ε}
    {body : Store → Option Transaction → Except ε Unit × Option Transaction}
    {room : Room Store Transaction} {result : Except ε Unit} {tx : Transaction}
    (hbody : body room.manager (some .empty) = (result, some tx))
    (context : Except ContextError Unit) :
    alone .store context refused body room =
      match context with
      | .error e => (.error (refused (.context e)), room)
      | .ok () => ((settle refused result tx room.manager).1,
          ⟨(settle refused result tx room.manager).2, room.cells ++ [none]⟩) := by
  cases context with
  | error e => rfl
  | ok u =>
      -- The body works on the room with the new handle and leaves its transaction behind it.
      have huse : (room.allot Transaction.empty).2.use (room.allot Transaction.empty).1 body =
          (result, ⟨room.manager, room.cells ++ [some tx]⟩) := by
        have hmanager : (room.allot Transaction.empty).2.manager = room.manager := rfl
        simp only [Room.use, Room.cell_allot, hmanager, hbody, Option.bind_some]
        exact congrArg (Prod.mk result) (room.setCell_allot _ _)
      have hcell : (Room.mk room.manager (room.cells ++ [some tx])).cell ⟨room.cells.length⟩ =
          some tx := by simp [Room.cell]
      have hend := conclude_active refused (.ofExcept result) () hcell
      rw [settleEnding_ofExcept] at hend
      have hset :
          (Room.mk room.manager (room.cells ++ [some tx])).setCell ⟨room.cells.length⟩ none =
          ⟨room.manager, room.cells ++ [none]⟩ := by simp [Room.setCell]
      rw [hset] at hend
      have hbegin : UnitOfWork.begin .store (.ok u) .idle room =
          (.ok (room.allot Transaction.empty).1, .active (room.allot Transaction.empty).1,
            (room.allot Transaction.empty).2) := rfl
      simp only [alone, execute, hbegin, huse]
      exact congrArg (fun p => (p.1, p.2.room)) hend

end UnitOfWork

end Registrar
