import Registrar.Store.Transaction

set_option autoImplicit false

/-! # Clients of a store

A store and the transactions that are open on it, each under the name of its client. Clients take
turns in any order; what one of them does to its transaction no other sees before the commit. -/

namespace Registrar

structure Clients where
  store : Store
  transactions : Keyed Transaction
  deriving DecidableEq

namespace Clients

variable {α : Type}

/-- An empty store without clients. -/
def none : Clients := ⟨.empty, .empty⟩

/-- Opens a transaction for a client, in place of one that it had. -/
def begin (c : Clients) (client : String) : Clients :=
  { c with transactions := c.transactions.insert client .empty }

/-- Works on a client's transaction, if it has one. -/
def edit (f : Tables → Transaction → α × Transaction) (client : String) (c : Clients) :
    Option α × Clients :=
  match c.transactions.get? client with
  | .none => (.none, c)
  | some tx =>
      let (a, tx) := f c.store.tables tx
      (some a, { c with transactions := c.transactions.insert client tx })

/-- Finishes a client's transaction, if it has one; afterwards it has none. -/
def finish (f : Transaction → Store → α × Store) (client : String) (c : Clients) :
    Option α × Clients :=
  match c.transactions.get? client with
  | .none => (.none, c)
  | some tx =>
      let (a, store) := f tx c.store
      (some a, ⟨store, c.transactions.erase client⟩)

/-- Works on the committed rows. -/
def onStore (f : Store → α × Store) (c : Clients) : α × Clients :=
  let (a, store) := f c.store
  (a, { c with store })

end Clients

end Registrar
