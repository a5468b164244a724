import Registrar.Accounts.Service

set_option autoImplicit false

/-! # A database that cannot be reached

The backend over a database server whose connections are closed. **Whatever needs a connection
fails**, after all that is checked before; so no transaction is ever opened, and their type is
empty. -/

namespace Registrar.Accounts.Unreachable

/-- An operation of the outbox without a connection. -/
def noRow {α : Type} (operation : String) (context : Except ContextError Unit) :
    Except OutboxError α :=
  Outbox.guardContext context (.error (.storage ("connection pool closed in " ++ operation)))

/-- A lookup of a user without a connection. -/
def noUser {α : Type} (operation : String) (context : Except ContextError Unit) :
    Except AccountError α :=
  reading context (.error (.storage (operation ++ " failed: " ++ unexplained)))

def manager : Manager Unit Empty where
  begin s := (.error (.beginFailed unexplained), s)
  commit := nofun
  rollback := nofun

def outbox : Outbox.Repository Unit Empty where
  insert context _ _ tx :=
    (Outbox.guardContext context (.error (.transaction .closed)), tx)
  fetchPending context _ _ := noRow "fetch_pending" context
  fetchFailed context _ _ := noRow "fetch_failed" context
  claimPending context _ _ _ s := (noRow "claim_pending" context, s)
  markSent context _ _ s := (noRow "mark_sent" context, s)
  markFailed context _ _ _ s := (noRow "mark_failed" context, s)
  deadLetter context _ s := (noRow "dead_letter" context, s)
  requeue context _ s := (noRow "requeue" context, s)
  get context _ _ := noRow "get" context

def users : Repository Unit Empty where
  save context _ _ tx := (reading context (.error (.ofTransaction .closed)), tx)
  update context _ _ tx := (reading context (.error (.ofTransaction .closed)), tx)
  findById context _ _ := noUser "find_by_id" context
  findByEmail context _ _ := noUser "find_by_email" context

def backend : Backend Unit Empty := ⟨manager, users, outbox⟩

end Registrar.Accounts.Unreachable
