set_option autoImplicit false

/-! # Faults

How operations fail: an ended context, a broken rule of the domain, and panics. Every fault has a
message for people and a short name of its kind for programs. The reasons that a text reader gives
for refusing a text are not part of any message; one placeholder stands for them all. -/

namespace Registrar

/-- Stands in a message for the words of whatever refused a text. -/
def unexplained : String := "<detail>"

/-- Errors that programs tell apart by a short name and people by a message. **The kind of an error
that wraps another holds the kind of the inner one after a dot.** -/
class Report (ε : Type) where
  kind : ε → String
  message : ε → String

/-! ## Contexts -/

/-- Why a context has ended. -/
inductive ContextError where
  | cancelled
  | deadlineExceeded
  deriving DecidableEq, Repr

def ContextError.message : ContextError → String
  | .cancelled => "operation cancelled by caller"
  | .deadlineExceeded => "deadline exceeded"

instance : Report ContextError where
  kind
    | .cancelled => "Cancelled"
    | .deadlineExceeded => "DeadlineExceeded"
  message := ContextError.message

/-! ## The domain -/

/-- A rule of the domain that an operation would break. -/
inductive DomainError where
  | validation (reason : String)
  | invariantViolation (reason : String)
  | invalidId (reason : String)
  | conflict (reason : String)
  | payload (reason : String)
  deriving DecidableEq, Repr

def DomainError.message : DomainError → String
  | .validation r => "validation failed: " ++ r
  | .invariantViolation r => "invariant violated: " ++ r
  | .invalidId r => "invalid identifier: " ++ r
  | .conflict r => "conflict: " ++ r
  | .payload r => "event payload error: " ++ r

instance : Report DomainError where
  kind
    | .validation _ => "Validation"
    | .invariantViolation _ => "InvariantViolation"
    | .invalidId _ => "InvalidId"
    | .conflict _ => "Conflict"
    | .payload _ => "Payload"
  message := DomainError.message

/-! ## Panics and endings -/

/-- What a panic carries: usually a text. -/
inductive PanicPayload where
  | text (s : String)
  | other
  deriving DecidableEq, Repr

def PanicPayload.message : PanicPayload → String
  | .text s => s
  | .other => "non-string panic payload"

instance : Report PanicPayload where
  kind _ := "Panic"
  message := PanicPayload.message

/-- What counting panics with where there is no greater number. -/
def PanicPayload.countOverflow : PanicPayload := .text "attempt to add with overflow"

/-- What a span of more than 64 bits of seconds panics with. -/
def PanicPayload.spanOverflow : PanicPayload := .text "overflow in Duration::new"

/-- What adding to a reading of the running clock panics with where there is no such reading. -/
def PanicPayload.clockOverflow : PanicPayload :=
  .text "overflow when adding duration to instant"

/-- How a call of foreign code ends. -/
inductive Ending (ε α : Type) where
  | returned (a : α)
  | failed (e : ε)
  | panicked (p : PanicPayload)
  deriving DecidableEq, Repr

/-- An ending without a panic. -/
def Ending.ofExcept {ε α : Type} : Except ε α → Ending ε α
  | .ok a => .returned a
  | .error e => .failed e

/-- The result of a call that came to one, or what it panicked with. -/
def Ending.result {ε α : Type} : Ending ε α → Except PanicPayload (Except ε α)
  | .returned a => .ok (.ok a)
  | .failed e => .ok (.error e)
  | .panicked p => .error p

/-- The same ending with another error, if there is one. -/
def Ending.mapError {ε ε' α : Type} (f : ε → ε') : Ending ε α → Ending ε' α
  | .returned a => .returned a
  | .failed e => .failed (f e)
  | .panicked p => .panicked p

/-- The same ending with another value, if there is one. -/
def Ending.map {ε α β : Type} (f : α → β) : Ending ε α → Ending ε β
  | .returned a => .returned (f a)
  | .failed e => .failed e
  | .panicked p => .panicked p

end Registrar
