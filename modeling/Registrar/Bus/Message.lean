import Registrar.Fault

set_option autoImplicit false

/-! # Messages

A bus carries messages on a fixed catalogue of topics, each topic with a body of its own. What comes
back is an output in some form; every topic names the form that its executor expects. Two topics may
share a name, and several topics a form. -/

namespace Registrar

/-- Commands change state, queries only read it. -/
inductive MessageKind where
  | command
  | query
  deriving DecidableEq, Repr

namespace MessageKind

def name : MessageKind → String
  | .command => "command"
  | .query => "query"

def debug : MessageKind → String
  | .command => "Command"
  | .query => "Query"

end MessageKind

/-- What the messages of a bus are about, what they carry, and what answers them. -/
structure Catalogue where
  Topic : Type
  Body : Topic → Type
  Form : Type
  Value : Form → Type
  Failure : Type
  name : Topic → String
  /-- Whether a body says nothing at all. -/
  isNil : (t : Topic) → Body t → Bool
  /-- The form in which a topic is answered. -/
  form : Topic → Form
  describe : Failure → String
  [topicEq : DecidableEq Topic]
  [formEq : DecidableEq Form]

attribute [instance] Catalogue.topicEq Catalogue.formEq

namespace Bus

variable (L : Catalogue)

/-- A message on its way to a handler. -/
structure Message where
  topic : L.Topic
  body : L.Body topic

/-- An output on its way back, of any form. -/
structure Output where
  form : L.Form
  value : L.Value form

variable {L}

namespace Message

def name (m : Message L) : String := L.name m.topic

/-- The body, if the message is on this topic. -/
def body? (m : Message L) (t : L.Topic) : Option (L.Body t) :=
  if h : m.topic = t then some (h ▸ m.body) else none

@[simp] theorem body?_self (t : L.Topic) (b : L.Body t) :
    (Message.mk t b).body? t = some b := by simp [body?]

/-- The label of an execution, such as `command.login`. -/
def operation (kind : MessageKind) (m : Message L) : String := kind.name ++ "." ++ m.name

/-- The message without its body, for diagnostics. -/
def debug (kind : MessageKind) (m : Message L) : String :=
  "Message \x7b name: \"" ++ m.name ++ "\", kind: " ++ kind.debug ++ ", .. \x7d"

end Message

namespace Output

/-- The value, if the output has this form. -/
def value? (o : Output L) (f : L.Form) : Option (L.Value f) :=
  if h : o.form = f then some (h ▸ o.value) else none

@[simp] theorem value?_self (f : L.Form) (v : L.Value f) :
    (Output.mk f v).value? f = some v := by simp [value?]

end Output

end Bus

/-! ## Failures -/

/-- Why an execution, or a registration, failed. The error of a handler stays as it is. -/
inductive BusError (ε : Type) where
  | handlerNotFound (kind : MessageKind) (name : String)
  | alreadyRegistered (kind : MessageKind) (name : String)
  | nilCommand (name : String)
  | context (e : ContextError)
  | panicked (kind : MessageKind) (name message : String)
  | typeMismatch (name : String)
  | handler (e : ε)
  deriving DecidableEq, Repr

namespace BusError

variable {ε : Type}

def message (describe : ε → String) : BusError ε → String
  | .handlerNotFound kind name => "no handler registered for " ++ kind.name ++ " `" ++ name ++ "`"
  | .alreadyRegistered kind name =>
      "a handler is already registered for " ++ kind.name ++ " `" ++ name ++ "`"
  | .nilCommand name => "command `" ++ name ++ "` is empty"
  | .context e => e.message
  | .panicked kind name message => kind.name ++ " `" ++ name ++ "` panicked: " ++ message
  | .typeMismatch name => "type mismatch while executing `" ++ name ++ "`"
  | .handler e => describe e

/-- The kind of an error of the bus; the errors of handlers have a kind of their own. -/
def kind (handler : ε → String) : BusError ε → String
  | .handlerNotFound .. => "HandlerNotFound"
  | .alreadyRegistered .. => "HandlerAlreadyRegistered"
  | .nilCommand _ => "NilCommand"
  | .context e => "Context." ++ Report.kind e
  | .panicked .. => "Panicked"
  | .typeMismatch _ => "TypeMismatch"
  | .handler e => handler e

def isNotFound : BusError ε → Bool
  | .handlerNotFound .. => true
  | _ => false

end BusError

end Registrar
