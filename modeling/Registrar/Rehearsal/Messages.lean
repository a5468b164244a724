import Registrar.Bus.Foreign
import Registrar.Rehearsal.Script

set_option autoImplicit false

/-! # Messages for rehearsals

A catalogue of three topics with one text each: an empty one says nothing on the first, and the
other two share a name. Layers are written as objects whose field `type` says what they do, and a
bus as its kind and how it is observed. -/

namespace Registrar.Rehearsal

/-! ## The catalogue -/

inductive Topic where
  | create
  | ping
  | twin
  deriving DecidableEq, Repr

/-- A handler fails with causes, or with a type of its own. -/
inductive Failure where
  | chain (e : ErrorChain)
  | typed (text : String)
  deriving DecidableEq, Repr

/-- Topics with one text. Answers are texts too, or numbers, which no topic expects. -/
@[reducible] def texts : Catalogue where
  Topic := Topic
  Body _ := String
  Form := Bool
  Value isText := if isText then String else Nat
  Failure := Failure
  name t := if t = .create then "create_account" else "ping"
  isNil t s := t = .create && s.isEmpty
  form _ := true
  describe
    | .chain e => e.outer
    | .typed t => "typed: " ++ t

instance : Report (BusError Failure) where
  kind := BusError.kind fun _ => "Handler"
  message := BusError.message texts.describe

/-- A layer may put a message aside. -/
abbrev Yard := Rehearsal Failure (Bus.Message texts)

def topic (j : Json) : Topic :=
  match j.word "type" with
  | "create" => .create
  | "twin" => .twin
  | _ => .ping

/-- A scripted handler that answers with its tag and the text. -/
def handlerOf (j : Json) (t : Topic) (y : Yard) : Bus.Handler texts Yard t × Yard :=
  let tag := j.word "tag"
  let (i, y) := y.addScript ((j.list "script").map (act .chain .typed))
  (busHandler (fun c (text : String) => tag ++ "(" ++ text ++ ") " ++ toString c.metadata.size)
    (fun (text : String) => text) (fun (text : String) => tag ++ ":" ++ text) i, y)

/-! ## Layers -/

def textOutput (s : String) : Bus.Output texts := ⟨true, s⟩

/-- Says that a message passes, on its way in and on its way back. -/
def marker (label : String) : Bus.Entry texts Yard :=
  .around (fun kind m y => y.say (label ++ "-before " ++ m.operation kind))
    fun _ _ r y => y.say (label ++ "-after " ++ if r.isOk then "ok" else "err")

/-- Keeps the message and answers in place of all that lies within. -/
def stash : Bus.Entry texts Yard := fun _ _ m s =>
  .answers (.ok (textOutput "stashed")) { s with own := { s.own with aside := some m } }

/-- Hands on the message kept, once, in place of its own. -/
def swap : Bus.Entry texts Yard := fun kind c m s =>
  Bus.Entry.pass kind c (s.own.aside.getD m) { s with own := { s.own with aside := none } }

def entry (j : Json) : Bus.Entry texts Yard :=
  let label := j.word "label"
  match j.word "type" with
  | "marker" => marker label
  | "short_ok" => .answer (.ok (textOutput label))
  | "short_wrong" => .answer (.ok ⟨false, (7 : Nat)⟩)
  | "short_err" => .answer (.error (.handler (.typed label)))
  | "recover" => .recover fun e => textOutput ("recovered " ++ Report.kind (e : BusError Failure))
  | "panic_before" => .panicBefore (panicPayload j)
  | "panic_after" => .panicAfter (panicPayload j)
  | "cancel" => .cancel
  | "metadata" => .annotate label ""
  | "stash" => stash
  | "swap" => swap
  | _ => .pass

/-- Says everything that happens in a span. -/
def spy : Tracer Yard := .observed fun operation n y => y.say (match n with
  | .started => "span " ++ operation
  | .tagged key value => "attr " ++ key ++ "=" ++ value
  | .event name => "event " ++ name
  | .failed e => "error " ++ e
  | .ended => "end " ++ operation)

def layerOf (j : Json) : Bus.Layer texts Yard :=
  match j.word "builtin" with
  | "tracing" => .tracing spy Bus.standardThreshold
  | "metrics" => .metrics
  | "logging" => .logging Bus.standardThreshold
  | _ => .foreign (match j.word? "only" with
      | some name => Bus.Entry.only name (entry j)
      | none => entry j)

/-! ## Buses -/

/-- A bus without handlers, observed or not. -/
def busOf (j : Json) : Bus texts Yard :=
  let kind : MessageKind := if j.word "kind" = "query" then .query else .command
  match j.get "observability" with
  | .null => .empty kind
  | o =>
      let tracer : Tracer Yard := match o.word "tracer" with
        | "spy" => spy
        | "tracing" => .recorded
        | _ => .silent
      .observed kind tracer (.ofMillis (.ofNat (o.nat "slow_ms" 1000)))

end Registrar.Rehearsal
