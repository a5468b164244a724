import Registrar.Dispatch.Dispatcher
import Registrar.Json.Lookup
import Registrar.Rehearsal

set_option autoImplicit false

/-! # Written scripts

A script is a list of acts, each an object whose field `do` says what is done. An event handler is
written as its name, the events that it takes, and its script. -/

namespace Registrar.Rehearsal

variable {ε κ : Type}

def panicPayload (j : Json) : PanicPayload :=
  if j.word "kind" = "other" then .other else .text (j.word "text")

/-- An act, given what an error with causes, and one with a type of its own, are here. -/
def act (fail : ErrorChain → ε) (typed : String → ε) (j : Json) : Act ε :=
  match j.word "do" with
  | "fail" =>
      let chain := j.words "chain"
      .fail (fail ⟨chain.headD "", chain.tail⟩)
  | "fail_on" => .failOn (j.word "event") (fail ⟨"cannot handle " ++ j.word "event", []⟩)
  | "typed" => .fail (typed (j.word "text"))
  | "panic" => .panic (panicPayload j)
  | "cancel" => .cancel
  | "sleep" => .sleep (j.nat "ms" 0 * 1000000)
  | _ => .done

/-- The names of the events that a handler takes. -/
def takes (j : Json) (name : String) : Bool :=
  match j with
  | .str "none" => false
  | .obj _ => match j.word? "exact" with
      | some exact => name == exact
      | none => name.startsWith (j.word "prefix")
  | _ => true

/-- Adds a scripted handler to a dispatcher, as often as it is to be there. -/
def addHandler (j : Json) (d : Dispatcher (Rehearsal ErrorChain κ)) (r : Rehearsal ErrorChain κ) :
    Dispatcher (Rehearsal ErrorChain κ) × Rehearsal ErrorChain κ :=
  let (i, r) := r.addScript ((j.list "script").map (act id fun t => ⟨"typed: " ++ t, []⟩))
  let h := eventHandler (j.word "name") (takes (j.get "match")) i
  ((List.replicate (j.nat "times" 1) h).foldl .register d, r)

end Registrar.Rehearsal
