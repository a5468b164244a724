import Registrar.Context
import Registrar.Metrics

set_option autoImplicit false

/-! # What a run leaves behind

The scene in which foreign code runs, the samples taken so far, and the log records written so far.
Foreign code gets the scene alone: samples and records are ours. -/

namespace Registrar

inductive LogLevel where
  | debug
  | info
  | warn
  | error
  deriving DecidableEq, Repr

/-- A line of the log, the start of a span, or a field that a span gets later. -/
inductive LogRecord where
  | event (level : LogLevel) (message : String) (fields : List (String × String))
  | span (name : String) (fields : List (String × String))
  | field (span : String) (fields : List (String × String))
  deriving DecidableEq, Repr

structure World (σ : Type) where
  scene : Scene σ
  samples : List Sample
  records : List LogRecord

namespace World

variable {σ : Type}

/-- No samples and no records yet. -/
def start (scene : Scene σ) : World σ := ⟨scene, [], []⟩

def check (w : World σ) (c : Context) : Except ContextError Unit := w.scene.check c

def take (w : World σ) (s : Sample) : World σ := { w with samples := w.samples ++ [s] }

def log (w : World σ) (r : LogRecord) : World σ := { w with records := w.records ++ [r] }

def readClock (w : World σ) : Nat × World σ :=
  (w.scene.readClock.1, { w with scene := w.scene.readClock.2 })

end World

end Registrar
