import Registrar.Json
import Registrar.Time.Instant

set_option autoImplicit false

/-! # Metrics

Every execution of a message, every dispatch of an event and every delivery of an outbox row leaves
one sample. Samples are kept in the order in which they were taken, or exported as counters and
histograms. -/

namespace Registrar

/-- How an execution or a dispatch went. -/
inductive Outcome where
  | success
  | failure
  deriving DecidableEq, Repr

namespace Outcome

def label : Outcome → String
  | .success => "success"
  | .failure => "failure"

def ofExcept {ε α : Type} : Except ε α → Outcome
  | .ok _ => .success
  | .error _ => .failure

end Outcome

inductive MetricKind where
  | command
  | query
  | eventDispatch
  | outbox
  deriving DecidableEq, Repr

def MetricKind.name : MetricKind → String
  | .command => "command"
  | .query => "query"
  | .eventDispatch => "event_dispatch"
  | .outbox => "outbox"

/-- What was measured, under which name, how it went and how long it took. -/
structure Sample where
  kind : MetricKind
  name : String
  label : String
  duration : Option Duration
  deriving DecidableEq

def Duration.toJson (d : Duration) : Json :=
  .obj [("secs", .ofUInt64 d.seconds), ("nanos", .int d.nanos)]

namespace Sample

/-- A sample of the delivery of an outbox row; it has no duration. -/
def delivery (eventName result : String) : Sample := ⟨.outbox, eventName, result, none⟩

/-- A sample of something that ran for a number of nanoseconds. -/
def timed (kind : MetricKind) (name : String) (o : Outcome) (nanos : Nat) : Sample :=
  ⟨kind, name, o.label, some (.ofNanos nanos)⟩

def toJson (s : Sample) : Json :=
  .obj [("kind", .str s.kind.name), ("name", .str s.name), ("label", .str s.label),
    ("duration", Json.ofOption Duration.toJson s.duration)]

/-- How many samples have this kind, name and label. -/
def count (samples : List Sample) (kind : MetricKind) (name label : String) : Nat :=
  samples.countP fun s => s.kind == kind && s.name == name && s.label == label

/-! ## Export

Each kind has a counter with the name and the label; those that measure time also have a
histogram of seconds with the name alone. -/

/-- What an instrument holds: how often it was counted up, or the values it observed. -/
structure Instrument where
  count : Nat
  values : List Binary64
  deriving DecidableEq, Inhabited

/-- The seconds of a duration as a double. -/
def seconds (d : Duration) : Binary64 :=
  ((Binary64.ofNat d.seconds.toNat).bind fun whole =>
    (Binary64.ofRatio d.nanos nanosPerSecond).bind whole.add).getD ⟨0⟩

/-- The written name of an instrument with its labels. -/
def instrumentKey (name : String) (labels : List (String × String)) : String :=
  name ++ "\x7b" ++ String.intercalate "," (labels.map fun l => l.1 ++ "=" ++ l.2) ++ "\x7d"

/-- The counter that a sample counts up. -/
def counterKey (s : Sample) : String :=
  match s.kind with
  | .command => instrumentKey "gatekeeper_commands_total" [("command", s.name), ("status", s.label)]
  | .query => instrumentKey "gatekeeper_queries_total" [("query", s.name), ("status", s.label)]
  | .eventDispatch =>
      instrumentKey "gatekeeper_event_dispatch_total" [("event", s.name), ("status", s.label)]
  | .outbox =>
      instrumentKey "gatekeeper_outbox_rows_total" [("event", s.name), ("result", s.label)]

/-- The histogram that a sample's duration goes into. -/
def histogramKey (s : Sample) : Option String :=
  match s.kind with
  | .command => some (instrumentKey "gatekeeper_command_duration_seconds" [("command", s.name)])
  | .query => some (instrumentKey "gatekeeper_query_duration_seconds" [("query", s.name)])
  | .eventDispatch =>
      some (instrumentKey "gatekeeper_event_dispatch_duration_seconds" [("event", s.name)])
  | .outbox => none

def countUp (m : Keyed Instrument) (key : String) : Keyed Instrument :=
  let i := (m.get? key).getD ⟨0, []⟩
  m.insert key { i with count := i.count + 1 }

def observe (m : Keyed Instrument) (key : String) (x : Binary64) : Keyed Instrument :=
  let i := (m.get? key).getD ⟨0, []⟩
  m.insert key { i with values := i.values ++ [x] }

def exportOne (m : Keyed Instrument) (s : Sample) : Keyed Instrument :=
  let m := countUp m s.counterKey
  match s.histogramKey, s.duration with
  | some key, some d => observe m key (seconds d)
  | _, _ => m

/-- The instruments after a list of samples, by written name. -/
def exported (samples : List Sample) : Keyed Instrument := samples.foldl exportOne Keyed.empty

end Sample

end Registrar
