import Registrar.Dispatch.Mode
import Registrar.LogFormat
import Registrar.Outbox.Processor
import Registrar.Text.Natural

set_option autoImplicit false

/-! # Configuration

The configuration is read from named variables. **One that is not set or blank has its default**,
and blanks around a value do not count, except around the database's address, which is taken as it
stands. Variables are read in a fixed order, and the first that does not read is reported. -/

namespace Registrar

structure Config where
  databaseUrl : Option String
  logFormat : LogFormat
  slowThreshold : Duration
  dispatchMode : DispatchMode
  outbox : Outbox.ProcessorConfig
  pollInterval : Duration
  deriving DecidableEq

/-- A variable whose value does not read. -/
structure ConfigError where
  key : String
  value : String
  reason : String
  deriving DecidableEq, Repr

def ConfigError.message (e : ConfigError) : String :=
  "invalid value `" ++ e.value ++ "` for " ++ e.key ++ ": " ++ e.reason

instance : Report ConfigError where
  kind _ := "Invalid"
  message := ConfigError.message

namespace Config

def standard : Config where
  databaseUrl := none
  logFormat := .json
  slowThreshold := .ofMillis 1000
  dispatchMode := .sequential
  outbox := .standard
  pollInterval := .ofMillis 1000

/-- The value of a variable, unless it is blank. -/
def value? (lookup : String → Option String) (key : String) : Option String :=
  (lookup key).filter fun v => Text.trim v ≠ ""

/-- Reads a variable that has a default. -/
def variableOr {α ε : Type} (lookup : String → Option String) (key : String) (default_ : α)
    (read : String → Except ε α) (reason : ε → String) : Except ConfigError α :=
  match value? lookup key with
  | none => .ok default_
  | some raw => (read (Text.trim raw)).mapError fun e => ⟨key, raw, reason e⟩

/-- A variable that holds a natural number below a bound. -/
def naturalOr (lookup : String → Option String) (key : String) (bound default_ : Nat) :
    Except ConfigError Nat :=
  variableOr lookup key default_ (Text.naturalBelow bound) Text.NaturalFault.message

/-- A batch has at least one row. -/
def requireBatch (n : Nat) : Except ConfigError Unit :=
  if n = 0 then .error ⟨"OUTBOX_BATCH_SIZE", "0", "must be at least 1"⟩ else .ok ()

/-- **The configuration that the variables describe.** -/
def ofLookup (lookup : String → Option String) : Except ConfigError Config := do
  let logFormat ← variableOr lookup "GATEKEEPER_LOG_FORMAT" .json LogFormat.parse (·.message)
  let slowMillis ← naturalOr lookup "GATEKEEPER_SLOW_OPERATION_MS" (2 ^ 64) 1000
  let dispatchMode ← variableOr lookup "GATEKEEPER_DISPATCH_MODE" .sequential DispatchMode.parse
    (·.message)
  let batchSize ← naturalOr lookup "OUTBOX_BATCH_SIZE" (2 ^ 64) 100
  requireBatch batchSize
  let maxAttempts ← naturalOr lookup "OUTBOX_MAX_ATTEMPTS" (2 ^ 32) 10
  let leaseSeconds ← naturalOr lookup "OUTBOX_LEASE_SECS" (2 ^ 64) 30
  let pollMillis ← naturalOr lookup "OUTBOX_POLL_INTERVAL_MS" (2 ^ 64) 1000
  let outbox := Outbox.ProcessorConfig.standard.withBatchSize batchSize
  let outbox := outbox.withMaxAttempts (some (.ofNat maxAttempts))
  return {
    databaseUrl := value? lookup "DATABASE_URL"
    logFormat
    slowThreshold := .ofMillis (.ofNat slowMillis)
    dispatchMode
    outbox := outbox.withLease (some (.ofSeconds (.ofNat leaseSeconds)))
    pollInterval := .ofMillis (.ofNat pollMillis) }

/-- The configuration as it is shown; numbers of 64 bits are texts. -/
def toJson (c : Config) : Json :=
  .obj [("database_url", Json.ofOption Json.str c.databaseUrl),
    ("log_format", .str c.logFormat.debug), ("slow_ms", .str (toString c.slowThreshold.toMillis)),
    ("dispatch_mode", .str c.dispatchMode.text), ("outbox", c.outbox.toJson),
    ("poll_ms", .str (toString c.pollInterval.toMillis)), ("is_default", .bool (c == standard))]

end Config

end Registrar
