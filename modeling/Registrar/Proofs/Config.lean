import Registrar.Config
import Registrar.Proofs.Success
import Registrar.Proofs.Text.Numeral
import Registrar.Proofs.Text.Spelling

set_option autoImplicit false

/-! # What the variables describe

Each variable of the configuration has a default and a language of its own (`Variable`): a number
below a bound, or one of some names in any case. It stands for its default if it is not set or
blank, and else for what the text between the blanks means (`Variable.Stands`); a text outside the
language is a complaint (`Variable.Complains`). The configuration is read exactly if there is no
complaint, and of several the first is reported (`ofLookup_spec`). -/

namespace Registrar.Config

open Text

/-! ## Values -/

section

variable {lookup : String → Option String} {key : String}

theorem value?_eq_some_iff {raw : String} :
    value? lookup key = some raw ↔ lookup key = some raw ∧ ¬ Blank raw.toList := by
  have hblank : trim raw = "" ↔ Blank raw.toList := by
    rw [← (trims_trimChars raw.toList).eq_nil_iff, ← toList_trim, String.toList_eq_nil_iff]
  rw [value?, Option.filter_eq_some_iff, decide_eq_true_iff, ne_eq, hblank]

theorem value?_eq_none_iff :
    value? lookup key = none ↔ ∀ raw, lookup key = some raw → Blank raw.toList := by
  constructor
  · intro hnone raw hlookup
    by_contra hblank
    have hsome := value?_eq_some_iff.2 ⟨hlookup, hblank⟩
    rw [hnone] at hsome
    cases hsome
  · intro hunset
    cases hvalue : value? lookup key with
    | none => rfl
    | some raw =>
        obtain ⟨hlookup, hblank⟩ := value?_eq_some_iff.1 hvalue
        exact absurd (hunset raw hlookup) hblank

end

/-! ## Variables -/

/-- **A variable**: what it is when nobody sets it, what the texts of its language mean, and what is
said of another text. -/
structure Variable (α : Type) where
  key : String
  default_ : α
  means : List Char → α → Prop
  refusal : List Char → String

/-- What can be said against the variables. -/
abbrev Complaint := (String → Option String) → ConfigError → Prop

namespace Variable

variable {α : Type} (v : Variable α) (lookup : String → Option String)

/-- The variable is not set, or blank. -/
def Unset : Prop := ∀ raw, lookup v.key = some raw → Blank raw.toList

/-- The variable is set to this text, which between its blanks is `core`. -/
def Given (raw : String) (core : List Char) : Prop :=
  lookup v.key = some raw ∧ Trims raw.toList core ∧ ¬ Blank raw.toList

/-- **What the variable stands for**: its default, or the value of the text between the blanks. -/
def Stands (a : α) : Prop :=
  v.Unset lookup ∧ a = v.default_ ∨ ∃ raw core, v.Given lookup raw core ∧ v.means core a

/-- **What is reported of the variable**, with its text as it is, if that means nothing. -/
def Complains : Complaint := fun lookup e =>
  ∃ raw core, v.Given lookup raw core ∧ (∀ a, ¬ v.means core a) ∧
    e = ⟨v.key, raw, v.refusal core⟩

/-- A way of reading texts that follows the language of the variable. -/
structure ReadBy {ε : Type} (read : String → Except ε α) (reason : ε → String) : Prop where
  reads : ∀ raw core, Trims raw core → core ≠ [] → ∀ a,
    read (String.ofList core) = .ok a ↔ v.means core a
  refuses : ∀ raw core, Trims raw core → core ≠ [] → ∀ err,
    read (String.ofList core) = .error err → reason err = v.refusal core

/-! ### Reading -/

variable {v lookup}

theorem Given.not_unset {raw : String} {core : List Char} (h : v.Given lookup raw core) :
    ¬ v.Unset lookup := fun hunset => h.2.2 (hunset raw h.1)

/-- A variable that is set has one text. -/
theorem Given.unique {raw raw' : String} {core core' : List Char} (h : v.Given lookup raw core)
    (h' : v.Given lookup raw' core') : raw = raw' ∧ core = core' := by
  obtain rfl : raw = raw' := Option.some.inj (h.1.symm.trans h'.1)
  exact ⟨rfl, h.2.1.trimChars_eq.symm.trans h'.2.1.trimChars_eq⟩

variable {ε : Type} {read : String → Except ε α} {reason : ε → String}

/-- What is read of a variable that is set. -/
theorem variableOr_of_given {raw : String} {core : List Char} (h : v.Given lookup raw core) :
    variableOr lookup v.key v.default_ read reason =
      (read (String.ofList core)).mapError fun err => ⟨v.key, raw, reason err⟩ := by
  have hvalue : value? lookup v.key = some raw := value?_eq_some_iff.2 ⟨h.1, h.2.2⟩
  rw [variableOr, hvalue, ← h.2.1.trimChars_eq]
  rfl

theorem variableOr_of_unset (h : v.Unset lookup) :
    variableOr lookup v.key v.default_ read reason = .ok v.default_ := by
  rw [variableOr, value?_eq_none_iff.2 h]

/-- A variable is not set, or given. -/
theorem unset_or_given (v : Variable α) (lookup : String → Option String) :
    v.Unset lookup ∨ ∃ raw core, v.Given lookup raw core := by
  cases hvalue : value? lookup v.key with
  | none => exact .inl (value?_eq_none_iff.1 hvalue)
  | some raw =>
      obtain ⟨hlookup, hblank⟩ := value?_eq_some_iff.1 hvalue
      exact .inr ⟨raw, _, hlookup, trims_trimChars _, hblank⟩

namespace ReadBy

variable (h : v.ReadBy read reason)

include h

theorem eq_ok_iff {a : α} :
    variableOr lookup v.key v.default_ read reason = .ok a ↔ v.Stands lookup a := by
  rcases v.unset_or_given lookup with hunset | ⟨raw, core, hgiven⟩
  · rw [variableOr_of_unset hunset, Except.ok.injEq, eq_comm]
    exact ⟨fun ha => .inl ⟨hunset, ha⟩, fun ha => (ha.resolve_right fun ⟨_, _, hgiven, _⟩ =>
      hgiven.not_unset hunset).2⟩
  · have hcore : core ≠ [] := fun hnil => hgiven.2.2 (hgiven.2.1.eq_nil_iff.1 hnil)
    rw [variableOr_of_given hgiven, mapError_succeeds_iff, h.reads _ core hgiven.2.1 hcore]
    constructor
    · exact fun ha => .inr ⟨raw, core, hgiven, ha⟩
    · rintro (⟨hunset, -⟩ | ⟨raw', core', hgiven', ha⟩)
      · exact absurd hunset hgiven.not_unset
      · rwa [(hgiven.unique hgiven').2]

theorem eq_error_iff {e : ConfigError} :
    variableOr lookup v.key v.default_ read reason = .error e ↔ v.Complains lookup e := by
  rcases v.unset_or_given lookup with hunset | ⟨raw, core, hgiven⟩
  · rw [variableOr_of_unset hunset]
    exact iff_of_false nofun fun ⟨_, _, hgiven, _⟩ => hgiven.not_unset hunset
  · have hcore : core ≠ [] := fun hnil => hgiven.2.2 (hgiven.2.1.eq_nil_iff.1 hnil)
    have hreads := h.reads _ core hgiven.2.1 hcore
    have hcomplains : v.Complains lookup e ↔
        (∀ a, ¬ v.means core a) ∧ e = ⟨v.key, raw, v.refusal core⟩ := by
      constructor
      · rintro ⟨raw', core', hgiven', hmeans, he⟩
        obtain ⟨rfl, rfl⟩ := hgiven.unique hgiven'
        exact ⟨hmeans, he⟩
      · exact fun ⟨hmeans, he⟩ => ⟨raw, core, hgiven, hmeans, he⟩
    rw [variableOr_of_given hgiven, hcomplains]
    cases hread : read (String.ofList core) with
    | ok a => exact iff_of_false nofun fun hno => hno.1 a ((hreads a).1 hread)
    | error err =>
        have hnone : ∀ a, ¬ v.means core a := fun a ha => by
          rw [← hreads a, hread] at ha
          cases ha
        rw [← h.refuses _ core hgiven.2.1 hcore err hread, and_iff_right hnone]
        exact ⟨fun heq => (Except.error.inj heq).symm, fun heq => congrArg Except.error heq.symm⟩

end ReadBy

/-! ### Numbers and names -/

/-- A number below a bound. -/
def number (key : String) (bound default_ : Nat) : Variable Nat where
  key
  default_
  means core n := IsNumeral core n ∧ n < bound
  refusal := numeralRefusal bound

/-- One of some names, in any case. -/
def named (key : String) (default_ : α) (names : List (String × α)) (refusal : String → String) :
    Variable α where
  key
  default_
  means core a := (String.ofList (core.map Char.toLower), a) ∈ names
  refusal core := refusal (String.ofList (core.map Char.toLower))

def logFormat : Variable LogFormat :=
  named "GATEKEEPER_LOG_FORMAT" .json [("json", .json), ("pretty", .pretty), ("text", .pretty)]
    fun name => "unknown log format `" ++ name ++ "` (expected `json` or `pretty`)"

def slowMillis : Variable Nat := number "GATEKEEPER_SLOW_OPERATION_MS" (2 ^ 64) 1000

def dispatchMode : Variable DispatchMode :=
  named "GATEKEEPER_DISPATCH_MODE" .sequential [("sequential", .sequential), ("sync", .sequential),
    ("concurrent", .concurrent), ("async", .concurrent)]
    fun name => "unknown dispatch mode `" ++ name ++ "`"

def batchSize : Variable Nat := number "OUTBOX_BATCH_SIZE" (2 ^ 64) 100

def maxAttempts : Variable Nat := number "OUTBOX_MAX_ATTEMPTS" (2 ^ 32) 10

def leaseSeconds : Variable Nat := number "OUTBOX_LEASE_SECS" (2 ^ 64) 30

def pollMillis : Variable Nat := number "OUTBOX_POLL_INTERVAL_MS" (2 ^ 64) 1000

theorem readBy_number (key : String) {bound : Nat} (hbound : 0 < bound) (default_ : Nat) :
    (number key bound default_).ReadBy (naturalBelow bound) NaturalFault.message where
  reads := fun _ _ _ _ _ => naturalBelow_eq_ok_iff hbound
  refuses := fun _ _ _ hcore _ herr => naturalBelow_refused hbound hcore herr

/-- The name that is read of a text with blanks around it. -/
theorem lowerAscii_trim {raw core : List Char} (h : Trims raw core) :
    lowerAscii (trim (String.ofList core)) = String.ofList (core.map Char.toLower) := by
  rw [h.trim_ofList, lowerAscii, String.toList_ofList]

theorem readBy_logFormat : logFormat.ReadBy LogFormat.parse (·.message) where
  reads := fun raw core htrims hcore a => by
    simp only [logFormat, named, LogFormat.parse, lowerAscii_trim htrims]
    generalize String.ofList (core.map Char.toLower) = name
    split
    · next hname => simp [hname, eq_comm]
    · next hjson =>
        split
        · next hname => rcases hname with rfl | rfl <;> simp [eq_comm]
        · next hpretty => simp_all
  refuses := fun raw core htrims hcore err herr => by
    simp only [LogFormat.parse, lowerAscii_trim htrims] at herr
    split at herr
    · cases herr
    · split at herr
      · cases herr
      · rw [← Except.error.inj herr]
        rfl

theorem readBy_dispatchMode : dispatchMode.ReadBy DispatchMode.parse (·.message) where
  reads := fun raw core htrims hcore a => by
    simp only [dispatchMode, named, DispatchMode.parse, lowerAscii_trim htrims]
    generalize String.ofList (core.map Char.toLower) = name
    split
    · next hname => rcases hname with rfl | rfl <;> simp [eq_comm]
    · next hsequential =>
        split
        · next hname => rcases hname with rfl | rfl <;> simp [eq_comm]
        · next hconcurrent => simp_all
  refuses := fun raw core htrims hcore err herr => by
    simp only [DispatchMode.parse, lowerAscii_trim htrims] at herr
    split at herr
    · cases herr
    · split at herr
      · cases herr
      · rw [← Except.error.inj herr]
        rfl

end Variable

theorem naturalOr_eq_ok_iff {lookup : String → Option String} {key : String}
    {bound default_ n : Nat} (hbound : 0 < bound) :
    naturalOr lookup key bound default_ = .ok n ↔
      (Variable.number key bound default_).Stands lookup n :=
  (Variable.readBy_number key hbound default_).eq_ok_iff

theorem naturalOr_eq_error_iff {lookup : String → Option String} {key : String}
    {bound default_ : Nat} (hbound : 0 < bound) (e : ConfigError) :
    naturalOr lookup key bound default_ = .error e ↔
      (Variable.number key bound default_).Complains lookup e :=
  (Variable.readBy_number key hbound default_).eq_error_iff

/-! ## Complaints -/

/-- The first complaint that is made, of complaints in order. -/
def First : List Complaint → Complaint
  | [], _, _ => False
  | c :: cs, lookup, e => c lookup e ∨ (∀ e', ¬ c lookup e') ∧ First cs lookup e

/-- A batch of no rows. -/
def EmptyBatch : Complaint := fun lookup e =>
  Variable.batchSize.Stands lookup 0 ∧ e = ⟨"OUTBOX_BATCH_SIZE", "0", "must be at least 1"⟩

/-- **What can be said against the variables**, in the order in which they are looked at. -/
def complaints : List Complaint :=
  [Variable.logFormat.Complains, Variable.slowMillis.Complains, Variable.dispatchMode.Complains,
    Variable.batchSize.Complains, EmptyBatch, Variable.maxAttempts.Complains,
    Variable.leaseSeconds.Complains, Variable.pollMillis.Complains]

/-- The variables that are looked at. -/
def names : List String :=
  ["GATEKEEPER_LOG_FORMAT", "GATEKEEPER_SLOW_OPERATION_MS", "GATEKEEPER_DISPATCH_MODE",
    "OUTBOX_BATCH_SIZE", "OUTBOX_MAX_ATTEMPTS", "OUTBOX_LEASE_SECS", "OUTBOX_POLL_INTERVAL_MS",
    "DATABASE_URL"]

/-- A step that fails with its own complaint leaves the later ones to what follows. -/
theorem first_cons_iff {α β : Type} {lookup : String → Option String} {c : Complaint}
    {cs : List Complaint} {x : Except ConfigError α} {f : α → Except ConfigError β}
    {e : ConfigError} (hx : ∀ e, x = .error e ↔ c lookup e)
    (hf : ∀ a, x = .ok a → (f a = .error e ↔ First cs lookup e)) :
    x >>= f = .error e ↔ First (c :: cs) lookup e := by
  rw [First, ← hx]
  cases x with
  | error e' =>
      have hmade : ¬ ∀ e'', ¬ c lookup e'' := fun hnone => hnone e' ((hx e').1 rfl)
      show (Except.error e' : Except ConfigError β) = .error e ↔ _
      rw [or_iff_left fun h => hmade h.1, Except.error.injEq, Except.error.injEq]
  | ok a =>
      have hnone : ∀ e', ¬ c lookup e' := fun e' hc => nomatch (hx e').2 hc
      rw [and_iff_right hnone, or_iff_right nofun]
      exact hf a rfl

/-! ## Reading them all -/

/-- **Every variable is not set, blank or in its language**, and a batch has rows. -/
structure Acceptable (lookup : String → Option String) : Prop where
  logFormat : ∃ a, Variable.logFormat.Stands lookup a
  slowMillis : ∃ n, Variable.slowMillis.Stands lookup n
  dispatchMode : ∃ a, Variable.dispatchMode.Stands lookup a
  batchSize : ∃ n, Variable.batchSize.Stands lookup n ∧ n ≠ 0
  maxAttempts : ∃ n, Variable.maxAttempts.Stands lookup n
  leaseSeconds : ∃ n, Variable.leaseSeconds.Stands lookup n
  pollMillis : ∃ n, Variable.pollMillis.Stands lookup n

/-- **The configuration is what the variables stand for.** -/
structure Described (lookup : String → Option String) (c : Config) : Prop where
  databaseUrl : ∀ url, c.databaseUrl = some url ↔
    lookup "DATABASE_URL" = some url ∧ ¬ Blank url.toList
  logFormat : Variable.logFormat.Stands lookup c.logFormat
  slowThreshold : ∃ n, Variable.slowMillis.Stands lookup n ∧ c.slowThreshold.toNanos = n * 10 ^ 6
  dispatchMode : Variable.dispatchMode.Stands lookup c.dispatchMode
  batchSize : Variable.batchSize.Stands lookup c.outbox.batchSize ∧ c.outbox.batchSize ≠ 0
  maxAttempts : ∃ n, Variable.maxAttempts.Stands lookup n ∧
    c.outbox.maxAttempts.map (·.toNat) = if n = 0 then none else some n
  lease : ∃ n, Variable.leaseSeconds.Stands lookup n ∧
    c.outbox.lease.map (·.toNanos) = if n = 0 then none else some (n * 10 ^ 9)
  pollInterval : ∃ n, Variable.pollMillis.Stands lookup n ∧ c.pollInterval.toNanos = n * 10 ^ 6

variable {lookup : String → Option String}

theorem requireBatch_eq_ok_iff {n : Nat} : requireBatch n = .ok () ↔ n ≠ 0 := by
  unfold requireBatch
  split <;> simp_all

/-- A number that was read for the batch is refused if it is zero. -/
theorem requireBatch_eq_error_iff {n : Nat}
    (hread : naturalOr lookup "OUTBOX_BATCH_SIZE" (2 ^ 64) 100 = .ok n) {e : ConfigError} :
    requireBatch n = .error e ↔ EmptyBatch lookup e := by
  have h : Variable.batchSize.Stands lookup n := (naturalOr_eq_ok_iff (by decide)).1 hread
  have hunique : ∀ m, Variable.batchSize.Stands lookup m → m = n := fun m hm =>
    Except.ok.inj (((naturalOr_eq_ok_iff (by decide)).2 hm).symm.trans hread)
  unfold requireBatch EmptyBatch
  split
  · next hn =>
      subst hn
      rw [and_iff_right h, Except.error.injEq, eq_comm]
  · next hn => exact iff_of_false nofun fun hempty => hn (hunique 0 hempty.1).symm

/-- **The first complaint is reported.** -/
theorem ofLookup_eq_error_iff {e : ConfigError} :
    ofLookup lookup = .error e ↔ First complaints lookup e := by
  refine first_cons_iff (fun _ => Variable.readBy_logFormat.eq_error_iff) fun format _ => ?_
  refine first_cons_iff (naturalOr_eq_error_iff (by decide)) fun slow _ => ?_
  refine first_cons_iff (fun _ => Variable.readBy_dispatchMode.eq_error_iff) fun mode _ => ?_
  refine first_cons_iff (naturalOr_eq_error_iff (by decide)) fun size hsize => ?_
  refine first_cons_iff (fun _ => requireBatch_eq_error_iff hsize) fun _ _ => ?_
  refine first_cons_iff (naturalOr_eq_error_iff (by decide)) fun attempts _ => ?_
  refine first_cons_iff (naturalOr_eq_error_iff (by decide)) fun lease _ => ?_
  refine first_cons_iff (naturalOr_eq_error_iff (by decide)) fun poll _ => ?_
  exact iff_of_false nofun id

/-! ### Spans of time and counts -/

theorem toNanos_ofMillis {n : Nat} (h : n < 2 ^ 64) :
    (Duration.ofMillis (.ofNat n)).toNanos = n * 10 ^ 6 := by
  have hn : (UInt64.ofNat n).toNat = n := UInt64.toNat_ofNat_of_lt' h
  simp only [Duration.toNanos, Duration.ofMillis, UInt64.toNat_div, UInt64.toNat_mod, hn,
    nanosPerSecond, UInt64.reduceToNat]
  omega

theorem toNanos_ofSeconds {n : Nat} (h : n < 2 ^ 64) :
    (Duration.ofSeconds (.ofNat n)).toNanos = n * 10 ^ 9 := by
  have hn : (UInt64.ofNat n).toNat = n := UInt64.toNat_ofNat_of_lt' h
  simp only [Duration.toNanos, Duration.ofSeconds, hn, nanosPerSecond]
  omega

/-- No attempts are no cap. -/
theorem maxAttempts_of_lt (c : Outbox.ProcessorConfig) {n : Nat} (h : n < 2 ^ 32) :
    (c.withMaxAttempts (some (.ofNat n))).maxAttempts.map (·.toNat) =
      if n = 0 then none else some n := by
  have hn : (UInt32.ofNat n).toNat = n := UInt32.toNat_ofNat_of_lt' h
  have hpos : UInt32.ofNat n > 0 ↔ n ≠ 0 := by
    rw [gt_iff_lt, UInt32.lt_iff_toNat_lt, hn]
    exact Nat.pos_iff_ne_zero
  by_cases hzero : n = 0
  · simp [Outbox.ProcessorConfig.withMaxAttempts, hzero]
  · simp [Outbox.ProcessorConfig.withMaxAttempts, Option.filter, hpos, hzero, hn]

/-- No time is no lease. -/
theorem lease_of_lt (c : Outbox.ProcessorConfig) {n : Nat} (h : n < 2 ^ 64) :
    (c.withLease (some (.ofSeconds (.ofNat n)))).lease.map (·.toNanos) =
      if n = 0 then none else some (n * 10 ^ 9) := by
  have hn := toNanos_ofSeconds h
  have hempty : (Duration.ofSeconds (.ofNat n)).isZero = decide (n = 0) := by
    rw [Duration.isZero, hn, Bool.eq_iff_iff, beq_iff_eq, decide_eq_true_iff]
    omega
  show ((some (Duration.ofSeconds (.ofNat n))).filter (!·.isZero)).map (·.toNanos) = _
  rw [Option.filter_some, hempty]
  by_cases hzero : n = 0
  · simp [hzero]
  · simp [hzero, hn]

theorem Variable.lt_of_stands {key : String} {bound default_ n : Nat} (hdefault : default_ < bound)
    (h : (Variable.number key bound default_).Stands lookup n) : n < bound := by
  rcases h with ⟨-, rfl⟩ | ⟨raw, core, -, -, hlt⟩
  · exact hdefault
  · exact hlt

/-! ### All at once -/

/-- What was read is what the variables stand for. -/
theorem described_of_ok {c : Config} (h : ofLookup lookup = .ok c) : Described lookup c := by
  obtain ⟨format, hformat, h⟩ := bind_succeeds_iff.1 h
  obtain ⟨slow, hslow, h⟩ := bind_succeeds_iff.1 h
  obtain ⟨mode, hmode, h⟩ := bind_succeeds_iff.1 h
  obtain ⟨size, hsize, h⟩ := bind_succeeds_iff.1 h
  obtain ⟨hrows, h⟩ := check_succeeds_iff.1 h
  obtain ⟨attempts, hattempts, h⟩ := bind_succeeds_iff.1 h
  obtain ⟨lease, hlease, h⟩ := bind_succeeds_iff.1 h
  obtain ⟨poll, hpoll, h⟩ := bind_succeeds_iff.1 h
  obtain rfl := pure_succeeds_iff.1 h
  rw [naturalOr_eq_ok_iff (by decide)] at hslow hsize hattempts hlease hpoll
  -- The bound from below that the processor sets makes no difference any more.
  have hmax : max size 1 = size :=
    Nat.max_eq_left (Nat.pos_of_ne_zero (requireBatch_eq_ok_iff.1 hrows))
  exact {
    databaseUrl := fun url => value?_eq_some_iff
    logFormat := Variable.readBy_logFormat.eq_ok_iff.1 hformat
    slowThreshold := ⟨slow, hslow, toNanos_ofMillis (Variable.lt_of_stands (by decide) hslow)⟩
    dispatchMode := Variable.readBy_dispatchMode.eq_ok_iff.1 hmode
    batchSize := by
      show Variable.batchSize.Stands lookup (max size 1) ∧ max size 1 ≠ 0
      rw [hmax]
      exact ⟨hsize, requireBatch_eq_ok_iff.1 hrows⟩
    maxAttempts := ⟨attempts, hattempts, maxAttempts_of_lt (Outbox.ProcessorConfig.standard)
      (Variable.lt_of_stands (by decide) hattempts)⟩
    lease := ⟨lease, hlease, lease_of_lt (Outbox.ProcessorConfig.standard)
      (Variable.lt_of_stands (by decide) hlease)⟩
    pollInterval := ⟨poll, hpoll, toNanos_ofMillis (Variable.lt_of_stands (by decide) hpoll)⟩ }

/-- A step that can be taken leaves it to what follows whether anything is read. -/
theorem exists_ok_bind {α β : Type} {x : Except ConfigError α} {f : α → Except ConfigError β}
    {a : α} (hx : x = .ok a) (hf : ∃ b, f a = .ok b) : ∃ b, x >>= f = .ok b := by
  obtain ⟨b, hb⟩ := hf
  exact ⟨b, bind_succeeds_iff.2 ⟨a, hx, hb⟩⟩

theorem exists_ok_iff : (∃ c, ofLookup lookup = .ok c) ↔ Acceptable lookup := by
  constructor
  · rintro ⟨c, h⟩
    obtain ⟨-, hformat, ⟨slow, hslow, -⟩, hmode, hsize, ⟨attempts, hattempts, -⟩,
      ⟨lease, hlease, -⟩, poll, hpoll, -⟩ := described_of_ok h
    exact ⟨⟨_, hformat⟩, ⟨_, hslow⟩, ⟨_, hmode⟩, ⟨_, hsize⟩, ⟨_, hattempts⟩, ⟨_, hlease⟩, _, hpoll⟩
  · rintro ⟨⟨format, hformat⟩, ⟨slow, hslow⟩, ⟨mode, hmode⟩, ⟨size, hsize, hrows⟩,
      ⟨attempts, hattempts⟩, ⟨lease, hlease⟩, poll, hpoll⟩
    refine exists_ok_bind (Variable.readBy_logFormat.eq_ok_iff.2 hformat) ?_
    refine exists_ok_bind ((naturalOr_eq_ok_iff (by decide)).2 hslow) ?_
    refine exists_ok_bind (Variable.readBy_dispatchMode.eq_ok_iff.2 hmode) ?_
    refine exists_ok_bind ((naturalOr_eq_ok_iff (by decide)).2 hsize) ?_
    refine exists_ok_bind (requireBatch_eq_ok_iff.2 hrows) ?_
    refine exists_ok_bind ((naturalOr_eq_ok_iff (by decide)).2 hattempts) ?_
    refine exists_ok_bind ((naturalOr_eq_ok_iff (by decide)).2 hlease) ?_
    exact exists_ok_bind ((naturalOr_eq_ok_iff (by decide)).2 hpoll) ⟨_, rfl⟩

/-- No other variable is looked at. -/
theorem ofLookup_congr {lookup' : String → Option String}
    (h : ∀ key ∈ names, lookup' key = lookup key) : ofLookup lookup' = ofLookup lookup := by
  have hvalue : ∀ key ∈ names, value? lookup' key = value? lookup key := fun key hkey => by
    rw [value?, h key hkey, value?]
  simp only [names, List.forall_mem_cons] at hvalue
  obtain ⟨hformat, hslow, hmode, hsize, hattempts, hlease, hpoll, hurl, -⟩ := hvalue
  simp only [ofLookup, naturalOr, variableOr, hformat, hslow, hmode, hsize, hattempts, hlease,
    hpoll, hurl]

/-- **The configuration is read from its variables.** It is read exactly if each variable is not
set, blank, or set to a text of its language, and a batch has rows; then it is what the variables
stand for. Otherwise the first complaint is reported, in the order in which the variables are looked
at, and no variable makes a difference but these. -/
theorem ofLookup_spec (lookup : String → Option String) :
    ((∃ c, ofLookup lookup = .ok c) ↔ Acceptable lookup) ∧
    (∀ c, ofLookup lookup = .ok c → Described lookup c) ∧
    (∀ e, ofLookup lookup = .error e ↔ First complaints lookup e) ∧
    ∀ lookup', (∀ key ∈ names, lookup' key = lookup key) → ofLookup lookup' = ofLookup lookup :=
  ⟨exists_ok_iff, fun _ => described_of_ok, fun _ => ofLookup_eq_error_iff,
    fun _ => ofLookup_congr⟩

/-- Of two variables that mean nothing, the one that is looked at first is reported. -/
example :
    ofLookup (fun key => if key = "OUTBOX_BATCH_SIZE" then some "+000"
      else if key = "GATEKEEPER_DISPATCH_MODE" then some " Threads " else none) =
    .error ⟨"GATEKEEPER_DISPATCH_MODE", " Threads ", "unknown dispatch mode `threads`"⟩ := by
  decide +kernel

end Registrar.Config
