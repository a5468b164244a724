import Registrar.Proofs.Accounts.Atomicity
import Registrar.Proofs.Outbox.Moves

set_option autoImplicit false

/-! # Clients at work on one store

Any number of clients run commands over one store, and the outbox is delivered meanwhile. A command
takes three steps: it loads and decides, it stages, it finishes. Between the steps of one client
the others may take any of theirs. A run is a list of such actions, in any order; it starts from
the empty store.

The state also keeps what the theorems are about: the log of commits that went through, and the
stamps drawn for what was staged, both in order. `step_moves` says once what a step can do, and
every invariant is derived from that. -/

namespace Registrar.Accounts

/-! ## The machine -/

/-- A command with what it loaded and decided. -/
structure Job where
  command : Command
  found : Option User
  user : User

/-- Where a client stands. -/
inductive Phase where
  | away
  | decided (job : Job)
  | staged (job : Job) (stamp : Outbox.Stamp) (result : Except AccountError Unit) (tx : Transaction)

def Phase.job? : Phase → Option Job
  | .away => none
  | .decided job => some job
  | .staged job .. => some job

/-- A commit that went through. -/
structure Entry where
  job : Job
  stamp : Outbox.Stamp

structure Traffic where
  store : Store
  phase : Nat → Phase
  log : List Entry
  drawn : List Outbox.Stamp

/-- What can happen next. Whatever a client cannot choose comes with its action: what its context
answers, new identifiers, readings of the clock. -/
inductive Action (σ : Type) where
  | load (client : Nat) (command : Command) (watch : Watch) (draws : Draws)
  | stage (client : Nat) (watch : Watch) (stamps : Nat → Outbox.Stamp)
  | finish (client : Nat)
  | leave (client : Nat)
  | failNextCommit
  | deliver (op : Outbox.Op)
  | pass (processor : Outbox.Processor Store Transaction σ) (context : Context)
      (conditions : Outbox.Conditions) (world : World σ)

namespace Traffic

variable {σ : Type}

/-- Nobody has done anything. -/
def start : Traffic := ⟨.empty, fun _ => .away, [], []⟩

def place (s : Traffic) (client : Nat) (p : Phase) : Traffic :=
  { s with phase := fun c => if c = client then p else s.phase c }

/-- Where a client stands after loading and deciding. -/
def afterLoading (hasher : Hasher) (store : Store) (command : Command) (watch : Watch)
    (draws : Draws) : Phase :=
  match command.load hasher watch store with
  | .error _ => .away
  | .ok found => match command.decide hasher found draws with
      | .returned user => .decided ⟨command, found, user⟩
      | .failed _ | .panicked _ => .away

/-- Stages what a client decided. -/
def stage (hasher : Hasher) (s : Traffic) (client : Nat) (watch : Watch)
    (stamps : Nat → Outbox.Stamp) : Traffic :=
  match s.phase client with
  | .decided job => match stageAt hasher watch job.command.mode job.user stamps s.store with
      | .error _ => s.place client .away
      | .ok (.error e, tx) => s.place client (.staged job (stamps 0) (.error e) tx)
      | .ok (.ok (), tx) =>
          { s.place client (.staged job (stamps 0) (.ok ()) tx) with
            drawn := s.drawn ++ [stamps 0] }
  | _ => s

/-- Commits what a client staged, or rolls it back where staging failed. -/
def finish (s : Traffic) (client : Nat) : Traffic :=
  match s.phase client with
  | .staged job stamp result tx =>
      match UnitOfWork.settle AccountError.ofTransaction result tx s.store with
      | (.error _, store) => { s.place client .away with store }
      | (.ok (), store) => { s.place client .away with store, log := s.log ++ [⟨job, stamp⟩] }
  | _ => s

def step (hasher : Hasher) (s : Traffic) : Action σ → Traffic
  | .load client command watch draws =>
      s.place client (afterLoading hasher s.store command watch draws)
  | .stage client watch stamps => s.stage hasher client watch stamps
  | .finish client => s.finish client
  | .leave client => s.place client .away
  | .failNextCommit => { s with store := s.store.injectCommitFailure }
  | .deliver op => { s with store := op.run s.store }
  | .pass processor context conditions world =>
      let site := (Outbox.Processor.process { processor with repository := .store } context
        conditions ⟨s.store, world⟩).2
      { s with store := site.store }

/-- The state after some actions. -/
def run (hasher : Hasher) (actions : List (Action σ)) : Traffic :=
  actions.foldl (step hasher) start

@[simp] theorem place_store (s : Traffic) (client : Nat) (p : Phase) :
    (s.place client p).store = s.store := rfl

@[simp] theorem place_log (s : Traffic) (client : Nat) (p : Phase) :
    (s.place client p).log = s.log := rfl

@[simp] theorem place_drawn (s : Traffic) (client : Nat) (p : Phase) :
    (s.place client p).drawn = s.drawn := rfl

/-- A client that is placed is there; the others stay. -/
theorem phase_cases {s s' : Traffic} {client : Nat} {p : Phase}
    (h : s'.phase = (s.place client p).phase) (c : Nat) :
    (c = client ∧ s'.phase c = p) ∨ s'.phase c = s.phase c := by
  rw [h]
  by_cases hc : c = client
  · exact .inl ⟨hc, if_pos hc⟩
  · exact .inr (if_neg hc)

/-! ## What a step can do -/

/-- **What holds whoever is at work**: jobs are decisions, also those that were committed, what is
staged without an error is the plan, and the outbox is filed. -/
structure Orderly (s : Traffic) : Prop where
  decided : ∀ c job, (s.phase c).job? = some job →
    ∃ e, Decided job.command job.found job.user e
  logged : ∀ entry ∈ s.log, ∃ e, Decided entry.job.command entry.job.found entry.job.user e
  planned : ∀ c job stamp tx, s.phase c = .staged job stamp (.ok ()) tx →
    ∃ e, job.user.pending = [e] ∧ tx = plan job.command.mode job.user e stamp
  filed : Outbox.Filed s.store.tables

/-- What a client staged is the plan of its decision, if staging succeeded. -/
theorem Orderly.plan_of_staged {s : Traffic} (h : s.Orderly) {client : Nat} {job : Job}
    {stamp : Outbox.Stamp} {result : Except AccountError Unit} {tx : Transaction}
    (hphase : s.phase client = .staged job stamp result tx) :
    ∃ e, Decided job.command job.found job.user e ∧
      (result = .ok () → tx = plan job.command.mode job.user e stamp) := by
  obtain ⟨e, he⟩ := h.decided client job (by rw [hphase]; rfl)
  refine ⟨e, he, ?_⟩
  rintro rfl
  obtain ⟨e', he', rfl⟩ := h.planned client job stamp tx hphase
  rw [he.recorded] at he'
  rw [(List.cons.inj he').1]

/-- No client has a job or a plan that it did not have before. -/
structure NoneNew (s s' : Traffic) : Prop where
  jobs : ∀ c job, (s'.phase c).job? = some job → (s.phase c).job? = some job
  plans : ∀ c job stamp tx, s'.phase c = .staged job stamp (.ok ()) tx →
    s.phase c = .staged job stamp (.ok ()) tx

/-- **All that a step can do.** -/
inductive Moves (hasher : Hasher) (s s' : Traffic) : Prop where
  | rested (tables : s'.store.tables = s.store.tables) (log : s'.log = s.log)
      (drawn : s'.drawn = s.drawn) (phases : NoneNew s s')
  | loaded (client : Nat) (job : Job) (e : Event) (watch : Watch)
      (load : job.command.load hasher watch s.store = .ok job.found)
      (decided : Decided job.command job.found job.user e)
      (tables : s'.store.tables = s.store.tables) (log : s'.log = s.log)
      (drawn : s'.drawn = s.drawn) (phases : s'.phase = (s.place client (.decided job)).phase)
  | staged (client : Nat) (job : Job) (stamp : Outbox.Stamp) (e : Event)
      (before : s.phase client = .decided job) (recorded : job.user.pending = [e])
      (tables : s'.store.tables = s.store.tables) (log : s'.log = s.log)
      (drawn : s'.drawn = s.drawn ++ [stamp])
      (phases : s'.phase = (s.place client
        (.staged job stamp (.ok ()) (plan job.command.mode job.user e stamp))).phase)
  | committed (client : Nat) (job : Job) (stamp : Outbox.Stamp) (e : Event)
      (before : s.phase client =
        .staged job stamp (.ok ()) (plan job.command.mode job.user e stamp))
      (decided : Decided job.command job.found job.user e)
      (stored : Stored job.command.mode job.user e stamp s.store.tables s'.store.tables)
      (log : s'.log = s.log ++ [⟨job, stamp⟩]) (drawn : s'.drawn = s.drawn)
      (phases : NoneNew s s')
  | delivered (tables : Outbox.Delivers s.store.tables s'.store.tables) (log : s'.log = s.log)
      (drawn : s'.drawn = s.drawn) (phases : NoneNew s s')

theorem NoneNew.refl {s s' : Traffic} (h : s'.phase = s.phase) : NoneNew s s' := by
  constructor
  · intro c job hjob
    rwa [h] at hjob
  · intro c job stamp tx hphase
    rwa [h] at hphase

/-- A client that goes away, or fails to stage its job, brings nothing new. -/
theorem NoneNew.place {s s' : Traffic} {client : Nat} {p : Phase}
    (h : s'.phase = (s.place client p).phase)
    (hjob : ∀ job, p.job? = some job → (s.phase client).job? = some job)
    (hplan : ∀ job stamp tx, p ≠ .staged job stamp (.ok ()) tx) : NoneNew s s' := by
  constructor
  · intro c job hc
    rcases phase_cases h c with ⟨rfl, hp⟩ | hsame
    · rw [hp] at hc
      exact hjob job hc
    · rwa [hsame] at hc
  · intro c job stamp tx hc
    rcases phase_cases h c with ⟨rfl, hp⟩ | hsame
    · rw [hp] at hc
      exact absurd hc (hplan job stamp tx)
    · rwa [hsame] at hc

theorem NoneNew.away {s s' : Traffic} {client : Nat}
    (h : s'.phase = (s.place client .away).phase) : NoneNew s s' :=
  .place h (fun job hjob => by cases hjob) (fun job stamp tx hp => by cases hp)

theorem load_moves (hasher : Hasher) (s : Traffic) (client : Nat) (command : Command)
    (watch : Watch) (draws : Draws) :
    Moves hasher s (s.place client (afterLoading hasher s.store command watch draws)) := by
  have haway : Moves hasher s (s.place client .away) := .rested rfl rfl rfl (.away rfl)
  unfold afterLoading
  cases hload : command.load hasher watch s.store with
  | error e => exact haway
  | ok found =>
      simp only
      cases hdecide : command.decide hasher found draws with
      | failed e => exact haway
      | panicked p => exact haway
      | returned user =>
          obtain ⟨e, he⟩ := Command.decide_spec hload hdecide
          exact .loaded client ⟨command, found, user⟩ e watch hload he rfl rfl rfl rfl

theorem stage_moves (hasher : Hasher) {s : Traffic} (h : s.Orderly) (client : Nat) (watch : Watch)
    (stamps : Nat → Outbox.Stamp) : Moves hasher s (s.stage hasher client watch stamps) := by
  unfold stage
  cases hphase : s.phase client with
  | away => exact .rested rfl rfl rfl (.refl rfl)
  | staged job stamp result tx => exact .rested rfl rfl rfl (.refl rfl)
  | decided job =>
      obtain ⟨e, he⟩ := h.decided client job (by rw [hphase]; rfl)
      simp only
      cases hstage : stageAt hasher watch job.command.mode job.user stamps s.store with
      | error err => exact .rested rfl rfl rfl (.away rfl)
      | ok staged =>
          -- A failure leaves a transaction that will be rolled back, hence no plan.
          obtain ⟨result, tx⟩ := staged
          cases result with
          | error err =>
              refine .rested rfl rfl rfl (.place rfl (fun job' hjob => ?_)
                (fun job' stamp tx hp => by cases hp))
              rw [hphase]
              exact hjob
          | ok _ =>
              obtain rfl := stageAt_spec he.recorded hstage rfl
              exact .staged client job (stamps 0) e hphase he.recorded rfl rfl rfl rfl

theorem finish_moves (hasher : Hasher) {s : Traffic} (h : s.Orderly) (client : Nat) :
    Moves hasher s (s.finish client) := by
  unfold finish
  cases hphase : s.phase client with
  | away => exact .rested rfl rfl rfl (.refl rfl)
  | decided job => exact .rested rfl rfl rfl (.refl rfl)
  | staged job stamp result tx =>
      obtain ⟨e, he, hplan⟩ := h.plan_of_staged hphase
      rcases settle_plan hplan AccountError.ofTransaction s.store with
        ⟨err, store, hsettle, htables⟩ | ⟨store, hsettle, rfl, hstored⟩
      · simp only [hsettle]
        exact .rested htables rfl rfl (.away rfl)
      · obtain rfl := hplan rfl
        simp only [hsettle]
        exact .committed client job stamp e hphase he hstored rfl rfl (.away rfl)

theorem step_moves (hasher : Hasher) {s : Traffic} (h : s.Orderly) (a : Action σ) :
    Moves hasher s (s.step hasher a) := by
  cases a with
  | load client command watch draws => exact load_moves ..
  | stage client watch stamps => exact stage_moves hasher h ..
  | finish client => exact finish_moves hasher h client
  | leave client => exact .rested rfl rfl rfl (.away rfl)
  | failNextCommit => exact .rested rfl rfl rfl (.refl rfl)
  | deliver op => exact .delivered (Outbox.Op.run_delivers h.filed op) rfl rfl (.refl rfl)
  | pass processor context conditions world =>
      have hdelivers := Outbox.Processor.process_delivers
        { processor with repository := .store } rfl context conditions ⟨s.store, world⟩ h.filed
      exact .delivered hdelivers rfl rfl (.refl rfl)

/-- A step as the tables and the log see it: neither changes, rows are delivered, or a decision is
stored and logged. -/
theorem Moves.on_tables {hasher : Hasher} {s s' : Traffic} (hm : Moves hasher s s') :
    (s'.store.tables = s.store.tables ∧ s'.log = s.log) ∨
    (Outbox.Delivers s.store.tables s'.store.tables ∧ s'.log = s.log) ∨
    ∃ client job stamp e, (s.phase client).job? = some job ∧
      Decided job.command job.found job.user e ∧
      Stored job.command.mode job.user e stamp s.store.tables s'.store.tables ∧
      s'.log = s.log ++ [⟨job, stamp⟩] := by
  cases hm with
  | rested tables log => exact .inl ⟨tables, log⟩
  | loaded client job e watch load decided tables log => exact .inl ⟨tables, log⟩
  | staged client job stamp e before recorded tables log => exact .inl ⟨tables, log⟩
  | delivered tables log => exact .inr (.inl ⟨tables, log⟩)
  | committed client job stamp e before decided stored log =>
      exact .inr (.inr ⟨client, job, stamp, e, by rw [before]; rfl, decided, stored, log⟩)

/-! ## Runs -/

theorem filed_empty : Outbox.Filed Store.empty.tables := by
  intro k j h
  cases h

theorem filed_stored {mode : Storing} {u : User} {e : Event} {stamp : Outbox.Stamp}
    {before after : Tables} (h : Outbox.Filed before) (hs : Stored mode u e stamp before after) :
    Outbox.Filed after := by
  intro k j hrow
  rw [hs.row?_outbox] at hrow
  by_cases hk : k = stamp.id.text
  · rw [if_pos hk] at hrow
    exact ⟨outboxRow stamp e, (Option.some.inj hrow).symm, hk.symm⟩
  · rw [if_neg hk] at hrow
    exact h k j hrow

theorem orderly_start : start.Orderly :=
  ⟨fun _ _ h => (by cases h), fun _ h => (by cases h), fun _ _ _ _ h => (by cases h), filed_empty⟩

/-- Where there is no new job and no new plan, both are as before. -/
theorem Orderly.of_noneNew {s s' : Traffic} (h : s.Orderly) (hnone : NoneNew s s')
    (hlog : ∀ entry ∈ s'.log, ∃ e, Decided entry.job.command entry.job.found entry.job.user e)
    (hfiled : Outbox.Filed s'.store.tables) : s'.Orderly where
  decided := fun c job hjob => h.decided c job (hnone.jobs c job hjob)
  logged := hlog
  planned := fun c job stamp tx hplan => h.planned c job stamp tx (hnone.plans c job stamp tx hplan)
  filed := hfiled

theorem Orderly.moves {hasher : Hasher} {s s' : Traffic} (h : s.Orderly) (hm : Moves hasher s s') :
    s'.Orderly := by
  cases hm with
  | rested tables log drawn phases =>
      exact h.of_noneNew phases (by rw [log]; exact h.logged) (by rw [tables]; exact h.filed)
  | delivered tables log drawn phases =>
      exact h.of_noneNew phases (by rw [log]; exact h.logged) tables.filed
  | committed client job stamp e before decided stored log drawn phases =>
      refine h.of_noneNew phases (fun entry hentry => ?_) (filed_stored h.filed stored)
      rw [log] at hentry
      rcases List.mem_append.1 hentry with hentry | hentry
      · exact h.logged entry hentry
      · obtain rfl := List.mem_singleton.1 hentry
        exact ⟨e, decided⟩
  | loaded client job e watch load decided tables log drawn phases =>
      refine ⟨fun c job' hjob => ?_, by rw [log]; exact h.logged, fun c job' stamp tx hplan => ?_,
        by rw [tables]; exact h.filed⟩
      · rcases phase_cases phases c with ⟨rfl, hp⟩ | hsame
        · rw [hp] at hjob
          obtain rfl := Option.some.inj hjob
          exact ⟨e, decided⟩
        · rw [hsame] at hjob
          exact h.decided c job' hjob
      · rcases phase_cases phases c with ⟨rfl, hp⟩ | hsame
        · rw [hp] at hplan
          cases hplan
        · rw [hsame] at hplan
          exact h.planned c job' stamp tx hplan
  | staged client job stamp e before recorded tables log drawn phases =>
      refine ⟨fun c job' hjob => ?_, by rw [log]; exact h.logged, fun c job' stamp' tx hplan => ?_,
        by rw [tables]; exact h.filed⟩
      · rcases phase_cases phases c with ⟨rfl, hp⟩ | hsame
        · rw [hp] at hjob
          obtain rfl := Option.some.inj hjob
          exact h.decided c job (by rw [before]; rfl)
        · rw [hsame] at hjob
          exact h.decided c job' hjob
      · rcases phase_cases phases c with ⟨rfl, hp⟩ | hsame
        · rw [hp] at hplan
          cases hplan
          exact ⟨e, recorded, rfl⟩
        · rw [hsame] at hplan
          exact h.planned c job' stamp' tx hplan

/-- **What holds at the start and survives every step, holds after every run.** -/
theorem run_induction {P : Traffic → Prop} (hasher : Hasher) (hstart : P start)
    (hstep : ∀ s s', Orderly s → P s → Moves hasher s s' → P s') (actions : List (Action σ)) :
    Orderly (run hasher actions) ∧ P (run hasher actions) := by
  -- The induction is on the actions, from any state that a run can pass through.
  have hfrom : ∀ s, Orderly s → P s →
      Orderly (actions.foldl (step hasher) s) ∧ P (actions.foldl (step hasher) s) := by
    induction actions with
    | nil => exact fun s hs hP => ⟨hs, hP⟩
    | cons a actions ih =>
        intro s hs hP
        have hm := step_moves hasher hs a
        exact ih _ (hs.moves hm) (hstep s _ hs hP hm)
  exact hfrom start orderly_start hstart

/-- The three steps of a client in a row. -/
def inARow (hasher : Hasher) (client : Nat) (command : Command) (watch : Watch) (draws : Draws)
    (s : Traffic) : Traffic :=
  let s := s.place client (afterLoading hasher s.store command watch draws)
  (s.stage hasher client (command.afterLoad watch) draws.stamps).finish client

theorem inARow_eq_foldl (hasher : Hasher) (client : Nat) (command : Command) (watch : Watch)
    (draws : Draws) (s : Traffic) :
    inARow hasher client command watch draws s =
      [Action.load client command watch draws,
        .stage client (command.afterLoad watch) draws.stamps, .finish client].foldl
        (step (σ := σ) hasher) s := rfl

/-- **A service call that nobody interrupts is a client's three steps in a row**: they leave the
same store, and the log grows exactly when the call succeeds. -/
theorem inARow_eq_serve (hasher : Hasher) (client : Nat) (command : Command) (watch : Watch)
    (draws : Draws) (s : Traffic) (cells : List (Option Transaction)) :
    (inARow hasher client command watch draws s).store =
      (command.serve hasher watch draws ⟨s.store, cells⟩).2.manager ∧
    match (command.serve hasher watch draws ⟨s.store, cells⟩).1 with
    | .returned () => ∃ entry, entry.job.command = command ∧
        (inARow hasher client command watch draws s).log = s.log ++ [entry]
    | .failed _ | .panicked _ => (inARow hasher client command watch draws s).log = s.log := by
  have hserve := command.serve_eq_serveAmid hasher watch draws ⟨s.store, cells⟩
  have hanswer : (command.serve hasher watch draws ⟨s.store, cells⟩).1 =
      (command.serveAmid hasher watch draws s.store s.store s.store).1 := congrArg Prod.fst hserve
  have hstore : (command.serve hasher watch draws ⟨s.store, cells⟩).2.manager =
      (command.serveAmid hasher watch draws s.store s.store s.store).2 := congrArg Prod.snd hserve
  rw [hanswer, hstore]
  -- Where a step refuses, the client is away, and the steps after it do nothing.
  have haway : ∀ s' : Traffic, s'.phase client = .away →
      s'.stage hasher client (command.afterLoad watch) draws.stamps = s' ∧
        s'.finish client = s' := by
    intro s' h
    constructor
    · unfold stage
      rw [h]
    · unfold finish
      rw [h]
  have hplace : ∀ (s' : Traffic) (p : Phase), (s'.place client p).phase client = p := fun s' p =>
    if_pos rfl
  unfold inARow Command.serveAmid Command.decideAt orFail afterLoading
  cases hload : command.load hasher watch s.store with
  | error err => simp [haway _ (hplace _ _)]
  | ok found =>
      simp only
      cases hdecide : command.decide hasher found draws with
      | failed err => simp [haway _ (hplace _ _)]
      | panicked p => simp [haway _ (hplace _ _)]
      | returned user =>
          simp only [stage, hplace, place_store]
          cases hstage : stageAt hasher (command.afterLoad watch) command.mode user draws.stamps
              s.store with
          | error err => simp [haway _ (hplace _ _)]
          | ok staged =>
              obtain ⟨result, tx⟩ := staged
              cases result with
              | error err =>
                  simp only [finish, hplace, place_store]
                  exact ⟨rfl, rfl⟩
              | ok _ =>
                  simp only [finish, hplace]
                  cases UnitOfWork.settle AccountError.ofTransaction (.ok ()) tx s.store with
                  | mk result store =>
                      cases result with
                      | error err => exact ⟨rfl, rfl⟩
                      | ok _ => exact ⟨rfl, _, rfl, rfl⟩

/-! ## A race

A run on which the theorems can be looked at: a user registers; then one client loads it to log in
and another to change the password, both stage, and the second commits first. -/

/-- Hashes nothing. -/
def plainHasher : Hasher :=
  ⟨fun password => .returned ⟨password⟩, fun password h => password == h.encoded⟩

def ada : UserId := ⟨.ofNat 1⟩

def raceDraws (n : Nat) : Draws :=
  ⟨ada, ⟨.ofNat (10 + n)⟩, .epoch, fun _ => ⟨.ofNat (20 + n), .epoch⟩⟩

def race : List (Action Unit) :=
  [.load 1 (.register ⟨"ada@home", "one"⟩) .active (raceDraws 1),
    .stage 1 .active (raceDraws 1).stamps, .finish 1,
    .load 1 (.login ⟨"ada@home", "one"⟩) .active (raceDraws 2),
    .load 2 (.changePassword ⟨ada, "one", "two"⟩) .active (raceDraws 3),
    .stage 1 .active (raceDraws 2).stamps, .stage 2 .active (raceDraws 3).stamps,
    .finish 2, .finish 1]

end Traffic

end Registrar.Accounts
