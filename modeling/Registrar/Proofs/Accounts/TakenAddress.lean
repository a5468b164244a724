import Registrar.Proofs.Accounts.EmailIndex
import Registrar.Proofs.Accounts.Persisting

set_option autoImplicit false

/-! # Addresses that are taken

A registration finds out twice whether somebody has its address: while it stages, and by the guard
of its commit. Only the first answer says that the address is taken. A registration that was staged
while the address was free and loses it to another before its commit is answered that the commit
failed (`taken_address`). Which of the two it is depends only on when the address was taken, since
rows never go away (`Moves.row_before`) and nobody else touches what a client has staged
(`phase_foldl`). -/

namespace Registrar.Accounts

/-! ## Whose address it is -/

/-- Somebody has the address. -/
def Taken (ts : Tables) (email : Email) : Prop :=
  ∃ r, recordAt ts r.id = some r ∧ r.email = email

theorem Indexed.taken_iff {ts : Tables} (h : Indexed ts) (email : Email) :
    Taken ts email ↔ ∃ row, ts.row? emailsTable email.text = some row := by
  constructor
  · rintro ⟨r, hr, rfl⟩
    exact ⟨_, h.user r.id r hr⟩
  · rintro ⟨row, hrow⟩
    obtain ⟨r, -, hemail, hr⟩ := h.address _ _ hrow
    exact ⟨r, hr, congrArg Email.mk hemail⟩

theorem Indexed.free_of_not_taken {ts : Tables} (h : Indexed ts) {email : Email}
    (hnot : ¬ Taken ts email) : ts.row? emailsTable email.text = none := by
  rw [h.taken_iff] at hnot
  exact Option.eq_none_iff_forall_ne_some.2 fun row hrow => hnot ⟨row, hrow⟩

/-! ## Answers of the commit -/

section Settle

variable {u : User} {e : Event} {stamp : Outbox.Stamp} {s : Store}

/-- The guard of the address comes first. -/
theorem settle_of_taken {row : Json} (hwritable : s.failNextCommit = false)
    (haddress : s.tables.row? emailsTable u.email.text = some row) :
    (UnitOfWork.settle AccountError.ofTransaction (.ok ()) (plan .new u e stamp) s).1 =
      .error (.transaction (.commitFailed
        (StoreError.duplicateKey emailsTable u.email.text).message)) := by
  have hguards : Transaction.checkGuards s.tables (plan .new u e stamp).writes =
      .error (.duplicateKey emailsTable u.email.text) := by
    simp only [plan, userWrites, List.cons_append, Transaction.checkGuards, Guard.check, haddress,
      Option.isSome_some, if_true]
    rfl
  simp only [UnitOfWork.settle, Transaction.commit, hwritable, Bool.false_eq_true, if_false,
    Transaction.apply, hguards]
  rfl

theorem settle_of_free (hwritable : s.failNextCommit = false)
    (haddress : s.tables.row? emailsTable u.email.text = none)
    (huser : s.tables.row? usersTable u.id.text = none)
    (hevent : s.tables.row? Outbox.tableName stamp.id.text = none) :
    (UnitOfWork.settle AccountError.ofTransaction (.ok ()) (plan .new u e stamp) s).1 = .ok () :=
  mapError_succeeds_iff.2 ((Transaction.commit_succeeds_iff _ s).2
    ⟨hwritable, checkGuards_new_iff.2 ⟨haddress, huser, hevent⟩⟩)

end Settle

/-- The user that a registration makes has the address of its command, and one event. -/
theorem newUser_spec {hasher : Hasher} {cmd : RegisterUser} {d : Draws} {u : User}
    (h : newUser hasher cmd d = .returned u) :
    Email.parse cmd.email = .ok u.email ∧ ∃ e, u.pending = [e] := by
  obtain ⟨e, he⟩ := Command.decide_register h
  refine ⟨?_, e, he.recorded⟩
  unfold newUser orFail at h
  split at h
  · next email hparse =>
      split at h
      · cases h
      · split at h
        · obtain rfl := Ending.returned.inj h
          exact mapError_succeeds_iff.1 hparse
        · cases h
        · cases h
  · cases h

/-- The client that takes the action, if one does. -/
def Action.client? {σ : Type} : Action σ → Option Nat
  | .load client .. | .stage client .. | .finish client | .leave client => some client
  | .failNextCommit | .deliver _ | .pass .. => none

namespace Traffic

variable {σ : Type} {hasher : Hasher}

/-! ## What others do -/

theorem phase_place_of_ne {client c : Nat} (h : client ≠ c) (s : Traffic) (p : Phase) :
    (s.place client p).phase c = s.phase c := if_neg h.symm

/-- **What one client is at is touched by no other.** -/
theorem phase_step {a : Action σ} {client : Nat} (h : a.client? ≠ some client) (s : Traffic) :
    (s.step hasher a).phase client = s.phase client := by
  have hne : ∀ c, a.client? = some c → c ≠ client := by
    rintro c hc rfl
    exact h hc
  cases a with
  | load c command watch draws => exact phase_place_of_ne (hne c rfl) ..
  | leave c => exact phase_place_of_ne (hne c rfl) ..
  | failNextCommit => rfl
  | deliver op => rfl
  | pass processor context conditions world => rfl
  | stage c watch stamps =>
      show (s.stage hasher c watch stamps).phase client = _
      unfold stage
      cases s.phase c with
      | away => rfl
      | staged job stamp result tx => rfl
      | decided job =>
          simp only
          cases stageAt hasher watch job.command.mode job.user stamps s.store with
          | error e => exact phase_place_of_ne (hne c rfl) ..
          | ok staged =>
              obtain ⟨result, tx⟩ := staged
              cases result <;> exact phase_place_of_ne (hne c rfl) ..
  | finish c =>
      show (s.finish c).phase client = _
      unfold finish
      cases s.phase c with
      | away => rfl
      | decided job => rfl
      | staged job stamp result tx =>
          simp only
          cases UnitOfWork.settle AccountError.ofTransaction result tx s.store with
          | mk answer store => cases answer <;> exact phase_place_of_ne (hne c rfl) ..

theorem phase_foldl {client : Nat} {actions : List (Action σ)}
    (h : ∀ a ∈ actions, a.client? ≠ some client) (s : Traffic) :
    (actions.foldl (step hasher) s).phase client = s.phase client := by
  induction actions generalizing s with
  | nil => rfl
  | cons a actions ih =>
      rw [List.foldl_cons, ih fun b hb => h b (List.mem_cons_of_mem _ hb)]
      exact phase_step (h a List.mem_cons_self) s

/-- **Rows never go away**: what has no row after a step had none before. -/
theorem Moves.row_before {s s' : Traffic} (hm : Moves hasher s s')
    (hfiled : Outbox.Filed s.store.tables) {t k : String}
    (h : s'.store.tables.row? t k = none) : s.store.tables.row? t k = none := by
  rcases hm.on_tables with ⟨htables, -⟩ | ⟨hdelivers, -⟩ | ⟨client, job, stamp, e, -, -, hstored, -⟩
  · rwa [htables] at h
  · by_cases ht : t = Outbox.tableName
    · subst ht
      have hwritten := hdelivers.written k
      cases hrow : s.store.tables.row? Outbox.tableName k with
      | none => rfl
      | some j =>
          -- A row of the outbox is what it was made, whatever became of its delivery.
          obtain ⟨r, hcivil, rfl, hid⟩ := hfiled.find hrow
          rw [(Outbox.writtenAt_eq_some_iff hfiled).2 ⟨r, hcivil, hrow, hid, rfl⟩] at hwritten
          simp [Outbox.writtenAt, h] at hwritten
    · rwa [hdelivers.others t k ht] at h
  · rwa [hstored.others] at h
    · rintro ⟨rfl, rfl⟩
      rw [hstored.event] at h
      cases h
    · rintro ⟨rfl, rfl⟩
      rw [hstored.user] at h
      cases h
    · rintro ⟨hmode, rfl, rfl⟩
      rw [hstored.address hmode] at h
      cases h

theorem row_before_foldl {s : Traffic} (hs : s.Orderly) {actions : List (Action σ)} {t k : String}
    (h : (actions.foldl (step hasher) s).store.tables.row? t k = none) :
    s.store.tables.row? t k = none := by
  induction actions generalizing s with
  | nil => exact h
  | cons a actions ih =>
      have hm := step_moves hasher hs a
      exact hm.row_before hs.filed (ih (hs.moves hm) h)

/-- What a client is answered that finishes now. -/
def answer? (s : Traffic) (client : Nat) : Option (Except AccountError Unit) :=
  match s.phase client with
  | .staged _ _ result tx => some (UnitOfWork.settle AccountError.ofTransaction result tx s.store).1
  | .away | .decided _ => none

/-! ## A registration among others -/

/-- A registration amid whatever others do: its client decided on a user and staged it, and between
these steps and since the last of them the others took any of theirs. -/
structure Registering (hasher : Hasher) (σ : Type) where
  client : Nat
  command : RegisterUser
  draws : Draws
  user : User
  decided : newUser hasher command draws = .returned user
  before : List (Action σ)
  pause : List (Action σ)
  meanwhile : List (Action σ)
  others : ∀ a ∈ pause ++ meanwhile, a.client? ≠ some client

namespace Registering

variable (r : Registering hasher σ)

/-- What was done until the registration is staged. -/
def untilStaging : List (Action σ) :=
  r.before ++ .load r.client (.register r.command) .active r.draws :: r.pause

/-- The state over which the registration is staged. -/
def atStaging : Traffic := run hasher r.untilStaging

/-- The state in which the registration is about to finish. -/
def atFinish : Traffic :=
  run hasher (r.untilStaging ++ .stage r.client .active r.draws.stamps :: r.meanwhile)

theorem atFinish_eq : r.atFinish = r.meanwhile.foldl (step hasher)
    (r.atStaging.stage hasher r.client .active r.draws.stamps) := by
  simp only [atFinish, atStaging, run, List.foldl_append, List.foldl_cons]
  rfl

theorem phase_atStaging :
    r.atStaging.phase r.client = .decided ⟨.register r.command, none, r.user⟩ := by
  have hloaded : afterLoading hasher (run hasher r.before).store (.register r.command) .active
      r.draws = .decided ⟨.register r.command, none, r.user⟩ := by
    simp only [afterLoading, Command.load, Command.decide, r.decided]
  have hatStaging : r.atStaging = r.pause.foldl (step hasher) ((run hasher r.before).place r.client
      (afterLoading hasher (run hasher r.before).store (.register r.command) .active r.draws)) := by
    simp only [atStaging, untilStaging, run, List.foldl_append, List.foldl_cons]
    rfl
  rw [hatStaging, phase_foldl fun a ha => r.others a (List.mem_append_left _ ha), hloaded]
  exact if_pos rfl

/-- The registration is answered by what it staged and the store as it finishes. -/
theorem answer_of_stageAt {result : Except AccountError Unit} {tx : Transaction}
    (hstage : stageAt hasher .active .new r.user r.draws.stamps r.atStaging.store =
      .ok (result, tx)) :
    r.atFinish.answer? r.client =
      some (UnitOfWork.settle AccountError.ofTransaction result tx r.atFinish.store).1 := by
  have hphase : r.atFinish.phase r.client =
      .staged ⟨.register r.command, none, r.user⟩ (r.draws.stamps 0) result tx := by
    rw [atFinish_eq, phase_foldl fun a ha => r.others a (List.mem_append_right _ ha)]
    have hstage' : stageAt hasher .active (Command.register r.command).mode r.user r.draws.stamps
        r.atStaging.store = .ok (result, tx) := hstage
    simp only [stage, r.phase_atStaging, hstage']
    cases result <;> exact if_pos rfl
  simp only [answer?, hphase]

/-- The answer is that of a service call amid what the others do. -/
theorem answer_eq_serveAmid (loaded : Store) : ∃ result, r.atFinish.answer? r.client = some result ∧
    ((Command.register r.command).serveAmid hasher .active r.draws loaded r.atStaging.store
      r.atFinish.store).1 = .ofExcept result := by
  obtain ⟨⟨result, tx⟩, hstage⟩ :=
    stageAt_begins hasher .new r.user r.draws.stamps r.atStaging.store
  have hdecided : (Command.register r.command).decideAt hasher .active r.draws loaded =
      .returned r.user := by
    simp only [Command.decideAt, Command.load, orFail, Command.decide, r.decided]
  have hstage' : stageAt hasher ((Command.register r.command).afterLoad .active)
      (Command.register r.command).mode r.user r.draws.stamps r.atStaging.store =
      .ok (result, tx) := hstage
  refine ⟨_, r.answer_of_stageAt hstage, ?_⟩
  simp only [Command.serveAmid, hdecided, hstage']

/-- What has no row at the finish had none when the registration was staged. -/
theorem row_atStaging {t k : String} (h : r.atFinish.store.tables.row? t k = none) :
    r.atStaging.store.tables.row? t k = none := by
  have horderly : r.atStaging.Orderly :=
    (run_induction (P := fun _ => True) hasher trivial (fun _ _ _ _ _ => trivial) r.untilStaging).1
  have hrow : (List.foldl (step hasher) r.atStaging
      (.stage r.client .active r.draws.stamps :: r.meanwhile)).store.tables.row? t k = none := by
    simpa only [atFinish, atStaging, run, List.foldl_append] using h
  exact row_before_foldl horderly hrow

theorem indexed_atStaging : Indexed r.atStaging.store.tables :=
  (indexed_run hasher r.untilStaging).2

theorem indexed_atFinish : Indexed r.atFinish.store.tables :=
  (indexed_run hasher _).2

/-- **How a registration learns that its address is taken.** Whatever others do between its steps,
let nobody else have its identifier or its event's, and let no failure be injected into its commit.
If the address, as it was parsed, was taken when the registration was staged, by a committed user or
by one in the same transaction, the answer is that it is taken. If it was taken only since, the
answer is that the commit failed. Otherwise the registration succeeds. -/
theorem taken_address (hwritable : r.atFinish.store.failNextCommit = false)
    (huser : r.atFinish.store.tables.row? usersTable r.user.id.text = none)
    (hevent : r.atFinish.store.tables.row? Outbox.tableName (r.draws.stamps 0).id.text = none) :
    Email.parse r.command.email = .ok r.user.email ∧
    (∀ (s : Store) (tx : Transaction) (row : Json),
      tx.row? s.tables emailsTable r.user.email.text = some row →
      Repository.store.save (.ok ()) r.user s (some tx) =
        (.error (.emailTaken r.user.email.text), some tx)) ∧
    (Taken r.atStaging.store.tables r.user.email →
      r.atFinish.answer? r.client = some (.error (.emailTaken r.user.email.text))) ∧
    (¬ Taken r.atStaging.store.tables r.user.email →
      Taken r.atFinish.store.tables r.user.email →
      r.atFinish.answer? r.client = some (.error (.transaction (.commitFailed
        (StoreError.duplicateKey emailsTable r.user.email.text).message)))) ∧
    (¬ Taken r.atFinish.store.tables r.user.email →
      r.atFinish.answer? r.client = some (.ok ())) := by
  obtain ⟨hparse, e, hpending⟩ := newUser_spec r.decided
  have hstaged : r.atStaging.store.tables.row? emailsTable r.user.email.text = none →
      r.atFinish.answer? r.client = some (UnitOfWork.settle AccountError.ofTransaction (.ok ())
        (plan .new r.user e (r.draws.stamps 0)) r.atFinish.store).1 := fun haddress =>
    r.answer_of_stageAt (stageAt_new hasher hpending haddress (r.row_atStaging huser)
      (r.row_atStaging hevent))
  refine ⟨hparse, fun s tx row hrow => ?_, fun htaken => ?_, fun hfree htaken => ?_,
    fun hfree => ?_⟩
  · simp only [Repository.store, staging, stageNew_of_taken hrow]
  · obtain ⟨row, hrow⟩ := (r.indexed_atStaging.taken_iff _).1 htaken
    rw [r.answer_of_stageAt (stageAt_taken hasher hrow)]
    rfl
  · obtain ⟨row, hrow⟩ := (r.indexed_atFinish.taken_iff _).1 htaken
    rw [hstaged (r.indexed_atStaging.free_of_not_taken hfree), settle_of_taken hwritable hrow]
  · have haddress := r.indexed_atFinish.free_of_not_taken hfree
    rw [hstaged (r.row_atStaging haddress), settle_of_free hwritable haddress huser hevent]

end Registering

/-! Two clients register one address; both stage while it is free, and the first finishes first. -/

def sameAddress (n : Nat) : Draws :=
  ⟨⟨.ofNat n⟩, ⟨.ofNat (10 + n)⟩, .epoch, fun _ => ⟨.ofNat (20 + n), .epoch⟩⟩

/-- The second of the two, about to finish. -/
def secondToAddress : Registering plainHasher Unit where
  client := 2
  command := ⟨"ada@home", "two"⟩
  draws := sameAddress 2
  user := .register ⟨.ofNat 2⟩ ⟨"ada@home"⟩ ⟨"two"⟩ .epoch ⟨.ofNat 12⟩
  decided := by decide +kernel
  before := [.load 1 (.register ⟨"ada@home", "one"⟩) .active (sameAddress 1)]
  pause := [.stage 1 .active (sameAddress 1).stamps]
  meanwhile := [.finish 1]
  others := by
    intro a ha
    simp only [List.cons_append, List.nil_append, List.mem_cons, List.not_mem_nil, or_false] at ha
    rcases ha with rfl | rfl <;> decide

theorem secondToAddress_fresh : secondToAddress.atFinish.store.failNextCommit = false ∧
    secondToAddress.atFinish.store.tables.row? usersTable secondToAddress.user.id.text = none ∧
    secondToAddress.atFinish.store.tables.row? Outbox.tableName
      (secondToAddress.draws.stamps 0).id.text = none := by decide +kernel

theorem secondToAddress_untaken :
    ¬ Taken secondToAddress.atStaging.store.tables secondToAddress.user.email := by
  rw [secondToAddress.indexed_atStaging.taken_iff]
  rintro ⟨row, hrow⟩
  have hnone : secondToAddress.atStaging.store.tables.row? emailsTable
      secondToAddress.user.email.text = none := by decide +kernel
  rw [hnone] at hrow
  cases hrow

theorem secondToAddress_taken :
    Taken secondToAddress.atFinish.store.tables secondToAddress.user.email :=
  (secondToAddress.indexed_atFinish.taken_iff _).2
    ⟨.str (⟨.ofNat 1⟩ : UserId).text, by decide +kernel⟩

theorem taken_address_race : secondToAddress.atFinish.answer? 2 = some (.error (.transaction
    (.commitFailed "duplicate key `ada@home` in table `users_by_email`"))) := by
  obtain ⟨hwritable, huser, hevent⟩ := secondToAddress_fresh
  exact (secondToAddress.taken_address hwritable huser hevent).2.2.2.1 secondToAddress_untaken
    secondToAddress_taken

/-- **Not every taken address is reported as taken**: the answer that a registration gets which lost
its address to another since it was staged does not say so. -/
theorem not_every_taken_address_reported :
    ¬ ∀ r : Registering plainHasher Unit, r.atFinish.store.failNextCommit = false →
      r.atFinish.store.tables.row? usersTable r.user.id.text = none →
      r.atFinish.store.tables.row? Outbox.tableName (r.draws.stamps 0).id.text = none →
      Taken r.atFinish.store.tables r.user.email →
      r.atFinish.answer? r.client = some (.error (.emailTaken r.user.email.text)) := by
  intro h
  obtain ⟨hwritable, huser, hevent⟩ := secondToAddress_fresh
  have hreported := h secondToAddress hwritable huser hevent secondToAddress_taken
  revert hreported
  decide +kernel

end Traffic

end Registrar.Accounts
