import Mathlib.Data.List.Forall2
import Registrar.Proofs.Codec.Json
import Registrar.Proofs.Codec.Record

set_option autoImplicit false

/-! # The books of a user

A user counts what it ever recorded and keeps what was not taken yet. What it should have recorded
is written in lines (`recorded`), which follow from the acts and the password's hash alone: a login
and a change to another password have a line each, a change to the same password none, and taking
the events none. **As long as the version has room for them, a user records these lines and no
others** (`run_spec`): each as an event that tells it (`Line.ToldBy`), with a payload that reads
back. The payload has the time as text, so a leap second in the middle of a minute reads back as the
second after it.

Taking the events makes the user what a restart from its record would make it, so what is pending
are the lines since then (`keeps_books`). -/

namespace Registrar

/-! ## Payloads that read back -/

theorem Event.decodePayload_ofPayload {α : Type} {read : Json → Option α} {payload : Json} {a : α}
    (hplain : payload.IsPlain) (hread : read payload = some a) (id : EventId) (now : Instant)
    (name : String) (aggregateId : AggregateId) :
    (ofPayload id now name aggregateId payload).decodePayload read = .ok a := by
  have hwritten : (Json.parse payload.print).bind read = some a := by
    rw [Json.parse_print hplain, Option.bind_some, hread]
  have hpayload : (ofPayload id now name aggregateId payload).payload = payload.print := rfl
  rw [decodePayload, hpayload, hwritten]

theorem UserCreated.isPlain_toJson (e : UserCreated) : e.toJson.IsPlain :=
  ⟨trivial, trivial, trivial, trivial⟩

theorem UserCreated.ofJson?_toJson (e : UserCreated) :
    ofJson? e.toJson = some { e with occurredAt := e.occurredAt.asRead } := by
  have hrec : e.toJson.record? ["user_id", "email", "occurred_at"] = _ :=
    Json.record?_obj rfl (by decide)
  rw [ofJson?, hrec]
  simp -implicitDefEqProofs

theorem isPlain_userTimeToJson (id : UserId) (t : Instant) : (userTimeToJson id t).IsPlain :=
  ⟨trivial, trivial, trivial⟩

theorem userTimeOfJson?_userTimeToJson (id : UserId) (t : Instant) :
    userTimeOfJson? (userTimeToJson id t) = some (id, t.asRead) := by
  have hrec : (userTimeToJson id t).record? ["user_id", "occurred_at"] = _ :=
    Json.record?_obj rfl (by decide)
  rw [userTimeOfJson?, hrec]
  simp -implicitDefEqProofs

theorem UserLoggedIn.ofJson?_toJson (e : UserLoggedIn) :
    ofJson? e.toJson = some { e with occurredAt := e.occurredAt.asRead } := by
  rw [ofJson?, toJson, userTimeOfJson?_userTimeToJson]
  rfl

theorem UserPasswordChanged.ofJson?_toJson (e : UserPasswordChanged) :
    ofJson? e.toJson = some { e with occurredAt := e.occurredAt.asRead } := by
  rw [ofJson?, toJson, userTimeOfJson?_userTimeToJson]
  rfl

namespace User

/-! ## What should be recorded -/

/-- What an event of a user says that happened. -/
inductive Deed where
  | created (email : Email)
  | loggedIn
  | changedPassword

/-- A line of the books: what happened and when, and the identifier of its event. -/
structure Line where
  deed : Deed
  at_ : Instant
  eventId : EventId

/-- **The event tells this of the user**: under the name of what happened, with its time, about that
user, and with a payload that reads back as who it was and when, as far as a text can tell it. -/
structure Line.ToldBy (x : Line) (id : UserId) (e : Event) : Prop where
  eventId : e.id = x.eventId
  aggregate : e.aggregateId = id.toAggregate
  time : e.occurredAt = x.at_
  payload : match x.deed with
    | .created email => e.name = UserCreated.eventName ∧
        e.decodePayload UserCreated.ofJson? = .ok ⟨id, email, x.at_.asRead⟩
    | .loggedIn => e.name = UserLoggedIn.eventName ∧
        e.decodePayload UserLoggedIn.ofJson? = .ok ⟨id, x.at_.asRead⟩
    | .changedPassword => e.name = UserPasswordChanged.eventName ∧
        e.decodePayload UserPasswordChanged.ofJson? = .ok ⟨id, x.at_.asRead⟩

/-- What is done with a user. -/
inductive Act where
  | login (at_ : Instant) (eventId : EventId)
  | changePassword (hash : PasswordHash) (at_ : Instant) (eventId : EventId)
  | take

/-- The hash after an act. -/
def Act.hash (current : PasswordHash) : Act → PasswordHash
  | .changePassword hash .. => hash
  | .login .. | .take => current

/-- The line of an act: a change to the password that there is has none. -/
def Act.line? (current : PasswordHash) : Act → Option Line
  | .login at_ eventId => some ⟨.loggedIn, at_, eventId⟩
  | .changePassword hash at_ eventId =>
      if hash = current then none else some ⟨.changedPassword, at_, eventId⟩
  | .take => none

/-- The hash after some acts. -/
def hashAfter (current : PasswordHash) (acts : List Act) : PasswordHash :=
  acts.foldl Act.hash current

/-- **The lines of some acts**, by someone who has this hash at first. -/
def recorded (current : PasswordHash) : List Act → List Line
  | [] => []
  | a :: acts => (a.line? current).toList ++ recorded (a.hash current) acts

theorem recorded_append (current : PasswordHash) (acts later : List Act) :
    recorded current (acts ++ later) =
      recorded current acts ++ recorded (hashAfter current acts) later := by
  induction acts generalizing current with
  | nil => rfl
  | cons a acts ih =>
      rw [List.cons_append, recorded, recorded, ih, List.append_assoc]
      rfl

/-! ## What is recorded -/

/-- The event of a line. -/
def Line.event (id : UserId) (x : Line) : Event :=
  match x.deed with
  | .created email => happening id x.eventId UserCreated.eventName
      (UserCreated.toJson ⟨id, email, x.at_⟩) x.at_
  | .loggedIn => happening id x.eventId UserLoggedIn.eventName
      (UserLoggedIn.toJson ⟨id, x.at_⟩) x.at_
  | .changedPassword => happening id x.eventId UserPasswordChanged.eventName
      (UserPasswordChanged.toJson ⟨id, x.at_⟩) x.at_

theorem Line.toldBy_event (x : Line) (id : UserId) : x.ToldBy id (x.event id) := by
  obtain ⟨deed, at_, eventId⟩ := x
  refine ⟨?_, ?_, ?_, ?_⟩
  · cases deed <;> rfl
  · cases deed <;> rfl
  · cases deed <;> rfl
  · cases deed with
    | created email =>
        have hread := UserCreated.ofJson?_toJson ⟨id, email, at_⟩
        exact ⟨rfl, Event.decodePayload_ofPayload (UserCreated.isPlain_toJson _) hread ..⟩
    | loggedIn =>
        have hread := UserLoggedIn.ofJson?_toJson ⟨id, at_⟩
        exact ⟨rfl, Event.decodePayload_ofPayload (isPlain_userTimeToJson id at_) hread ..⟩
    | changedPassword =>
        have hread := UserPasswordChanged.ofJson?_toJson ⟨id, at_⟩
        exact ⟨rfl, Event.decodePayload_ofPayload (isPlain_userTimeToJson id at_) hread ..⟩

/-- What becomes of a user: an operation that is refused leaves it as it is. -/
def settled (u : User) : Ending DomainError User → Except PanicPayload User
  | .returned u' => .ok u'
  | .failed _ => .ok u
  | .panicked p => .error p

def act (u : User) : Act → Except PanicPayload User
  | .login at_ eventId => u.settled (u.login at_ eventId)
  | .changePassword hash at_ eventId => u.settled (u.changePassword hash at_ eventId)
  | .take => .ok u.takeEvents.2

/-- **Any acts**, one after another. -/
def run (u : User) (acts : List Act) : Except PanicPayload User := acts.foldlM act u

/-- **What acts make of a user.** -/
structure Became (u : User) (acts : List Act) (u' : User) : Prop where
  id : u'.id = u.id
  email : u'.email = u.email
  createdAt : u'.createdAt = u.createdAt
  passwordHash : u'.passwordHash = hashAfter u.passwordHash acts
  version : u'.version.toNat = u.version.toNat + (recorded u.passwordHash acts).length
  pending : .take ∉ acts →
    u'.pending = u.pending ++ (recorded u.passwordHash acts).map (·.event u.id)

theorem Became.refl (u : User) : Became u [] u :=
  ⟨rfl, rfl, rfl, rfl, rfl, fun _ => (List.append_nil _).symm⟩

theorem Became.trans {u u' u'' : User} {acts later : List Act} (h : Became u acts u')
    (h' : Became u' later u'') : Became u (acts ++ later) u'' := by
  have hlines : recorded u.passwordHash (acts ++ later) =
      recorded u.passwordHash acts ++ recorded u'.passwordHash later := by
    rw [recorded_append, h.passwordHash]
  refine ⟨h'.id.trans h.id, h'.email.trans h.email, h'.createdAt.trans h.createdAt, ?_, ?_, ?_⟩
  · rw [h'.passwordHash, h.passwordHash, hashAfter, hashAfter, hashAfter, List.foldl_append]
  · rw [h'.version, h.version, hlines, List.length_append, Nat.add_assoc]
  · intro hnone
    rw [List.mem_append, not_or] at hnone
    rw [h'.pending hnone.2, h.pending hnone.1, h.id, hlines, List.map_append, List.append_assoc]

/-! ## One act -/

/-- Recording an event counts it and puts it last, if there is room to count. -/
theorem record_of_room {ε : Type} {u : User} (hroom : u.version.toNat + 1 < UInt64.size)
    (e : Event) :
    (u.record e : Ending ε User) =
      .returned { u with history := ⟨u.version + 1, u.pending ++ [e]⟩ } := by
  have hrecord : u.history.record e = .ok ⟨u.version + 1, u.pending ++ [e]⟩ :=
    History.record_of_room hroom e
  rw [User.record, hrecord]

/-- An act with a line records its event. -/
theorem act_of_line {u : User} {a : Act} {x : Line} (hline : a.line? u.passwordHash = some x)
    (hroom : u.version.toNat + 1 < UInt64.size) :
    ∃ u', u.act a = .ok u' ∧ u'.id = u.id ∧ u'.email = u.email ∧ u'.createdAt = u.createdAt ∧
      u'.passwordHash = a.hash u.passwordHash ∧
      u'.history = ⟨u.version + 1, u.pending ++ [x.event u.id]⟩ := by
  cases a with
  | login at_ eventId =>
      cases hline
      refine ⟨{ u with lastLoginAt := some at_, history := _ }, ?_, rfl, rfl, rfl, rfl, rfl⟩
      rw [act, login, record_of_room (u := { u with lastLoginAt := some at_ }) hroom]
      rfl
  | changePassword hash at_ eventId =>
      by_cases hsame : hash = u.passwordHash
      · rw [Act.line?, if_pos hsame] at hline
        cases hline
      · rw [Act.line?, if_neg hsame] at hline
        cases hline
        refine ⟨{ u with passwordHash := hash, passwordChangedAt := some at_, history := _ }, ?_,
          rfl, rfl, rfl, rfl, rfl⟩
        rw [act, changePassword, if_neg hsame, record_of_room
          (u := { u with passwordHash := hash, passwordChangedAt := some at_ }) hroom]
        rfl
  | take => cases hline

/-- The new password has to be another one; otherwise nothing changes. -/
theorem changePassword_same (u : User) (at_ : Instant) (eventId : EventId) :
    u.changePassword u.passwordHash at_ eventId =
      .failed (.invariantViolation "new password must differ from the current one") :=
  if_pos rfl

/-- An act without a line leaves a user as it is, unless it takes the events. -/
theorem act_of_no_line {u : User} {a : Act} (hline : a.line? u.passwordHash = none) :
    u.act a = .ok u ∧ a.hash u.passwordHash = u.passwordHash ∨
      a = .take ∧ u.act a = .ok u.takeEvents.2 := by
  cases a with
  | login at_ eventId => cases hline
  | changePassword hash at_ eventId =>
      by_cases hsame : hash = u.passwordHash
      · subst hsame
        refine .inl ⟨?_, rfl⟩
        rw [act, changePassword_same]
        rfl
      · rw [Act.line?, if_neg hsame] at hline
        cases hline
  | take => exact .inr ⟨rfl, rfl⟩

/-- **One act**, with room for its line. -/
theorem act_spec {u : User} {a : Act}
    (hroom : u.version.toNat + (recorded u.passwordHash [a]).length < UInt64.size) :
    ∃ u', u.act a = .ok u' ∧ Became u [a] u' := by
  have hlines : recorded u.passwordHash [a] = (a.line? u.passwordHash).toList := List.append_nil _
  cases hline : a.line? u.passwordHash with
  | some x =>
      rw [hline] at hlines
      rw [hlines] at hroom
      obtain ⟨u', hact, hid, hemail, hcreated, hhash, hhistory⟩ := act_of_line hline hroom
      refine ⟨u', hact, hid, hemail, hcreated, hhash, ?_, fun _ => ?_⟩
      · rw [hlines, version, hhistory]
        exact History.toNat_version_succ hroom
      · rw [hlines, pending, hhistory]
        rfl
  | none =>
      rw [hline] at hlines
      rcases act_of_no_line hline with ⟨hact, hhash⟩ | ⟨rfl, hact⟩
      · refine ⟨u, hact, rfl, rfl, rfl, hhash.symm, ?_, fun _ => ?_⟩
        · rw [hlines]
          rfl
        · rw [hlines]
          exact (List.append_nil _).symm
      · exact ⟨_, hact, rfl, rfl, rfl, rfl, rfl, fun hnone => absurd List.mem_cons_self hnone⟩

/-! ## Any acts -/

theorem run_append (u : User) (acts later : List Act) :
    u.run (acts ++ later) = u.run acts >>= fun u' => u'.run later :=
  List.foldlM_append

/-- **As long as the version has room for their lines, acts record them.** -/
theorem run_spec {u : User} {acts : List Act}
    (hroom : u.version.toNat + (recorded u.passwordHash acts).length < UInt64.size) :
    ∃ u', u.run acts = .ok u' ∧ Became u acts u' := by
  induction acts generalizing u with
  | nil => exact ⟨u, rfl, .refl u⟩
  | cons a acts ih =>
      have hlines := recorded_append u.passwordHash [a] acts
      rw [List.singleton_append] at hlines
      rw [hlines, List.length_append] at hroom
      -- Versions only grow, so room for all lines is room for the first act's and then the rest.
      have hfirst : u.version.toNat + (recorded u.passwordHash [a]).length < UInt64.size := by omega
      obtain ⟨u', hact, hbecame⟩ := act_spec hfirst
      have hrest : u'.version.toNat + (recorded u'.passwordHash acts).length < UInt64.size := by
        rw [hbecame.version, hbecame.passwordHash, Nat.add_assoc]
        exact hroom
      obtain ⟨u'', hrun, hbecame'⟩ := ih hrest
      refine ⟨u'', ?_, hbecame.trans hbecame'⟩
      rw [run, List.foldlM_cons, hact]
      exact hrun

/-! ## The books -/

/-- Where a user comes from. -/
inductive Origin where
  | registered (id : UserId) (email : Email) (hash : PasswordHash) (at_ : Instant)
      (eventId : EventId)
  | restored (r : UserRecord)

namespace Origin

def user : Origin → User
  | .registered id email hash at_ eventId => register id email hash at_ eventId
  | .restored r => restore r

/-- The version that a user starts with. -/
def version : Origin → UInt64
  | .registered .. => 0
  | .restored r => r.version

/-- What is recorded from the start: a registration, and nothing of a restored user. -/
def lines : Origin → List Line
  | .registered _ email _ at_ eventId => [⟨.created email, at_, eventId⟩]
  | .restored _ => []

/-- **All lines of a user**, after some acts. -/
def books (o : Origin) (acts : List Act) : List Line :=
  o.lines ++ recorded o.user.passwordHash acts

theorem books_append (o : Origin) (acts later : List Act) :
    o.books (acts ++ later) =
      o.books acts ++ recorded (hashAfter o.user.passwordHash acts) later := by
  rw [books, recorded_append, ← List.append_assoc]
  rfl

theorem toNat_version_user (o : Origin) :
    o.user.version.toNat = o.version.toNat + o.lines.length := by
  cases o <;> rfl

theorem pending_user (o : Origin) : o.user.pending = o.lines.map (·.event o.user.id) := by
  cases o <;> rfl

/-- The run of some acts, with the user's version counted from the start. -/
theorem run_spec {o : Origin} {acts : List Act}
    (hroom : o.version.toNat + (o.books acts).length < UInt64.size) :
    ∃ u, o.user.run acts = .ok u ∧ Became o.user acts u ∧
      u.version.toNat = o.version.toNat + (o.books acts).length := by
  have hlength : o.user.version.toNat + (recorded o.user.passwordHash acts).length =
      o.version.toNat + (o.books acts).length := by
    rw [toNat_version_user, books, List.length_append, Nat.add_assoc]
  rw [← hlength] at hroom
  obtain ⟨u, hrun, hbecame⟩ := User.run_spec hroom
  exact ⟨u, hrun, hbecame, hbecame.version.trans hlength⟩

end Origin

/-- **A user whose books are kept**: with these events ever recorded, the last of them pending. -/
structure Keeps (o : Origin) (acts : List Act) (events : List Event) (u : User) : Prop where
  /-- The events tell the lines, one each, in order. -/
  told : List.Forall₂ (fun x e => x.ToldBy o.user.id e) (o.books acts) events
  counted : u.version.toNat = o.version.toNat + events.length
  untaken : .take ∉ acts → u.pending = events ∧ u.persistedVersion = o.version
  sinceTaken : ∀ before after, acts = before ++ .take :: after → .take ∉ after →
    ∃ v, o.user.run before = .ok v ∧ u.pending = events.drop (o.books before).length ∧
      u.persistedVersion = v.version
  same : u.id = o.user.id ∧ u.email = o.user.email ∧ u.createdAt = o.user.createdAt

/-- What is pending after the last time that the events were taken. -/
theorem pending_since_take {o : Origin} {before after : List Act} {u : User}
    (hroom : o.version.toNat + (o.books (before ++ .take :: after)).length < UInt64.size)
    (hrun : o.user.run (before ++ .take :: after) = .ok u) (hlast : .take ∉ after) :
    ∃ v, o.user.run before = .ok v ∧
      u.pending = (recorded (hashAfter o.user.passwordHash before) after).map (·.event o.user.id) ∧
      u.persistedVersion = v.version := by
  rw [Origin.books_append, List.length_append] at hroom
  have hbefore : o.version.toNat + (o.books before).length < UInt64.size := by omega
  obtain ⟨v, hv, hbecame, hversion⟩ := Origin.run_spec hbefore
  -- The user is now as if it were restored, so a second run begins.
  have hafter : v.takeEvents.2.version.toNat +
      (recorded v.takeEvents.2.passwordHash after).length < UInt64.size := by
    show v.version.toNat + (recorded v.passwordHash after).length < UInt64.size
    rw [hversion, hbecame.passwordHash, Nat.add_assoc]
    exact hroom
  obtain ⟨u', hu', hbecame'⟩ := User.run_spec hafter
  have hsame : u' = u := by
    have hwhole : o.user.run (before ++ .take :: after) = .ok u' := by
      rw [run_append, hv]
      exact hu'
    rw [hrun] at hwhole
    exact (Except.ok.inj hwhole).symm
  subst hsame
  have hpending : u'.pending = (recorded v.passwordHash after).map (·.event v.id) :=
    hbecame'.pending hlast
  have hcounted : u'.version.toNat = v.version.toNat + u'.pending.length := by
    rw [hpending, List.length_map]
    exact hbecame'.version
  refine ⟨v, hv, ?_, History.persistedVersion_of_counted hcounted⟩
  rw [hpending, hbecame.passwordHash, hbecame.id]

/-- **A user keeps its books**, whether it was registered or restored, and whatever is done with it
as long as the version stays below its bound. Nobody can tell a change to the same password; taking
the events empties what is pending and leaves the rest; and the record of a user restores all of it
but what is pending. -/
theorem keeps_books (o : Origin) (acts : List Act)
    (hroom : o.version.toNat + (o.books acts).length < UInt64.size) :
    ∃ u events, o.user.run acts = .ok u ∧ Keeps o acts events u ∧
      (∀ at_ eventId,
        u.changePassword u.passwordHash at_ eventId =
            .failed (.invariantViolation "new password must differ from the current one") ∧
          o.user.run (acts ++ [.changePassword u.passwordHash at_ eventId]) = .ok u) ∧
      u.takeEvents = (u.pending, { u with history := { u.history with pending := [] } }) ∧
      restore u.toRecord = { u with history := .stored u.version } := by
  obtain ⟨u, hrun, hbecame, hversion⟩ := Origin.run_spec hroom
  have hevents : o.user.pending ++
      (recorded o.user.passwordHash acts).map (·.event o.user.id) =
        (o.books acts).map (·.event o.user.id) := by
    rw [Origin.pending_user, ← List.map_append]
    rfl
  refine ⟨u, (o.books acts).map (·.event o.user.id), hrun, ?_, fun at_ eventId => ?_, rfl, rfl⟩
  · refine ⟨?_, ?_, fun hnone => ?_, fun before after hacts hlast => ?_,
      hbecame.id, hbecame.email, hbecame.createdAt⟩
    · rw [List.forall₂_map_right_iff, List.forall₂_same]
      exact fun x _ => x.toldBy_event o.user.id
    · rw [List.length_map]
      exact hversion
    · have hpending := (hbecame.pending hnone).trans hevents
      have hcounted : u.version.toNat = o.version.toNat + u.pending.length := by
        rw [hpending, List.length_map]
        exact hversion
      exact ⟨hpending, History.persistedVersion_of_counted hcounted⟩
    · subst hacts
      obtain ⟨v, hv, hpending, hpersisted⟩ := pending_since_take hroom hrun hlast
      refine ⟨v, hv, ?_, hpersisted⟩
      rw [hpending, Origin.books_append, List.map_append,
        List.drop_left' (List.length_map _)]
      rfl
  · have hsame := changePassword_same u at_ eventId
    refine ⟨hsame, ?_⟩
    rw [run_append, hrun]
    show u.settled (u.changePassword u.passwordHash at_ eventId) >>= pure = _
    rw [hsame]
    rfl

/-! A user registers and logs in, and its events are taken. Then it asks for the password that it
has, which is refused, and for another. -/

def newcomerOrigin : Origin :=
  .registered ⟨.ofNat 1⟩ ⟨"ada@home"⟩ ⟨"hash"⟩ .epoch ⟨.ofNat 2⟩

def beforeTaking : List Act := [.login .epoch ⟨.ofNat 3⟩]

def afterTaking : List Act :=
  [.changePassword ⟨"hash"⟩ .epoch ⟨.ofNat 4⟩, .changePassword ⟨"other"⟩ .epoch ⟨.ofNat 5⟩]

theorem keeps_books_newcomer :
    ∃ u v, newcomerOrigin.user.run (beforeTaking ++ .take :: afterTaking) = .ok u ∧
      newcomerOrigin.user.run beforeTaking = .ok v ∧
      u.version.toNat = 3 ∧ u.pending.length = 1 ∧ u.persistedVersion = v.version := by
  have hroom : newcomerOrigin.version.toNat +
      (newcomerOrigin.books (beforeTaking ++ .take :: afterTaking)).length < UInt64.size := by
    decide
  have hlast : .take ∉ afterTaking := by simp [afterTaking]
  obtain ⟨u, events, hrun, hkeeps, -⟩ := keeps_books newcomerOrigin _ hroom
  have hlength : events.length = 3 := hkeeps.told.length_eq.symm
  obtain ⟨v, hv, hpending, hpersisted⟩ := hkeeps.sinceTaken _ _ rfl hlast
  refine ⟨u, v, hrun, hv, ?_, ?_, hpersisted⟩
  · rw [hkeeps.counted, hlength]
    rfl
  · rw [hpending, List.length_drop, hlength]
    rfl

/-- **Not every payload tells the time that was passed**: a registration in a leap second that does
not end a minute has one that reads back as the second after it. -/
theorem not_every_payload_tells_the_time :
    ¬ ∀ (id : UserId) (email : Email) (hash : PasswordHash) (at_ : Instant) (eventId : EventId),
      ∀ e ∈ (register id email hash at_ eventId).pending,
        e.decodePayload UserCreated.ofJson? = .ok ⟨id, email, at_⟩ := by
  intro h
  have hclaimed := h ⟨.ofNat 1⟩ ⟨"ada@home"⟩ ⟨"hash"⟩ .strayLeap ⟨.ofNat 2⟩ _ List.mem_cons_self
  have htold := (Line.toldBy_event ⟨.created ⟨"ada@home"⟩, .strayLeap, ⟨.ofNat 2⟩⟩
    ⟨.ofNat 1⟩).payload.2
  have hsame := UserCreated.mk.inj (Except.ok.inj (htold.symm.trans hclaimed))
  exact Instant.not_isCivil_strayLeap (Instant.asRead_eq_self_iff.1 hsame.2.2)

end User

end Registrar
