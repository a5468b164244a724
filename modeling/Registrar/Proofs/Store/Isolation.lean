import Registrar.Proofs.Store.Transaction
import Registrar.Store.Clients

set_option autoImplicit false

/-! # Clients that share a store

Any number of clients have transactions open on one store, and their calls come in any order. A
client that stages rows works on its own: until it commits, everybody else reads what they would
read if it had done nothing (`foldl_step_alike`). Its own reading finds what it staged last, its
commit goes through exactly when every call that it made still holds (`commit_succeeds_iff`), and
then leaves the last row of each key (`row?_commit`). Since rows are never taken away, of all
transactions that inserted one key at most one is ever committed (`Sole`).

A run starts from any store. Its state keeps beside the clients which calls their open transactions
accepted, and the accepted calls of every transaction that was committed. Reading changes nothing,
so runs do not name it; what is read is said of every state. -/

namespace Registrar

/-! ## Calls that stage -/

/-- A call that is to stage a row. -/
inductive Staging where
  | insert (table key : String) (row : Json)
  | put (table key : String) (row : Json)
  | putVersioned (table key : String) (row : Json) (field : String) (expected : UInt64)

namespace Staging

def table : Staging → String
  | .insert t _ _ | .put t _ _ | .putVersioned t _ _ _ _ => t

def key : Staging → String
  | .insert _ k _ | .put _ k _ | .putVersioned _ k _ _ _ => k

def row : Staging → Json
  | .insert _ _ r | .put _ _ r | .putVersioned _ _ r _ _ => r

/-- What the call demands of the committed rows. -/
def Holds (ts : Tables) : Staging → Prop
  | .insert t k _ => ts.row? t k = none
  | .put .. => True
  | .putVersioned t k _ field expected => versionOf field (ts.row? t k) = some expected

/-- The call made on a transaction. -/
def run (ts : Tables) (tx : Transaction) : Staging → Except StoreError Transaction
  | .insert t k r => tx.insert ts t k r
  | .put t k r => .ok (tx.put t k r)
  | .putVersioned t k r field expected => tx.putVersioned ts t k r field expected

def guard : Staging → Guard
  | .insert .. => .absent
  | .put .. => .unguarded
  | .putVersioned _ _ _ field expected => .version field expected

def write (c : Staging) : Write := ⟨c.table, c.key, c.row.canonical, c.guard⟩

/-- The call inserts a row under this key. -/
def inserts (t k : String) : Staging → Bool
  | .insert t' k' _ => t' = t && k' = k
  | .put .. | .putVersioned .. => false

/-- The row that the last call on a key gave. -/
def lastRow? (t k : String) : List Staging → Option Json
  | [] => none
  | c :: cs => (lastRow? t k cs).or (if c.table = t ∧ c.key = k then some c.row else none)

/-- A call that is accepted stages its row behind those that are staged. -/
theorem writes_of_run {ts : Tables} {tx tx' : Transaction} {c : Staging}
    (h : c.run ts tx = .ok tx') : tx'.writes = tx.writes ++ [c.write] := by
  cases c with
  | insert t k r =>
      obtain ⟨-, rfl⟩ := Transaction.insert_eq_ok_iff.1 h
      rfl
  | put t k r =>
      obtain rfl := Except.ok.inj h
      rfl
  | putVersioned t k r field expected =>
      obtain ⟨-, rfl⟩ := Transaction.putVersioned_eq_ok_iff.1 h
      rfl

/-- The guard of a staged row is what its call demands. -/
theorem check_write_iff (ts : Tables) (c : Staging) :
    c.write.guard.check c.write.table c.write.key (ts.row? c.write.table c.write.key) = .ok () ↔
      c.Holds ts := by
  cases c with
  | insert t k r => exact Guard.check_absent_eq_ok_iff
  | put t k r => exact iff_of_true rfl trivial
  | putVersioned t k r field expected => exact Guard.check_version_eq_ok_iff

theorem staged?_writes (cs : List Staging) (t k : String) :
    (Transaction.mk (cs.map write)).staged? t k = (lastRow? t k cs).map Json.canonical := by
  unfold Transaction.staged?
  induction cs with
  | nil => rfl
  | cons c cs ih =>
      rw [List.map_cons, List.reverse_cons, List.find?_append, Option.map_or, ih, lastRow?,
        Option.map_or]
      congr 1
      by_cases h : c.table = t ∧ c.key = k
      · simp [write, h.1, h.2]
      · rw [if_neg h]
        simp only [not_and] at h
        simpa [write] using h

/-- A transaction of accepted calls sees the last row of each key, and elsewhere the
committed one. -/
theorem row?_writes (cs : List Staging) (ts : Tables) (t k : String) :
    (Transaction.mk (cs.map write)).row? ts t k =
      ((lastRow? t k cs).map Json.canonical).or (ts.row? t k) := by
  rw [Transaction.row?, staged?_writes, Option.orElse_eq_or]

theorem lastRow?_isSome_of_inserts {t k : String} {cs : List Staging} {c : Staging} (hc : c ∈ cs)
    (h : c.inserts t k = true) : (lastRow? t k cs).isSome = true := by
  have hplace : c.table = t ∧ c.key = k := by
    cases c with
    | insert t' k' r => simpa [inserts, table, key] using h
    | put t' k' r => cases h
    | putVersioned t' k' r field expected => cases h
  induction cs with
  | nil => cases hc
  | cons c' cs ih =>
      rw [lastRow?, Option.isSome_or, Bool.or_eq_true]
      rcases List.mem_cons.1 hc with rfl | hc
      · exact .inr (by rw [if_pos hplace]; rfl)
      · exact .inl (ih hc)

/-- What an insertion demands is that there is no row. -/
theorem row?_of_inserts {ts : Tables} {t k : String} {c : Staging} (h : c.inserts t k = true)
    (hc : c.Holds ts) : ts.row? t k = none := by
  cases c with
  | insert t' k' r =>
      obtain ⟨rfl, rfl⟩ : t' = t ∧ k' = k := by simpa [inserts] using h
      exact hc
  | put t' k' r => cases h
  | putVersioned t' k' r field expected => cases h

end Staging

/-! ## Runs -/

/-- A call of a client, or a failure that is to befall the next commit. -/
inductive Call where
  | begin (client : String)
  | stage (client : String) (staging : Staging)
  | commit (client : String)
  | rollback (client : String)
  | failNextCommit

/-- Who calls. -/
def Call.client? : Call → Option String
  | .begin client | .stage client _ | .commit client | .rollback client => some client
  | .failNextCommit => none

structure Session where
  clients : Clients
  /-- The calls that a client's open transaction accepted, oldest first. -/
  accepted : String → List Staging
  /-- The accepted calls of the transactions that were committed. -/
  committed : List (List Staging)

namespace Session

def start (store : Store) : Session := ⟨⟨store, .empty⟩, fun _ => [], []⟩

def tables (s : Session) : Tables := s.clients.store.tables

/-- The open transaction of a client. -/
def transaction? (s : Session) (client : String) : Option Transaction :=
  s.clients.transactions.get? client

/-- What a client's transaction has accepted from now on. -/
def accept (s : Session) (client : String) (calls : List Staging) : Session :=
  { s with accepted := fun c => if c = client then calls else s.accepted c }

def stage (s : Session) (client : String) (staging : Staging) : Session :=
  match s.clients.edit (fun ts tx => match staging.run ts tx with
      | .ok tx => (true, tx)
      | .error _ => (false, tx)) client with
  | (some true, clients) => { s with clients }.accept client (s.accepted client ++ [staging])
  | (_, clients) => { s with clients }

def commit (s : Session) (client : String) : Session :=
  match s.clients.finish Transaction.commit client with
  | (some (.ok ()), clients) => { s with clients, committed := s.committed ++ [s.accepted client] }
  | (_, clients) => { s with clients }

def step (s : Session) : Call → Session
  | .begin client => { s with clients := s.clients.begin client }.accept client []
  | .stage client staging => s.stage client staging
  | .commit client => s.commit client
  | .rollback client => { s with clients := (s.clients.finish Transaction.rollback client).2 }
  | .failNextCommit =>
      { s with clients := (s.clients.onStore fun store => ((), store.injectCommitFailure)).2 }

/-- The state after some calls. -/
def run (store : Store) (calls : List Call) : Session := calls.foldl step (start store)

/-! ## What a call can do -/

/-- Open transactions are new, or have accepted some calls more. -/
def Grown (s s' : Session) : Prop :=
  ∀ client tx, s'.transaction? client = some tx →
    (tx = .empty ∧ s'.accepted client = []) ∨
    ∃ tx₀ more, s.transaction? client = some tx₀ ∧
      tx.writes = tx₀.writes ++ more.map Staging.write ∧
      s'.accepted client = s.accepted client ++ more

/-- A call changes no row, or it commits an open transaction under guards that all hold. -/
inductive Moves (s s' : Session) : Prop where
  | rested (tables : s'.tables = s.tables) (committed : s'.committed = s.committed)
      (grown : Grown s s')
  | committed (client : String) (tx : Transaction) (opened : s.transaction? client = some tx)
      (guards : Transaction.checkGuards s.tables tx.writes = .ok ())
      (tables : s'.tables = Transaction.applyWrites s.tables tx.writes)
      (committed : s'.committed = s.committed ++ [s.accepted client]) (grown : Grown s s')

theorem Grown.of_subset {s s' : Session} (haccepted : s'.accepted = s.accepted)
    (h : ∀ client tx, s'.transaction? client = some tx → s.transaction? client = some tx) :
    Grown s s' := by
  intro client tx hopen
  exact .inr ⟨tx, [], h client tx hopen, by simp, by simp [haccepted]⟩

/-- A client that finishes has no transaction any more; the others keep theirs. -/
theorem finish_eq_some {α : Type} {f : Transaction → Store → α × Store} {c : Clients}
    {client : String} {tx : Transaction} (h : c.transactions.get? client = some tx) :
    c.finish f client =
      (some (f tx c.store).1, ⟨(f tx c.store).2, c.transactions.erase client⟩) := by
  simp only [Clients.finish, h]

theorem finish_eq_none {α : Type} {f : Transaction → Store → α × Store} {c : Clients}
    {client : String} (h : c.transactions.get? client = none) : c.finish f client = (none, c) := by
  simp only [Clients.finish, h]

theorem begin_moves (s : Session) (client : String) : Moves s (s.step (.begin client)) := by
  refine .rested rfl rfl fun c tx hopen => ?_
  have hget : (s.clients.transactions.insert client .empty).get? c = some tx := hopen
  rw [Keyed.get?_insert] at hget
  by_cases hc : c = client
  · rw [if_pos hc] at hget
    exact .inl ⟨(Option.some.inj hget).symm, if_pos hc⟩
  · rw [if_neg hc] at hget
    exact .inr ⟨tx, [], hget, by simp, by simp [step, accept, hc]⟩

theorem stage_moves (s : Session) (client : String) (staging : Staging) :
    Moves s (s.stage client staging) := by
  unfold stage Clients.edit
  cases hopen : s.clients.transactions.get? client with
  | none => exact .rested rfl rfl (.of_subset rfl fun _ _ h => h)
  | some tx₀ =>
      simp only
      cases hrun : staging.run s.clients.store.tables tx₀ with
      | error e =>
          -- The transaction is put back as it was.
          refine .rested rfl rfl (.of_subset rfl fun c tx h => ?_)
          have hget : (s.clients.transactions.insert client tx₀).get? c = some tx := h
          rw [Keyed.get?_insert] at hget
          by_cases hc : c = client
          · rw [if_pos hc] at hget
            rw [hc, ← hget]
            exact hopen
          · rwa [if_neg hc] at hget
      | ok tx₁ =>
          refine .rested rfl rfl fun c tx h => ?_
          have hget : (s.clients.transactions.insert client tx₁).get? c = some tx := h
          rw [Keyed.get?_insert] at hget
          by_cases hc : c = client
          · rw [if_pos hc] at hget
            obtain rfl := Option.some.inj hget
            refine .inr ⟨tx₀, [staging], by rw [hc]; exact hopen, Staging.writes_of_run hrun, ?_⟩
            simp [accept, hc]
          · rw [if_neg hc] at hget
            exact .inr ⟨tx, [], hget, by simp, by simp [accept, hc]⟩

/-- Whatever a client finished, the others keep what they have. -/
theorem Grown.of_erase {s s' : Session} {client : String} (haccepted : s'.accepted = s.accepted)
    (h : s'.clients.transactions = s.clients.transactions.erase client) : Grown s s' := by
  refine .of_subset haccepted fun c tx hopen => ?_
  rw [transaction?, h, Keyed.get?_erase] at hopen
  by_cases hc : c = client
  · rw [if_pos hc] at hopen
    cases hopen
  · rwa [if_neg hc] at hopen

theorem commit_moves (s : Session) (client : String) : Moves s (s.commit client) := by
  unfold commit
  cases hopen : s.clients.transactions.get? client with
  | none =>
      rw [finish_eq_none hopen]
      exact .rested rfl rfl (.of_subset rfl fun _ _ h => h)
  | some tx =>
      rw [finish_eq_some hopen]
      rcases tx.commit_cases s.clients.store with
        ⟨e, store, hcommit, htables⟩ | ⟨store, hcommit, hguards, htables⟩
      · rw [hcommit]
        exact .rested htables rfl (.of_erase rfl rfl)
      · rw [hcommit]
        exact .committed client tx hopen hguards htables rfl (.of_erase rfl rfl)

theorem step_moves (s : Session) (call : Call) : Moves s (s.step call) := by
  cases call with
  | begin client => exact begin_moves s client
  | stage client staging => exact stage_moves s client staging
  | commit client => exact commit_moves s client
  | rollback client =>
      cases hopen : s.clients.transactions.get? client with
      | none =>
          simp only [step, finish_eq_none hopen]
          exact .rested rfl rfl (.of_subset rfl fun _ _ h => h)
      | some tx =>
          simp only [step, finish_eq_some hopen]
          exact .rested rfl rfl (.of_erase rfl rfl)
  | failNextCommit => exact .rested rfl rfl (.of_subset rfl fun _ _ h => h)

/-! ## Invariants -/

/-- An open transaction has staged what its client's calls gave, in their order. -/
def Faithful (s : Session) : Prop :=
  ∀ client tx, s.transaction? client = some tx →
    tx.writes = (s.accepted client).map Staging.write

/-- The committed transactions that inserted a row under a key. -/
def inserters (s : Session) (t k : String) : List (List Staging) :=
  s.committed.filter fun calls => calls.any (·.inserts t k)

/-- **A key has at most one inserter**, and none while there is no row under it. -/
def Sole (s : Session) : Prop :=
  ∀ t k, (s.inserters t k).length ≤ 1 ∧ (s.tables.row? t k = none → s.inserters t k = [])

theorem Faithful.moves {s s' : Session} (h : s.Faithful) (hm : Moves s s') : s'.Faithful := by
  have hgrown : Grown s s' := by
    cases hm with
    | rested tables committed grown => exact grown
    | committed client tx opened guards tables committed grown => exact grown
  intro client tx hopen
  rcases hgrown client tx hopen with ⟨rfl, hnone⟩ | ⟨tx₀, more, hopen₀, hwrites, haccepted⟩
  · rw [hnone]
    rfl
  · rw [hwrites, haccepted, List.map_append, h client tx₀ hopen₀]

/-- The guards of an open transaction are what its calls demand. -/
theorem Faithful.checkGuards_iff {s : Session} (h : s.Faithful) {client : String} {tx : Transaction}
    (hopen : s.transaction? client = some tx) (ts : Tables) :
    Transaction.checkGuards ts tx.writes = .ok () ↔ ∀ c ∈ s.accepted client, c.Holds ts := by
  rw [Transaction.checkGuards_eq_ok_iff, h client tx hopen, List.forall_mem_map]
  exact forall₂_congr fun c _ => Staging.check_write_iff ts c

/-- What an open transaction sees. -/
theorem Faithful.row?_eq {s : Session} (h : s.Faithful) {client : String} {tx : Transaction}
    (hopen : s.transaction? client = some tx) (ts : Tables) (t k : String) :
    tx.row? ts t k =
      ((Staging.lastRow? t k (s.accepted client)).map Json.canonical).or (ts.row? t k) := by
  rw [← Staging.row?_writes, ← h client tx hopen]

theorem Sole.moves {s s' : Session} (hfaithful : s.Faithful) (h : s.Sole) (hm : Moves s s') :
    s'.Sole := by
  cases hm with
  | rested tables committed grown =>
      intro t k
      rw [tables, inserters, committed]
      exact h t k
  | committed client tx opened guards tables committed grown =>
      have hholds := (hfaithful.checkGuards_iff opened _).1 guards
      have hrow : ∀ t k, s'.tables.row? t k =
          ((Staging.lastRow? t k (s.accepted client)).map Json.canonical).or
            (s.tables.row? t k) := by
        intro t k
        rw [tables, Transaction.row?_applyWrites]
        exact hfaithful.row?_eq opened s.tables t k
      intro t k
      have hlist : s'.inserters t k = s.inserters t k ++
          if (s.accepted client).any (·.inserts t k) then [s.accepted client] else [] := by
        rw [inserters, committed, List.filter_append, List.filter_cons, List.filter_nil]
        rfl
      cases hany : (s.accepted client).any (·.inserts t k) with
      | true =>
          obtain ⟨c, hc, hinserts⟩ := List.any_eq_true.1 hany
          -- The insertion went through, so there was no row before, and now there is one.
          have hbefore := (h t k).2 (Staging.row?_of_inserts hinserts (hholds c hc))
          have hafter := Staging.lastRow?_isSome_of_inserts hc hinserts
          rw [hlist, hbefore, hany, hrow]
          refine ⟨by simp, fun hnone => ?_⟩
          rw [Option.or_eq_none_iff, Option.map_eq_none_iff] at hnone
          rw [hnone.1] at hafter
          cases hafter
      | false =>
          rw [hlist, hany, hrow]
          simp only [Bool.false_eq_true, if_false, List.append_nil]
          refine ⟨(h t k).1, fun hnone => (h t k).2 (Option.or_eq_none_iff.1 hnone).2⟩

theorem invariants_run (store : Store) (calls : List Call) :
    (run store calls).Faithful ∧ (run store calls).Sole := by
  -- The induction is on the calls, from any state that a run can pass through.
  have hfrom : ∀ s : Session, s.Faithful → s.Sole →
      (calls.foldl step s).Faithful ∧ (calls.foldl step s).Sole := by
    induction calls with
    | nil => exact fun s hf hs => ⟨hf, hs⟩
    | cons call calls ih =>
        intro s hf hs
        have hm := step_moves s call
        exact ih _ (hf.moves hm) (hs.moves hf hm)
  exact hfrom (start store) (fun client tx h => by cases h) fun t k => ⟨by simp [inserters, start],
    fun _ => rfl⟩

/-! ## Nobody else notices -/

/-- Alike for everybody but one client: the same rows are committed, and the others have the same
open transactions. -/
structure Alike (client : String) (s s' : Session) : Prop where
  tables : s.tables = s'.tables
  failing : s.clients.store.failNextCommit = s'.clients.store.failNextCommit
  transactions : ∀ other, other ≠ client → s.transaction? other = s'.transaction? other

theorem clients_stage (s : Session) (client : String) (staging : Staging) :
    (s.stage client staging).clients = (s.clients.edit (fun ts tx => match staging.run ts tx with
      | .ok tx => (true, tx)
      | .error _ => (false, tx)) client).2 := by
  unfold stage
  split
  · next h => rw [h]; rfl
  · next h => rw [h]

theorem clients_commit (s : Session) (client : String) :
    (s.commit client).clients = (s.clients.finish Transaction.commit client).2 := by
  unfold commit
  split
  · next h => rw [h]
  · next h => rw [h]

/-- Writing down a transaction of its own makes no difference to the others. -/
theorem Alike.of_insert {s s' : Session} {client : String} {tx : Transaction}
    (hstore : s'.clients.store = s.clients.store)
    (h : s'.clients.transactions = s.clients.transactions.insert client tx) :
    Alike client s' s where
  tables := congrArg Store.tables hstore
  failing := congrArg Store.failNextCommit hstore
  transactions := fun other hne => by
    rw [transaction?, h, Keyed.get?_insert, if_neg hne]
    rfl

theorem Alike.refl (client : String) (s : Session) : Alike client s s := ⟨rfl, rfl, fun _ _ => rfl⟩

theorem Alike.trans {client : String} {a b c : Session} (hab : Alike client a b)
    (hbc : Alike client b c) : Alike client a c :=
  ⟨hab.tables.trans hbc.tables, hab.failing.trans hbc.failing,
    fun other hne => (hab.transactions other hne).trans (hbc.transactions other hne)⟩

/-- **What a client does short of committing, nobody else notices.** -/
theorem alike_of_own_call {s : Session} {client : String} {call : Call}
    (hown : call.client? = some client) (hcall : call ≠ .commit client) :
    Alike client (s.step call) s := by
  cases call with
  | begin c =>
      obtain rfl := Option.some.inj hown
      exact .of_insert rfl rfl
  | stage c staging =>
      obtain rfl := Option.some.inj hown
      have hclients := clients_stage s c staging
      unfold Clients.edit at hclients
      cases hopen : s.clients.transactions.get? c with
      | none =>
          rw [hopen] at hclients
          exact ⟨congrArg (·.store.tables) hclients, congrArg (·.store.failNextCommit) hclients,
            fun other _ => congrArg (·.transactions.get? other) hclients⟩
      | some tx =>
          rw [hopen] at hclients
          exact .of_insert (congrArg (·.store) hclients) (congrArg (·.transactions) hclients)
  | commit c =>
      obtain rfl := Option.some.inj hown
      exact absurd rfl hcall
  | rollback c =>
      obtain rfl := Option.some.inj hown
      cases hopen : s.clients.transactions.get? c with
      | none =>
          simp only [step, finish_eq_none hopen]
          exact .refl c s
      | some tx =>
          simp only [step, finish_eq_some hopen]
          refine ⟨rfl, rfl, fun other hne => ?_⟩
          rw [transaction?, Keyed.get?_erase, if_neg hne]
          rfl
  | failNextCommit => cases hown

/-- A commit depends on the rows and on whether it is to fail. -/
theorem commit_alike (tx : Transaction) {s s' : Store} (htables : s.tables = s'.tables)
    (hfailing : s.failNextCommit = s'.failNextCommit) :
    (tx.commit s).2.tables = (tx.commit s').2.tables ∧
      (tx.commit s).2.failNextCommit = (tx.commit s').2.failNextCommit := by
  unfold Transaction.commit
  rw [hfailing, htables]
  split
  · exact ⟨rfl, rfl⟩
  · split
    · exact ⟨rfl, rfl⟩
    · exact ⟨htables, hfailing⟩

theorem Alike.finish {s s' : Session} {client other : String}
    {f : Transaction → Store → Except TransactionError Unit × Store} (h : Alike client s s')
    (hne : other ≠ client)
    (hf : ∀ tx, (f tx s.clients.store).2.tables = (f tx s'.clients.store).2.tables ∧
      (f tx s.clients.store).2.failNextCommit = (f tx s'.clients.store).2.failNextCommit)
    {t t' : Session} (ht : t.clients = (s.clients.finish f other).2)
    (ht' : t'.clients = (s'.clients.finish f other).2) : Alike client t t' := by
  have hsame : s.clients.transactions.get? other = s'.clients.transactions.get? other :=
    h.transactions other hne
  cases hopen : s.clients.transactions.get? other with
  | none =>
      rw [finish_eq_none hopen] at ht
      rw [finish_eq_none (hsame.symm.trans hopen)] at ht'
      refine ⟨?_, ?_, fun o ho => ?_⟩
      · rw [Session.tables, Session.tables, ht, ht']
        exact h.tables
      · rw [ht, ht']
        exact h.failing
      · rw [transaction?, transaction?, ht, ht']
        exact h.transactions o ho
  | some tx =>
      rw [finish_eq_some hopen] at ht
      rw [finish_eq_some (hsame.symm.trans hopen)] at ht'
      refine ⟨?_, ?_, fun o ho => ?_⟩
      · rw [Session.tables, Session.tables, ht, ht']
        exact (hf tx).1
      · rw [ht, ht']
        exact (hf tx).2
      · rw [transaction?, transaction?, ht, ht', Keyed.get?_erase, Keyed.get?_erase]
        split
        · rfl
        · exact h.transactions o ho

/-- What is alike to the others stays alike when they call. -/
theorem Alike.step {s s' : Session} {client : String} (h : Alike client s s') {call : Call}
    (hother : call.client? ≠ some client) : Alike client (s.step call) (s'.step call) := by
  cases call with
  | begin c =>
      refine ⟨h.tables, h.failing, fun o ho => ?_⟩
      show (s.clients.transactions.insert c .empty).get? o =
        (s'.clients.transactions.insert c .empty).get? o
      rw [Keyed.get?_insert, Keyed.get?_insert]
      split
      · rfl
      · exact h.transactions o ho
  | stage c staging =>
      have hne : c ≠ client := fun heq => hother (congrArg some heq)
      have hsame : s.clients.transactions.get? c = s'.clients.transactions.get? c :=
        h.transactions c hne
      have htables : s.clients.store.tables = s'.clients.store.tables := h.tables
      have hclients := clients_stage s c staging
      have hclients' := clients_stage s' c staging
      unfold Clients.edit at hclients hclients'
      rw [← hsame, ← htables] at hclients'
      show Alike client (s.stage c staging) (s'.stage c staging)
      cases hopen : s.clients.transactions.get? c with
      | none =>
          rw [hopen] at hclients hclients'
          refine ⟨?_, ?_, fun o ho => ?_⟩
          · rw [Session.tables, Session.tables, hclients, hclients']
            exact htables
          · rw [hclients, hclients']
            exact h.failing
          · rw [transaction?, transaction?, hclients, hclients']
            exact h.transactions o ho
      | some tx =>
          rw [hopen] at hclients hclients'
          refine ⟨?_, ?_, fun o ho => ?_⟩
          · rw [Session.tables, Session.tables, hclients, hclients']
            exact htables
          · rw [hclients, hclients']
            exact h.failing
          · rw [transaction?, transaction?, hclients, hclients', Keyed.get?_insert,
              Keyed.get?_insert]
            split
            · rfl
            · exact h.transactions o ho
  | commit c =>
      have hne : c ≠ client := fun heq => hother (congrArg some heq)
      exact h.finish hne (fun tx => commit_alike tx h.tables h.failing) (clients_commit s c)
        (clients_commit s' c)
  | rollback c =>
      have hne : c ≠ client := fun heq => hother (congrArg some heq)
      exact h.finish hne (fun tx => ⟨h.tables, h.failing⟩) rfl rfl
  | failNextCommit => exact ⟨h.tables, rfl, h.transactions⟩

/-- **Until a client commits, the others are where they would be without it.** -/
theorem foldl_step_alike {client : String} {calls : List Call} (hcalls : .commit client ∉ calls)
    {s s' : Session} (h : Alike client s s') :
    Alike client (calls.foldl step s)
      ((calls.filter (·.client? ≠ some client)).foldl step s') := by
  induction calls generalizing s s' with
  | nil => exact h
  | cons call calls ih =>
      have hcall : call ≠ .commit client := fun heq => hcalls (heq ▸ List.mem_cons_self)
      have hrest : .commit client ∉ calls := fun hmem => hcalls (List.mem_cons_of_mem _ hmem)
      by_cases hown : call.client? = some client
      · rw [List.filter_cons, if_neg (by simp [hown])]
        exact ih hrest ((alike_of_own_call hown hcall).trans h)
      · rw [List.filter_cons, if_pos (by simp [hown])]
        exact ih hrest (h.step hown)

/-! ## Isolation -/

/-- What a transaction with these accepted calls finds when it reads: what its last call on the key
gave, else what is committed. -/
def reading {α : Type} (read : Json → Option α) (calls : List Staging) (ts : Tables)
    (t k : String) : Except StoreError (Option α) :=
  match Staging.lastRow? t k calls with
  | some row => (Tables.decode read row.canonical).map some
  | none => ts.get read t k

theorem Faithful.get_eq {s : Session} (h : s.Faithful) {client : String} {tx : Transaction}
    (hopen : s.transaction? client = some tx) {α : Type} (read : Json → Option α) (t k : String) :
    tx.get read s.tables t k = reading read (s.accepted client) s.tables t k := by
  unfold Transaction.get reading
  rw [h.row?_eq hopen]
  cases Staging.lastRow? t k (s.accepted client) with
  | none => rfl
  | some row => rfl

/-- **Transactions are isolated, and their commits atomic.** After any calls of any clients, from
any store: without the calls that a client made since it last committed, everybody else would find
the same rows and have the same transactions. An open transaction reads what it staged last, else
what is committed. Its commit succeeds exactly if all that its calls demand holds of the committed
rows and it is not made to fail; it then leaves the last row of each key that it staged and all
others as they were, and changes none if it fails, nor does giving it up. No two transactions that
inserted one key are both committed. -/
theorem isolated_and_atomic (store : Store) (calls : List Call) :
    (∀ client before since, calls = before ++ since → .commit client ∉ since →
      Alike client (run store calls)
        (run store (before ++ since.filter (·.client? ≠ some client)))) ∧
    (∀ client tx, (run store calls).transaction? client = some tx →
      let s := run store calls
      let staged := s.accepted client
      let after := (tx.commit s.clients.store).2.tables
      (∀ (α : Type) (read : Json → Option α) (t k : String),
        tx.get read s.tables t k = reading read staged s.tables t k) ∧
      ((tx.commit s.clients.store).1 = .ok () ↔
        s.clients.store.failNextCommit = false ∧ ∀ c ∈ staged, c.Holds s.tables) ∧
      ((tx.commit s.clients.store).1 = .ok () → ∀ t k, after.row? t k =
        ((Staging.lastRow? t k staged).map Json.canonical).or (s.tables.row? t k)) ∧
      ((tx.commit s.clients.store).1 ≠ .ok () → after = s.tables) ∧
      (tx.rollback s.clients.store).2.tables = s.tables) ∧
    ∀ t k, ((run store calls).inserters t k).length ≤ 1 := by
  obtain ⟨hfaithful, hsole⟩ := invariants_run store calls
  refine ⟨?_, ?_, fun t k => (hsole t k).1⟩
  · intro client before since hcalls hsince
    have halike := foldl_step_alike hsince (.refl client (run store before))
    rw [hcalls]
    unfold run at halike ⊢
    rw [List.foldl_append, List.foldl_append]
    exact halike
  · intro client tx hopen s staged after
    refine ⟨fun α read t k => hfaithful.get_eq hopen read t k, ?_, ?_, ?_, rfl⟩
    · rw [Transaction.commit_succeeds_iff]
      exact and_congr_right fun _ => hfaithful.checkGuards_iff hopen s.tables
    · intro hcommit t k
      exact (Transaction.row?_commit hcommit t k).trans (hfaithful.row?_eq hopen s.tables t k)
    · intro hrefused
      exact Transaction.tables_of_commit_refused hrefused

/-- Two clients insert one key, and both insertions are accepted; one of them commits. -/
def insertionRace : List Call :=
  [.begin "a", .begin "b", .stage "a" (.insert "users" "u1" (.str "ada")),
    .stage "b" (.insert "users" "u1" (.str "eve")), .stage "b" (.put "users" "u1" (.str "eva")),
    .commit "a"]

/-- The client that did not commit reads its own row, is refused, and was never noticed. -/
theorem isolated_and_atomic_race :
    let s := run .empty insertionRace
    Alike "b" s (run .empty (insertionRace.filter (·.client? ≠ some "b"))) ∧
    ∃ tx, s.transaction? "b" = some tx ∧
      tx.get Json.asString? s.tables "users" "u1" = .ok (some "eva") ∧
      (tx.commit s.clients.store).1 ≠ .ok () ∧
      (tx.commit s.clients.store).2.tables = s.tables := by
  intro s
  have h := isolated_and_atomic .empty insertionRace
  refine ⟨h.1 "b" [] insertionRace rfl (by simp [insertionRace]), ?_⟩
  have hopened : (s.transaction? "b").isSome = true := by decide +kernel
  obtain ⟨tx, hopen⟩ := Option.isSome_iff_exists.1 hopened
  obtain ⟨hget, hcommit, -, hrefused, -⟩ := h.2.1 "b" tx hopen
  have hread :
      reading Json.asString? (s.accepted "b") s.tables "users" "u1" = .ok (some "eva") := by
    decide +kernel
  have hfree : (s.tables.row? "users" "u1").isNone = false := by decide +kernel
  have hmem : .insert "users" "u1" (.str "eve") ∈ s.accepted "b" := .head _
  have hfails : (tx.commit s.clients.store).1 ≠ .ok () := by
    intro hok
    have hholds := (hcommit.1 hok).2 _ hmem
    rw [Option.isNone_iff_eq_none.2 hholds] at hfree
    cases hfree
  exact ⟨tx, hopen, (hget String Json.asString? "users" "u1").trans hread, hfails, hrefused hfails⟩

end Session

end Registrar
