import Mathlib.Data.List.Forall2
import Registrar.Proofs.Accounts.Persisting
import Registrar.Proofs.Outbox.Selection
import Registrar.Proofs.Store.Isolation

set_option autoImplicit false

/-! # Rows read back

The outbox and the users are stored as rows of JSON. Whoever reads such a row finds the value that
it was written for, with each of its times as its text says (`RowType.finds_of_holds`): the
transaction that staged it, everybody after the commit, whether they read the one row or the whole
table, change it in place or claim it. A value in civil time is found as it was written. Guards on
the version of a stored user see the version that the record has (`check_version_of_holds`).

Which rows are stored after a run is what its committed transactions tell: under each key the row
that was committed last (`Session.logged_run`). -/

namespace Registrar

open Outbox

/-! ## Types that are stored as rows -/

/-- How values of a type are written as rows, and what they are read as from what is stored. -/
structure RowType (α : Type) where
  write : α → Json
  read : Json → Option α
  asRead : α → α
  read_canonical : ∀ a, read (write a).canonical = some (asRead a)

def RowType.outbox : RowType Row := ⟨Row.toJson, Row.ofJson?, Row.asRead, Row.ofJson?_canonical⟩

def RowType.users : RowType UserRecord :=
  ⟨UserRecord.toJson, UserRecord.ofJson?, UserRecord.asRead, UserRecord.ofJson?_canonical⟩

namespace RowType

variable {α : Type} (ρ : RowType α)

/-- The row under the key is the one that is written for this value. -/
def Holds (ts : Tables) (t k : String) (a : α) : Prop := ts.row? t k = some (ρ.write a).canonical

/-- **Whoever looks finds this value**: reading the row, also inside a transaction that has staged
no other, reading the whole table, in which keys and values come in one order, or changing
the row. -/
structure Finds (ts : Tables) (t k : String) (a : α) : Prop where
  get : ts.get ρ.read t k = .ok (some a)
  inside : ∀ tx : Transaction, tx.staged? t k = none → tx.get ρ.read ts t k = .ok (some a)
  scan : ∀ values, ts.scan ρ.read t = .ok values →
    (k, a) ∈ ((ts.table t).entries.map (·.1)).zip values
  modify : ∀ (β ε : Type) (refused : StoreError → ε) (change : α → Except ε (β × α)),
    ts.modify ρ.read ρ.write refused t k change =
      (change a).map fun out => (some out.1, ts.set t k (ρ.write out.2).canonical)

end RowType

namespace Tables

/-- A scan reads row by row, in the order of the table. -/
theorem scan_succeeds_iff {α : Type} {read : Json → Option α} {ts : Tables} {t : String}
    {values : List α} :
    ts.scan read t = .ok values ↔
      List.Forall₂ (fun row a => read row = some a) (ts.table t).values values := by
  unfold scan
  generalize (ts.table t).values = rows
  induction rows generalizing values with
  | nil => simp [pure, Except.pure, eq_comm]
  | cons row rows ih =>
      rw [List.mapM_cons, bind_succeeds_iff, List.forall₂_cons_left_iff]
      refine exists_congr fun a => ?_
      rw [decode_succeeds_iff, bind_succeeds_iff]
      constructor
      · rintro ⟨hread, values', hrest, hpure⟩
        exact ⟨values', hread, ih.1 hrest, (pure_succeeds_iff.1 hpure).symm⟩
      · rintro ⟨values', hread, hrest, rfl⟩
        exact ⟨hread, values', ih.2 hrest, rfl⟩

/-- A table is scanned if all its rows decode. -/
theorem exists_scan {α : Type} {read : Json → Option α} {ts : Tables} {t : String}
    (h : ∀ k row, ts.row? t k = some row → ∃ a, read row = some a) :
    ∃ values, ts.scan read t = .ok values := by
  have hvalues : ∀ row ∈ (ts.table t).values, ∃ a, read row = some a := fun row hrow => by
    obtain ⟨k, hk⟩ := Keyed.mem_values_iff.1 hrow
    exact h k row hk
  obtain ⟨values, hall⟩ : ∃ values,
      List.Forall₂ (fun row a => read row = some a) (ts.table t).values values := by
    generalize (ts.table t).values = rows at hvalues
    induction rows with
    | nil => exact ⟨[], .nil⟩
    | cons row rows ih =>
        obtain ⟨a, ha⟩ := hvalues row List.mem_cons_self
        obtain ⟨values, hrest⟩ := ih fun row' hrow' => hvalues row' (List.mem_cons_of_mem _ hrow')
        exact ⟨a :: values, .cons ha hrest⟩
  exact ⟨values, scan_succeeds_iff.2 hall⟩

/-- What a scan answers beside a key is what is read from the row under it. -/
theorem mem_zip_of_scan {α : Type} {read : Json → Option α} {ts : Tables} {t k : String}
    {row : Json} {a : α} {values : List α} (hrow : ts.row? t k = some row)
    (hread : read row = some a) (hscan : ts.scan read t = .ok values) :
    (k, a) ∈ ((ts.table t).entries.map (·.1)).zip values := by
  have hentry : (k, row) ∈ (ts.table t).entries := Keyed.mem_entries_iff.2 hrow
  rw [scan_succeeds_iff, Keyed.values] at hscan
  generalize (ts.table t).entries = entries at hentry hscan
  induction entries generalizing values with
  | nil => cases hentry
  | cons e entries ih =>
      obtain ⟨b, values, hb, hrest, rfl⟩ := List.forall₂_cons_left_iff.1 hscan
      rw [List.map_cons, List.zip_cons_cons]
      rcases List.mem_cons.1 hentry with rfl | hentry
      · obtain rfl := Option.some.inj (hread.symm.trans hb)
        exact List.mem_cons_self
      · exact List.mem_cons_of_mem _ (ih hentry hrest)

end Tables

namespace RowType

variable {α : Type} {ρ : RowType α} {ts : Tables} {t k : String} {a : α}

/-- **What is written is found**, as it is read. -/
theorem finds_of_holds (h : ρ.Holds ts t k a) : ρ.Finds ts t k (ρ.asRead a) where
  get := Tables.get_succeeds_iff.2 ⟨_, h, ρ.read_canonical a⟩
  inside := fun tx hnone => by
    have hrow : tx.row? ts t k = some (ρ.write a).canonical := by
      rw [Transaction.row?, hnone]
      exact h
    simp only [Transaction.get, hrow, Tables.decode, ρ.read_canonical, Except.map]
  scan := fun _ hscan => Tables.mem_zip_of_scan h (ρ.read_canonical a) hscan
  modify := fun β ε refused change => by
    have hrow : ts.row? t k = some (ρ.write a).canonical := h
    have hdecode :
        (Tables.decode ρ.read (ρ.write a).canonical).mapError refused = .ok (ρ.asRead a) :=
      mapError_succeeds_iff.2 (Tables.decode_succeeds_iff.2 (ρ.read_canonical a))
    simp only [Tables.modify, hrow, hdecode]
    cases hchange : change (ρ.asRead a) with
    | error e => simp [hchange, bind, Except.bind, Except.map]
    | ok out => simp [hchange, bind, Except.bind, Except.map, pure, Except.pure]

/-- A row that is put back holds what was put. -/
theorem holds_set (ρ : RowType α) (ts : Tables) (t k : String) (a : α) :
    ρ.Holds (ts.set t k (ρ.write a).canonical) t k a := by
  rw [Holds, Tables.row?_set, if_pos ⟨rfl, rfl⟩]

end RowType

/-! ## What a run leaves -/

theorem Staging.lastRow?_append (t k : String) (cs ds : List Staging) :
    Staging.lastRow? t k (cs ++ ds) = (Staging.lastRow? t k ds).or (Staging.lastRow? t k cs) := by
  induction cs with
  | nil => simp [Staging.lastRow?]
  | cons c cs ih => rw [List.cons_append, Staging.lastRow?, ih, Staging.lastRow?, Option.or_assoc]

theorem Staging.exists_of_lastRow? {t k : String} {cs : List Staging} {row : Json}
    (h : Staging.lastRow? t k cs = some row) : ∃ c ∈ cs, c.table = t ∧ c.key = k ∧ c.row = row := by
  induction cs with
  | nil => cases h
  | cons c cs ih =>
      rw [Staging.lastRow?, Option.or_eq_some_iff] at h
      rcases h with h | ⟨-, h⟩
      · obtain ⟨c', hc', hplace⟩ := ih h
        exact ⟨c', List.mem_cons_of_mem _ hc', hplace⟩
      · by_cases hplace : c.table = t ∧ c.key = k
        · rw [if_pos hplace] at h
          exact ⟨c, List.mem_cons_self, hplace.1, hplace.2, Option.some.inj h⟩
        · rw [if_neg hplace] at h
          cases h

namespace Session

/-- Under each key there is the row that was committed last, and elsewhere what there was. -/
def Logged (before : Tables) (s : Session) : Prop :=
  ∀ t k, s.tables.row? t k =
    ((Staging.lastRow? t k s.committed.flatten).map Json.canonical).or (before.row? t k)

theorem Logged.moves {before : Tables} {s s' : Session} (h : Logged before s)
    (hfaithful : s.Faithful) (hm : Moves s s') : Logged before s' := by
  intro t k
  cases hm with
  | rested tables committed grown =>
      rw [tables, committed]
      exact h t k
  | committed client tx opened guards tables committed grown =>
      rw [tables, Transaction.row?_applyWrites, committed, List.flatten_append,
        List.flatten_singleton, Staging.lastRow?_append, Option.map_or, Option.or_assoc, ← h t k]
      exact hfaithful.row?_eq opened s.tables t k

theorem logged_run (store : Store) (calls : List Call) : Logged store.tables (run store calls) := by
  have hfrom : ∀ s : Session, s.Faithful → Logged store.tables s →
      Logged store.tables (calls.foldl step s) := by
    induction calls with
    | nil => exact fun s _ h => h
    | cons call calls ih =>
        intro s hf h
        have hm := step_moves s call
        exact ih _ (hf.moves hm) (h.moves hf hm)
  exact hfrom (start store) (fun client tx h => by cases h) fun t k => rfl

end Session

/-! ## Versions -/

section

variable {ts : Tables} {t k : String} {u : UserRecord} (h : RowType.users.Holds ts t k u)

include h

theorem versionOf_of_holds : versionOf "version" (ts.row? t k) = some u.version := by
  have hrow : ts.row? t k = some u.toJson.canonical := h
  rw [hrow, Accounts.versionOf_record]

/-- **A guard sees the version of the stored record.** -/
theorem check_version_of_holds (v : UInt64) :
    (Guard.version "version" v).check t k (ts.row? t k) =
      if v = u.version then .ok ()
      else .error (.versionMismatch t k "version" v (some u.version)) := by
  simp only [Guard.check, versionOf_of_holds h, Option.some.injEq, eq_comm]

end

/-! ## Claims -/

namespace Outbox

variable {ts : Tables}

/-- What is read in the place of a row is the row as it is read. -/
theorem rowAt_of_holds (h : Filed ts) {r : Row}
    (hrow : RowType.outbox.Holds ts tableName r.id.text r) : rowAt ts r.id = some r.asRead :=
  (rowAt_eq_some_iff h).2 ⟨r.isCivil_asRead, by rw [r.toJson_asRead]; exact hrow, rfl⟩

theorem holds_of_rowAt (h : Filed ts) {id : Uuid} {r : Row} (hrow : rowAt ts id = some r) :
    RowType.outbox.Holds ts tableName id.text r :=
  ((rowAt_eq_some_iff h).1 hrow).2.1

theorem finds_of_rowAt (h : Filed ts) {id : Uuid} {r : Row} (hrow : rowAt ts id = some r) :
    RowType.outbox.Finds ts tableName id.text r := by
  have hfinds := RowType.finds_of_holds (holds_of_rowAt h hrow)
  rwa [show RowType.outbox.asRead r = r from (isCivil_of_rowAt hrow).asRead_eq] at hfinds

/-- A claim with room for the whole table takes all that is claimable. -/
theorem mem_leased_of_room (h : Filed ts) {limit : Nat} {lease : Duration} {now : Reading}
    (hroom : (ts.table tableName).size ≤ limit) {r : Row} (hrow : rowAt ts r.id = some r)
    (hclaimable : r.isClaimable now = true) : r.claim now lease ∈ leased limit lease now ts := by
  have hlength : (queued (·.isClaimable now) ts).length ≤ limit :=
    Nat.le_trans (length_queued_le _ ts) hroom
  rw [leased_eq, List.take_of_length_le hlength]
  exact List.mem_map_of_mem (((queue_queued h _).mem r).2 ⟨hrow, hclaimable⟩)

/-- What is stored after a claim: the row under the lease if it was answered, else the row as it
was. -/
theorem rowAt_after_claim (h : Filed ts) (limit : Nat) (lease : Duration) (now : Reading) {r : Row}
    (hrow : rowAt ts r.id = some r) :
    rowAt (storeRows (leased limit lease now ts) ts) r.id =
      some (if r.claim now lease ∈ leased limit lease now ts then r.claim now lease else r) := by
  have hid : r.id ∈ (leased limit lease now ts).map (·.id) ↔
      r.claim now lease ∈ leased limit lease now ts := by
    refine ⟨fun hid => ?_, fun hmem => List.mem_map.2 ⟨_, hmem, rfl⟩⟩
    obtain ⟨r', hr', heq⟩ := List.mem_map.1 hid
    obtain ⟨r₀, hr₀, -, rfl⟩ := of_mem_leased h hr'
    rw [heq, hrow] at hr₀
    rwa [Option.some.inj hr₀]
  rw [rowAt_storeRows_leased h, hrow, Option.map_some, ← apply_ite some, if_congr hid rfl rfl]

end Outbox

/-! ## Runs that store rows -/

namespace Session

/-- **What a run has written is read back**, before the commit by the transaction that staged it,
and after it by everybody; a table is read whole if all its rows were written for values of the
type. -/
structure ReadsBack {α : Type} (ρ : RowType α) (s : Session) : Prop where
  staged : ∀ client tx t k a, s.transaction? client = some tx →
    Staging.lastRow? t k (s.accepted client) = some (ρ.write a) →
    tx.get ρ.read s.tables t k = .ok (some (ρ.asRead a))
  kept : ∀ t k a, Staging.lastRow? t k s.committed.flatten = some (ρ.write a) →
    ρ.Holds s.tables t k a
  found : ∀ t k a, ρ.Holds s.tables t k a → ρ.Finds s.tables t k (ρ.asRead a)
  whole : ∀ t, (∀ k row, s.tables.row? t k = some row → ∃ a, ρ.Holds s.tables t k a) →
    ∃ values, s.tables.scan ρ.read t = .ok values
  changed : ∀ t k a, ρ.Finds (s.tables.set t k (ρ.write a).canonical) t k (ρ.asRead a)

theorem readsBack_run {α : Type} (ρ : RowType α) (store : Store) (calls : List Call) :
    ReadsBack ρ (run store calls) where
  staged := fun client tx t k a hopen hlast => by
    rw [(invariants_run store calls).1.get_eq hopen, reading, hlast]
    simp only [Tables.decode, ρ.read_canonical, Except.map]
  kept := fun t k a hlast => by
    rw [RowType.Holds, logged_run store calls, hlast]
    rfl
  found := fun _ _ _ => RowType.finds_of_holds
  whole := fun t hall => Tables.exists_scan fun k row hrow => by
    obtain ⟨a, ha⟩ := hall k row hrow
    obtain rfl := Option.some.inj (hrow.symm.trans ha)
    exact ⟨_, ρ.read_canonical a⟩
  changed := fun t k a => RowType.finds_of_holds (ρ.holds_set _ t k a)

/-- Of the outbox only rows were committed, each under its id. -/
def Posted (s : Session) : Prop :=
  ∀ c ∈ s.committed.flatten, c.table = tableName → ∃ r : Row, c.key = r.id.text ∧ c.row = r.toJson

theorem filed_run {store : Store} {calls : List Call} (h : Filed store.tables)
    (hposted : (run store calls).Posted) : Filed (run store calls).tables := by
  intro k j hrow
  rw [logged_run store calls] at hrow
  cases hlast : Staging.lastRow? tableName k (run store calls).committed.flatten with
  | none =>
      rw [hlast] at hrow
      exact h k j hrow
  | some row =>
      obtain ⟨c, hc, htable, hkey, hc_row⟩ := Staging.exists_of_lastRow? hlast
      obtain ⟨r, hr, hwritten⟩ := hposted c hc htable
      rw [hlast] at hrow
      obtain rfl : row.canonical = j := Option.some.inj hrow
      exact ⟨r, by rw [← hwritten, hc_row], by rw [← hr, hkey]⟩

/-- **Rows are faithful**, but for a leap second in the middle of a minute. After any calls of any
clients, from any store: a row of the outbox and a stored user are found as they were written, each
of their times as its text says, by the transaction that staged them and, once committed, by
everybody; those in civil time, and no others, are found exactly as they were. A guard sees the
version of the stored user, so a commit that depends on a version alone goes through exactly if it
is that of the record.

If only rows of the outbox were put in the outbox, a claim succeeds; it answers rows as they are
found but for its lease, all that are claimable if it has room for them, and afterwards every row is
found as it was, or as the claim answered it. -/
theorem rows_read_back (store : Store) (calls : List Call) :
    let s := run store calls
    ReadsBack RowType.outbox s ∧ ReadsBack RowType.users s ∧
    (∀ r : Row, RowType.outbox.asRead r = r ↔ r.IsCivil) ∧
    (∀ u : UserRecord, RowType.users.asRead u = u ↔ u.IsCivil) ∧
    (∀ t k u, RowType.users.Holds s.tables t k u →
      versionOf "version" (s.tables.row? t k) = some u.version ∧
      (∀ v, (Guard.version "version" v).check t k (s.tables.row? t k) =
        if v = u.version then .ok ()
        else .error (.versionMismatch t k "version" v (some u.version))) ∧
      ∀ client tx row v, s.transaction? client = some tx →
        s.accepted client = [.putVersioned t k row "version" v] →
        ((tx.commit s.clients.store).1 = .ok () ↔
          s.clients.store.failNextCommit = false ∧ v = u.version)) ∧
    (Filed store.tables → s.Posted → ∀ limit lease (now : Reading), ∃ claimed after,
      claim limit lease now s.tables = .ok (claimed, after) ∧
      (∀ r' ∈ claimed, ∃ r, RowType.outbox.Holds s.tables tableName r.id.text r ∧
        r.asRead.isClaimable now = true ∧
        r' = { r.asRead with lockedUntil := some (now.add lease) }) ∧
      ∀ r, RowType.outbox.Holds s.tables tableName r.id.text r →
        let r' := { r.asRead with lockedUntil := some (now.add lease) }
        (r.asRead.isClaimable now = true → (s.tables.table tableName).size ≤ limit →
          r' ∈ claimed) ∧
        RowType.outbox.Finds after tableName r.id.text
          (if r' ∈ claimed then r' else r.asRead)) := by
  intro s
  have hfaithful := (invariants_run store calls).1
  refine ⟨readsBack_run _ store calls, readsBack_run _ store calls,
    fun r => Row.asRead_eq_self_iff, fun u => UserRecord.asRead_eq_self_iff, fun t k u hu => ?_,
    fun hstart hposted limit lease now => ?_⟩
  · refine ⟨versionOf_of_holds hu, check_version_of_holds hu,
      fun client tx row v hopen hcalls => ?_⟩
    rw [Transaction.commit_succeeds_iff, hfaithful.checkGuards_iff hopen, hcalls,
      List.forall_mem_singleton]
    show _ ∧ versionOf "version" (s.tables.row? t k) = some v ↔ _
    rw [versionOf_of_holds hu, Option.some.injEq, eq_comm (a := v)]
  · have hfiled : Filed s.tables := filed_run hstart hposted
    have hclaim := claim_of_filed hfiled limit lease now
    refine ⟨_, _, hclaim, fun r' hr' => ?_, fun r hrow => ⟨?_, ?_⟩⟩
    · obtain ⟨r, hr, hclaimable, rfl⟩ := of_mem_leased hfiled hr'
      have hread : r.asRead = r := (isCivil_of_rowAt hr).asRead_eq
      exact ⟨r, holds_of_rowAt hfiled hr, by rwa [hread], by rw [hread]; rfl⟩
    · exact fun hclaimable hroom =>
        mem_leased_of_room hfiled hroom (rowAt_of_holds hfiled hrow) hclaimable
    · have hafter := rowAt_after_claim (r := r.asRead) hfiled limit lease now
        (rowAt_of_holds hfiled hrow)
      exact finds_of_rowAt (claim_delivers hfiled hclaim).filed hafter

/-- A row with the largest count of attempts, tried last at the largest time. -/
def wornParcel : Row :=
  { parcel with attempts := 4294967295, lastError := some "", lastAttemptAt := some .last }

theorem isCivil_wornParcel : wornParcel.IsCivil :=
  have hparcel : parcel.IsCivil := Row.isCivil_pending _ _ _ _
  ⟨hparcel.createdAt, Instant.isCivil_of_mem_some (by decide), hparcel.sentAt, hparcel.lockedUntil⟩

/-- A record with the largest version. -/
def oldHand : UserRecord :=
  ⟨⟨⟨7⟩⟩, ⟨"ada@example.com"⟩, ⟨"hash"⟩, .last, none, some .epoch, 18446744073709551615⟩

/-- Both are committed together; then somebody writes the record anew, in place of that version. -/
def postings : List Call :=
  [.begin "a", .stage "a" (.insert tableName wornParcel.id.text wornParcel.toJson),
    .stage "a" (.put "users" "u7" oldHand.toJson), .commit "a", .begin "b",
    .stage "b" (.putVersioned "users" "u7" oldHand.toJson "version" 18446744073709551615)]

/-- The row is found and claimed; the one who expects the version of the record may commit. -/
theorem rows_read_back_postings :
    let s := run .empty postings
    RowType.outbox.Finds s.tables tableName wornParcel.id.text wornParcel ∧
    (∃ claimed after, claim 1 (.ofSeconds 30) .epoch s.tables = .ok (claimed, after) ∧
      { wornParcel with lockedUntil := some (Instant.epoch.add (.ofSeconds 30)) } ∈ claimed) ∧
    ∃ tx, s.transaction? "b" = some tx ∧ (tx.commit s.clients.store).1 = .ok () := by
  intro s
  obtain ⟨houtbox, husers, hexact, -, hversions, hclaims⟩ := rows_read_back .empty postings
  have hlogged : s.committed.flatten = [.insert tableName wornParcel.id.text wornParcel.toJson,
      .put "users" "u7" oldHand.toJson] := rfl
  have hparcel := houtbox.kept tableName wornParcel.id.text wornParcel (by rw [hlogged]; rfl)
  have huser := husers.kept "users" "u7" oldHand (by rw [hlogged]; rfl)
  have hposted : s.Posted := by
    rw [Posted, hlogged]
    rintro c hc htable
    rcases List.mem_pair.1 hc with rfl | rfl
    · exact ⟨wornParcel, rfl, rfl⟩
    · exact absurd htable (by decide)
  have hempty : Filed Store.empty.tables := fun k j h => by cases h
  obtain ⟨claimed, after, hclaim, -, hall⟩ := hclaims hempty hposted 1 (.ofSeconds 30) .epoch
  have hfound := houtbox.found _ _ _ hparcel
  rw [(hexact wornParcel).2 isCivil_wornParcel] at hfound
  have htaken := (hall wornParcel hparcel).1 (by decide) (by decide +kernel)
  rw [isCivil_wornParcel.asRead_eq] at htaken
  have hopened : (s.transaction? "b").isSome = true := by decide +kernel
  obtain ⟨tx, hopen⟩ := Option.isSome_iff_exists.1 hopened
  have hcommits := (hversions "users" "u7" oldHand huser).2.2 "b" tx _ _ hopen rfl
  exact ⟨hfound, ⟨claimed, after, hclaim, htaken⟩, tx, hopen,
    hcommits.2 ⟨rfl, rfl⟩⟩

/-- A row written in a leap second in the middle of a minute. -/
def strayParcel : Row := { parcel with createdAt := .strayLeap }

/-- **Not every row is found as it was written**: that one is committed, and found a
second later. -/
theorem not_every_row_found_as_written :
    ¬ ∀ (calls : List Call) (t k : String) (r : Row),
      Staging.lastRow? t k (run .empty calls).committed.flatten = some r.toJson →
      (run .empty calls).tables.get Row.ofJson? t k = .ok (some r) := by
  intro h
  let calls : List Call :=
    [.begin "a", .stage "a" (.insert tableName strayParcel.id.text strayParcel.toJson), .commit "a"]
  have hlast : Staging.lastRow? tableName strayParcel.id.text (run .empty calls).committed.flatten =
      some strayParcel.toJson := rfl
  have hreads := readsBack_run RowType.outbox .empty calls
  have hget := (hreads.found _ _ _ (hreads.kept _ _ _ hlast)).get
  have hread : some strayParcel.asRead = some strayParcel :=
    Except.ok.inj (hget.symm.trans (h calls _ _ strayParcel hlast))
  have hcivil := Row.asRead_eq_self_iff.1 (Option.some.inj hread)
  exact Instant.not_isCivil_strayLeap hcivil.createdAt

end Session

end Registrar
