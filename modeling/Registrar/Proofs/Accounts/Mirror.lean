import Registrar.Proofs.Accounts.EmailIndex
import Registrar.Proofs.Accounts.Ledger
import Registrar.Proofs.Accounts.Persisting

set_option autoImplicit false

/-! # A store that mirrors the ledger

Each account of the ledger is the record of a user whose stored hash is that of the account's
password, and each record has an account (`Mirrors`). So identifiers and addresses are looked up
alike on both sides (`Mirrors.byId`, `Mirrors.byEmail`), and a user that was stored is entered in
the ledger under its address (`Mirrors.stored`). -/

namespace Registrar

/-! ## Assumptions -/

/-- **A hasher that tells passwords apart**: a password fits exactly the hash that it is hashed to,
and no two passwords are hashed alike. Passwords that cannot be hashed fit nothing. -/
structure Hasher.Faithful (hasher : Hasher) : Prop where
  verify : ∀ password h, hasher.verify password h = true ↔ hasher.hash password = .returned h
  distinct : ∀ p q h, hasher.hash p = .returned h → hasher.hash q = .returned h → p = q

namespace Accounts

/-- **Among the first draws no identifier is drawn twice.** There are only so many identifiers, so
this cannot be asked of all draws. -/
structure Fresh (supply : Nat → Draws) (count : Nat) : Prop where
  users : ∀ m < count, ∀ n < count, (supply m).userId = (supply n).userId → m = n
  rows : ∀ m < count, ∀ n < count, ((supply m).stamps 0).id = ((supply n).stamps 0).id → m = n

theorem verify_iff {hasher : Hasher} (hf : hasher.Faithful) {current : String} {h : PasswordHash}
    (hcurrent : hasher.hash current = .returned h) (password : String) :
    hasher.verify password h = true ↔ password = current := by
  rw [hf.verify]
  constructor
  · exact fun hpassword => hf.distinct password current h hpassword hcurrent
  · rintro rfl
    exact hcurrent

/-! ## The mirror -/

/-- The account of a stored user, given its password. -/
def Account.ofRecord (r : UserRecord) (password : String) : Account :=
  ⟨r.id, password, r.version.toNat, r.createdAt, r.lastLoginAt, r.passwordChangedAt⟩

/-- An account of the ledger and the record of its user. -/
structure Account.StoredAs (hasher : Hasher) (address : String) (a : Account) (r : UserRecord) :
    Prop where
  address : r.email.text = address
  hashed : hasher.hash a.password = .returned r.passwordHash
  same : a = .ofRecord r a.password

/-- **A store mirrors the accounts of a ledger** after some commands were served. -/
structure Mirrors (hasher : Hasher) (supply : Nat → Draws) (accounts : Keyed Account) (served : Nat)
    (s : Store) : Prop where
  filed : UsersFiled s.tables
  indexed : Indexed s.tables
  writable : s.failNextCommit = false
  account : ∀ address a, accounts.get? address = some a →
    ∃ r, recordAt s.tables a.id = some r ∧ a.StoredAs hasher address r
  record : ∀ id r, recordAt s.tables id = some r →
    ∃ a, accounts.get? r.email.text = some a ∧ a.id = id
  users : ∀ id r, recordAt s.tables id = some r → ∃ n < served, (supply n).userId = id
  rows : ∀ k j, s.tables.row? Outbox.tableName k = some j →
    ∃ n < served, ((supply n).stamps 0).id.text = k

theorem Account.StoredAs.id {hasher : Hasher} {address : String} {a : Account} {r : UserRecord}
    (h : a.StoredAs hasher address r) : a.id = r.id := by
  rw [h.same]
  rfl

theorem Account.StoredAs.view {hasher : Hasher} {address : String} {a : Account} {r : UserRecord}
    (h : a.StoredAs hasher address r) : (User.restore r).view = a.view address := by
  rw [h.same, ← h.address]
  simp [User.view, User.restore, History.stored, Account.view, Account.ofRecord]

/-- Users are found by their records. -/
theorem userAt_eq_recordAt {ts : Tables} (h : UsersFiled ts) (id : UserId) :
    userAt id.text ts = .ok ((recordAt ts id).map User.restore) := by
  unfold userAt recordAt Tables.get
  cases hrow : ts.row? usersTable id.text with
  | none => rfl
  | some j =>
      obtain ⟨r, rfl, -⟩ := h _ j hrow
      simp [Tables.decode, Except.map, Except.mapError]

theorem recordAt_eq_none_iff {ts : Tables} (h : UsersFiled ts) {id : UserId} :
    recordAt ts id = none ↔ ts.row? usersTable id.text = none := by
  unfold recordAt
  cases hrow : ts.row? usersTable id.text with
  | none => simp
  | some j =>
      obtain ⟨r, rfl, -⟩ := h _ j hrow
      simp

namespace Mirrors

variable {hasher : Hasher} {supply : Nat → Draws} {accounts : Keyed Account} {served : Nat}
  {s : Store}

theorem empty : Mirrors hasher supply Keyed.empty 0 .empty where
  filed := fun k j h => by cases h
  indexed := indexed_empty
  writable := rfl
  account := fun address a h => by cases h
  record := fun id r h => by cases h
  users := fun id r h => by cases h
  rows := fun k j h => by cases h

/-! ### Look-ups -/

/-- The ledger and the store look an identifier up alike. -/
theorem byId (h : Mirrors hasher supply accounts served s) (id : UserId) :
    (Ledger.withId? accounts id = none ∧
      Repository.store.findById (.ok ()) id s = .ok none) ∨
    ∃ address a r, Ledger.withId? accounts id = some (address, a) ∧
      accounts.get? address = some a ∧ a.StoredAs hasher address r ∧
      recordAt s.tables id = some r ∧
      Repository.store.findById (.ok ()) id s = .ok (some (.restore r)) := by
  have hfind : Repository.store.findById (.ok ()) id s =
      .ok ((recordAt s.tables id).map User.restore) := userAt_eq_recordAt h.filed id
  cases hlookup : Ledger.withId? accounts id with
  | none =>
      refine .inl ⟨rfl, ?_⟩
      have hnone : recordAt s.tables id = none := by
        rw [Option.eq_none_iff_forall_ne_some]
        intro r hr
        -- A record has an account, which the look-up would have found.
        obtain ⟨a, hget, rfl⟩ := h.record id r hr
        have hmiss := List.find?_eq_none.1 hlookup _ (Keyed.mem_entries_iff.2 hget)
        simp at hmiss
      rw [hfind, hnone]
      rfl
  | some entry =>
      obtain ⟨address, a⟩ := entry
      have hget : accounts.get? address = some a :=
        Keyed.mem_entries_iff.1 (List.mem_of_find?_eq_some hlookup)
      obtain rfl : a.id = id := by simpa using List.find?_some hlookup
      obtain ⟨r, hr, hstored⟩ := h.account address a hget
      exact .inr ⟨address, a, r, rfl, hget, hstored, hr, by rw [hfind, hr]; rfl⟩

/-- The ledger and the store look an address up alike. -/
theorem byEmail (h : Mirrors hasher supply accounts served s) (email : Email) :
    (accounts.get? email.text = none ∧ s.tables.row? emailsTable email.text = none ∧
      Repository.store.findByEmail (.ok ()) email s = .ok none) ∨
    ∃ a r, accounts.get? email.text = some a ∧
      s.tables.row? emailsTable email.text = some (.str a.id.text) ∧
      a.StoredAs hasher email.text r ∧ recordAt s.tables a.id = some r ∧
      Repository.store.findByEmail (.ok ()) email s = .ok (some (.restore r)) := by
  have hfind : Repository.store.findByEmail (.ok ()) email s = userWithEmail email s.tables := rfl
  rw [hfind]
  unfold userWithEmail Tables.get
  cases hlookup : accounts.get? email.text with
  | none =>
      have hrow : s.tables.row? emailsTable email.text = none := by
        rw [Option.eq_none_iff_forall_ne_some]
        intro j hj
        -- An entry of the index leads to a user, who would have an account.
        obtain ⟨r, -, hemail, hr⟩ := h.indexed.address _ j hj
        obtain ⟨a, hget, -⟩ := h.record r.id r hr
        rw [hemail, hlookup] at hget
        cases hget
      rw [hrow]
      exact .inl ⟨rfl, rfl, rfl⟩
  | some a =>
      obtain ⟨r, hr, hstored⟩ := h.account _ a hlookup
      have hrow : s.tables.row? emailsTable email.text = some (.str a.id.text) := by
        rw [← hstored.address]
        exact h.indexed.user a.id r hr
      rw [hrow]
      refine .inr ⟨a, r, rfl, rfl, hstored, hr, ?_⟩
      show userAt a.id.text s.tables = _
      rw [userAt_eq_recordAt h.filed, hr]
      rfl

/-! ### Moving on -/

/-- A command that stored nothing was served all the same. -/
theorem refused (h : Mirrors hasher supply accounts served s) {s' : Store}
    (htables : s'.tables = s.tables) (hwritable : s'.failNextCommit = s.failNextCommit) :
    Mirrors hasher supply accounts (served + 1) s' where
  filed := by rw [htables]; exact h.filed
  indexed := by rw [htables]; exact h.indexed
  writable := by rw [hwritable]; exact h.writable
  account := by rw [htables]; exact h.account
  record := by rw [htables]; exact h.record
  users := fun id r hr => by
    rw [htables] at hr
    obtain ⟨n, hn, hid⟩ := h.users id r hr
    exact ⟨n, Nat.lt_succ_of_lt hn, hid⟩
  rows := fun k j hj => by
    rw [htables] at hj
    obtain ⟨n, hn, hk⟩ := h.rows k j hj
    exact ⟨n, Nat.lt_succ_of_lt hn, hk⟩

/-- The row of the next event is free. -/
theorem row_free (h : Mirrors hasher supply accounts served s) {count : Nat}
    (hfresh : Fresh supply count) (hserved : served < count) :
    s.tables.row? Outbox.tableName ((supply served).stamps 0).id.text = none := by
  rw [Option.eq_none_iff_forall_ne_some]
  intro j hj
  obtain ⟨n, hn, hk⟩ := h.rows _ j hj
  have hsame := hfresh.rows n (Nat.lt_trans hn hserved) served hserved (Uuid.text_inj.1 hk)
  omega

/-- Nobody has the next identifier. -/
theorem user_free (h : Mirrors hasher supply accounts served s) {count : Nat}
    (hfresh : Fresh supply count) (hserved : served < count) :
    recordAt s.tables (supply served).userId = none := by
  rw [Option.eq_none_iff_forall_ne_some]
  intro r hr
  obtain ⟨n, hn, hid⟩ := h.users _ r hr
  have hsame := hfresh.users n (Nat.lt_trans hn hserved) served hserved hid
  omega

/-- **A user that was stored is entered under its address.** Whoever had the identifier or the
address before is the same user. -/
theorem stored (h : Mirrors hasher supply accounts served s) {s' : Store} {mode : Storing}
    {u : User} {e : Event} {a : Account} (hcivil : u.toRecord.IsCivil)
    (hs : Stored mode u e ((supply served).stamps 0) s.tables s'.tables)
    (hindexed : Indexed s'.tables) (hwritable : s'.failNextCommit = false)
    (ha : a.StoredAs hasher u.email.text u.toRecord)
    (hid : ∃ n < served + 1, (supply n).userId = u.id)
    (hrecord : ∀ r, recordAt s.tables u.id = some r → r.email = u.email)
    (hentry : ∀ old, accounts.get? u.email.text = some old → old.id = u.id) :
    Mirrors hasher supply (accounts.insert u.email.text a) (served + 1) s' := by
  have hrecords := recordAt_stored hcivil hs
  have hself : a.id = u.id := ha.id
  refine ⟨Traffic.usersFiled_stored h.filed hs, hindexed, hwritable, ?_, ?_, ?_, ?_⟩
  · intro address b hget
    rw [Keyed.get?_insert] at hget
    rw [hrecords]
    by_cases haddress : address = u.email.text
    · rw [if_pos haddress] at hget
      obtain rfl := Option.some.inj hget
      rw [if_pos hself, haddress]
      exact ⟨_, rfl, ha⟩
    · rw [if_neg haddress] at hget
      obtain ⟨r, hr, hb⟩ := h.account address b hget
      have hother : b.id ≠ u.id := fun hsame => by
        rw [hsame] at hr
        exact haddress (hb.address ▸ congrArg Email.text (hrecord r hr))
      rw [if_neg hother]
      exact ⟨r, hr, hb⟩
  · intro id r hr
    rw [hrecords] at hr
    by_cases hsame : id = u.id
    · rw [if_pos hsame] at hr
      obtain rfl := Option.some.inj hr
      refine ⟨a, ?_, hself.trans hsame.symm⟩
      rw [Keyed.get?_insert]
      exact if_pos rfl
    · rw [if_neg hsame] at hr
      obtain ⟨b, hget, hb⟩ := h.record id r hr
      have haddress : r.email.text ≠ u.email.text := fun heq => by
        rw [heq] at hget
        exact hsame (hb.symm.trans (hentry b hget))
      exact ⟨b, by rw [Keyed.get?_insert, if_neg haddress]; exact hget, hb⟩
  · intro id r hr
    rw [hrecords] at hr
    by_cases hsame : id = u.id
    · rw [hsame]
      exact hid
    · rw [if_neg hsame] at hr
      obtain ⟨n, hn, hdrawn⟩ := h.users id r hr
      exact ⟨n, Nat.lt_succ_of_lt hn, hdrawn⟩
  · intro k j hj
    rw [hs.row?_outbox] at hj
    by_cases hk : k = ((supply served).stamps 0).id.text
    · exact ⟨served, Nat.lt_succ_self _, hk.symm⟩
    · rw [if_neg hk] at hj
      obtain ⟨n, hn, hdrawn⟩ := h.rows k j hj
      exact ⟨n, Nat.lt_succ_of_lt hn, hdrawn⟩

/-- A registration that was stored opens an account. -/
theorem registered (h : Mirrors hasher supply accounts served s) {s' : Store} {u : User} {e : Event}
    {a : Account} (hcivil : u.toRecord.IsCivil)
    (hs : Stored .new u e ((supply served).stamps 0) s.tables s'.tables)
    (hwritable : s'.failNextCommit = false) (ha : a.StoredAs hasher u.email.text u.toRecord)
    (hid : (supply served).userId = u.id) :
    Mirrors hasher supply (accounts.insert u.email.text a) (served + 1) s' := by
  refine h.stored hcivil hs (h.indexed.registered hcivil hs) hwritable ha
    ⟨served, Nat.lt_succ_self _, hid⟩ ?_ ?_
  · intro r hr
    rw [recordAt_of_new hs rfl] at hr
    cases hr
  · intro old hold
    -- Somebody with the address would be in the index.
    obtain ⟨r, hr, hstored⟩ := h.account _ old hold
    have hrow := h.indexed.user old.id r hr
    rw [hstored.address, hs.address_free rfl] at hrow
    cases hrow

/-- A change that was stored is entered in the account that it is about. -/
theorem changed (h : Mirrors hasher supply accounts served s) {s' : Store} {u : User} {e : Event}
    {address : String} {a b : Account} {r : UserRecord} (hcivil : u.toRecord.IsCivil)
    (hs : Stored .changed u e ((supply served).stamps 0) s.tables s'.tables)
    (hwritable : s'.failNextCommit = false) (hget : accounts.get? address = some a)
    (ha : a.StoredAs hasher address r) (hr : recordAt s.tables a.id = some r)
    (hsucceeds : Succeeds u r) (hb : b.StoredAs hasher address u.toRecord) :
    Mirrors hasher supply (accounts.insert address b) (served + 1) s' := by
  have hsame : a.id = u.id := by rw [ha.id, hsucceeds.id]
  obtain rfl : u.email.text = address := hb.address
  refine h.stored hcivil hs (h.indexed.changed hcivil hs hsucceeds (ha.id ▸ hr)) hwritable hb
    ?_ ?_ ?_
  · obtain ⟨n, hn, hdrawn⟩ := h.users a.id r hr
    exact ⟨n, Nat.lt_succ_of_lt hn, hdrawn.trans hsame⟩
  · intro r' hr'
    rw [← hsame, hr] at hr'
    rw [← Option.some.inj hr']
    exact hsucceeds.email.symm
  · intro old hold
    rw [hget] at hold
    rw [← Option.some.inj hold]
    exact hsame

end Mirrors

end Accounts

end Registrar
