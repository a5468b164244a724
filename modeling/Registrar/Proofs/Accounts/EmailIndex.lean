import Registrar.Proofs.Accounts.Chronicle

set_option autoImplicit false

/-! # Addresses and users point at each other

The table of addresses is an index of the users: each entry names the user that has the address, and
each user has exactly the entry of its address (`email_index`). A registration adds to both tables
under guards that both keys are free; a change rewrites the record and leaves the index alone, which
is right because the record that it replaces had the same address. -/

namespace Registrar.Accounts

/-! ## The invariant -/

/-- **Entries of addresses and rows of users correspond.** -/
structure Indexed (ts : Tables) : Prop where
  address : ∀ e j, ts.row? emailsTable e = some j →
    ∃ r, j = .str r.id.text ∧ r.email.text = e ∧ recordAt ts r.id = some r
  user : ∀ id r, recordAt ts id = some r → ts.row? emailsTable r.email.text = some (.str id.text)

theorem indexed_empty : Indexed Store.empty.tables where
  address := fun e j h => by cases h
  user := fun id r h => by cases h

/-- Both tables are read as before. -/
theorem Indexed.of_same {before after : Tables} (h : Indexed before)
    (hemails : ∀ e, after.row? emailsTable e = before.row? emailsTable e)
    (hrecords : ∀ id, recordAt after id = recordAt before id) : Indexed after where
  address := fun e j hrow => by
    rw [hemails] at hrow
    obtain ⟨r, hj, he, hr⟩ := h.address e j hrow
    exact ⟨r, hj, he, by rw [hrecords]; exact hr⟩
  user := fun id r hr => by
    rw [hrecords] at hr
    rw [hemails]
    exact h.user id r hr

/-- A registration adds a user and its entry. -/
theorem Indexed.registered {before after : Tables} {u : User} {e : Event} {stamp : Outbox.Stamp}
    (h : Indexed before) (hcivil : u.toRecord.IsCivil) (hs : Stored .new u e stamp before after) :
    Indexed after := by
  have hrecords := recordAt_stored hcivil hs
  have hfree := recordAt_of_new hs rfl
  constructor
  · intro address j hrow
    rw [hs.row?_emails] at hrow
    by_cases ha : address = u.email.text
    · rw [if_pos ⟨rfl, ha⟩] at hrow
      exact ⟨u.toRecord, (Option.some.inj hrow).symm, ha.symm, by rw [hrecords]; exact if_pos rfl⟩
    · rw [if_neg fun hc => ha hc.2] at hrow
      obtain ⟨r, hj, he, hr⟩ := h.address address j hrow
      refine ⟨r, hj, he, ?_⟩
      -- An old entry names a user with a record; the new user had none.
      have hid : r.id ≠ u.id := fun hid => by
        rw [hid, hfree] at hr
        cases hr
      rw [hrecords, if_neg hid]
      exact hr
  · intro id r hr
    rw [hrecords] at hr
    by_cases hid : id = u.id
    · rw [if_pos hid] at hr
      obtain rfl := Option.some.inj hr
      rw [hid]
      exact hs.address rfl
    · rw [if_neg hid] at hr
      have hentry := h.user id r hr
      -- The new address had no entry, so no old user has it.
      have ha : r.email.text ≠ u.email.text := fun ha => by
        rw [ha, hs.address_free rfl] at hentry
        cases hentry
      rw [hs.row?_emails, if_neg fun hc => ha hc.2]
      exact hentry

/-- A change of a user keeps its address, so the index still fits. -/
theorem Indexed.changed {before after : Tables} {u : User} {e : Event} {stamp : Outbox.Stamp}
    {r : UserRecord} (h : Indexed before) (hcivil : u.toRecord.IsCivil)
    (hs : Stored .changed u e stamp before after) (hnext : Succeeds u r)
    (hr : recordAt before r.id = some r) : Indexed after := by
  have hrecords := recordAt_stored hcivil hs
  have hemails : ∀ address, after.row? emailsTable address = before.row? emailsTable address :=
    fun address => by rw [hs.row?_emails, if_neg fun hc => by cases hc.1]
  constructor
  · intro address j hrow
    rw [hemails] at hrow
    obtain ⟨r', hj, he, hr'⟩ := h.address address j hrow
    by_cases hid : r'.id = u.id
    · -- The entry of the changed user: the record was the loaded one.
      rw [hid, hnext.id, hr] at hr'
      obtain rfl := Option.some.inj hr'
      refine ⟨u.toRecord, by rw [hj, hid]; rfl, ?_, by rw [hrecords]; exact if_pos rfl⟩
      rw [← he, ← hnext.email]
      rfl
    · exact ⟨r', hj, he, by rw [hrecords, if_neg hid]; exact hr'⟩
  · intro id r' hr'
    rw [hrecords] at hr'
    rw [hemails]
    by_cases hid : id = u.id
    · rw [if_pos hid] at hr'
      obtain rfl := Option.some.inj hr'
      have hentry := h.user r.id r hr
      rw [← hnext.email, ← hnext.id] at hentry
      rw [hid]
      exact hentry
    · rw [if_neg hid] at hr'
      exact h.user id r' hr'

namespace Traffic

theorem indexed_moves {hasher : Hasher} {s s' : Traffic} (hrecorded : s.Recorded)
    (h : Indexed s.store.tables) (hm : Moves hasher s s') : Indexed s'.store.tables := by
  rcases hm.on_tables with ⟨htables, -⟩ | ⟨hdelivers, -⟩ |
    ⟨client, job, stamp, e, hjob, hdecided, hstored, -⟩
  · rw [htables]
    exact h
  · exact h.of_same (fun e => hdelivers.others emailsTable e (by decide))
      (recordAt_delivers hdelivers)
  · cases hmode : job.command.mode with
    | new =>
        rw [hmode] at hstored
        exact h.registered hdecided.civil.1 hstored
    | changed =>
        rw [hmode] at hstored
        obtain ⟨r, -, hnext, hr⟩ := hrecorded.loaded_at_commit hjob hmode hdecided hstored
        exact h.changed hdecided.civil.1 hstored hnext hr

theorem indexed_run {σ : Type} (hasher : Hasher) (actions : List (Action σ)) :
    (run hasher actions).Recorded ∧ Indexed (run hasher actions).store.tables :=
  (run_induction (P := fun s => s.Recorded ∧ Indexed s.store.tables) hasher
    ⟨recorded_start, indexed_empty⟩
    (fun _ _ _ h hm => ⟨h.1.moves hm, indexed_moves h.1 h.2 hm⟩) actions).2

end Traffic

/-! ## Finding users -/

theorem findById_eq_some_iff {s : Store} {u : User} :
    Repository.store.findById (.ok ()) u.id s = .ok (some u) ↔
      ∃ r, u = .restore r ∧ recordAt s.tables r.id = some r := by
  show userAt u.id.text s.tables = .ok (some u) ↔ _
  rw [userAt_eq_some_iff]
  constructor
  · rintro ⟨row, r, hrow, hread, rfl⟩
    exact ⟨r, rfl, Option.bind_eq_some_iff.2 ⟨row, hrow, hread⟩⟩
  · rintro ⟨r, rfl, hr⟩
    obtain ⟨row, hrow, hread⟩ := Option.bind_eq_some_iff.1 hr
    exact ⟨row, r, hrow, hread, rfl⟩

theorem findByEmail_eq_some_iff {s : Store} (h : Indexed s.tables) {e : Email} {u : User} :
    Repository.store.findByEmail (.ok ()) e s = .ok (some u) ↔
      Repository.store.findById (.ok ()) u.id s = .ok (some u) ∧ u.email = e := by
  rw [findById_eq_some_iff]
  show userWithEmail e s.tables = .ok (some u) ↔ _
  rw [userWithEmail_eq_some_iff]
  constructor
  · rintro ⟨key, hentry, hkey⟩
    obtain ⟨r, hstr, hemail, hr⟩ := h.address _ _ hentry
    obtain rfl : key = r.id.text := by simpa using hstr
    obtain ⟨row, r', hrow, hread, rfl⟩ := userAt_eq_some_iff.1 hkey
    rw [recordAt, hrow, Option.bind_some, hread] at hr
    obtain rfl := Option.some.inj hr
    refine ⟨⟨r', rfl, by rw [recordAt, hrow, Option.bind_some, hread]⟩, ?_⟩
    exact congrArg Email.mk hemail
  · rintro ⟨⟨r, rfl, hr⟩, rfl⟩
    refine ⟨r.id.text, h.user r.id r hr, ?_⟩
    obtain ⟨row, hrow, hread⟩ := Option.bind_eq_some_iff.1 hr
    exact userAt_eq_some_iff.2 ⟨row, r, hrow, hread, rfl⟩

/-- **Addresses index the users.** After any run each entry of an address names the user that has
it; each row of the users is a record under its own id, and the entry of its address is the only one
that names it. So no two users share an address, and finding by address and by id agree. -/
theorem Traffic.email_index {σ : Type} (hasher : Hasher) (actions : List (Action σ)) :
    let s := (run hasher actions).store
    (∀ e j, s.tables.row? emailsTable e = some j →
      ∃ r, j = .str r.id.text ∧ r.email.text = e ∧ recordAt s.tables r.id = some r) ∧
    (∀ k j, s.tables.row? usersTable k = some j → ∃ r, UserRecord.ofJson? j = some r ∧
      r.id.text = k ∧ ∀ e, s.tables.row? emailsTable e = some (.str k) ↔ e = r.email.text) ∧
    (∀ id id' r r', recordAt s.tables id = some r → recordAt s.tables id' = some r' →
      r.email = r'.email → id = id') ∧
    ∀ e u, Repository.store.findByEmail (.ok ()) e s = .ok (some u) ↔
      Repository.store.findById (.ok ()) u.id s = .ok (some u) ∧ u.email = e := by
  obtain ⟨hrecorded, hindexed⟩ := indexed_run hasher actions
  refine ⟨hindexed.address, ?_, ?_, fun e u => findByEmail_eq_some_iff hindexed⟩
  · intro k j hrow
    obtain ⟨r, hcivil, rfl, rfl⟩ := hrecorded.filed.find hrow
    have hr : recordAt (run hasher actions).store.tables r.id = some r :=
      (recordAt_eq_some_iff hrecorded.filed).2 ⟨hcivil, hrow, rfl⟩
    refine ⟨r, hcivil.ofJson?_canonical, rfl, fun e => ⟨fun hentry => ?_, ?_⟩⟩
    · obtain ⟨r', hstr, he, hr'⟩ := hindexed.address e _ hentry
      have hid : r.id = r'.id := Id.text_inj.1 (by simpa using hstr)
      rw [← hid, hr] at hr'
      rw [Option.some.inj hr', he]
    · rintro rfl
      exact hindexed.user r.id r hr
  · intro id id' r r' hr hr' hemail
    have hentry := hindexed.user id r hr
    rw [hemail, hindexed.user id' r' hr'] at hentry
    exact (Id.text_inj.1 (by simpa using hentry)).symm

end Registrar.Accounts
