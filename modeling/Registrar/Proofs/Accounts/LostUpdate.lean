import Registrar.Proofs.Accounts.Chronicle

set_option autoImplicit false

/-! # No update is lost

A change of a user commits only over the very record that its client loaded, and leaves a greater
version (`no_lost_update`). So of all clients that loaded a user at one version, at most one gets
its change through: two commits from the same version would be two places of that version in the
user's chronicle. Neither part needs identifiers to be fresh: a registration under a taken one is
refused, and a version that cannot be counted on is never stored. -/

namespace Registrar.Accounts

/-- The client of this commit had loaded the user at a version. -/
def Entry.loadedAt (id : UserId) (v : UInt64) (entry : Entry) : Bool :=
  entry.job.found.any fun old => old.id = id ∧ old.version = v

theorem Chronicle.version_of_loadedAt {entries : List Entry} {r : UserRecord}
    (h : Chronicle entries r) {id : UserId} {v : UInt64} {entry : Entry} (hmem : entry ∈ entries)
    (hloaded : entry.loadedAt id v = true) :
    entry.job.user.id = id ∧ entry.job.user.version.toNat = v.toNat + 1 := by
  rw [Entry.loadedAt, Option.any_eq_true] at hloaded
  obtain ⟨old, hfound, hold⟩ := hloaded
  obtain ⟨hid, hversion⟩ := of_decide_eq_true hold
  obtain ⟨hsame, hnext⟩ := h.found_version entry hmem old hfound
  exact ⟨by rw [← hsame, hid], by rw [hnext, hversion]⟩

/-- No two commits of a chronicle come from one version. -/
theorem Chronicle.length_loadedAt_le {entries : List Entry} {r : UserRecord}
    (h : Chronicle entries r) (id : UserId) (v : UInt64) :
    (entries.filter (·.loadedAt id v)).length ≤ 1 := by
  -- Each of them left the version after the loaded one, and no version is left twice.
  have hsame : (entries.filter (·.loadedAt id v)).map (·.job.user.version.toNat) =
      List.replicate (entries.filter (·.loadedAt id v)).length (v.toNat + 1) := by
    rw [List.eq_replicate_iff, List.length_map]
    refine ⟨rfl, fun n hn => ?_⟩
    obtain ⟨entry, hentry, rfl⟩ := List.mem_map.1 hn
    obtain ⟨hmem, hloaded⟩ := List.mem_filter.1 hentry
    exact (h.version_of_loadedAt hmem hloaded).2
  have hnodup : ((entries.filter (·.loadedAt id v)).map (·.job.user.version.toNat)).Nodup := by
    have hall : (entries.map (·.job.user.version.toNat)).Nodup := by
      rw [h.versions]
      exact List.nodup_range'
    exact hall.sublist (List.filter_sublist.map _)
  rw [hsame] at hnodup
  exact List.nodup_replicate.1 hnodup

namespace Traffic

/-- The commits from one version of a user are among those about the user. -/
theorem Recorded.filter_loadedAt {s : Traffic} (h : s.Recorded) (id : UserId) (v : UInt64) :
    s.log.filter (·.loadedAt id v) = (s.history id).filter (·.loadedAt id v) := by
  rw [history, List.filter_filter]
  refine List.filter_congr fun entry hmem => ?_
  obtain ⟨r, -, hchronicle, hhistory⟩ := h.chronicle_of_mem hmem
  cases hloaded : entry.loadedAt id v with
  | false => rfl
  | true => simp [(hchronicle.version_of_loadedAt hhistory hloaded).1]

/-- A change that goes through replaces the record that was loaded. -/
theorem Recorded.finish_changed {s : Traffic} (horderly : s.Orderly) (h : s.Recorded)
    {client : Nat} {job : Job} {stamp : Outbox.Stamp} {result : Except AccountError Unit}
    {tx : Transaction} (hphase : s.phase client = .staged job stamp result tx)
    (hmode : job.command.mode = .changed)
    (hcommit : (UnitOfWork.settle AccountError.ofTransaction result tx s.store).1 = .ok ()) :
    ∃ r, job.found = some (.restore r) ∧ Succeeds job.user r ∧
      s.store.tables.row? usersTable r.id.text = some r.toJson.canonical ∧
      (s.finish client).store.tables.row? usersTable r.id.text =
        some job.user.toRecord.toJson.canonical := by
  obtain ⟨e, he, hplan⟩ := horderly.plan_of_staged hphase
  rcases settle_plan hplan AccountError.ofTransaction s.store with
    ⟨err, store, hsettle, -⟩ | ⟨store, hsettle, -, hstored⟩
  · rw [hsettle] at hcommit
    cases hcommit
  · rw [hmode] at hstored
    obtain ⟨r, hfound, hnext, hr⟩ := h.loaded_at_commit (by rw [hphase]; rfl) hmode he hstored
    refine ⟨r, hfound, hnext, ((recordAt_eq_some_iff h.filed).1 hr).2.1, ?_⟩
    have hfinish : (s.finish client).store = store := by simp only [finish, hphase, hsettle]
    rw [hfinish, ← hnext.id, hstored.user]

/-- **No lost update.** After any run, a change that commits replaces exactly the record that its
client loaded, by one of a greater version; and among all commits of the run at most one came from
each version of each user. -/
theorem no_lost_update {σ : Type} (hasher : Hasher) (actions : List (Action σ)) :
    let s := run hasher actions
    (∀ client job stamp result tx, s.phase client = .staged job stamp result tx →
      job.command.mode = .changed →
      (UnitOfWork.settle AccountError.ofTransaction result tx s.store).1 = .ok () →
      ∃ old, job.found = some old ∧ job.user.id = old.id ∧
        s.store.tables.row? usersTable old.id.text = some old.toRecord.toJson.canonical ∧
        (s.finish client).store.tables.row? usersTable old.id.text =
          some job.user.toRecord.toJson.canonical ∧
        old.version < job.user.version) ∧
    ∀ id v, (s.log.filter (·.loadedAt id v)).length ≤ 1 := by
  obtain ⟨horderly, hrecorded⟩ :=
    run_induction hasher recorded_start (fun _ _ _ h hm => h.moves hm) actions
  constructor
  · intro client job stamp result tx hphase hmode hcommit
    obtain ⟨r, hfound, hnext, hbefore, hafter⟩ :=
      hrecorded.finish_changed horderly hphase hmode hcommit
    refine ⟨.restore r, hfound, hnext.id, hbefore, hafter, ?_⟩
    have hversion : (User.restore r).version.toNat < job.user.version.toNat := by
      rw [hnext.next]
      exact Nat.lt_succ_self _
    exact UInt64.lt_iff_toNat_lt.2 hversion
  · intro id v
    rw [hrecorded.filter_loadedAt]
    cases hr : recordAt (run hasher actions).store.tables id with
    | none => simp [hrecorded.unknown id hr]
    | some r => exact (hrecorded.known id r hr).length_loadedAt_le id v

/-- Whether a client has staged a change that would go through now. -/
def changeReady (s : Traffic) (client : Nat) : Bool :=
  match s.phase client with
  | .staged job _ result tx => job.command.mode = .changed ∧
      (UnitOfWork.settle AccountError.ofTransaction result tx s.store).1.isOk
  | .away | .decided _ => false

/-- The second client of the race commits first, over the record that both had loaded. -/
theorem no_lost_update_race :
    let s := run plainHasher (race.take 7)
    ∃ job stamp result tx old, s.phase 2 = .staged job stamp result tx ∧ job.found = some old ∧
      s.store.tables.row? usersTable old.id.text = some old.toRecord.toJson.canonical ∧
      (s.finish 2).store.tables.row? usersTable old.id.text =
        some job.user.toRecord.toJson.canonical ∧
      old.version < job.user.version := by
  have hready : (run plainHasher (race.take 7)).changeReady 2 = true := by decide +kernel
  unfold changeReady at hready
  cases hphase : (run plainHasher (race.take 7)).phase 2 with
  | away => simp [hphase] at hready
  | decided job => simp [hphase] at hready
  | staged job stamp result tx =>
      rw [hphase] at hready
      obtain ⟨hmode, hok⟩ := of_decide_eq_true hready
      have hcommit : (UnitOfWork.settle AccountError.ofTransaction result tx
          (run plainHasher (race.take 7)).store).1 = .ok () := by
        cases hsettle : (UnitOfWork.settle AccountError.ofTransaction result tx
            (run plainHasher (race.take 7)).store).1 with
        | error e => simp [hsettle, Except.isOk, Except.toBool] at hok
        | ok _ => rfl
      obtain ⟨old, hfound, -, hbefore, hafter, hversion⟩ :=
        (no_lost_update plainHasher (race.take 7)).1 2 job stamp result tx hphase hmode hcommit
      exact ⟨job, stamp, result, tx, old, hphase, hfound, hbefore, hafter, hversion⟩

/-- Both clients had loaded version 1; one got through. -/
example : ((run plainHasher race).log.filter (·.loadedAt ada 1)).map (·.job.command.eventName) =
    [UserPasswordChanged.eventName] := by decide +kernel

end Traffic

end Registrar.Accounts
