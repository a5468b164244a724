import Registrar.Outbox.Writer
import Registrar.Proofs.Codec.Event
import Registrar.Proofs.Outbox.Passes

set_option autoImplicit false

/-! # Delivery

Units of work write events into the outbox and commit, passes of any processors deliver them, and
rows that were given up are requeued, all step by step in any order (`Office`). What the handlers do
is theirs; between two steps the world may have become any other.

The argument has one invariant (`Sound`): the outbox holds exactly the rows of the committed
postings, each as it was written, and whatever a pass still has to do with was written so too. Since
a row decodes to the event that was posted, with the time that its text says, handlers are called
with that event (`Sound.advance`); only a pass whose delivery called all of them successfully marks
a row as sent (`Sound.becomes_sent`); and a row that is sent is in no later pass (`PassedBy`). -/

namespace Registrar.Outbox

variable {σ : Type}

/-! ## Postings -/

/-- An event that a writer was given, and the stamp of its row. -/
structure Posting where
  stamp : Stamp
  event : Event

namespace Posting

def id (p : Posting) : Uuid := p.stamp.id

/-- The row as it is written. -/
def row (p : Posting) : Row := .pending p.stamp.id p.stamp.now p.event p.event.serialize

theorem isCivil_row (p : Posting) : p.row.IsCivil := Row.isCivil_pending ..

def write (p : Posting) : Write := ⟨tableName, p.id.text, p.row.toJson.canonical, .absent⟩

/-- Events and their stamps, the first with stamp number `n`. -/
def ofEvents (stamps : Nat → Stamp) (n : Nat) : List Event → List Posting
  | [] => []
  | e :: es => ⟨stamps n, e⟩ :: ofEvents stamps (n + 1) es

theorem length_ofEvents (stamps : Nat → Stamp) (events : List Event) :
    ∀ n, (ofEvents stamps n events).length = events.length := by
  induction events with
  | nil => exact fun n => rfl
  | cons e events ih => exact fun n => congrArg (· + 1) (ih (n + 1))

end Posting

/-- An open unit of work: its transaction, and the postings that it staged. -/
structure Draft where
  tx : Transaction
  staged : List Posting

/-- A row that a pass delivered, and the calls of handlers that this made. -/
structure Delivered (σ : Type) where
  pass : Nat
  row : Row
  calls : List (Heard σ)

/-! ## The office -/

/-- The store and the world; the open units of work and the passes, ended ones too; and the
histories of the postings that were committed and of the deliveries. -/
structure Office (σ : Type) where
  site : Site Store σ
  drafts : Nat → Option Draft
  passes : List (Pass σ)
  posted : List Posting
  deliveries : List (Delivered σ)

/-- What can happen. A call of a writer names what the context answers and the stamps of the new
rows; a pass names its processor by its parts. -/
inductive Action (σ : Type) where
  | open (unit : Nat)
  | write (unit : Nat) (watch : Watch) (stamps : Nat → Stamp) (events : List Event)
  | commit (unit : Nat)
  | rollback (unit : Nat)
  | failNextCommit
  | start (dispatcher : Dispatcher σ) (measured : Bool) (config : ProcessorConfig) (c : Context)
      (conditions : Conditions)
  | advance (pass : Nat)
  | requeue (context : Except ContextError Unit) (id : Uuid)
  | elsewhere (world : World σ)

namespace Office

def begin (world : World σ) : Office σ := ⟨⟨.empty, world⟩, fun _ => none, [], [], []⟩

def store (s : Office σ) : Store := s.site.store

def tables (s : Office σ) : Tables := s.site.store.tables

def withStore (s : Office σ) (store : Store) : Office σ := { s with site := { s.site with store } }

def setDraft (s : Office σ) (unit : Nat) (draft : Option Draft) : Office σ :=
  { s with drafts := fun n => if n = unit then draft else s.drafts n }

/-- A call of the writer in an open unit. After a failure the unit keeps what was staged before. -/
def write (s : Office σ) (unit : Nat) (watch : Watch) (stamps : Nat → Stamp)
    (events : List Event) : Office σ :=
  match s.drafts unit with
  | none => s
  | some draft => match Outbox.write .json .store watch stamps events s.store (some draft.tx) with
      | (.ok _, some tx) =>
          s.setDraft unit (some ⟨tx, draft.staged ++ Posting.ofEvents stamps 0 events⟩)
      | (.error _, some tx) => s.setDraft unit (some ⟨tx, draft.staged ++
          (Posting.ofEvents stamps 0 events).take (tx.writes.length - draft.tx.writes.length)⟩)
      | (_, none) => s.setDraft unit none

def commit (s : Office σ) (unit : Nat) : Office σ :=
  match s.drafts unit with
  | none => s
  | some draft => match draft.tx.commit s.store with
      | (.ok (), store) =>
          { (s.withStore store).setDraft unit none with posted := s.posted ++ draft.staged }
      | (.error _, store) => (s.withStore store).setDraft unit none

def rollback (s : Office σ) (unit : Nat) : Office σ :=
  match s.drafts unit with
  | none => s
  | some draft => (s.withStore (draft.tx.rollback s.store).2).setDraft unit none

def start (s : Office σ) (p : Processor Store Transaction σ) (c : Context)
    (conditions : Conditions) : Office σ :=
  let (pass, site) := Pass.start p c conditions s.site
  { s with site, passes := s.passes ++ [pass] }

/-- The delivery that a pass made on coming to this phase. -/
def delivery (number : Nat) : PassPhase σ → List (Delivered σ)
  | .marking row _ calls _ => [⟨number, row, calls⟩]
  | .delivering _ | .givingUp .. | .ended _ => []

def advance (s : Office σ) (number : Nat) : Office σ :=
  match s.passes[number]? with
  | none => s
  | some pass =>
      let (pass, site) := pass.advance s.site
      { s with site, passes := s.passes.set number pass
               deliveries := s.deliveries ++ delivery number pass.phase }

def step (s : Office σ) : Action σ → Office σ
  | .open unit => s.setDraft unit (some ⟨.empty, []⟩)
  | .write unit watch stamps events => s.write unit watch stamps events
  | .commit unit => s.commit unit
  | .rollback unit => s.rollback unit
  | .failNextCommit => s.withStore s.store.injectCommitFailure
  | .start dispatcher measured config c conditions =>
      s.start ⟨.store, dispatcher, .json, measured, config⟩ c conditions
  | .advance number => s.advance number
  | .requeue context id => s.withStore (Op.run s.store (.requeue context id))
  | .elsewhere world => { s with site := { s.site with world } }

/-- The state after some actions. -/
def run (world : World σ) (actions : List (Action σ)) : Office σ :=
  actions.foldl step (begin world)

end Office

/-! ## What was posted -/

/-- The outbox holds exactly the rows of these postings, each as it was written. -/
structure Posts (ts : Tables) (posted : List Posting) : Prop where
  filed : Filed ts
  written : ∀ id w, writtenAt ts id.text = some w ↔ ∃ p ∈ posted, p.id = id ∧ p.row = w
  unique : (posted.map (·.id)).Nodup

theorem Posts.delivers {ts ts' : Tables} {posted : List Posting} (h : Posts ts posted)
    (hd : Delivers ts ts') : Posts ts' posted :=
  ⟨hd.filed, fun id w => by rw [hd.written, h.written], h.unique⟩

theorem Posts.rowAt {ts : Tables} {posted : List Posting} (h : Posts ts posted) {id : Uuid}
    {r : Row} (hr : rowAt ts id = some r) : ∃ p ∈ posted, p.id = id ∧ p.row = r.written := by
  refine (h.written id r.written).1 ?_
  show (Outbox.rowAt ts id).map Row.written = some r.written
  rw [hr, Option.map_some]

theorem Posts.exists_rowAt {ts : Tables} {posted : List Posting} (h : Posts ts posted) {p : Posting}
    (hp : p ∈ posted) : ∃ r, Outbox.rowAt ts p.id = some r ∧ r.written = p.row := by
  have hwritten := (h.written p.id p.row).2 ⟨p, hp, rfl, rfl⟩
  exact Option.map_eq_some_iff.1 hwritten

theorem nodup_append_one {posted : List Posting} {p : Posting} (h : (posted.map (·.id)).Nodup)
    (hnew : p.id ∉ posted.map (·.id)) : ((posted ++ [p]).map (·.id)).Nodup := by
  rw [List.map_append, List.nodup_append]
  refine ⟨h, List.nodup_singleton _, ?_⟩
  rintro a ha b hb rfl
  rw [List.map_singleton, List.mem_singleton] at hb
  exact hnew (hb ▸ ha)

/-- One row more. -/
theorem Posts.post {ts : Tables} {posted : List Posting} (h : Posts ts posted) {p : Posting}
    (hnew : p.id ∉ posted.map (·.id)) :
    Posts (ts.set tableName p.id.text p.row.toJson.canonical) (posted ++ [p]) where
  filed := h.filed.set p.row
  written := fun id w => by
    have hset : writtenAt (ts.set tableName p.id.text p.row.toJson.canonical) id.text =
        if id = p.id then some p.row else writtenAt ts id.text := by
      have hrow := congrArg (Option.map Row.written) (rowAt_set ts p.isCivil_row id)
      rw [apply_ite (Option.map Row.written)] at hrow
      exact hrow
    rw [hset]
    by_cases hid : id = p.id
    · rw [if_pos hid]
      constructor
      · intro hw
        exact ⟨p, List.mem_append_right _ List.mem_cons_self, hid.symm, Option.some.inj hw⟩
      · rintro ⟨q, hq, hqid, rfl⟩
        rcases List.mem_append.1 hq with hq | hq
        · exact absurd (List.mem_map.2 ⟨q, hq, hqid.trans hid⟩) hnew
        · rw [List.mem_singleton.1 hq]
    · rw [if_neg hid]
      refine (h.written id w).trans ⟨?_, ?_⟩
      · rintro ⟨q, hq, hqid⟩
        exact ⟨q, List.mem_append_left _ hq, hqid⟩
      · rintro ⟨q, hq, hqid⟩
        rcases List.mem_append.1 hq with hq | hq
        · exact ⟨q, hq, hqid⟩
        · rw [List.mem_singleton.1 hq] at hqid
          exact absurd hqid.1.symm hid
  unique := nodup_append_one h.unique hnew

/-- The rows of a unit of work. -/
theorem Posts.postAll {ts : Tables} {posted staged : List Posting} (h : Posts ts posted)
    (hunique : ((posted ++ staged).map (·.id)).Nodup) :
    Posts (Transaction.applyWrites ts (staged.map Posting.write)) (posted ++ staged) := by
  induction staged generalizing ts posted with
  | nil => simpa [Transaction.applyWrites] using h
  | cons p staged ih =>
      rw [List.append_cons] at hunique ⊢
      have hnew : p.id ∉ posted.map (·.id) := by
        rw [List.map_append, List.map_append] at hunique
        have hfirst := (List.nodup_append.1 (List.nodup_append.1 hunique).1).2.2
        exact fun hmem => hfirst _ hmem _ (List.mem_singleton.2 rfl) rfl
      exact ih (h.post hnew) hunique

/-- A commit needs the keys of its rows to be free. -/
theorem Posts.unique_of_guards {ts : Tables} {posted staged : List Posting} (h : Posts ts posted)
    (hstaged : (staged.map (·.id)).Nodup)
    (hguards : Transaction.checkGuards ts (staged.map Posting.write) = .ok ()) :
    ((posted ++ staged).map (·.id)).Nodup := by
  rw [Transaction.checkGuards_eq_ok_iff, List.forall_mem_map] at hguards
  rw [List.map_append, List.nodup_append]
  refine ⟨h.unique, hstaged, ?_⟩
  rintro a ha b hb rfl
  obtain ⟨q, hq, rfl⟩ := List.mem_map.1 ha
  obtain ⟨p, hp, hpq⟩ := List.mem_map.1 hb
  obtain ⟨r, hr, -⟩ := h.exists_rowAt hq
  have hfree : ts.row? tableName p.id.text = none := Guard.check_absent_eq_ok_iff.1 (hguards p hp)
  rw [rowAt_eq_some_iff h.filed, ← hpq, hfree] at hr
  cases hr.2.1

/-! ## What a writer stages -/

/-- The keys of staged rows are taken. -/
theorem id_not_mem_of_row?_eq_none {tx : Transaction} {ts : Tables} {staged : List Posting}
    {id : Uuid} (htx : tx.writes = staged.map Posting.write)
    (hfree : tx.row? ts tableName id.text = none) : id ∉ staged.map (·.id) := by
  intro hmem
  obtain ⟨p, hp, rfl⟩ := List.mem_map.1 hmem
  unfold Transaction.row? Transaction.staged? at hfree
  rw [Option.orElse_eq_or, Option.or_eq_none_iff, Option.map_eq_none_iff,
    List.find?_eq_none] at hfree
  have hwrite : p.write ∈ tx.writes.reverse := by
    rw [htx, List.mem_reverse]
    exact List.mem_map_of_mem hp
  exact hfree.1 _ hwrite (by simp [Posting.write])

/-- **A writer stages its events in order**, all of them if it succeeds, each under a free key. -/
theorem writeFrom_spec (watch : Watch) (stamps : Nat → Stamp) (store : Store)
    (events : List Event) :
    ∀ (n : Nat) (tx : Transaction) (staged : List Posting), tx.writes = staged.map Posting.write →
      (staged.map (·.id)).Nodup →
      ∃ result tx' k,
        writeFrom .json .store watch stamps store n events (some tx) = (result, some tx') ∧
        (result = .ok () → k = events.length) ∧
        tx'.writes = (staged ++ (Posting.ofEvents stamps n events).take k).map Posting.write ∧
        ((staged ++ (Posting.ofEvents stamps n events).take k).map (·.id)).Nodup := by
  induction events with
  | nil =>
      intro n tx staged htx hunique
      exact ⟨.ok (), tx, 0, rfl, fun _ => rfl, by simpa using htx, by simpa using hunique⟩
  | cons e events ih =>
      intro n tx staged htx hunique
      let p : Posting := ⟨stamps n, e⟩
      have hserialize : Serializer.json.serialize e = .ok e.serialize := rfl
      have hrow : Row.pending (stamps n).id (stamps n).now e e.serialize = p.row := rfl
      have hstore : Repository.store.insert = insertRow := rfl
      simp only [writeFrom, hserialize, hrow, hstore]
      rcases insertRow_spec (watch n) p.row store tx with ⟨err, hinsert⟩ | ⟨hfree, hinsert⟩
      · rw [hinsert]
        exact ⟨.error err, tx, 0, rfl, (fun h => by cases h), (by simpa using htx),
          by simpa using hunique⟩
      · rw [hinsert]
        have hnew : p.id ∉ staged.map (·.id) := id_not_mem_of_row?_eq_none htx hfree
        obtain ⟨result, tx', k, hwrite, hall, hwrites, hunique'⟩ :=
          ih (n + 1) (tx.stage tableName p.row.id.text p.row.toJson .absent) (staged ++ [p])
            (by rw [List.map_append, ← htx]; rfl) (nodup_append_one hunique hnew)
        refine ⟨result, tx', k + 1, hwrite, fun hok => congrArg (· + 1) (hall hok), ?_, ?_⟩
        · rw [Posting.ofEvents, List.take_succ_cons, List.append_cons]
          exact hwrites
        · rw [Posting.ofEvents, List.take_succ_cons, List.append_cons]
          exact hunique'

/-- A row that a unit of work does not write stays; one that it writes is pending. -/
theorem rowAt_applyWrites (staged : List Posting) (ts : Tables) (id : Uuid) :
    id ∉ staged.map (·.id) ∧
        rowAt (Transaction.applyWrites ts (staged.map Posting.write)) id = rowAt ts id ∨
      ∃ p ∈ staged, p.id = id ∧
        rowAt (Transaction.applyWrites ts (staged.map Posting.write)) id = some p.row := by
  induction staged generalizing ts with
  | nil => exact .inl ⟨List.not_mem_nil, rfl⟩
  | cons p staged ih =>
      rcases ih (ts.set tableName p.id.text p.row.toJson.canonical) with
        ⟨hnot, hsame⟩ | ⟨q, hq, hrow⟩
      · have hset := hsame.trans (rowAt_set ts p.isCivil_row id)
        by_cases hid : id = p.row.id
        · rw [if_pos hid] at hset
          exact .inr ⟨p, List.mem_cons_self, hid.symm, hset⟩
        · rw [if_neg hid] at hset
          refine .inl ⟨fun hmem => ?_, hset⟩
          rcases List.mem_cons.1 hmem with heq | hmem
          · exact hid heq
          · exact hnot hmem
      · exact .inr ⟨q, List.mem_cons_of_mem _ hq, hrow⟩

/-! ## What an action does -/

namespace Office

/-- What an open unit of work staged is what it was given, with different ids. -/
def DraftSound (draft : Draft) : Prop :=
  draft.tx.writes = draft.staged.map Posting.write ∧ (draft.staged.map (·.id)).Nodup

/-- What a pass still has to do with was posted. The delivery of the row that it is to mark is on
record; if it is to be marked as sent, the handlers of the posted event all handled it. -/
structure PassSound (posted : List Posting) (deliveries : List (Delivered σ)) (number : Nat)
    (pass : Pass σ) : Prop where
  repository : pass.processor.repository = .store
  serializer : pass.processor.serializer = .json
  rows : ∀ row ∈ pass.rows, ∃ p ∈ posted, p.row = row.written
  marking : ∀ row delivery calls rows, pass.phase = .marking row delivery calls rows →
    ⟨number, row, calls⟩ ∈ deliveries ∧ (delivery = .delivered → ∃ p ∈ posted, p.row = row.written ∧
      (calls.map (·.handler)).Perm (pass.processor.dispatcher.matching p.event.name) ∧
      ∀ x ∈ calls, x.event = p.event.asRead ∧ x.verdict = .handled)

/-- Handlers were called with the event that was posted for the row. -/
def DeliverySound (posted : List Posting) (d : Delivered σ) : Prop :=
  ∃ p ∈ posted, p.row = d.row.written ∧ ∀ x ∈ d.calls, x.event = p.event.asRead

structure Sound (s : Office σ) : Prop where
  posts : Posts s.tables s.posted
  drafts : ∀ n draft, s.drafts n = some draft → DraftSound draft
  passes : ∀ k pass, s.passes[k]? = some pass → PassSound s.posted s.deliveries k pass
  deliveries : ∀ d ∈ s.deliveries, d.pass < s.passes.length ∧ DeliverySound s.posted d

/-- **What an action does to the outbox**: nothing; the commit of a unit of work whose rows were all
free; or one operation, which marks a row as sent only where a pass is to do so. -/
inductive Changes (s : Office σ) (action : Action σ) : Prop where
  | nothing (tables : (s.step action).tables = s.tables)
    (posted : (s.step action).posted = s.posted)
  | commit (unit : Nat) (draft : Draft) (opened : s.drafts unit = some draft)
      (guards : Transaction.checkGuards s.tables draft.tx.writes = .ok ())
      (tables : (s.step action).tables = Transaction.applyWrites s.tables draft.tx.writes)
      (posted : (s.step action).posted = s.posted ++ draft.staged)
  | operation (op : Op) (tables : (s.step action).tables = (op.run s.store).tables)
      (posted : (s.step action).posted = s.posted)
      (marking : ∀ context id now, op = .markSent context id now →
        ∃ k pass row calls rows, action = .advance k ∧ s.passes[k]? = some pass ∧
          pass.phase = .marking row .delivered calls rows ∧ row.id = id)

theorem Sound.changes {s : Office σ} (h : s.Sound) (action : Action σ) : Changes s action := by
  cases action with
  | «open» unit => exact .nothing rfl rfl
  | write unit watch stamps events =>
      have hsame : (s.write unit watch stamps events).tables = s.tables ∧
          (s.write unit watch stamps events).posted = s.posted := by
        unfold write
        split
        · exact ⟨rfl, rfl⟩
        · split <;> exact ⟨rfl, rfl⟩
      exact .nothing hsame.1 hsame.2
  | commit unit =>
      cases hdraft : s.drafts unit with
      | none =>
          have hsame : s.commit unit = s := by simp only [commit, hdraft]
          exact .nothing (congrArg tables hsame) (congrArg posted hsame)
      | some draft =>
          rcases draft.tx.commit_cases s.store with
            ⟨e, store, hcommit, htables⟩ | ⟨store, hcommit, hguards, htables⟩
          · have hafter : s.commit unit = (s.withStore store).setDraft unit none := by
              simp only [commit, hdraft, hcommit]
            have hposted : (s.commit unit).posted = s.posted := by
              rw [hafter]
              rfl
            exact .nothing ((congrArg tables hafter).trans htables) hposted
          · have hafter : s.commit unit = { (s.withStore store).setDraft unit none with
                posted := s.posted ++ draft.staged } := by
              simp only [commit, hdraft, hcommit]
            exact .commit unit draft hdraft hguards ((congrArg tables hafter).trans htables)
              (congrArg posted hafter)
  | rollback unit =>
      have hsame : (s.rollback unit).tables = s.tables ∧ (s.rollback unit).posted = s.posted := by
        unfold rollback
        split <;> exact ⟨rfl, rfl⟩
      exact .nothing hsame.1 hsame.2
  | failNextCommit => exact .nothing rfl rfl
  | start dispatcher measured config c conditions =>
      obtain ⟨-, -, -, hstore⟩ := Pass.start_spec
        (p := ⟨.store, dispatcher, .json, measured, config⟩) rfl c conditions s.site h.posts.filed
      rcases hstore with hstore | ⟨context, limit, lease, now, hstore⟩
      · exact .nothing (congrArg Store.tables hstore) rfl
      · exact .operation (.claim context limit lease now) (congrArg Store.tables hstore) rfl
          fun _ _ _ heq => by cases heq
  | advance number =>
      cases hpass : s.passes[number]? with
      | none =>
          have hsame : s.advance number = s := by simp only [advance, hpass]
          exact .nothing (congrArg tables hsame) (congrArg posted hsame)
      | some pass =>
          have hstore := (pass.advance_spec s.site (h.passes number pass hpass).repository).2.2
          have hafter : (s.advance number).tables = (pass.advance s.site).2.store.tables := by
            simp only [advance, hpass]
            rfl
          have hposted : (s.advance number).posted = s.posted := by simp only [advance, hpass]
          rw [hstore] at hafter
          cases hop : pass.op? s.site.world with
          | none =>
              rw [hop] at hafter
              exact .nothing hafter hposted
          | some op =>
              rw [hop] at hafter
              refine .operation op hafter hposted fun context id now heq => ?_
              rw [heq] at hop
              obtain ⟨row, calls, rows, hphase, hid⟩ := Pass.of_op?_markSent hop
              exact ⟨number, pass, row, calls, rows, rfl, hpass, hphase, hid⟩
  | requeue context id =>
      exact .operation (.requeue context id) rfl rfl fun _ _ _ heq => by cases heq
  | elsewhere world => exact .nothing rfl rfl

/-! ## The invariant -/

/-- The event of a row that was written so is read back. -/
theorem deserialize_of_written {p : Posting} {row : Row} (h : p.row = row.written) :
    Serializer.json.deserialize row.payload row.eventName = .ok p.event.asRead := by
  have hpayload : p.event.serialize = row.payload := congrArg Row.payload h
  have hname : p.event.name = row.eventName := congrArg Row.eventName h
  rw [← hpayload, ← hname]
  exact (Serializer.deserialize_json ..).trans p.event.deserialize_serialize

theorem PassSound.mono {posted posted' : List Posting} {deliveries deliveries' : List (Delivered σ)}
    {k : Nat} {pass : Pass σ} (h : PassSound posted deliveries k pass) (hposted : posted ⊆ posted')
    (hdeliveries : deliveries ⊆ deliveries') : PassSound posted' deliveries' k pass where
  repository := h.repository
  serializer := h.serializer
  rows := fun row hrow => by
    obtain ⟨p, hp, hwritten⟩ := h.rows row hrow
    exact ⟨p, hposted hp, hwritten⟩
  marking := fun row delivery calls rows hphase => by
    obtain ⟨hrecord, hsuccess⟩ := h.marking row delivery calls rows hphase
    refine ⟨hdeliveries hrecord, fun hdelivered => ?_⟩
    obtain ⟨p, hp, hrest⟩ := hsuccess hdelivered
    exact ⟨p, hposted hp, hrest⟩

theorem DeliverySound.mono {posted posted' : List Posting} {d : Delivered σ}
    (h : DeliverySound posted d) (hposted : posted ⊆ posted') : DeliverySound posted' d := by
  obtain ⟨p, hp, hrest⟩ := h
  exact ⟨p, hposted hp, hrest⟩

/-- The postings after an action are those before it, or more. -/
theorem Changes.posted_subset {s : Office σ} {action : Action σ} (h : Changes s action) :
    s.posted ⊆ (s.step action).posted := by
  cases h with
  | nothing tables posted => rw [posted]; exact List.Subset.refl _
  | commit unit draft opened guards tables posted => rw [posted]; exact List.subset_append_left _ _
  | operation op tables posted marking => rw [posted]; exact List.Subset.refl _

/-- **The outbox holds exactly what was posted**, whatever is done. -/
theorem Sound.posts_step {s : Office σ} (h : s.Sound) (action : Action σ) :
    Posts (s.step action).tables (s.step action).posted := by
  cases h.changes action with
  | nothing tables posted =>
      rw [tables, posted]
      exact h.posts
  | commit unit draft opened guards tables posted =>
      obtain ⟨hwrites, hunique⟩ := h.drafts unit draft opened
      rw [hwrites] at guards tables
      rw [tables, posted]
      exact h.posts.postAll (h.posts.unique_of_guards hunique guards)
  | operation op tables posted marking =>
      rw [tables, posted]
      exact h.posts.delivers (Op.run_delivers h.posts.filed op)

/-- Passes and deliveries that stay as they are stay sound. -/
theorem Sound.of_same_passes {s s' : Office σ} (h : s.Sound) (hposts : Posts s'.tables s'.posted)
    (hposted : s.posted ⊆ s'.posted)
    (hdrafts : ∀ n draft, s'.drafts n = some draft → DraftSound draft)
    (hpasses : s'.passes = s.passes) (hdeliveries : s'.deliveries = s.deliveries) : s'.Sound where
  posts := hposts
  drafts := hdrafts
  passes := fun k pass hpass => by
    rw [hpasses] at hpass
    rw [hdeliveries]
    exact (h.passes k pass hpass).mono hposted (List.Subset.refl _)
  deliveries := fun d hd => by
    rw [hdeliveries] at hd
    rw [hpasses]
    exact ⟨(h.deliveries d hd).1, (h.deliveries d hd).2.mono hposted⟩

theorem drafts_setDraft {s : Office σ} (unit : Nat) (draft? : Option Draft)
    (h : ∀ n draft, s.drafts n = some draft → DraftSound draft)
    (hnew : ∀ draft, draft? = some draft → DraftSound draft) :
    ∀ n draft, (s.setDraft unit draft?).drafts n = some draft → DraftSound draft := by
  intro n draft hdraft
  unfold setDraft at hdraft
  by_cases hn : n = unit
  · simp only [if_pos hn] at hdraft
    exact hnew draft hdraft
  · simp only [if_neg hn] at hdraft
    exact h n draft hdraft

theorem draftSound_empty : DraftSound ⟨.empty, []⟩ := ⟨rfl, List.nodup_nil⟩

/-- A writer keeps the open unit sound. -/
theorem drafts_write {s : Office σ} (h : ∀ n draft, s.drafts n = some draft → DraftSound draft)
    (unit : Nat) (watch : Watch) (stamps : Nat → Stamp) (events : List Event) :
    ∀ n draft, (s.write unit watch stamps events).drafts n = some draft → DraftSound draft := by
  unfold write
  cases hdraft : s.drafts unit with
  | none => exact h
  | some draft =>
      obtain ⟨hwrites, hunique⟩ := h unit draft hdraft
      obtain ⟨result, tx, k, hwrite, hall, hwrites', hunique'⟩ :=
        writeFrom_spec watch stamps s.store events 0 draft.tx draft.staged hwrites hunique
      -- What was staged is a first part of the events, and tells its own length.
      have htake : (Posting.ofEvents stamps 0 events).take
          (tx.writes.length - draft.tx.writes.length) =
          (Posting.ofEvents stamps 0 events).take k := by
        rw [hwrites, hwrites', List.length_map, List.length_map, List.length_append,
          Nat.add_sub_cancel_left, List.length_take, ← List.take_eq_take_min]
      simp only [Outbox.write, hwrite]
      cases result with
      | error e =>
          refine drafts_setDraft unit _ h fun draft' hdraft' => ?_
          rw [← Option.some.inj hdraft', htake]
          exact ⟨hwrites', hunique'⟩
      | ok _ =>
          rw [hall rfl, ← Posting.length_ofEvents stamps events 0, List.take_length]
            at hwrites' hunique'
          refine drafts_setDraft unit _ h fun draft' hdraft' => ?_
          rw [← Option.some.inj hdraft']
          exact ⟨hwrites', hunique'⟩

theorem same_passes_write (s : Office σ) (unit : Nat) (watch : Watch) (stamps : Nat → Stamp)
    (events : List Event) : (s.write unit watch stamps events).passes = s.passes ∧
      (s.write unit watch stamps events).deliveries = s.deliveries := by
  unfold write
  split
  · exact ⟨rfl, rfl⟩
  · split <;> exact ⟨rfl, rfl⟩

theorem same_passes_commit (s : Office σ) (unit : Nat) :
    (s.commit unit).passes = s.passes ∧ (s.commit unit).deliveries = s.deliveries := by
  unfold commit
  split
  · exact ⟨rfl, rfl⟩
  · split <;> exact ⟨rfl, rfl⟩

theorem drafts_commit {s : Office σ} (h : ∀ n draft, s.drafts n = some draft → DraftSound draft)
    (unit : Nat) : ∀ n draft, (s.commit unit).drafts n = some draft → DraftSound draft := by
  have hclosed := drafts_setDraft unit none h fun _ hnone => by cases hnone
  unfold commit
  split
  · exact h
  · split <;> exact hclosed

/-! ### Passes and deliveries after an action -/

theorem of_getElem?_start {s : Office σ} {p : Processor Store Transaction σ} {c : Context}
    {conditions : Conditions} {k : Nat} {pass : Pass σ}
    (h : (s.start p c conditions).passes[k]? = some pass) :
    s.passes[k]? = some pass ∨ pass = (Pass.start p c conditions s.site).1 := by
  have hlast : (s.passes ++ [(Pass.start p c conditions s.site).1])[k]? = some pass := h
  rw [List.getElem?_append] at hlast
  split at hlast
  · exact .inl hlast
  · rw [List.getElem?_singleton] at hlast
    split at hlast
    · exact .inr (Option.some.inj hlast).symm
    · cases hlast

theorem of_getElem?_advance {s : Office σ} {number k : Nat} {pass' : Pass σ}
    (h : (s.advance number).passes[k]? = some pass') :
    s.passes[k]? = some pass' ∨ ∃ pass, s.passes[number]? = some pass ∧ k = number ∧
      pass' = (pass.advance s.site).1 := by
  unfold Office.advance at h
  cases hpass : s.passes[number]? with
  | none =>
      rw [hpass] at h
      exact .inl h
  | some pass =>
      simp only [hpass, List.getElem?_set] at h
      by_cases hk : number = k
      · have hlt : number < s.passes.length := (List.getElem?_eq_some_iff.1 hpass).1
        rw [if_pos hk, if_pos hlt] at h
        exact .inr ⟨pass, rfl, hk.symm, (Option.some.inj h).symm⟩
      · rw [if_neg hk] at h
        exact .inl h

theorem length_passes_advance (s : Office σ) (number : Nat) :
    (s.advance number).passes.length = s.passes.length := by
  unfold Office.advance
  cases s.passes[number]? with
  | none => rfl
  | some pass => exact List.length_set

/-- A new delivery is that of the row which the pass then is to mark. -/
theorem of_mem_deliveries_advance {s : Office σ} {number : Nat} {d : Delivered σ}
    (h : d ∈ (s.advance number).deliveries) :
    d ∈ s.deliveries ∨ ∃ pass row outcome calls rows, s.passes[number]? = some pass ∧
      (pass.advance s.site).1.phase = .marking row outcome calls rows ∧
      d = ⟨number, row, calls⟩ := by
  unfold Office.advance at h
  cases hpass : s.passes[number]? with
  | none =>
      rw [hpass] at h
      exact .inl h
  | some pass =>
      simp only [hpass] at h
      rcases List.mem_append.1 h with h | h
      · exact .inl h
      · cases hphase : (pass.advance s.site).1.phase with
        | marking row outcome calls rows =>
            rw [hphase] at h
            exact .inr ⟨pass, row, outcome, calls, rows, rfl, hphase, List.mem_singleton.1 h⟩
        | delivering rows =>
            rw [hphase] at h
            cases h
        | givingUp row rows =>
            rw [hphase] at h
            cases h
        | ended result =>
            rw [hphase] at h
            cases h

theorem deliveries_subset_advance (s : Office σ) (number : Nat) :
    s.deliveries ⊆ (s.advance number).deliveries := by
  unfold Office.advance
  cases s.passes[number]? with
  | none => exact List.Subset.refl _
  | some pass => exact List.subset_append_left _ _

theorem posted_advance (s : Office σ) (number : Nat) : (s.advance number).posted = s.posted := by
  unfold Office.advance
  split <;> rfl

/-- A new pass has to do with rows of the outbox only. -/
theorem Sound.start {s : Office σ} (h : s.Sound) (dispatcher : Dispatcher σ) (measured : Bool)
    (config : ProcessorConfig) (c : Context) (conditions : Conditions)
    (hposts : Posts (s.start ⟨.store, dispatcher, .json, measured, config⟩ c conditions).tables
      s.posted) :
    (s.start ⟨.store, dispatcher, .json, measured, config⟩ c conditions).Sound := by
  obtain ⟨hprocessor, hphase, hrows, -⟩ := Pass.start_spec
    (p := ⟨.store, dispatcher, .json, measured, config⟩) rfl c conditions s.site h.posts.filed
  refine ⟨hposts, h.drafts, fun k pass hpass => ?_, fun d hd => ?_⟩
  · rcases of_getElem?_start hpass with hold | rfl
    · exact h.passes k pass hold
    · refine ⟨congrArg Processor.repository hprocessor, congrArg Processor.serializer hprocessor,
        fun row hrow => ?_, fun row delivery calls rows hmarking => ?_⟩
      · obtain ⟨r, hfound, -, hwritten⟩ := hrows row hrow
        obtain ⟨p, hp, -, hp'⟩ := h.posts.rowAt hfound
        exact ⟨p, hp, hp'.trans hwritten.symm⟩
      · exact absurd hmarking (hphase row delivery calls rows)
  · obtain ⟨hlt, hsound⟩ := h.deliveries d hd
    refine ⟨?_, hsound⟩
    rw [Office.start, List.length_append]
    exact Nat.lt_add_right _ hlt

/-- **A row is delivered with the event that was posted for it**: that event is what is read from
the row. -/
theorem PassSound.delivery {posted : List Posting} {deliveries : List (Delivered σ)} {number : Nat}
    {pass : Pass σ} (h : PassSound posted deliveries number pass) {site : Site Store σ} {row : Row}
    {outcome : Delivery} {calls : List (Heard σ)} {rows : List Row}
    (hphase : (pass.advance site).1.phase = .marking row outcome calls rows) :
    ∃ p ∈ posted, p.row = row.written ∧ (∀ x ∈ calls, x.event = p.event.asRead) ∧
      (outcome = .delivered →
        (calls.map (·.handler)).Perm (pass.processor.dispatcher.matching p.event.name) ∧
        ∀ x ∈ calls, x.verdict = .handled) := by
  obtain ⟨hrow, o, rfl, rfl⟩ := Pass.of_advance_marking hphase
  obtain ⟨p, hp, hwritten⟩ := h.rows row hrow
  have hread := deserialize_of_written hwritten
  obtain ⟨hevents, hdelivered⟩ := pass.processor.calls_spec pass.context o row site.world
  rw [h.serializer, hread] at hevents hdelivered
  refine ⟨p, hp, hwritten, fun x hx => (Except.ok.inj (hevents x hx)).symm, fun hok => ?_⟩
  obtain ⟨e, he, hperm, hhandled⟩ := hdelivered hok
  obtain rfl := Except.ok.inj he
  exact ⟨hperm, hhandled⟩

/-- A pass stays sound as it goes on. -/
theorem PassSound.advance {posted : List Posting} {deliveries deliveries' : List (Delivered σ)}
    {number : Nat} {pass : Pass σ} (h : PassSound posted deliveries number pass)
    {site : Site Store σ}
    (hrecord : ∀ row outcome calls rows,
      (pass.advance site).1.phase = .marking row outcome calls rows →
      ⟨number, row, calls⟩ ∈ deliveries') :
    PassSound posted deliveries' number (pass.advance site).1 := by
  obtain ⟨hprocessor, hrows, -⟩ := pass.advance_spec site h.repository
  refine ⟨(congrArg Processor.repository hprocessor).trans h.repository,
    (congrArg Processor.serializer hprocessor).trans h.serializer,
    fun row hrow => h.rows row (hrows hrow), fun row outcome calls rows hphase => ?_⟩
  refine ⟨hrecord row outcome calls rows hphase, fun hok => ?_⟩
  obtain ⟨p, hp, hwritten, hevents, hdelivered⟩ := h.delivery hphase
  obtain ⟨hperm, hhandled⟩ := hdelivered hok
  rw [hprocessor]
  exact ⟨p, hp, hwritten, hperm, fun x hx => ⟨hevents x hx, hhandled x hx⟩⟩

theorem Sound.advance {s : Office σ} (h : s.Sound) (number : Nat)
    (hposts : Posts (s.advance number).tables s.posted) : (s.advance number).Sound := by
  refine ⟨(posted_advance s number).symm ▸ hposts, ?_, fun k pass' hpass' => ?_, fun d hd => ?_⟩
  · unfold Office.advance
    split <;> exact h.drafts
  · rw [posted_advance]
    rcases of_getElem?_advance hpass' with hold | ⟨pass, hpass, rfl, rfl⟩
    · exact (h.passes k pass' hold).mono (List.Subset.refl _) (deliveries_subset_advance s number)
    · refine (h.passes k pass hpass).advance fun row outcome calls rows hphase => ?_
      simp only [Office.advance, hpass, hphase]
      exact List.mem_append_right _ List.mem_cons_self
  · rw [length_passes_advance, posted_advance]
    rcases of_mem_deliveries_advance hd with
      hold | ⟨pass, row, outcome, calls, rows, hpass, hphase, rfl⟩
    · exact h.deliveries d hold
    · obtain ⟨p, hp, hwritten, hevents, -⟩ := (h.passes number pass hpass).delivery hphase
      exact ⟨(List.getElem?_eq_some_iff.1 hpass).1, p, hp, hwritten, hevents⟩

theorem Sound.step {s : Office σ} (h : s.Sound) (action : Action σ) : (s.step action).Sound := by
  have hposts := h.posts_step action
  have hposted := (h.changes action).posted_subset
  cases action with
  | «open» unit =>
      have hdrafts := drafts_setDraft unit (some ⟨.empty, []⟩) h.drafts fun draft hdraft => by
        rw [← Option.some.inj hdraft]
        exact draftSound_empty
      exact h.of_same_passes hposts hposted hdrafts rfl rfl
  | write unit watch stamps events =>
      have hsame := same_passes_write s unit watch stamps events
      exact h.of_same_passes hposts hposted (drafts_write h.drafts unit watch stamps events) hsame.1
        hsame.2
  | commit unit =>
      have hsame := same_passes_commit s unit
      exact h.of_same_passes hposts hposted (drafts_commit h.drafts unit) hsame.1 hsame.2
  | rollback unit =>
      have hclosed := drafts_setDraft unit none h.drafts fun _ hnone => by cases hnone
      refine h.of_same_passes hposts hposted ?_ ?_ ?_
      · show ∀ n draft, (s.rollback unit).drafts n = some draft → DraftSound draft
        unfold rollback
        split
        · exact h.drafts
        · exact hclosed
      · show (s.rollback unit).passes = s.passes
        unfold rollback
        split <;> rfl
      · show (s.rollback unit).deliveries = s.deliveries
        unfold rollback
        split <;> rfl
  | failNextCommit => exact h.of_same_passes hposts hposted h.drafts rfl rfl
  | start dispatcher measured config c conditions =>
      exact h.start dispatcher measured config c conditions hposts
  | advance number => exact h.advance number (posted_advance s number ▸ hposts)
  | requeue context id => exact h.of_same_passes hposts hposted h.drafts rfl rfl
  | elsewhere world => exact h.of_same_passes hposts hposted h.drafts rfl rfl

theorem sound_begin (world : World σ) : (begin world).Sound where
  posts := by
    refine ⟨fun k j h => (by cases h), fun id w => ⟨fun h => ?_, ?_⟩, List.nodup_nil⟩
    · cases h
    · rintro ⟨p, hp, -⟩
      cases hp
  drafts := fun n draft h => by cases h
  passes := fun k pass h => by cases h
  deliveries := fun d h => by cases h

theorem Sound.foldl {s : Office σ} (h : s.Sound) (actions : List (Action σ)) :
    (actions.foldl Office.step s).Sound := by
  induction actions generalizing s with
  | nil => exact h
  | cons action actions ih => exact ih (h.step action)

theorem sound_run (world : World σ) (actions : List (Action σ)) : (run world actions).Sound :=
  (sound_begin world).foldl actions

theorem posted_subset_foldl {s : Office σ} (h : s.Sound) (actions : List (Action σ)) :
    s.posted ⊆ (actions.foldl Office.step s).posted := by
  induction actions generalizing s with
  | nil => exact List.Subset.refl _
  | cons action actions ih =>
      exact fun p hp => ih (h.step action) ((h.changes action).posted_subset hp)

/-! ## Sent rows -/

/-- The row with this id is there and sent. -/
def Sent (ts : Tables) (id : Uuid) : Prop := ∃ r, rowAt ts id = some r ∧ r.status = .sent

/-- **A row becomes sent where a pass marks it so**, after it delivered it. -/
theorem Sound.becomes_sent {s : Office σ} (h : s.Sound) {action : Action σ} {id : Uuid}
    (hbefore : ¬ Sent s.tables id) (hafter : Sent (s.step action).tables id) :
    ∃ k pass row calls rows, action = .advance k ∧ s.passes[k]? = some pass ∧
      pass.phase = .marking row .delivered calls rows ∧ row.id = id := by
  obtain ⟨r', hr', hsent⟩ := hafter
  cases h.changes action with
  | nothing tables posted =>
      rw [tables] at hr'
      exact absurd ⟨r', hr', hsent⟩ hbefore
  | commit unit draft opened guards tables posted =>
      rw [tables, (h.drafts unit draft opened).1] at hr'
      rcases rowAt_applyWrites draft.staged s.tables id with ⟨-, hsame⟩ | ⟨p, -, -, hnew⟩
      · exact absurd ⟨r', hsame.symm.trans hr', hsent⟩ hbefore
      · -- A row that was just written is pending.
        obtain rfl := Option.some.inj (hnew.symm.trans hr')
        cases hsent
  | operation op tables posted marking =>
      rw [tables] at hr'
      obtain ⟨now, hop⟩ := Op.eq_markSent_of_run h.posts.filed hr' hsent fun r hr hstatus =>
        hbefore ⟨r, hr, hstatus⟩
      exact marking _ _ _ hop

theorem Sound.sent_step {s : Office σ} (h : s.Sound) (action : Action σ) {id : Uuid}
    (hsent : Sent s.tables id) : Sent (s.step action).tables id := by
  obtain ⟨r, hr, hstatus⟩ := hsent
  cases h.changes action with
  | nothing tables posted =>
      rw [tables]
      exact ⟨r, hr, hstatus⟩
  | commit unit draft opened guards tables posted =>
      obtain ⟨hwrites, hunique⟩ := h.drafts unit draft opened
      rw [hwrites] at guards tables
      rw [tables]
      rcases rowAt_applyWrites draft.staged s.tables id with ⟨-, hsame⟩ | ⟨p, hp, hid, -⟩
      · exact ⟨r, hsame.trans hr, hstatus⟩
      · obtain ⟨q, hq, hqid, -⟩ := h.posts.rowAt hr
        have hids := h.posts.unique_of_guards hunique guards
        rw [List.map_append, List.nodup_append] at hids
        exact absurd (hqid.trans hid.symm) (hids.2.2 _ (List.mem_map_of_mem hq) _
          (List.mem_map_of_mem hp))
  | operation op tables posted marking =>
      rw [tables]
      exact ⟨r, op.run_sent h.posts.filed hr hstatus, hstatus⟩

/-- A row that is sent, and that no pass from some number on has to do with or ever had. -/
structure PassedBy (number : Nat) (id : Uuid) (s : Office σ) : Prop where
  sent : Sent s.tables id
  passes : ∀ k pass, number ≤ k → s.passes[k]? = some pass → ∀ row ∈ pass.rows, row.id ≠ id
  deliveries : ∀ d ∈ s.deliveries, number ≤ d.pass → d.row.id ≠ id

/-- **A row that is sent is in no later pass.** -/
theorem PassedBy.step {number : Nat} {id : Uuid} {s : Office σ} (h : PassedBy number id s)
    (hsound : s.Sound) (action : Action σ) : PassedBy number id (s.step action) := by
  have hsent := hsound.sent_step action h.sent
  -- Most actions leave passes and deliveries as they are.
  have hsame : (s.step action).passes = s.passes → (s.step action).deliveries = s.deliveries →
      PassedBy number id (s.step action) := fun hpasses hdeliveries =>
    ⟨hsent, (by rw [hpasses]; exact h.passes), (by rw [hdeliveries]; exact h.deliveries)⟩
  cases action with
  | «open» unit => exact hsame rfl rfl
  | write unit watch stamps events =>
      exact hsame (same_passes_write s unit watch stamps events).1
        (same_passes_write s unit watch stamps events).2
  | commit unit => exact hsame (same_passes_commit s unit).1 (same_passes_commit s unit).2
  | rollback unit =>
      refine hsame ?_ ?_
      · show (s.rollback unit).passes = s.passes
        unfold rollback
        split <;> rfl
      · show (s.rollback unit).deliveries = s.deliveries
        unfold rollback
        split <;> rfl
  | failNextCommit => exact hsame rfl rfl
  | start dispatcher measured config c conditions =>
      obtain ⟨-, -, hrows, -⟩ := Pass.start_spec
        (p := ⟨.store, dispatcher, .json, measured, config⟩) rfl c conditions s.site
        hsound.posts.filed
      refine ⟨hsent, fun k pass hk hpass => ?_, h.deliveries⟩
      rcases of_getElem?_start hpass with hold | rfl
      · exact h.passes k pass hk hold
      · rintro row hrow rfl
        -- A row that is taken is pending, and this one is sent.
        obtain ⟨r, hr, hpending, -⟩ := hrows row hrow
        obtain ⟨r', hr', hstatus⟩ := h.sent
        obtain rfl := Option.some.inj (hr.symm.trans hr')
        rw [hpending] at hstatus
        cases hstatus
  | advance k =>
      refine ⟨hsent, fun j pass' hj hpass' => ?_, fun d hd hnumber => ?_⟩
      · rcases of_getElem?_advance hpass' with hold | ⟨pass, hpass, rfl, rfl⟩
        · exact h.passes j pass' hj hold
        · have hrows := (pass.advance_spec s.site (hsound.passes j pass hpass).repository).2.1
          exact fun row hrow => h.passes j pass hj hpass row (hrows hrow)
      · rcases of_mem_deliveries_advance hd with hold |
          ⟨pass, row, outcome, calls, rows, hpass, hphase, rfl⟩
        · exact h.deliveries d hold hnumber
        · exact h.passes k pass hnumber hpass row (Pass.of_advance_marking hphase).1
  | requeue context id => exact hsame rfl rfl
  | elsewhere world => exact hsame rfl rfl

theorem PassedBy.foldl {number : Nat} {id : Uuid} {s : Office σ} (h : PassedBy number id s)
    (hsound : s.Sound) (actions : List (Action σ)) :
    PassedBy number id (actions.foldl Office.step s) := by
  induction actions generalizing s with
  | nil => exact h
  | cons action actions ih => exact ih (h.step hsound action) (hsound.step action)

/-- At the time when a row is sent, later passes have not begun. -/
theorem Sound.passedBy {s : Office σ} (h : s.Sound) {id : Uuid} (hsent : Sent s.tables id) :
    PassedBy s.passes.length id s where
  sent := hsent
  passes := fun _ _ hk hpass =>
    absurd (List.getElem?_eq_some_iff.1 hpass).1 (Nat.not_lt_of_le hk)
  deliveries := fun d hd hnumber => absurd (h.deliveries d hd).1 (Nat.not_lt_of_le hnumber)

/-! ## Passes that nobody interrupts -/

/-- Advancing a pass again and again takes it wherever it goes on its own. -/
theorem exists_advances {a b : Pass σ × Site Store σ} (h : Pass.Reaches a b) (k : Nat) :
    ∀ s : Office σ, s.passes[k]? = some a.1 → s.site = a.2 →
      ∃ n, ((List.replicate n (.advance k)).foldl Office.step s).site = b.2 := by
  induction h using Relation.ReflTransGen.head_induction_on with
  | refl => exact fun s _ hsite => ⟨0, hsite⟩
  | head hstep _ ih =>
      intro s hpass hsite
      have hlt := (List.getElem?_eq_some_iff.1 hpass).1
      obtain ⟨n, hn⟩ := ih (s.advance k) (by
        simp only [Office.advance, hpass, hsite, hstep]
        rw [List.getElem?_set, if_pos rfl, if_pos hlt]) (by
        simp only [Office.advance, hpass, hsite, hstep])
      exact ⟨n + 1, hn⟩

/-- **A pass that nobody interrupts is `Processor.process`.** -/
theorem exists_run_process (s : Office σ) (dispatcher : Dispatcher σ) (measured : Bool)
    (config : ProcessorConfig) (c : Context) (conditions : Conditions) :
    ∃ n, ((.start dispatcher measured config c conditions ::
        List.replicate n (.advance s.passes.length)).foldl Office.step s).site =
      (Processor.process ⟨.store, dispatcher, .json, measured, config⟩ c conditions s.site).2 := by
  obtain ⟨last, hreaches, -⟩ := Pass.reaches_process
    ⟨.store, dispatcher, .json, measured, config⟩ c conditions s.site
  refine exists_advances hreaches s.passes.length
    (s.start ⟨.store, dispatcher, .json, measured, config⟩ c conditions) ?_ rfl
  simp only [Office.start]
  rw [List.getElem?_append_right (Nat.le_refl _), Nat.sub_self, List.getElem?_cons_zero]

/-! ## Delivery -/

/-- A posted row is sent, or it is found among the rows that wait or among those given up. -/
theorem Sound.status {s : Office σ} (h : s.Sound) {p : Posting} (hp : p ∈ s.posted) :
    ∃ r, rowAt s.tables p.id = some r ∧ r.written = p.row ∧
      (r.status = .sent ∨
        (r.status = .pending ∧ ∃ rows, rowsWith .pending s.tables = .ok rows ∧ r ∈ rows) ∨
        (r.status = .failed ∧ ∃ rows, rowsWith .failed s.tables = .ok rows ∧ r ∈ rows)) := by
  obtain ⟨r, hr, hwritten⟩ := h.posts.exists_rowAt hp
  have hfound : rowAt s.tables r.id = some r := by rw [id_of_rowAt h.posts.filed hr, hr]
  refine ⟨r, hr, hwritten, ?_⟩
  cases hstatus : r.status with
  | sent => exact .inl rfl
  | pending =>
      obtain ⟨rows, hrows, hmem⟩ := exists_rowsWith h.posts.filed .pending
      exact .inr (.inl ⟨rfl, rows, hrows, (hmem r).2 ⟨hfound, hstatus⟩⟩)
  | failed =>
      obtain ⟨rows, hrows, hmem⟩ := exists_rowsWith h.posts.filed .failed
      exact .inr (.inr ⟨rfl, rows, hrows, (hmem r).2 ⟨hfound, hstatus⟩⟩)

/-- **No row is lost, none is sent without success, and no event is altered** but for a time that
its text cannot tell. After any actions, and whatever comes later: every committed posting has its
row, as it was written, and the row is sent or waits or was given up. A row becomes sent only where
a pass marks it, whose delivery of the row called every handler that accepts the name of the posted
event, and all of them handled it. Every handler that was called for a row was called with the event
posted for that row, of which there is one; with the very event if its time is civil, and otherwise
with the second after it for its leap second. And no pass that begins after a row was sent delivers
that row. Passes go step by step here; one that goes on to its end alone is `Processor.process`. -/
theorem delivers_what_was_posted (world : World σ) (actions later : List (Action σ)) :
    let s := run world actions
    let s' := run world (actions ++ later)
    (∀ p ∈ s.posted, ∃ r, rowAt s'.tables p.id = some r ∧ r.written = p.row ∧
      (r.status = .sent ∨
        (r.status = .pending ∧ ∃ rows, rowsWith .pending s'.tables = .ok rows ∧ r ∈ rows) ∨
        (r.status = .failed ∧ ∃ rows, rowsWith .failed s'.tables = .ok rows ∧ r ∈ rows))) ∧
    (∀ action id, ¬ Sent s.tables id → Sent (s.step action).tables id →
      ∃ k pass row calls rows, action = .advance k ∧ s.passes[k]? = some pass ∧
        pass.phase = .marking row .delivered calls rows ∧ row.id = id ∧
        ⟨k, row, calls⟩ ∈ s.deliveries ∧
        ∃ p ∈ s.posted, p.id = id ∧
          (calls.map (·.handler)).Perm (pass.processor.dispatcher.matching p.event.name) ∧
          ∀ x ∈ calls, x.event = p.event.withOccurredAt p.event.occurredAt.asRead ∧
            x.verdict = .handled) ∧
    (∀ d ∈ s.deliveries, ∃ p ∈ s.posted, p.id = d.row.id ∧
      ∀ x ∈ d.calls, x.event = p.event.withOccurredAt p.event.occurredAt.asRead ∧
        (p.event.occurredAt.IsCivil → x.event = p.event)) ∧
    (∀ id, Sent s.tables id →
      ∀ d ∈ s'.deliveries, s.passes.length ≤ d.pass → d.row.id ≠ id) ∧
    (s.posted.map (·.id)).Nodup ∧
    ∀ dispatcher measured config c conditions, ∃ n,
      (run world (actions ++ .start dispatcher measured config c conditions ::
        List.replicate n (.advance s.passes.length))).site =
      (Processor.process ⟨.store, dispatcher, .json, measured, config⟩ c conditions s.site).2 := by
  intro s s'
  have hsound : s.Sound := sound_run world actions
  have hs' : s' = later.foldl Office.step s := List.foldl_append
  have hsound' : s'.Sound := sound_run world (actions ++ later)
  refine ⟨fun p hp => ?_, fun action id hbefore hafter => ?_, fun d hd => ?_, fun id hsent => ?_,
    hsound.posts.unique, fun dispatcher measured config c conditions => ?_⟩
  · have hposted := posted_subset_foldl hsound later hp
    rw [← hs'] at hposted
    exact hsound'.status hposted
  · obtain ⟨k, pass, row, calls, rows, haction, hpass, hphase, hid⟩ :=
      hsound.becomes_sent hbefore hafter
    obtain ⟨hrecord, hsuccess⟩ :=
      (hsound.passes k pass hpass).marking row .delivered calls rows hphase
    obtain ⟨p, hp, hwritten, hcalls⟩ := hsuccess rfl
    have hpid : p.id = row.id := congrArg Row.id hwritten
    exact ⟨k, pass, row, calls, rows, haction, hpass, hphase, hid, hrecord, p, hp, hpid.trans hid,
      hcalls⟩
  · obtain ⟨p, hp, hwritten, hevents⟩ := (hsound.deliveries d hd).2
    have hpid : p.id = d.row.id := congrArg Row.id hwritten
    refine ⟨p, hp, hpid, fun x hx => ⟨hevents x hx, fun hcivil => ?_⟩⟩
    rw [hevents x hx, Event.asRead_eq_self_iff.2 hcivil]
  · rw [hs']
    exact ((hsound.passedBy hsent).foldl hsound later).deliveries
  · obtain ⟨n, hn⟩ := exists_run_process s dispatcher measured config c conditions
    refine ⟨n, ?_⟩
    rw [run, List.foldl_append]
    exact hn

/-! ## A delivery that fails once -/

/-- A handler that fails when it is called first. -/
def hesitant : EventHandler Nat where
  name := "hesitant"
  accepts name := name = "user.created"
  react _ _ s := ⟨if s.own = 0 then .failed ⟨"not yet", []⟩ else .handled, [], 0, s.own + 1⟩

def deliver : List (Action Nat) :=
  [.start ⟨.sequential, false, [hesitant]⟩ false ⟨1, none, none⟩ ⟨0, ⟨9⟩, none, .empty⟩
    ⟨fun _ => .epoch, fun _ => .inOrder⟩]

/-- An event of this time is written and committed, and a first pass delivers it. -/
def firstPass (time : Instant) : List (Action Nat) :=
  [.open 0, .write 0 .active (fun _ => ⟨⟨1⟩, .epoch⟩) [.new ⟨⟨2⟩⟩ time "user.created" ⟨⟨3⟩⟩ []],
    .commit 0] ++ deliver ++ [.advance 0]

/-- That pass ends, and a second one delivers the event. -/
def twoPasses : List (Action Nat) := firstPass .epoch ++ [.advance 0] ++ deliver ++ [.advance 1]

/-- The row that was not delivered waits for the second pass, which delivers it. -/
example : (run (.start ⟨.none, 0, 0⟩) twoPasses).deliveries.map
    (fun d => (d.pass, d.row.attempts, d.calls.map (·.verdict))) =
      [(0, 0, [.failed ⟨"not yet", []⟩]), (1, 1, [.handled])] := by
  decide +kernel

/-- **Not every event is delivered unaltered**: one of a leap second in the middle of a minute comes
to its handler with the time of the second after it. -/
theorem not_every_event_unaltered :
    ¬ ∀ (world : World Nat) (actions : List (Action Nat)), ∀ d ∈ (run world actions).deliveries,
      ∃ p ∈ (run world actions).posted, p.id = d.row.id ∧ ∀ x ∈ d.calls, x.event = p.event := by
  intro h
  have hbroken : ∃ d ∈ (run (.start ⟨.none, 0, 0⟩) (firstPass .strayLeap)).deliveries,
      ∀ p ∈ (run (.start ⟨.none, 0, 0⟩) (firstPass .strayLeap)).posted,
        ¬ ∀ x ∈ d.calls, x.event = p.event := by decide +kernel
  obtain ⟨d, hd, hnone⟩ := hbroken
  obtain ⟨p, hp, -, hevents⟩ := h _ _ d hd
  exact hnone p hp hevents

end Office

end Registrar.Outbox
