import Registrar.Proofs.UnitOfWork.Bodies
import Registrar.UnitOfWork.Hall

set_option autoImplicit false

/-! # Several units over one manager

Units over one manager are asked to begin, to commit, to roll back and to execute bodies, in any
order and with any handles: their own, used up ones, copies, and those of other units (`Hall.Act`; a
whole execution is a run of acts, `Roster.attempt_eq_run`). Beside the hall a roster keeps which
unit began each handle, and the handles of executions that were dropped before they ended
(`Hall.Roster`).

**A unit is active with a handle iff it holds it**: it began the handle, the handle is open, and its
execution was not dropped. That is what makes a roster sound (`Roster.Sound`), and every act keeps
it so (`Roster.Sound.after`). -/

namespace Registrar

/-! ## What a unit does when asked -/

namespace UnitOfWork

variable {M T E ε α : Type}

/-- What it takes to begin: an active context, an idle unit, and a manager that opens a
transaction. -/
def Ready (m : Manager M T) (context : Except ContextError Unit) (u : UnitOfWork) (s : M) : Prop :=
  context = .ok () ∧ u = .idle ∧ ∃ t, (m.begin s).1 = .ok t

/-- Over a store that is not told to fail nothing but the context and the unit can be in the way. -/
theorem ready_store_iff (context : Except ContextError Unit) (u : UnitOfWork) (s : Store) :
    Ready .store context u s ↔ context = .ok () ∧ u = .idle :=
  ⟨fun h => ⟨h.1, h.2.1⟩, fun h => ⟨h.1, h.2, .empty, rfl⟩⟩

theorem begin_of_ready {m : Manager M T} {context : Except ContextError Unit} {u : UnitOfWork}
    {r : Room M T} (hready : Ready m context u r.manager) :
    ∃ t, (m.begin r.manager).1 = .ok t ∧ begin m context u r =
      (.ok ⟨r.cells.length⟩, .active ⟨r.cells.length⟩,
        ⟨(m.begin r.manager).2, r.cells ++ [some t]⟩) := by
  obtain ⟨rfl, rfl, t, ht⟩ := hready
  refine ⟨t, ht, ?_⟩
  unfold begin
  cases hopened : m.begin r.manager with
  | mk result s =>
      rw [hopened] at ht
      cases ht
      rfl

/-- A unit that does not begin stays as it is, and so does the room unless the manager refused. -/
theorem begin_of_not_ready {m : Manager M T} {context : Except ContextError Unit} {u : UnitOfWork}
    {r : Room M T} (hnot : ¬ Ready m context u r.manager) :
    ∃ e manager, begin m context u r = (.error e, u, { r with manager }) ∧
      (manager = r.manager ∨ m.begin r.manager = (.error e, manager)) := by
  cases context with
  | error e => exact ⟨.context e, r.manager, rfl, .inl rfl⟩
  | ok _ =>
      cases u with
      | active h => exact ⟨.alreadyActive, r.manager, rfl, .inl rfl⟩
      | idle =>
          unfold begin
          cases hopened : m.begin r.manager with
          | mk result s =>
              cases result with
              | error e => exact ⟨e, s, rfl, .inr rfl⟩
              | ok t => exact absurd ⟨rfl, rfl, t, by rw [hopened]⟩ hnot

/-- A unit that let go of a handle is not active with it. -/
theorem release_ne_active (h : Handle) (u : UnitOfWork) : release h u ≠ .active h := by
  unfold release
  split
  · exact UnitOfWork.noConfusion
  · assumption

theorem release_of_ne {h : Handle} {u : UnitOfWork} (hne : u ≠ .active h) : release h u = u :=
  if_neg hne

theorem release_eq_active_iff {h i : Handle} (hne : i ≠ h) (u : UnitOfWork) :
    release h u = .active i ↔ u = .active i := by
  by_cases hu : u = .active h
  · subst hu
    rw [release, if_pos rfl]
    exact iff_of_false UnitOfWork.noConfusion fun heq => hne (UnitOfWork.active.inj heq).symm
  · rw [release_of_ne hu]

theorem finish_of_ne_active (f : T → M → Except TransactionError Unit × M) {h : Handle}
    {u : UnitOfWork} (r : Room M T) (hne : u ≠ .active h) :
    finish f h u r = (.error .notActive, u, r) := by
  simp only [finish, close, if_neg hne]

/-- What the manager is to do with the transaction of a body that ended so. -/
def settling (m : Manager M T) : Ending ε α → T → M → Except TransactionError Unit × M
  | .returned _ => m.commit
  | .failed _ => m.rollback
  | .panicked _ => m.rollback

theorem settling_map {ε' β : Type} (m : Manager M T) (ending : Ending ε α) (f : α → β)
    (g : ε → ε') : settling m ((ending.map f).mapError g) = settling m ending := by
  cases ending <;> rfl

theorem conclude_reach (m : Manager M T) (refused : TransactionError → ε) (h : Handle)
    (ending : Ending ε α) (s : Reach M T E) :
    (conclude m refused h ending s).2 =
      ⟨release h (finish (settling m ending) h s.unit s.room).2.1,
        (finish (settling m ending) h s.unit s.room).2.2, s.own⟩ := by
  cases ending <;> rfl

end UnitOfWork

namespace Room

variable {M T : Type}

theorem cell_append (r : Room M T) (manager : M) (t : T) (i : Handle) :
    (Room.mk manager (r.cells ++ [some t])).cell i =
      if i.index = r.cells.length then some t else r.cell i := by
  unfold cell
  by_cases hi : i.index = r.cells.length
  · rw [if_pos hi, hi, List.getElem?_concat_length, Option.join_some]
  · rw [if_neg hi, List.getElem?_append]
    by_cases hlt : i.index < r.cells.length
    · rw [if_pos hlt]
    · rw [if_neg hlt, List.getElem?_eq_none (by simp; omega), List.getElem?_eq_none (by omega)]

theorem cell_setCell_of_ne {r : Room M T} {h i : Handle} (hne : i ≠ h) (t : Option T) :
    (r.setCell h t).cell i = r.cell i := by
  rw [cell_setCell, if_neg fun hboth => hne (congrArg Handle.mk hboth.1.symm)]

/-- Work on transactions opens and closes nothing. -/
theorem isOpen_use (r : Room M T) (h i : Handle) (f : M → T → T) :
    (r.use h fun manager t => ((), t.map (f manager))).2.isOpen i = r.isOpen i := by
  cases hcell : r.cell h with
  | none => rw [use_of_cell_eq_none hcell]
  | some t =>
      simp only [use, hcell, isOpen, cell_setCell]
      split
      · rename_i hboth
        obtain rfl : h = i := congrArg Handle.mk hboth.1
        rw [hcell]
        rfl
      · rfl

theorem length_use {α : Type} (r : Room M T) (h : Handle) (f : M → Option T → α × Option T) :
    (r.use h f).2.cells.length = r.cells.length := r.length_setCell h _

end Room

/-! ## Acts and rosters -/

namespace Hall

variable {M T : Type}

theorem unit_insert (h : Hall M T) (name n : String) (u : UnitOfWork) (room : Room M T) :
    Hall.unit { h with room, units := h.units.insert name u } n =
      if n = name then u else h.unit n := by
  unfold unit
  rw [Keyed.get?_insert]
  split <;> rfl

theorem unit_insert_self (h : Hall M T) (name n : String) (room : Room M T) :
    Hall.unit { h with room, units := h.units.insert name (h.unit name) } n = h.unit n := by
  rw [unit_insert]
  split
  · rename_i hn
    rw [hn]
  · rfl

/-- What is done in a hall, with any unit and any handle: asking for a transaction, and finishing
with one; beginning an execution, and what happens when its body ends or its caller gives up on it;
work on the transaction behind a handle, which cannot close it; and what others do to the manager's
state. -/
inductive Act (M T : Type) where
  | begin (context : Except ContextError Unit) (name : String)
  | commit (name : String) (h : Handle)
  | rollback (name : String) (h : Handle)
  | enter (context : Except ContextError Unit) (name : String)
  | leave (ending : Ending Unit Unit) (name : String) (h : Handle)
  | drop (name : String) (h : Handle)
  | use (h : Handle) (f : M → T → T)
  | change (f : M → M)

/-- A hall with a record of who began which handle, newest first, of the executions that are
underway, and of the handles of those that were dropped. -/
structure Roster (M T : Type) where
  hall : Hall M T
  begun : List (String × Handle)
  underway : List (String × Handle)
  dropped : List Handle

namespace Roster

def start (manager : M) : Roster M T := ⟨.start manager, [], [], []⟩

/-- The handle that a unit began, with the name of the unit. -/
def entry (name : String) : Except TransactionError Handle → List (String × Handle)
  | .ok h => [(name, h)]
  | .error _ => []

theorem mem_entry {name : String} {result : Except TransactionError Handle} {b : String × Handle} :
    b ∈ entry name result ↔ result = .ok b.2 ∧ b.1 = name := by
  cases result with
  | error e => exact iff_of_false List.not_mem_nil fun h => by cases h.1
  | ok h =>
      rw [entry, List.mem_singleton, Prod.ext_iff, Except.ok.injEq, eq_comm (a := h)]
      exact and_comm

/-- Asks a unit to begin. -/
def begin (m : Manager M T) (context : Except ContextError Unit) (name : String) (s : Roster M T) :
    Except TransactionError Handle × Roster M T :=
  let (result, hall) := s.hall.onUnit name (UnitOfWork.begin m context)
  (result, { s with hall, begun := entry name result ++ s.begun })

/-- Begins an execution, which is underway if its unit has begun. -/
def enter (m : Manager M T) (context : Except ContextError Unit) (name : String) (s : Roster M T) :
    Roster M T :=
  let (result, s) := s.begin m context name
  { s with underway := entry name result ++ s.underway }

/-- Asks a unit to finish with a handle. -/
def finish (f : T → M → Except TransactionError Unit × M) (name : String) (h : Handle)
    (s : Roster M T) : Except TransactionError Unit × Roster M T :=
  let (result, hall) := s.hall.onUnit name (UnitOfWork.finish f h)
  (result, { s with hall })

/-- The body of an execution has ended. -/
def leave (m : Manager M T) (ending : Ending Unit Unit) (name : String) (h : Handle)
    (s : Roster M T) : Roster M T :=
  let (_, hall) := s.hall.onUnit name fun u r =>
    let (result, reach) := UnitOfWork.conclude m (fun _ => ()) h ending ⟨u, r, ()⟩
    (result, reach.unit, reach.room)
  { s with hall, underway := s.underway.erase (name, h) }

/-- The caller of an execution gives up on it. -/
def drop (name : String) (h : Handle) (s : Roster M T) : Roster M T :=
  let (_, hall) := s.hall.onUnit name fun u r => ((), UnitOfWork.release h u, r)
  { s with hall, underway := s.underway.erase (name, h), dropped := h :: s.dropped }

/-- The roster after an act. Only executions that are underway end or are dropped. -/
def after (m : Manager M T) (s : Roster M T) : Act M T → Roster M T
  | .begin context name => (s.begin m context name).2
  | .commit name h => (s.finish m.commit name h).2
  | .rollback name h => (s.finish m.rollback name h).2
  | .enter context name => s.enter m context name
  | .leave ending name h => if (name, h) ∈ s.underway then s.leave m ending name h else s
  | .drop name h => if (name, h) ∈ s.underway then s.drop name h else s
  | .use h f =>
      let (_, room) := s.hall.room.use h fun manager t => ((), t.map (f manager))
      { s with hall := { s.hall with room } }
  | .change f => { s with hall := (s.hall.onManager fun manager => ((), f manager)).2 }

def run (m : Manager M T) (s : Roster M T) (acts : List (Act M T)) : Roster M T :=
  acts.foldl (after m) s

/-- **The unit's own open handle**: it began the handle, and no execution with it was dropped. -/
structure Holds (s : Roster M T) (name : String) (h : Handle) : Prop where
  begun : (name, h) ∈ s.begun
  kept : h ∉ s.dropped
  isOpen : s.hall.room.isOpen h = true

/-! ### Whole executions -/

/-- What a body can reach in a hall: its unit, the room, and the rest of the roster. -/
def reach (name : String) (s : Roster M T) : UnitOfWork.Reach M T (Roster M T) :=
  ⟨s.hall.unit name, s.hall.room, s⟩

/-- The roster of what a body has reached. -/
def ofReach (name : String) (r : UnitOfWork.Reach M T (Roster M T)) : Roster M T :=
  { r.own with hall := { r.own.hall with
    room := r.room
    units := r.own.hall.units.insert name r.unit } }

/-- The roster of a body that starts. -/
def started (name : String) (h : Handle) (r : UnitOfWork.Reach M T (Roster M T)) : Roster M T :=
  let s := ofReach name r
  { s with begun := (name, h) :: s.begun, underway := (name, h) :: s.underway }

/-- **An execution is a run of acts**: one that begins it, those of its body, and one that ends or
drops it. While its body runs it is underway. -/
theorem attempt_eq_run {ε α : Type} (m : Manager M T) (refused : TransactionError → ε)
    (context : Except ContextError Unit) (name : String)
    (body : Handle → Roster M T → Option (Ending ε α) × Roster M T)
    (hbody : ∀ h s, (name, h) ∈ s.underway →
      ∃ acts, (body h s).2 = s.run m acts ∧ (name, h) ∈ (s.run m acts).underway)
    (s : Roster M T) :
    ∃ acts, (ofReach name (UnitOfWork.attempt m context refused (fun h r =>
      ((body h (started name h r)).1, reach name (body h (started name h r)).2))
        (reach name s)).2).hall = (s.run m acts).hall := by
  by_cases hready : UnitOfWork.Ready m context (s.hall.unit name) s.hall.room.manager
  · obtain ⟨t, -, hbegin⟩ := UnitOfWork.begin_of_ready hready
    let h : Handle := ⟨s.hall.room.cells.length⟩
    have henter : s.after m (.enter context name) = started name h ⟨.active h,
        ⟨(m.begin s.hall.room.manager).2, s.hall.room.cells ++ [some t]⟩, s⟩ := by
      simp only [after, enter, begin, onUnit, hbegin]
      rfl
    obtain ⟨acts, hrun, hunderway⟩ := hbody h (s.after m (.enter context name))
      (by rw [henter]; exact List.mem_cons_self)
    -- The last act finds the execution underway.
    have hlast : ∀ last : Act M T, s.run m (.enter context name :: acts ++ [last]) =
        (body h (s.after m (.enter context name))).2.after m last := fun last => by
      rw [run, List.foldl_append, hrun]
      rfl
    rw [← hrun] at hunderway
    rw [henter] at hlast hunderway
    simp only [UnitOfWork.attempt, reach, hbegin]
    cases hending : (body h (started name h ⟨.active h,
        ⟨(m.begin s.hall.room.manager).2, s.hall.room.cells ++ [some t]⟩, s⟩)).1 with
    | none =>
        refine ⟨.enter context name :: acts ++ [.drop name h], ?_⟩
        rw [hlast, after, if_pos hunderway]
        rfl
    | some ending =>
        refine ⟨.enter context name :: acts ++
          [.leave ((ending.map fun _ => ()).mapError fun _ => ()) name h], ?_⟩
        rw [hlast, after, if_pos hunderway]
        simp only [leave, ofReach, onUnit, UnitOfWork.conclude_reach, UnitOfWork.settling_map]
        rfl
  · obtain ⟨e, manager, hbegin, -⟩ := UnitOfWork.begin_of_not_ready hready
    refine ⟨[.enter context name], ?_⟩
    simp only [UnitOfWork.attempt, reach, hbegin, run, List.foldl_cons, List.foldl_nil, after,
      enter, begin, onUnit]
    rfl

/-! ## Units and the handles they hold -/

/-- What holds of a roster after any acts: a handle was begun once, by one unit, and **a unit is
active with the handle that it holds**. -/
structure Sound (s : Roster M T) : Prop where
  given : ∀ b ∈ s.begun, b.2.index < s.hall.room.cells.length
  owned : ∀ b ∈ s.begun, ∀ c ∈ s.begun, b.2 = c.2 → b = c
  underway : ∀ b ∈ s.underway, b ∈ s.begun
  dropped : ∀ h ∈ s.dropped, ∃ name, (name, h) ∈ s.begun
  active : ∀ name h, s.hall.unit name = .active h ↔ s.Holds name h

theorem sound_start (manager : M) : (start manager : Roster M T).Sound where
  given b hb := by cases hb
  owned b hb := by cases hb
  underway b hb := by cases hb
  dropped h hh := by cases hh
  active name h := iff_of_false UnitOfWork.noConfusion fun hh => List.not_mem_nil hh.begun

theorem holds_congr {s s' : Roster M T} {n : String} {i : Handle}
    (hbegun : (n, i) ∈ s'.begun ↔ (n, i) ∈ s.begun) (hdropped : i ∈ s'.dropped ↔ i ∈ s.dropped)
    (hopen : s'.hall.room.isOpen i = s.hall.room.isOpen i) : s'.Holds n i ↔ s.Holds n i :=
  ⟨fun h => ⟨hbegun.1 h.begun, mt hdropped.2 h.kept, hopen.symm.trans h.isOpen⟩,
    fun h => ⟨hbegun.2 h.begun, mt hdropped.1 h.kept, hopen.trans h.isOpen⟩⟩

namespace Sound

variable {s s' : Roster M T} {name : String} {h : Handle}

/-- A unit is not active with a handle that it does not hold. -/
theorem ne_active (hs : s.Sound) (hnot : ¬ s.Holds name h) : s.hall.unit name ≠ .active h :=
  fun hactive => hnot ((hs.active name h).1 hactive)

/-- Where no handle is new, all that is to be seen is who holds which. -/
theorem ofActive (hs : s.Sound)
    (hlength : s'.hall.room.cells.length = s.hall.room.cells.length) (hbegun : s'.begun = s.begun)
    (hunderway : ∀ b ∈ s'.underway, b ∈ s.underway)
    (hdropped : ∀ i ∈ s'.dropped, i ∈ s.dropped ∨ ∃ name, (name, i) ∈ s.begun)
    (hactive : ∀ n i, s'.hall.unit n = .active i ↔ s'.Holds n i) : s'.Sound := by
  refine ⟨?_, ?_, ?_, ?_, hactive⟩
  · rw [hbegun, hlength]
    exact hs.given
  · rw [hbegun]
    exact hs.owned
  · rw [hbegun]
    exact fun b hb => hs.underway b (hunderway b hb)
  · rw [hbegun]
    exact fun i hi => (hdropped i hi).elim (hs.dropped i) id

/-- What neither asks a unit nor opens or closes a handle. -/
theorem same (hs : s.Sound) (hunit : ∀ n, s'.hall.unit n = s.hall.unit n)
    (hlength : s'.hall.room.cells.length = s.hall.room.cells.length)
    (hopen : ∀ i, s'.hall.room.isOpen i = s.hall.room.isOpen i) (hbegun : s'.begun = s.begun)
    (hunderway : ∀ b ∈ s'.underway, b ∈ s.underway) (hdropped : s'.dropped = s.dropped) :
    s'.Sound := by
  refine hs.ofActive hlength hbegun hunderway (fun i hi => .inl (hdropped ▸ hi)) fun n i => ?_
  rw [hunit, hs.active, holds_congr (by rw [hbegun]) (by rw [hdropped]) (hopen i)]

/-- A unit begins with a new handle. -/
theorem began (hs : s.Sound) (hidle : s.hall.unit name = .idle)
    (hfresh : h.index = s.hall.room.cells.length)
    (hunit : ∀ n, s'.hall.unit n = if n = name then .active h else s.hall.unit n)
    (hlength : s'.hall.room.cells.length = s.hall.room.cells.length + 1)
    (hnew : s'.hall.room.isOpen h = true)
    (hopen : ∀ i, i ≠ h → s'.hall.room.isOpen i = s.hall.room.isOpen i)
    (hbegun : s'.begun = (name, h) :: s.begun)
    (hunderway : ∀ b ∈ s'.underway, b = (name, h) ∨ b ∈ s.underway)
    (hdropped : s'.dropped = s.dropped) : s'.Sound := by
  have hmem : ∀ b, b ∈ s'.begun ↔ b = (name, h) ∨ b ∈ s.begun := fun b => by
    rw [hbegun, List.mem_cons]
  have hnobody : ∀ b ∈ s.begun, b.2 ≠ h := fun b hb heq =>
    Nat.lt_irrefl _ (hfresh ▸ heq ▸ hs.given b hb)
  refine ⟨fun b hb => ?_, fun b hb c hc heq => ?_, fun b hb => ?_, ?_, fun n i => ?_⟩
  · rw [hlength]
    rcases (hmem b).1 hb with rfl | hb
    · exact hfresh ▸ Nat.lt_succ_self _
    · exact Nat.lt_succ_of_lt (hs.given b hb)
  · rcases (hmem b).1 hb with rfl | hb <;> rcases (hmem c).1 hc with rfl | hc
    · rfl
    · exact absurd heq.symm (hnobody c hc)
    · exact absurd heq (hnobody b hb)
    · exact hs.owned b hb c hc heq
  · exact (hmem b).2 ((hunderway b hb).imp_right (hs.underway b))
  · rw [hdropped]
    intro i hi
    obtain ⟨n, hn⟩ := hs.dropped i hi
    exact ⟨n, (hmem _).2 (.inr hn)⟩
  · rw [hunit]
    by_cases hih : i = h
    · -- Nobody else has seen the new handle, so its unit is the only one to hold it.
      subst hih
      have hkept : i ∉ s'.dropped := by
        rw [hdropped]
        intro hd
        obtain ⟨n, hn⟩ := hs.dropped i hd
        exact hnobody _ hn rfl
      by_cases hn : n = name
      · rw [if_pos hn, hn]
        exact iff_of_true rfl ⟨(hmem _).2 (.inl rfl), hkept, hnew⟩
      · rw [if_neg hn]
        refine iff_of_false (fun hu => hnobody _ ((hs.active n i).1 hu).begun rfl) fun hh => ?_
        rcases (hmem _).1 hh.begun with heq | hb
        · exact hn (congrArg Prod.fst heq)
        · exact hnobody _ hb rfl
    · have hbegun' : (n, i) ∈ s'.begun ↔ (n, i) ∈ s.begun := by
        rw [hmem, or_iff_right fun heq => hih (congrArg Prod.snd heq)]
      rw [holds_congr hbegun' (by rw [hdropped]) (hopen i hih), ← hs.active]
      by_cases hn : n = name
      · rw [if_pos hn, hn, hidle]
        exact iff_of_false (fun heq => hih (UnitOfWork.active.inj heq).symm) UnitOfWork.noConfusion
      · rw [if_neg hn]

/-- A unit lets go of a handle that it began: the handle is closed, or its execution dropped. -/
theorem letGo (hs : s.Sound) (howner : (name, h) ∈ s.begun)
    (hunit : ∀ n, s'.hall.unit n =
      if n = name then UnitOfWork.release h (s.hall.unit name) else s.hall.unit n)
    (hlength : s'.hall.room.cells.length = s.hall.room.cells.length)
    (hgone : h ∉ s'.dropped → s'.hall.room.isOpen h = false)
    (hopen : ∀ i, i ≠ h → s'.hall.room.isOpen i = s.hall.room.isOpen i)
    (hbegun : s'.begun = s.begun) (hunderway : ∀ b ∈ s'.underway, b ∈ s.underway)
    (hdropped : ∀ i, i ≠ h → (i ∈ s'.dropped ↔ i ∈ s.dropped)) : s'.Sound := by
  refine hs.ofActive hlength hbegun hunderway (fun i hi => ?_) fun n i => ?_
  · by_cases hih : i = h
    · exact .inr ⟨name, hih ▸ howner⟩
    · exact .inl ((hdropped i hih).1 hi)
  · rw [hunit]
    by_cases hih : i = h
    · -- Nobody is left with the handle: only its unit held it, and that has let go of it.
      subst hih
      have hnobody : ¬ s'.Holds n i := fun hh =>
        Bool.false_ne_true ((hgone hh.kept).symm.trans hh.isOpen)
      refine iff_of_false ?_ hnobody
      by_cases hn : n = name
      · rw [if_pos hn]
        exact UnitOfWork.release_ne_active i _
      · rw [if_neg hn]
        intro hu
        have hboth := hs.owned _ ((hs.active n i).1 hu).begun _ howner rfl
        exact hn (congrArg Prod.fst hboth)
    · rw [holds_congr (by rw [hbegun]) (hdropped i hih) (hopen i hih), ← hs.active]
      by_cases hn : n = name
      · rw [if_pos hn, hn]
        exact UnitOfWork.release_eq_active_iff hih _
      · rw [if_neg hn]

end Sound

/-! ## What each act comes to -/

section

variable {s : Roster M T} {name : String} {h : Handle}

theorem begin_of_ready {m : Manager M T} {context : Except ContextError Unit}
    (hready : UnitOfWork.Ready m context (s.hall.unit name) s.hall.room.manager) :
    let h : Handle := ⟨s.hall.room.cells.length⟩
    ∃ t, (m.begin s.hall.room.manager).1 = .ok t ∧ s.begin m context name =
      (.ok h, { s with
        hall := { s.hall with
          room := ⟨(m.begin s.hall.room.manager).2, s.hall.room.cells ++ [some t]⟩
          units := s.hall.units.insert name (.active h) }
        begun := (name, h) :: s.begun }) := by
  obtain ⟨t, hopened, hbegin⟩ := UnitOfWork.begin_of_ready hready
  refine ⟨t, hopened, ?_⟩
  simp only [begin, onUnit, hbegin]
  rfl

theorem begin_of_not_ready {m : Manager M T} {context : Except ContextError Unit}
    (hnot : ¬ UnitOfWork.Ready m context (s.hall.unit name) s.hall.room.manager) :
    ∃ e manager, s.begin m context name =
        (.error e, { s with hall := { s.hall with
          room := { s.hall.room with manager }
          units := s.hall.units.insert name (s.hall.unit name) } }) ∧
      (manager = s.hall.room.manager ∨ m.begin s.hall.room.manager = (.error e, manager)) := by
  obtain ⟨e, manager, hbegin, hmanager⟩ := UnitOfWork.begin_of_not_ready hnot
  refine ⟨e, manager, ?_, hmanager⟩
  simp only [begin, onUnit, hbegin]
  rfl

/-- A unit that holds a handle closes it and is idle, whatever the manager answers. -/
theorem finish_of_holds (hs : s.Sound) (hholds : s.Holds name h)
    (f : T → M → Except TransactionError Unit × M) :
    ∃ t, s.hall.room.cell h = some t ∧ s.finish f name h =
      ((f t s.hall.room.manager).1, { s with hall := { s.hall with
        room := { s.hall.room.setCell h none with manager := (f t s.hall.room.manager).2 }
        units := s.hall.units.insert name .idle } }) := by
  obtain ⟨t, hcell⟩ := Option.isSome_iff_exists.1 hholds.isOpen
  refine ⟨t, hcell, ?_⟩
  simp only [finish, onUnit, (hs.active name h).2 hholds, UnitOfWork.finish_active f h _ t hcell]

/-- A unit that does not hold a handle does nothing with it. -/
theorem finish_of_not_holds (hs : s.Sound) (hnot : ¬ s.Holds name h)
    (f : T → M → Except TransactionError Unit × M) :
    s.finish f name h = (.error .notActive, { s with hall := { s.hall with
      units := s.hall.units.insert name (s.hall.unit name) } }) := by
  simp only [finish, onUnit, UnitOfWork.finish_of_ne_active f _ (hs.ne_active hnot)]

/-- When a body has ended, its unit finishes with the body's handle, and that is all. -/
theorem hall_leave (hs : s.Sound) (m : Manager M T) (ending : Ending Unit Unit) :
    (s.leave m ending name h).hall =
      (s.finish (UnitOfWork.settling m ending) name h).2.hall := by
  -- The unit is not active with the handle any more, so there is nothing to let go of.
  have hrelease : UnitOfWork.release h
        (UnitOfWork.finish (UnitOfWork.settling m ending) h (s.hall.unit name) s.hall.room).2.1 =
      (UnitOfWork.finish (UnitOfWork.settling m ending) h (s.hall.unit name) s.hall.room).2.1 := by
    refine UnitOfWork.release_of_ne ?_
    by_cases hholds : s.Holds name h
    · obtain ⟨t, hcell⟩ := Option.isSome_iff_exists.1 hholds.isOpen
      rw [(hs.active name h).2 hholds, UnitOfWork.finish_active _ h _ t hcell]
      exact UnitOfWork.noConfusion
    · rw [UnitOfWork.finish_of_ne_active _ _ (hs.ne_active hholds)]
      exact hs.ne_active hholds
  simp only [leave, finish, onUnit, UnitOfWork.conclude_reach, hrelease]

end

/-! ## Every act keeps a roster sound -/

namespace Sound

variable {s : Roster M T} {name : String} {h : Handle}

/-- Beginning, be it for an execution that is now underway or not. -/
theorem asked (hs : s.Sound) (m : Manager M T) (context : Except ContextError Unit) (name : String)
    {underway : List (String × Handle)} (hunderway : ∀ b ∈ underway,
      (s.begin m context name).1 = .ok b.2 ∧ b.1 = name ∨ b ∈ s.underway) :
    Sound { (s.begin m context name).2 with underway } := by
  by_cases hready : UnitOfWork.Ready m context (s.hall.unit name) s.hall.room.manager
  · obtain ⟨t, -, hbegin⟩ := begin_of_ready hready
    rw [hbegin] at hunderway ⊢
    refine hs.began (h := ⟨s.hall.room.cells.length⟩) hready.2.1 rfl
      (fun n => unit_insert ..) (List.length_append) ?_ (fun i hi => ?_) rfl (fun b hb => ?_) rfl
    · rw [Room.isOpen, Room.cell_append, if_pos rfl]
      rfl
    · rw [Room.isOpen, Room.cell_append, if_neg fun heq => hi (congrArg Handle.mk heq)]
      rfl
    · exact (hunderway b hb).imp_left fun ⟨hnew, hname⟩ => Prod.ext hname (Except.ok.inj hnew).symm
  · obtain ⟨e, manager, hbegin, -⟩ := begin_of_not_ready hready
    rw [hbegin] at hunderway ⊢
    refine hs.same (fun n => unit_insert_self ..) rfl (fun i => rfl) rfl (fun b hb => ?_) rfl
    exact (hunderway b hb).resolve_left fun hnew => by cases hnew.1

theorem finish (hs : s.Sound) (f : T → M → Except TransactionError Unit × M) (name : String)
    (h : Handle) : (s.finish f name h).2.Sound := by
  by_cases hholds : s.Holds name h
  · obtain ⟨t, hcell, hfinish⟩ := finish_of_holds hs hholds f
    rw [hfinish]
    refine hs.letGo hholds.begun (fun n => ?_) (s.hall.room.length_setCell h none) (fun _ => ?_)
      (fun i hi => ?_) rfl (fun b hb => hb) fun i _ => Iff.rfl
    · rw [unit_insert, (hs.active name h).2 hholds, UnitOfWork.release, if_pos rfl]
    · show ((s.hall.room.setCell h none).cell h).isSome = false
      rw [Room.cell_setCell, if_pos ⟨rfl, Room.lt_length_of_cell hcell⟩]
      rfl
    · show ((s.hall.room.setCell h none).cell i).isSome = _
      rw [Room.cell_setCell_of_ne hi]
      rfl
  · rw [finish_of_not_holds hs hholds]
    exact hs.same (fun n => unit_insert_self ..) rfl (fun i => rfl) rfl (fun b hb => hb) rfl

theorem leave (hs : s.Sound) (m : Manager M T) (ending : Ending Unit Unit)
    (name : String) (h : Handle) : (s.leave m ending name h).Sound := by
  refine (hs.finish (UnitOfWork.settling m ending) name h).same (fun n => ?_) ?_ (fun i => ?_) rfl
    (fun b hb => List.mem_of_mem_erase hb) rfl
  all_goals rw [hall_leave hs]

theorem drop (hs : s.Sound) (hunderway : (name, h) ∈ s.underway) : (s.drop name h).Sound := by
  refine hs.letGo (hs.underway _ hunderway) (fun n => unit_insert ..) rfl
    (fun hkept => absurd List.mem_cons_self hkept) (fun i _ => rfl) rfl
    (fun b hb => List.mem_of_mem_erase hb) fun i hi => ?_
  exact List.mem_cons.trans (or_iff_right hi)

/-- **Every act keeps a roster sound.** -/
theorem after (hs : s.Sound) (m : Manager M T) (act : Act M T) : (s.after m act).Sound := by
  cases act with
  | begin context name => exact hs.asked m context name fun b hb => .inr hb
  | commit name h => exact hs.finish m.commit name h
  | rollback name h => exact hs.finish m.rollback name h
  | enter context name =>
      exact hs.asked m context name fun b hb => (List.mem_append.1 hb).imp_left mem_entry.1
  | leave ending name h =>
      by_cases hunderway : (name, h) ∈ s.underway
      · simpa only [Roster.after, if_pos hunderway] using hs.leave m ending name h
      · simpa only [Roster.after, if_neg hunderway] using hs
  | drop name h =>
      by_cases hunderway : (name, h) ∈ s.underway
      · simpa only [Roster.after, if_pos hunderway] using hs.drop hunderway
      · simpa only [Roster.after, if_neg hunderway] using hs
  | use h f =>
      refine hs.same (fun n => rfl)
        (s.hall.room.length_use h fun manager t => ((), t.map (f manager))) (fun i => ?_) rfl
        (fun b hb => hb) rfl
      exact s.hall.room.isOpen_use h i f
  | change f => exact hs.same (fun n => rfl) rfl (fun i => rfl) rfl (fun b hb => hb) rfl

theorem run (hs : s.Sound) (m : Manager M T) (acts : List (Act M T)) : (s.run m acts).Sound := by
  induction acts generalizing s with
  | nil => exact hs
  | cons act acts ih => exact ih (hs.after m act)

end Sound

end Roster

end Hall

end Registrar
