import Registrar.Proofs.UnitOfWork.Roster

set_option autoImplicit false

/-! # One transaction at a time

What begin, commit and rollback come to for units over one manager, after any acts
(`Roster.one_transaction_at_a_time`): a unit holds at most one handle and is active iff it holds
one; it takes the transaction of the handle that it holds, and does nothing with any other; and a
handle that is closed is closed to everybody, for ever.

Two things stand against a shorter rule. A dropped execution leaves its unit idle and its handle
open for those who have a copy, though no unit will take it; and a manager may refuse to open a
transaction (`Roster.open_after_drop_and_begin_refused`). -/

namespace Registrar

namespace Hall

namespace Roster

variable {M T : Type}

/-! ## What a unit does, as seen from outside -/

/-- The unit begins with a handle that nobody has begun, and which it holds from now on. -/
def Begins (m : Manager M T) (context : Except ContextError Unit) (name : String)
    (s : Roster M T) : Prop :=
  let out := s.begin m context name
  ∃ h t manager, m.begin s.hall.room.manager = (.ok t, manager) ∧ out.1 = .ok h ∧
    (∀ n, (n, h) ∉ s.begun) ∧ out.2.Holds name h ∧
    (∀ n, out.2.hall.unit n = if n = name then .active h else s.hall.unit n) ∧
    out.2.hall.room = ⟨manager, s.hall.room.cells ++ [some t]⟩

/-- The unit does not begin. No unit changes and no transaction; nor does the manager, unless it was
asked and refused. -/
def Declines (m : Manager M T) (context : Except ContextError Unit) (name : String)
    (s : Roster M T) : Prop :=
  let out := s.begin m context name
  ∃ e manager, out.1 = .error e ∧ (∀ n, out.2.hall.unit n = s.hall.unit n) ∧
    out.2.hall.room = { s.hall.room with manager } ∧
    (manager = s.hall.room.manager ∨ m.begin s.hall.room.manager = (.error e, manager))

/-- The unit takes the transaction behind the handle and gives it to the manager, whose answer it
passes on. Whatever that is, the unit is idle and the handle closed; nothing else has changed. -/
def Takes (f : T → M → Except TransactionError Unit × M) (name : String) (h : Handle)
    (s : Roster M T) : Prop :=
  let out := s.finish f name h
  ∃ t, s.hall.room.cell h = some t ∧
    (out.1, out.2.hall.room.manager) = f t s.hall.room.manager ∧
    (∀ n, out.2.hall.unit n = if n = name then .idle else s.hall.unit n) ∧
    ∀ i, out.2.hall.room.cell i = if i = h then none else s.hall.room.cell i

/-- The unit answers that it is not active, and nothing changes: no unit, no transaction, and not
the manager. -/
def Refuses (f : T → M → Except TransactionError Unit × M) (name : String) (h : Handle)
    (s : Roster M T) : Prop :=
  let out := s.finish f name h
  out.1 = .error .notActive ∧ (∀ n, out.2.hall.unit n = s.hall.unit n) ∧
    out.2.hall.room = s.hall.room

namespace Sound

variable {s : Roster M T} {name : String} {h : Handle}

theorem isActive_iff (hs : s.Sound) (name : String) :
    (s.hall.unit name).isActive = true ↔ ∃ h, s.Holds name h := by
  cases hunit : s.hall.unit name with
  | idle =>
      refine iff_of_false Bool.false_ne_true ?_
      rintro ⟨h, hholds⟩
      exact UnitOfWork.noConfusion (hunit.symm.trans ((hs.active name h).2 hholds))
  | active h => exact iff_of_true rfl ⟨h, (hs.active name h).1 hunit⟩

theorem holds_unique (hs : s.Sound) {i : Handle} (hh : s.Holds name h) (hi : s.Holds name i) :
    h = i :=
  UnitOfWork.active.inj (((hs.active name h).2 hh).symm.trans ((hs.active name i).2 hi))

theorem begins (hs : s.Sound) {m : Manager M T} {context : Except ContextError Unit}
    (hready : UnitOfWork.Ready m context (s.hall.unit name) s.hall.room.manager) :
    s.Begins m context name := by
  obtain ⟨t, hopened, hbegin⟩ := begin_of_ready hready
  have hunit : ∀ n, (s.begin m context name).2.hall.unit n =
      if n = name then .active ⟨s.hall.room.cells.length⟩ else s.hall.unit n := fun n => by
    rw [hbegin]
    exact unit_insert ..
  have hsound : (s.begin m context name).2.Sound := hs.asked m context name fun b hb => .inr hb
  refine ⟨⟨s.hall.room.cells.length⟩, t, _, Prod.ext hopened rfl, ?_, fun n hn => ?_, ?_, hunit, ?_⟩
  · rw [hbegin]
  · exact Nat.lt_irrefl _ (hs.given _ hn)
  · exact (hsound.active _ _).1 ((hunit name).trans (if_pos rfl))
  · rw [hbegin]

theorem declines {m : Manager M T} {context : Except ContextError Unit}
    (hnot : ¬ UnitOfWork.Ready m context (s.hall.unit name) s.hall.room.manager) :
    s.Declines m context name := by
  obtain ⟨e, manager, hbegin, hmanager⟩ := begin_of_not_ready hnot
  unfold Declines
  rw [hbegin]
  exact ⟨e, manager, rfl, fun n => unit_insert_self .., rfl, hmanager⟩

theorem takes (hs : s.Sound) (hholds : s.Holds name h)
    (f : T → M → Except TransactionError Unit × M) : s.Takes f name h := by
  obtain ⟨t, hcell, hfinish⟩ := finish_of_holds hs hholds f
  unfold Takes
  rw [hfinish]
  refine ⟨t, hcell, rfl, fun n => unit_insert .., fun i => ?_⟩
  by_cases hi : i = h
  · subst hi
    exact (s.hall.room.cell_setCell i i none).trans
      (by rw [if_pos ⟨rfl, Room.lt_length_of_cell hcell⟩, if_pos rfl])
  · exact (Room.cell_setCell_of_ne hi none).trans (if_neg hi).symm

theorem refuses (hs : s.Sound) (hnot : ¬ s.Holds name h)
    (f : T → M → Except TransactionError Unit × M) : s.Refuses f name h := by
  unfold Refuses
  rw [finish_of_not_holds hs hnot]
  exact ⟨rfl, fun n => unit_insert_self .., rfl⟩

end Sound

/-! ### Handles that nobody holds any more -/

section

variable {s : Roster M T} {m : Manager M T} {h : Handle}

theorem dropped_after (hdropped : h ∈ s.dropped) (act : Act M T) : h ∈ (s.after m act).dropped := by
  cases act with
  | begin context name => exact hdropped
  | commit name i => exact hdropped
  | rollback name i => exact hdropped
  | enter context name => exact hdropped
  | leave ending name i =>
      by_cases hunderway : (name, i) ∈ s.underway
      · rwa [after, if_pos hunderway]
      · rwa [after, if_neg hunderway]
  | drop name i =>
      by_cases hunderway : (name, i) ∈ s.underway
      · rw [after, if_pos hunderway]
        exact List.mem_cons_of_mem _ hdropped
      · rwa [after, if_neg hunderway]
  | use i f => exact hdropped
  | change f => exact hdropped

theorem dropped_run (hdropped : h ∈ s.dropped) (acts : List (Act M T)) :
    h ∈ (s.run m acts).dropped := by
  induction acts generalizing s with
  | nil => exact hdropped
  | cons act acts ih => exact ih (dropped_after hdropped act)

/-- To the room, acts are what anybody can do to it. -/
theorem later_after (m : Manager M T) (s : Roster M T) (act : Act M T) :
    Room.Later m s.hall.room (s.after m act).hall.room := by
  cases act with
  | begin context name => exact .single (.begin context _)
  | commit name i => exact .single (.finish m.commit i _)
  | rollback name i => exact .single (.finish m.rollback i _)
  | enter context name => exact .single (.begin context _)
  | leave ending name i =>
      by_cases hunderway : (name, i) ∈ s.underway
      · rw [after, if_pos hunderway]
        have hroom : (s.leave m ending name i).hall.room =
            (UnitOfWork.finish (UnitOfWork.settling m ending) i (s.hall.unit name)
              s.hall.room).2.2 :=
          congrArg (·.room) (UnitOfWork.conclude_reach m (fun _ => ()) i ending ⟨_, _, ()⟩)
        rw [hroom]
        exact .single (.finish _ i _)
      · rw [after, if_neg hunderway]
        exact .refl
  | drop name i =>
      by_cases hunderway : (name, i) ∈ s.underway
      · rw [after, if_pos hunderway]
        exact .refl
      · rw [after, if_neg hunderway]
        exact .refl
  | use i f => exact .single (.use i fun manager t => ((), t.map (f manager)))
  | change f => exact .single (.change f)

theorem later_run (m : Manager M T) (s : Roster M T) (acts : List (Act M T)) :
    Room.Later m s.hall.room (s.run m acts).hall.room := by
  induction acts generalizing s with
  | nil => exact .refl
  | cons act acts ih => exact (later_after m s act).trans (ih _)

end

/-- **One transaction at a time.** Whatever was done in a hall, a unit holds at most one handle, and
it is active iff it holds one. It begins iff the context is active, it is idle, and the manager
opens a transaction. Committing and rolling back take the transaction of a handle iff the unit holds
it; with any other handle nothing happens. A dropped handle is of no use to any unit for ever, and a
closed one is closed for ever, to everybody. -/
theorem one_transaction_at_a_time (m : Manager M T) (manager : M) (acts : List (Act M T)) :
    let s := (start manager).run m acts
    (∀ name, (∀ h i, s.Holds name h → s.Holds name i → h = i) ∧
      ((s.hall.unit name).isActive = true ↔ ∃ h, s.Holds name h)) ∧
    (∀ context name,
      (UnitOfWork.Ready m context (s.hall.unit name) s.hall.room.manager →
        s.Begins m context name) ∧
      (¬ UnitOfWork.Ready m context (s.hall.unit name) s.hall.room.manager →
        s.Declines m context name)) ∧
    (∀ f name h, (s.Holds name h → s.Takes f name h) ∧ (¬ s.Holds name h → s.Refuses f name h)) ∧
    (∀ h ∈ s.dropped, ∀ more f name, (s.run m more).Refuses f name h) ∧
    ∀ b ∈ s.begun, s.hall.room.isOpen b.2 = false → ∀ more,
      let later := s.run m more
      later.hall.room.lock b.2 = .error .closed ∧
      (∀ {β : Type} (g : M → Option T → β × Option T),
        later.hall.room.use b.2 g = ((g later.hall.room.manager none).1, later.hall.room)) ∧
      ∀ f name, later.Refuses f name b.2 := by
  intro s
  have hs : s.Sound := (sound_start manager).run m acts
  refine ⟨fun name => ⟨fun h i => hs.holds_unique, hs.isActive_iff name⟩,
    fun context name => ⟨hs.begins, Sound.declines⟩,
    fun f name h => ⟨fun hholds => hs.takes hholds f, fun hnot => hs.refuses hnot f⟩,
    fun h hdropped more f name => ?_, fun b hb hclosed more => ?_⟩
  · exact (hs.run m more).refuses (fun hholds => hholds.kept (dropped_run hdropped more)) f
  · intro later
    have hnone : s.hall.room.cell b.2 = none :=
      Option.isNone_iff_eq_none.1 (Option.isSome_eq_false_iff.1 hclosed)
    have hcell : later.hall.room.cell b.2 = none :=
      ((later_run m s more).closed ⟨hs.given b hb, hnone⟩).cell
    refine ⟨by rw [Room.lock, hcell], Room.use_of_cell_eq_none hcell, fun f name => ?_⟩
    refine (hs.run m more).refuses (fun hholds => ?_) f
    have hisOpen := hholds.isOpen
    rw [Room.isOpen, hcell] at hisOpen
    exact Bool.false_ne_true hisOpen

/-- An execution that is dropped leaves its handle open, though its unit is idle. And an idle unit
with an active context does not begin if its manager refuses. -/
theorem open_after_drop_and_begin_refused :
    (¬ ∀ (acts : List (Act Store Transaction)) (name : String),
      let s := (start Store.empty).run .store acts
      (s.hall.unit name).isActive = true ↔
        ∃ h, (name, h) ∈ s.begun ∧ s.hall.room.isOpen h = true) ∧
    ¬ ∀ (acts : List (Act (Faults × Store) Transaction)) (context : Except ContextError Unit)
        (name : String),
      let m : Manager (Faults × Store) Transaction := Manager.store.faulty
      let s := (start ({}, Store.empty)).run m acts
      (∃ h, (s.begin m context name).1 = .ok h) ↔ context = .ok () ∧ s.hall.unit name = .idle := by
  refine ⟨fun hactive => ?_, fun hbegins => ?_⟩
  · have hopen := (hactive [.enter (.ok ()) "a", .drop "a" ⟨0⟩] "a").2
      ⟨⟨0⟩, by decide +kernel, by decide +kernel⟩
    revert hopen
    decide +kernel
  · have hready := (hbegins [.change fun s => ({ s.1 with begin := true }, s.2)] (.ok ()) "a").2
    obtain ⟨h, hbegun⟩ := hready ⟨rfl, by decide +kernel⟩
    have herror : ((start ({ begin := true }, Store.empty)).begin
        (Manager.store.faulty : Manager (Faults × Store) Transaction) (.ok ()) "a").1 =
          .error (.beginFailed "injected begin failure") := rfl
    cases herror.symm.trans hbegun

end Roster

end Hall

end Registrar
