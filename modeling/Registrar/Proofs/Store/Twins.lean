import Mathlib.Data.List.Forall2
import Registrar.Proofs.InStep
import Registrar.Proofs.Keyed
import Registrar.Proofs.Store.Transaction
import Registrar.Proofs.UnitOfWork

set_option autoImplicit false

/-! # Stores with related rows

Two stores are twins if the same keys have rows and these are related, however rows of a table are
related. Staging, committing and rolling back look at keys and guards alone, so twins are worked on
in step as long as guards do not tell related rows apart (`GuardBlind`): the same staging is refused
with the same error, the same commit goes through, and twins are left
(`UnitOfWork.alone_inStep`). -/

namespace Registrar

/-- The number that a guard reads is the same in related rows. -/
def GuardBlind (R : String → Json → Json → Prop) : Prop :=
  ∀ {table row row'}, R table row row' →
    ∀ field, versionOf field (some row) = versionOf field (some row')

variable {R : String → Json → Json → Prop}

/-! ## Tables -/

theorem isSome_eq_of_rel {α : Type} {Q : α → α → Prop} {o o' : Option α} (h : Option.Rel Q o o') :
    o.isSome = o'.isSome := by
  cases h with
  | none => rfl
  | some _ => rfl

theorem eq_of_rel {α : Type} {Q : α → α → Prop} {o o' : Option α} (h : Option.Rel Q o o')
    (hQ : ∀ {a a'}, Q a a' → a = a') : o = o' := by
  cases h with
  | none => rfl
  | some ha => rw [hQ ha]

/-- The same keys have rows, and these are related. -/
def Tables.Twins (R : String → Json → Json → Prop) (ts ts' : Tables) : Prop :=
  ∀ table key, Option.Rel (R table) (ts.row? table key) (ts'.row? table key)

namespace Tables.Twins

variable {ts ts' : Tables}

theorem set (h : ts.Twins R ts') {table : String} (key : String) {row row' : Json}
    (hrow : R table row row') : (ts.set table key row).Twins R (ts'.set table key row') := by
  intro t k
  rw [Tables.row?_set, Tables.row?_set]
  by_cases hk : t = table ∧ k = key
  · rw [if_pos hk, if_pos hk, hk.1]
    exact .some hrow
  · rw [if_neg hk, if_neg hk]
    exact h t k

/-- A table whose rows are related only to themselves is the same in both. -/
theorem table_eq (h : ts.Twins R ts') {table : String}
    (hsame : ∀ {row row'}, R table row row' → row = row') : ts.table table = ts'.table table :=
  Keyed.ext_get? fun key => eq_of_rel (h table key) hsame

end Tables.Twins

/-- Related rows pass the same guards. -/
theorem Guard.check_twins (hR : GuardBlind R) (g : Guard) {table : String} (key : String)
    {row row' : Option Json} (h : Option.Rel (R table) row row') :
    g.check table key row = g.check table key row' := by
  cases h with
  | none => rfl
  | some hrow =>
      cases g with
      | unguarded => rfl
      | absent => rfl
      | version field expected => simp only [check, hR hrow field]

/-! ## Transactions -/

/-- The same write of a related row. -/
inductive Write.Twins (R : String → Json → Json → Prop) : Write → Write → Prop
  | intro (table key : String) (guard : Guard) {row row' : Json} (h : R table row row') :
      Twins R ⟨table, key, row, guard⟩ ⟨table, key, row', guard⟩

/-- The same writes of related rows. -/
def Transaction.Twins (R : String → Json → Json → Prop) (tx tx' : Transaction) : Prop :=
  List.Forall₂ (Write.Twins R) tx.writes tx'.writes

/-- Twin transactions behind two handles. -/
inductive Transaction.Open (R : String → Json → Json → Prop) :
    Option Transaction → Option Transaction → Prop
  | intro {tx tx' : Transaction} (h : tx.Twins R tx') : Open R (some tx) (some tx')

namespace Transaction

variable {ts ts' : Tables} {tx tx' : Transaction}

theorem Twins.empty : Transaction.empty.Twins R .empty := .nil

theorem applyWrites_twins {ws ws' : List Write} (h : List.Forall₂ (Write.Twins R) ws ws')
    (hts : ts.Twins R ts') : (applyWrites ts ws).Twins R (applyWrites ts' ws') := by
  induction h generalizing ts ts' with
  | nil => exact hts
  | cons hw _ ih =>
      obtain ⟨table, key, guard, hrow⟩ := hw
      exact ih (hts.set key hrow)

theorem checkGuards_twins (hR : GuardBlind R) {ws ws' : List Write}
    (h : List.Forall₂ (Write.Twins R) ws ws') (hts : ts.Twins R ts') :
    checkGuards ts ws = checkGuards ts' ws' := by
  induction h with
  | nil => rfl
  | cons hw _ ih =>
      obtain ⟨table, key, guard, hrow⟩ := hw
      simp only [checkGuards, ih, guard.check_twins hR key (hts table key)]

/-- Twins see related rows: what a transaction sees is what its writes would leave. -/
theorem Twins.row? (h : tx.Twins R tx') (hts : ts.Twins R ts') (table key : String) :
    Option.Rel (R table) (tx.row? ts table key) (tx'.row? ts' table key) := by
  rw [← row?_applyWrites, ← row?_applyWrites]
  exact applyWrites_twins h hts table key

theorem Twins.stage (h : tx.Twins R tx') {table : String} (key : String) {row row' : Json}
    (hrow : R table row.canonical row'.canonical) (guard : Guard) :
    (tx.stage table key row guard).Twins R (tx'.stage table key row' guard) :=
  List.rel_append h (.cons ⟨table, key, guard, hrow⟩ .nil)

theorem Twins.insert (h : tx.Twins R tx') (hts : ts.Twins R ts') {table : String} (key : String)
    {row row' : Json} (hrow : R table row.canonical row'.canonical) :
    SameResult (Transaction.Twins R) (tx.insert ts table key row)
      (tx'.insert ts' table key row') := by
  unfold Transaction.insert
  rw [isSome_eq_of_rel (h.row? hts table key)]
  split
  · exact .error _
  · exact .ok (h.stage key hrow .absent)

theorem Twins.putVersioned (hR : GuardBlind R) (h : tx.Twins R tx') (hts : ts.Twins R ts')
    {table : String} (key : String) {row row' : Json} (hrow : R table row.canonical row'.canonical)
    (field : String) (expected : UInt64) :
    SameResult (Transaction.Twins R) (tx.putVersioned ts table key row field expected)
      (tx'.putVersioned ts' table key row' field expected) := by
  simp only [Transaction.putVersioned]
  rw [(Guard.version field expected).check_twins hR key (hts table key)]
  cases (Guard.version field expected).check table key (ts'.row? table key) with
  | error e => exact .error e
  | ok _ => exact .ok (h.stage key hrow _)

end Transaction

/-! ## Stores -/

/-- Twin tables, after as many commits and rollbacks. -/
inductive Store.Twins (R : String → Json → Json → Prop) : Store → Store → Prop
  | intro {ts ts' : Tables} (h : ts.Twins R ts') (commits rollbacks : Nat)
      (failNextCommit : Bool) :
      Twins R ⟨ts, commits, rollbacks, failNextCommit⟩ ⟨ts', commits, rollbacks, failNextCommit⟩

namespace Store.Twins

variable {s s' : Store} {tx tx' : Transaction}

theorem empty : Store.empty.Twins R .empty := ⟨fun _ _ => .none, 0, 0, false⟩

theorem tables (h : s.Twins R s') : s.tables.Twins R s'.tables := by
  obtain ⟨hts, _, _, _⟩ := h
  exact hts

/-- The same change of the tables leaves twins. -/
theorem with_tables (h : s.Twins R s') {ts ts' : Tables} (hts : ts.Twins R ts') :
    Store.Twins R { s with tables := ts } { s' with tables := ts' } := by
  obtain ⟨_, commits, rollbacks, failNextCommit⟩ := h
  exact ⟨hts, commits, rollbacks, failNextCommit⟩

theorem commit (hR : GuardBlind R) (h : s.Twins R s') (htx : tx.Twins R tx') :
    InStep (Store.Twins R) (tx.commit s) (tx'.commit s') := by
  obtain ⟨hts, commits, rollbacks, failNextCommit⟩ := h
  unfold Transaction.commit
  cases failNextCommit with
  | true => exact .still ⟨hts, commits, rollbacks, false⟩ _
  | false =>
      simp only [Bool.false_eq_true, if_false, Transaction.apply,
        Transaction.checkGuards_twins hR htx hts]
      cases Transaction.checkGuards _ tx'.writes with
      | error e => exact .still ⟨hts, commits, rollbacks, false⟩ _
      | ok _ =>
          exact .still ⟨Transaction.applyWrites_twins htx hts, commits + 1, rollbacks, false⟩ _

theorem rollback (h : s.Twins R s') : (tx.rollback s).2.Twins R (tx'.rollback s').2 := by
  obtain ⟨hts, commits, rollbacks, failNextCommit⟩ := h
  exact ⟨hts, commits, rollbacks + 1, failNextCommit⟩

theorem settle (hR : GuardBlind R) (h : s.Twins R s') (htx : tx.Twins R tx') {ε : Type}
    (refused : TransactionError → ε) (result : Except ε Unit) :
    InStep (Store.Twins R) (UnitOfWork.settle refused result tx s)
      (UnitOfWork.settle refused result tx' s') := by
  cases result with
  | error e => exact .still h.rollback _
  | ok _ =>
      have hcommit := h.commit hR htx
      exact ⟨congrArg (Except.mapError refused) hcommit.answer, hcommit.left⟩

end Store.Twins

/-! ## Rooms -/

/-- Twin stores in rooms with the same cells. -/
inductive Room.Twins (R : String → Json → Json → Prop) :
    Room Store Transaction → Room Store Transaction → Prop
  | intro {s s' : Store} (h : s.Twins R s') (cells : List (Option Transaction)) :
      Twins R ⟨s, cells⟩ ⟨s', cells⟩

theorem Room.Twins.manager {room room' : Room Store Transaction} (h : room.Twins R room') :
    room.manager.Twins R room'.manager := by
  obtain ⟨hs, _⟩ := h
  exact hs

/-- **Units of work on twins run in step** if their bodies stage twins into an empty transaction. -/
theorem UnitOfWork.alone_inStep (hR : GuardBlind R) {ε : Type} (context : Except ContextError Unit)
    (refused : TransactionError → ε)
    {body body' : Store → Option Transaction → Except ε Unit × Option Transaction}
    {room room' : Room Store Transaction} (h : room.Twins R room')
    (hbody : ∀ {s s' : Store}, s.Twins R s' →
      InStep (Transaction.Open R) (body s (some .empty)) (body' s' (some .empty))) :
    InStep (Room.Twins R) (alone .store context refused body room)
      (alone .store context refused body' room') := by
  obtain ⟨hs, cells⟩ := h
  obtain ⟨result, _, _, hstage, hstage', ⟨htx⟩⟩ := (hbody hs).spread
  rw [alone_store hstage, alone_store hstage']
  cases context with
  | error e => exact .still ⟨hs, cells⟩ _
  | ok _ =>
      have hsettle := hs.settle hR htx refused result
      exact ⟨hsettle.answer, ⟨hsettle.left, cells ++ [none]⟩⟩

end Registrar
