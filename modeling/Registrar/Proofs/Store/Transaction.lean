import Registrar.Proofs.Success
import Registrar.Store.Transaction

set_option autoImplicit false

/-! # What a transaction leaves

A transaction that commits leaves exactly the rows that it saw itself (`row?_applyWrites`), and it
commits only if every guard holds; otherwise the tables stay as they are (`commit_cases`). What the
reading and the modifying of single rows do when they succeed comes first. -/

namespace Registrar

/-! ## Tables -/

namespace Tables

theorem decode_succeeds_iff {α : Type} {read : Json → Option α} {row : Json} {a : α} :
    decode read row = .ok a ↔ read row = some a := by
  unfold decode
  cases read row with
  | none => simp
  | some a' => simp

theorem get_succeeds_iff {α : Type} {read : Json → Option α} {ts : Tables} {t k : String} {a : α} :
    ts.get read t k = .ok (some a) ↔ ∃ row, ts.row? t k = some row ∧ read row = some a := by
  unfold get
  cases ts.row? t k with
  | none => simp
  | some row => simp [map_succeeds_iff, decode_succeeds_iff]

/-- A modification of a row that is there puts back what the change made of it. -/
theorem modify_succeeds_iff {α β ε : Type} {read : Json → Option α} {write : α → Json}
    {refused : StoreError → ε} {ts ts' : Tables} {t k : String} {change : α → Except ε (β × α)}
    {b : β} :
    ts.modify read write refused t k change = .ok (some b, ts') ↔
      ∃ row a a', ts.row? t k = some row ∧ read row = some a ∧ change a = .ok (b, a') ∧
        ts' = ts.set t k (write a').canonical := by
  unfold modify
  cases ts.row? t k with
  | none => simp
  | some row =>
      constructor
      · intro h
        obtain ⟨a, hread, hrest⟩ := bind_succeeds_iff.1 h
        obtain ⟨⟨b', a'⟩, hchange, hput⟩ := bind_succeeds_iff.1 hrest
        obtain ⟨rfl, rfl⟩ : b' = b ∧ ts.set t k (write a').canonical = ts' := by
          simpa using pure_succeeds_iff.1 hput
        exact ⟨row, a, a', rfl, decode_succeeds_iff.1 (mapError_succeeds_iff.1 hread), hchange, rfl⟩
      · rintro ⟨row', a, a', hrow, hread, hchange, rfl⟩
        obtain rfl := Option.some.inj hrow
        refine bind_succeeds_iff.2 ⟨a, ?_, ?_⟩
        · exact mapError_succeeds_iff.2 (decode_succeeds_iff.2 hread)
        · exact bind_succeeds_iff.2 ⟨(b, a'), hchange, rfl⟩

end Tables

/-! ## Guards -/

namespace Guard

theorem check_absent_eq_ok_iff {table key : String} {committed : Option Json} :
    absent.check table key committed = .ok () ↔ committed = none := by
  cases committed <;> simp [check]

theorem check_version_eq_ok_iff {table key field : String} {v : UInt64} {committed : Option Json} :
    (version field v).check table key committed = .ok () ↔ versionOf field committed = some v := by
  simp only [check]
  split
  · next h => simp [h]
  · next h => simp [h]

end Guard

namespace Transaction

theorem checkGuards_eq_ok_iff {ts : Tables} {ws : List Write} :
    checkGuards ts ws = .ok () ↔
      ∀ w ∈ ws, w.guard.check w.table w.key (ts.row? w.table w.key) = .ok () := by
  induction ws with
  | nil => simp [checkGuards]
  | cons w ws ih =>
      rw [checkGuards, List.forall_mem_cons, ← ih]
      exact check_succeeds_iff

theorem checkGuards_append {ts : Tables} {ws vs : List Write} :
    checkGuards ts (ws ++ vs) = .ok () ↔
      checkGuards ts ws = .ok () ∧ checkGuards ts vs = .ok () := by
  simp only [checkGuards_eq_ok_iff, List.forall_mem_append]

/-! ## Reading and staging -/

@[simp] theorem row?_empty (ts : Tables) (t k : String) : empty.row? ts t k = ts.row? t k := rfl

/-- A transaction sees the row that it staged last. -/
theorem row?_stage (tx : Transaction) (ts : Tables) (t k u j : String) (row : Json) (g : Guard) :
    (tx.stage t k row g).row? ts u j =
      if u = t ∧ j = k then some row.canonical else tx.row? ts u j := by
  unfold row? staged? stage
  rw [List.reverse_append, List.reverse_singleton, List.singleton_append, List.find?_cons]
  by_cases h : u = t ∧ j = k
  · rw [if_pos h]
    simp [h.1, h.2]
  · rw [if_neg h]
    have hne : (decide (t = u) && decide (k = j)) = false := by
      rw [Bool.and_eq_false_iff, decide_eq_false_iff_not, decide_eq_false_iff_not]
      by_cases ht : t = u
      · exact .inr fun hk => h ⟨ht.symm, hk.symm⟩
      · exact .inl ht
    simp [hne]

/-- A transaction that stages more reads its own last write first. -/
theorem staged?_append (tx : Transaction) (ws : List Write) (t k : String) :
    (Transaction.mk (tx.writes ++ ws)).staged? t k =
      ((Transaction.mk ws).staged? t k).orElse fun _ => tx.staged? t k := by
  unfold staged?
  rw [List.reverse_append, List.find?_append]
  cases ws.reverse.find? fun w => w.table = t && w.key = k with
  | none => rfl
  | some w => rfl

theorem staged?_of_other {ws : List Write} {t : String} (h : ∀ w ∈ ws, w.table ≠ t) (k : String) :
    (Transaction.mk ws).staged? t k = none := by
  unfold staged?
  rw [Option.map_eq_none_iff, List.find?_eq_none]
  intro w hw hfound
  have hsame : w.table = t ∧ w.key = k := by simpa using hfound
  exact h w (List.mem_reverse.1 hw) hsame.1

theorem insert_eq_ok_iff {tx tx' : Transaction} {ts : Tables} {t k : String} {row : Json} :
    tx.insert ts t k row = .ok tx' ↔ tx.row? ts t k = none ∧ tx' = tx.stage t k row .absent := by
  unfold insert
  cases tx.row? ts t k with
  | none => simp [eq_comm]
  | some j => simp

theorem putVersioned_eq_ok_iff {tx tx' : Transaction} {ts : Tables} {t k field : String}
    {row : Json} {v : UInt64} :
    tx.putVersioned ts t k row field v = .ok tx' ↔
      versionOf field (ts.row? t k) = some v ∧ tx' = tx.stage t k row (.version field v) := by
  have hcheck : (Guard.version field v).check t k (ts.row? t k) = .ok () ↔ _ :=
    Guard.check_version_eq_ok_iff
  rw [← hcheck]
  constructor
  · intro h
    obtain ⟨hguard, hstaged⟩ := check_succeeds_iff.1 h
    exact ⟨hguard, (pure_succeeds_iff.1 hstaged).symm⟩
  · rintro ⟨hguard, rfl⟩
    exact check_succeeds_iff.2 ⟨hguard, rfl⟩

/-! ## Applying and committing -/

/-- **The tables hold afterwards what the transaction saw.** -/
theorem row?_applyWrites (ts : Tables) (ws : List Write) (t k : String) :
    (applyWrites ts ws).row? t k = (Transaction.mk ws).row? ts t k := by
  induction ws generalizing ts with
  | nil => rfl
  | cons w ws ih =>
      rw [applyWrites, ih]
      unfold row? staged?
      rw [List.reverse_cons, List.find?_append]
      -- A later write to the row wins; otherwise the first one counts.
      cases ws.reverse.find? fun w => w.table = t && w.key = k with
      | some w' => rfl
      | none =>
          rw [Tables.row?_set]
          by_cases h : t = w.table ∧ k = w.key
          · simp [h.1, h.2]
          · have hne : ¬ (w.table = t ∧ w.key = k) := fun hw => h ⟨hw.1.symm, hw.2.symm⟩
            simp [h, hne]

/-- A commit applies all writes, under guards that all hold, or changes no table. -/
theorem commit_cases (tx : Transaction) (s : Store) :
    (∃ e s', tx.commit s = (.error e, s') ∧ s'.tables = s.tables) ∨
    (∃ s', tx.commit s = (.ok (), s') ∧ checkGuards s.tables tx.writes = .ok () ∧
      s'.tables = applyWrites s.tables tx.writes) := by
  unfold commit
  split
  · exact .inl ⟨_, _, rfl, rfl⟩
  · unfold apply
    cases checkGuards s.tables tx.writes with
    | error e => exact .inl ⟨_, _, rfl, rfl⟩
    | ok u => exact .inr ⟨_, rfl, rfl, rfl⟩

/-- A commit goes through exactly when every guard holds and it is not made to fail. -/
theorem commit_succeeds_iff (tx : Transaction) (s : Store) :
    (tx.commit s).1 = .ok () ↔
      s.failNextCommit = false ∧ checkGuards s.tables tx.writes = .ok () := by
  unfold commit
  cases s.failNextCommit with
  | true => simp
  | false =>
      unfold apply
      cases checkGuards s.tables tx.writes with
      | error e => simp [bind, Except.bind]
      | ok u => simp [bind, Except.bind, pure, Except.pure]

theorem row?_commit {tx : Transaction} {s : Store} (h : (tx.commit s).1 = .ok ()) (t k : String) :
    (tx.commit s).2.tables.row? t k = tx.row? s.tables t k := by
  rcases tx.commit_cases s with ⟨e, s', hcommit, -⟩ | ⟨s', hcommit, -, htables⟩
  · rw [hcommit] at h
    cases h
  · rw [hcommit]
    show s'.tables.row? t k = tx.row? s.tables t k
    rw [htables, row?_applyWrites]

theorem tables_of_commit_refused {tx : Transaction} {s : Store} (h : (tx.commit s).1 ≠ .ok ()) :
    (tx.commit s).2.tables = s.tables := by
  rcases tx.commit_cases s with ⟨e, s', hcommit, htables⟩ | ⟨s', hcommit, -, -⟩
  · rw [hcommit]
    exact htables
  · exact absurd (congrArg Prod.fst hcommit) h

end Transaction

end Registrar
