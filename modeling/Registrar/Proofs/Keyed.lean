import Mathlib.Data.List.Nodup
import Registrar.Keyed

set_option autoImplicit false

/-! # Entries and look-ups

A map is determined by what is found under each key (`ext_get?`). Its entries are what is found
(`mem_entries_iff`), and with each key at most once the map of a list finds what the list holds
(`get?_ofList`). -/

namespace Registrar.Keyed

variable {α : Type}

theorem find?_eq_none_of_not_mem {k : String} {es : List (String × α)} (h : k ∉ es.map (·.1)) :
    find? k es = none := by
  induction es with
  | nil => rfl
  | cons e es ih =>
      obtain ⟨k', v⟩ := e
      simp only [List.map_cons, List.mem_cons, not_or] at h
      rw [find?, if_neg h.1, ih h.2]

/-- With each key at most once, the entries are what is found. -/
theorem find?_eq_some_iff {es : List (String × α)} (h : (es.map (·.1)).Nodup) (k : String) (v : α) :
    find? k es = some v ↔ (k, v) ∈ es := by
  induction es with
  | nil => simp [find?]
  | cons e es ih =>
      obtain ⟨k', v'⟩ := e
      rw [List.map_cons, List.nodup_cons] at h
      by_cases hk : k = k'
      · subst hk
        have hnot : (k, v) ∉ es := fun hm => h.1 (List.mem_map_of_mem (f := (·.1)) hm)
        simp only [find?, if_true, List.mem_cons, hnot, or_false, Option.some.injEq,
          Prod.mk.injEq, true_and]
        exact eq_comm
      · simp [find?, hk, ih h.2]

theorem nodup_keys (m : Keyed α) : (m.entries.map (·.1)).Nodup := by
  rw [List.Nodup, List.pairwise_map]
  -- Keys increase strictly, so none comes back.
  refine m.sorted.imp fun {a b} hlt heq => ?_
  rw [heq] at hlt
  exact String.lt_irrefl _ hlt

theorem mem_entries_iff {m : Keyed α} {k : String} {v : α} :
    (k, v) ∈ m.entries ↔ m.get? k = some v :=
  (find?_eq_some_iff m.nodup_keys k v).symm

theorem mem_values_iff {m : Keyed α} {v : α} : v ∈ m.values ↔ ∃ k, m.get? k = some v := by
  simp only [values, List.mem_map, Prod.exists, exists_eq_right, mem_entries_iff]

/-- Maps in which the same is found are the same. -/
theorem ext_get? {a b : Keyed α} (h : ∀ k, a.get? k = b.get? k) : a = b := by
  have hmem : ∀ e, e ∈ a.entries ↔ e ∈ b.entries := fun e => by
    rw [mem_entries_iff (k := e.1) (v := e.2), mem_entries_iff (k := e.1) (v := e.2), h e.1]
  have hperm : a.entries.Perm b.entries :=
    (List.perm_ext_iff_of_nodup (List.Nodup.of_map _ a.nodup_keys)
      (List.Nodup.of_map _ b.nodup_keys)).2 hmem
  -- Two sorted lists with the same members are the same list.
  refine ext_entries (hperm.eq_of_pairwise ?_ a.sorted b.sorted)
  intro x y _ _ hxy hyx
  exact absurd (String.lt_trans hxy hyx) (String.lt_irrefl _)

/-- What a repeated writing leaves under a key. -/
theorem get?_foldl_insert {es : List (String × α)} (h : (es.map (·.1)).Nodup) (m : Keyed α)
    (k : String) :
    (es.foldl (fun m e => m.insert e.1 e.2) m).get? k = (find? k es).or (m.get? k) := by
  induction es generalizing m with
  | nil => rfl
  | cons e es ih =>
      obtain ⟨k', v⟩ := e
      rw [List.map_cons, List.nodup_cons] at h
      rw [List.foldl_cons, ih h.2, get?_insert]
      by_cases hk : k = k'
      · subst hk
        simp [find?, find?_eq_none_of_not_mem h.1]
      · simp [find?, hk]

theorem get?_ofList {es : List (String × α)} (h : (es.map (·.1)).Nodup) (k : String) :
    (ofList es).get? k = find? k es := by
  rw [ofList, get?_foldl_insert h, get?_empty, Option.or_none]

/-- The map of a map's entries is that map. -/
theorem ofList_entries (m : Keyed α) : ofList m.entries = m :=
  ext_get? fun k => by rw [get?_ofList m.nodup_keys, get?]

/-- The entries with one key: the one that is found, if any. -/
theorem filter_entries (m : Keyed α) (k : String) :
    m.entries.filter (·.1 == k) = ((m.get? k).map (k, ·)).toList := by
  have hnodup := m.nodup_keys
  unfold get?
  -- The induction is on a list of entries: of their order only that keys differ is used.
  generalize m.entries = es at hnodup
  induction es with
  | nil => rfl
  | cons e es ih =>
      obtain ⟨k', v⟩ := e
      rw [List.map_cons, List.nodup_cons] at hnodup
      by_cases hk : k = k'
      · subst hk
        have hrest : es.filter (·.1 == k) = [] := by
          rw [ih hnodup.2, find?_eq_none_of_not_mem hnodup.1]
          rfl
        simp [find?, hrest]
      · simp [find?, hk, Ne.symm hk, ih hnodup.2]

end Registrar.Keyed
