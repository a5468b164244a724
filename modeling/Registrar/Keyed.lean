set_option autoImplicit false

/-! # Maps from strings, in key order

A `Keyed α` is a finite map whose keys are strings. Its entries are kept in increasing key order,
so two maps with the same entries are equal, and listing a map lists it by key. Strings compare
code point by code point, which is also the order of their UTF-8 bytes. -/

namespace Registrar

/-- Entries in strictly increasing key order. -/
structure Keyed (α : Type) where
  entries : List (String × α)
  sorted : entries.Pairwise (fun a b => a.1 < b.1)

namespace Keyed

variable {α : Type}

instance [DecidableEq α] : DecidableEq (Keyed α) := fun a b =>
  decidable_of_iff (a.entries = b.entries) (by cases a; cases b; simp)

/-! ## Entry lists -/

/-- Sets the value at `k`, keeping the order. -/
def put (k : String) (v : α) : List (String × α) → List (String × α)
  | [] => [(k, v)]
  | (k', v') :: es =>
      if k < k' then (k, v) :: (k', v') :: es
      else if k' < k then (k', v') :: put k v es
      else (k, v) :: es

/-- The value at the first entry with key `k`. -/
def find? (k : String) : List (String × α) → Option α
  | [] => none
  | (k', v) :: es => if k = k' then some v else find? k es

theorem mem_put {k : String} {v : α} {es : List (String × α)} {e : String × α}
    (h : e ∈ put k v es) : e = (k, v) ∨ e ∈ es := by
  induction es with
  | nil => simpa [put] using h
  | cons x es ih =>
    obtain ⟨k', v'⟩ := x
    simp only [put] at h
    split at h
    · simpa using h
    · split at h
      · rcases List.mem_cons.1 h with h | h
        · exact .inr (h ▸ List.mem_cons_self)
        · exact (ih h).imp_right (List.mem_cons_of_mem _)
      · exact (List.mem_cons.1 h).imp_right (List.mem_cons_of_mem _)

theorem sorted_put (k : String) (v : α) {es : List (String × α)}
    (h : es.Pairwise (fun a b => a.1 < b.1)) : (put k v es).Pairwise (fun a b => a.1 < b.1) := by
  induction es with
  | nil => simp [put]
  | cons x es ih =>
    obtain ⟨k', v'⟩ := x
    have htail := (List.pairwise_cons.1 h).2
    have hhead := (List.pairwise_cons.1 h).1
    simp only [put]
    split
    · rename_i hlt
      refine List.pairwise_cons.2 ⟨fun e he => ?_, h⟩
      rcases List.mem_cons.1 he with rfl | he
      · exact hlt
      · exact String.lt_trans hlt (hhead e he)
    · split
      · rename_i hlt
        refine List.pairwise_cons.2 ⟨fun e he => ?_, ih htail⟩
        rcases mem_put he with rfl | he
        · exact hlt
        · exact hhead e he
      · rename_i h1 h2
        obtain rfl : k = k' := String.le_antisymm h2 h1
        exact List.pairwise_cons.2 ⟨hhead, htail⟩

/-! ## Operations -/

/-- The map without entries. -/
def empty : Keyed α := ⟨[], .nil⟩

instance : Inhabited (Keyed α) := ⟨empty⟩

/-- The value at a key. -/
def get? (m : Keyed α) (k : String) : Option α := find? k m.entries

def contains (m : Keyed α) (k : String) : Bool := (m.get? k).isSome

/-- Sets the value at a key. -/
def insert (m : Keyed α) (k : String) (v : α) : Keyed α :=
  ⟨put k v m.entries, sorted_put k v m.sorted⟩

/-- Takes a key out. -/
def erase (m : Keyed α) (k : String) : Keyed α :=
  ⟨m.entries.filter (·.1 != k), m.sorted.filter _⟩

/-- The map of a list of entries, in which **the last value of a repeated key stands**. -/
def ofList (es : List (String × α)) : Keyed α := es.foldl (fun m e => m.insert e.1 e.2) empty

def size (m : Keyed α) : Nat := m.entries.length

/-- The values in key order. -/
def values (m : Keyed α) : List α := m.entries.map (·.2)

/-! ## What the operations do to the entries read by key -/

theorem ext_entries {a b : Keyed α} (h : a.entries = b.entries) : a = b := by
  cases a; cases b; cases h; rfl

@[simp] theorem get?_empty (k : String) : (empty : Keyed α).get? k = none := rfl

theorem find?_put (k j : String) (v : α) (es : List (String × α)) :
    find? j (put k v es) = if j = k then some v else find? j es := by
  induction es with
  | nil => simp [put, find?]
  | cons x es ih =>
    obtain ⟨k', v'⟩ := x
    simp only [put]
    split
    · rfl
    · split
      · rename_i hlt
        have hne : k' ≠ k := by rintro rfl; exact String.lt_irrefl _ hlt
        by_cases hj : j = k'
        · subst hj; simp [find?, hne]
        · simp [find?, hj, ih]
      · rename_i h1 h2
        obtain rfl : k = k' := String.le_antisymm h2 h1
        by_cases hj : j = k <;> simp [find?, hj]

theorem find?_filter_ne (k j : String) (es : List (String × α)) :
    find? j (es.filter (·.1 != k)) = if j = k then none else find? j es := by
  induction es with
  | nil => simp [find?]
  | cons x es ih =>
    obtain ⟨k', v'⟩ := x
    by_cases hk : k' = k
    · subst hk
      by_cases hj : j = k'
      · subst hj; simpa using ih
      · simp [find?, hj, ih]
    · by_cases hj : j = k'
      · subst hj; simp [find?, hk]
      · simp [find?, hk, hj, ih]

/-- After a write at `k` the map holds the new value there and its old values elsewhere. -/
theorem get?_insert (m : Keyed α) (k j : String) (v : α) :
    (m.insert k v).get? j = if j = k then some v else m.get? j :=
  find?_put k j v m.entries

theorem get?_erase (m : Keyed α) (k j : String) :
    (m.erase k).get? j = if j = k then none else m.get? j :=
  find?_filter_ne k j m.entries

end Keyed

end Registrar
