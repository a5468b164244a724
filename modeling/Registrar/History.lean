import Registrar.Event

set_option autoImplicit false

/-! # Versions and pending events

An aggregate counts the events it ever recorded, its version, and keeps those that were not taken
for storing yet. The difference is the version under which it is stored. -/

namespace Registrar

/-- The version of an aggregate and its events not yet taken, oldest first. -/
structure History where
  version : UInt64
  pending : List Event
  deriving DecidableEq

namespace History

/-- A history of `version` events that are all stored. -/
def stored (version : UInt64) : History := ⟨version, []⟩

/-- Adds an event to those pending, whatever the version. -/
def push (h : History) (e : Event) : History := { h with pending := h.pending ++ [e] }

/-- The history of an aggregate that has recorded its first event. -/
def begun (e : Event) : History := ⟨1, [e]⟩

/-- Adds an event and counts it. **Counting past the greatest version panics.** -/
def record (h : History) (e : Event) : Except PanicPayload History :=
  if h.version.toNat + 1 < UInt64.size then .ok { h.push e with version := h.version + 1 }
  else .error .countOverflow

/-- Takes the pending events out. -/
def take (h : History) : List Event × History := (h.pending, { h with pending := [] })

/-- The version less the pending events, at least zero. -/
def persistedVersion (h : History) : UInt64 :=
  if h.version.toNat ≤ h.pending.length then 0 else h.version - UInt64.ofNat h.pending.length

theorem record_eq_error_iff {h : History} {e : Event} {p : PanicPayload} :
    h.record e = .error p ↔ h.version.toNat + 1 = UInt64.size ∧ p = .countOverflow := by
  have bound := h.version.toNat_lt_size
  unfold record
  split
  · next room => simp [Nat.ne_of_lt room]
  · next full =>
      have last : h.version.toNat + 1 = UInt64.size := by omega
      simp [last, eq_comm]

theorem record_of_room {h : History} (room : h.version.toNat + 1 < UInt64.size) (e : Event) :
    h.record e = .ok ⟨h.version + 1, h.pending ++ [e]⟩ := if_pos room

/-- Counting does not wrap around as long as there is room. -/
theorem toNat_version_succ {v : UInt64} (room : v.toNat + 1 < UInt64.size) :
    (v + 1).toNat = v.toNat + 1 := by
  rw [UInt64.toNat_add]
  exact Nat.mod_eq_of_lt room

/-- The version that was there before the pending events were counted. -/
theorem persistedVersion_of_counted {h : History} {v : UInt64}
    (counted : h.version.toNat = v.toNat + h.pending.length) : h.persistedVersion = v := by
  have bound := h.version.toNat_lt_size
  apply UInt64.toNat_inj.1
  rw [persistedVersion]
  split
  · show 0 = v.toNat
    omega
  · have length : (UInt64.ofNat h.pending.length).toNat = h.pending.length :=
      UInt64.toNat_ofNat_of_lt' (by omega)
    have le : UInt64.ofNat h.pending.length ≤ h.version := by
      rw [UInt64.le_iff_toNat_le]
      omega
    rw [UInt64.toNat_sub_of_le _ _ le]
    omega

end History

/-! ## Optimistic concurrency -/

/-- What a writer demands of the stored version. -/
inductive ExpectedVersion where
  | any
  | exactly (v : UInt64)
  deriving DecidableEq, Repr

namespace ExpectedVersion

def accepts : ExpectedVersion → UInt64 → Bool
  | .any, _ => true
  | .exactly v, actual => v == actual

def describe : ExpectedVersion → String
  | .any => "Any"
  | .exactly v => "Exact(" ++ toString v.toNat ++ ")"

/-- Fails with a conflict unless the version is accepted. -/
def check (e : ExpectedVersion) (actual : UInt64) : Except DomainError Unit :=
  if e.accepts actual then .ok ()
  else .error (.conflict ("optimistic concurrency check failed (expected: " ++ e.describe ++
    ", actual: " ++ toString actual.toNat ++ ")"))

end ExpectedVersion

end Registrar
