import Registrar.Fault
import Registrar.Json

set_option autoImplicit false

/-! # The store

Named tables of JSON rows, each row under a string key. `Tables` is the committed state that every
reader sees; a `Store` adds the counts of finished transactions and a commit that is to fail.
Rows are kept in canonical form, and a table is scanned in key order. -/

namespace Registrar

/-- Why the store refuses. -/
inductive StoreError where
  | duplicateKey (table key : String)
  | versionMismatch (table key field : String) (expected : UInt64) (actual : Option UInt64)
  | codec (reason : String)
  deriving DecidableEq, Repr

def StoreError.message : StoreError → String
  | .duplicateKey table key => "duplicate key `" ++ key ++ "` in table `" ++ table ++ "`"
  | .versionMismatch table key field expected actual =>
      let found := match actual with
        | none => "None"
        | some n => "Some(" ++ toString n.toNat ++ ")"
      "row `" ++ key ++ "` in table `" ++ table ++ "` is at " ++ field ++ " " ++ found ++
        ", expected " ++ toString expected.toNat
  | .codec reason => "row codec error: " ++ reason

instance : Report StoreError where
  kind
    | .duplicateKey .. => "DuplicateKey"
    | .versionMismatch .. => "VersionMismatch"
    | .codec _ => "Codec"
  message := StoreError.message

/-- A row that does not decode. -/
def StoreError.undecodable : StoreError := .codec unexplained

/-! ## Tables -/

/-- The rows of every table. -/
abbrev Tables := Keyed (Keyed Json)

namespace Tables

/-- The rows of one table; a table never written to has none. -/
def table (ts : Tables) (name : String) : Keyed Json := (ts.get? name).getD Keyed.empty

def row? (ts : Tables) (table key : String) : Option Json := (ts.table table).get? key

def contains (ts : Tables) (table key : String) : Bool := (ts.row? table key).isSome

def set (ts : Tables) (table key : String) (row : Json) : Tables :=
  ts.insert table ((ts.table table).insert key row)

def remove (ts : Tables) (table key : String) : Tables :=
  ts.insert table ((ts.table table).erase key)

theorem table_insert (ts : Tables) (t u : String) (rows : Keyed Json) :
    Tables.table (ts.insert t rows) u = if u = t then rows else ts.table u := by
  by_cases h : u = t <;> simp [table, Keyed.get?_insert, h]

/-- A write changes the row that it names and no other. -/
theorem row?_set (ts : Tables) (t k u j : String) (row : Json) :
    (ts.set t k row).row? u j = if u = t ∧ j = k then some row else ts.row? u j := by
  by_cases hu : u = t
  · subst hu
    by_cases hj : j = k <;> simp [row?, set, table_insert, Keyed.get?_insert, hj]
  · simp [row?, set, table_insert, hu]

/-! ## Typed rows -/

/-- A row that must decode. -/
def decode {α : Type} (read : Json → Option α) (row : Json) : Except StoreError α :=
  match read row with
  | some a => .ok a
  | none => .error .undecodable

def get {α : Type} (read : Json → Option α) (ts : Tables) (table key : String) :
    Except StoreError (Option α) :=
  match ts.row? table key with
  | some row => (decode read row).map some
  | none => .ok none

/-- Every row of a table, in key order; one that does not decode fails the scan. -/
def scan {α : Type} (read : Json → Option α) (ts : Tables) (table : String) :
    Except StoreError (List α) :=
  (ts.table table).values.mapM (decode read)

/-- Decodes a row, changes it and puts it back; `none` when there is no such row. -/
def modify {α β ε : Type} (read : Json → Option α) (write : α → Json) (refused : StoreError → ε)
    (ts : Tables) (table key : String) (change : α → Except ε (β × α)) :
    Except ε (Option β × Tables) :=
  match ts.row? table key with
  | none => .ok (none, ts)
  | some row => do
      let a ← (decode read row).mapError refused
      let (b, a) ← change a
      return (some b, ts.set table key (write a).canonical)

end Tables

/-! ## Stores -/

structure Store where
  tables : Tables
  commits : Nat
  rollbacks : Nat
  failNextCommit : Bool
  deriving DecidableEq

namespace Store

/-- A store without rows. -/
def empty : Store := ⟨Keyed.empty, 0, 0, false⟩

/-- Makes the next commit fail. -/
def injectCommitFailure (s : Store) : Store := { s with failNextCommit := true }

end Store

end Registrar
