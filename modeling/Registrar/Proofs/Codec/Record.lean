import Registrar.Outbox.Row
import Registrar.Proofs.Codec.Instant
import Registrar.Proofs.Codec.Uuid
import Registrar.Proofs.Keyed
import Registrar.User

set_option autoImplicit false

/-! # Records read back

A stored record is its JSON in canonical form, an event on the wire its JSON as written. Events,
users and outbox rows read back from either form (`ofJson?_toJson`, `ofJson?_canonical`), with each
of their times as its text says (`asRead`). So a record in civil time reads back as it is, and every
record that is read at all is in civil time.

Both forms of an object hand the reader of a record the same fields, the canonical one with
canonical values (`record?_obj`, `record?_canonical`); the parts of our records are canonical as
they are. -/

namespace Registrar

namespace Json

/-! ## Objects -/

theorem canonicalFields_eq_map (fields : List (String × Json)) :
    canonicalFields fields = fields.map fun e => (e.1, e.2.canonical) := by
  induction fields with
  | nil => rfl
  | cons e fields ih => obtain ⟨k, v⟩ := e; simp [canonicalFields, ih]

theorem canonicalItems_eq_map (items : List Json) : canonicalItems items = items.map canonical := by
  induction items with
  | nil => rfl
  | cons x items ih => simp [canonicalItems, ih]

theorem keys_canonicalFields (fields : List (String × Json)) :
    (canonicalFields fields).map (·.1) = fields.map (·.1) := by
  simp [canonicalFields_eq_map, Function.comp_def]

/-- A field of an object in canonical form. -/
theorem field?_canonical {fields : List (String × Json)} (h : (fields.map (·.1)).Nodup)
    (name : String) :
    (obj fields).canonical.field? name = Keyed.find? name (canonicalFields fields) := by
  rw [canonical, field?]
  exact Keyed.get?_ofList (by rwa [keys_canonicalFields]) name

theorem mapM_eq_some_map {α β : Type} {l : List α} {f : α → Option β} {g : α → β}
    (h : ∀ a ∈ l, f a = some (g a)) : l.mapM f = some (l.map g) := by
  induction l with
  | nil => rfl
  | cons a l ih =>
      rw [List.mapM_cons, h a List.mem_cons_self, ih fun b hb => h b (List.mem_cons_of_mem _ hb)]
      rfl

/-- A record is read from the object that was written for it. -/
theorem record?_obj {names : List String} {fields : List (String × Json)}
    (hn : fields.map (·.1) = names) (h : names.Nodup) :
    (obj fields).record? names = some (fields.map fun e => some e.2) := by
  -- Names differ, so each picks its own field and no other.
  have key : ∀ e ∈ fields, fields.filter (·.1 == e.1) = [e] := by
    rw [← hn] at h
    clear hn
    induction fields with
    | nil => simp
    | cons x fields ih =>
        rw [List.map_cons, List.nodup_cons] at h
        have hne : ∀ e ∈ fields, ¬ x.1 = e.1 := fun e he heq =>
          h.1 (heq ▸ List.mem_map_of_mem (f := (·.1)) he)
        intro e he
        rcases List.mem_cons.1 he with rfl | he
        · have hrest : fields.filter (·.1 == e.1) = [] := by
            rw [List.filter_eq_nil_iff]
            intro a ha heq
            exact hne a ha (eq_of_beq heq).symm
          simp [hrest]
        · rw [List.filter_cons, if_neg fun heq => hne e he (eq_of_beq heq)]
          exact ih h.2 e he
  rw [← hn, record?, List.mapM_map, mapM_eq_some_map (g := fun e => some e.2)]
  intro e he
  simp only [Function.comp, key e he]

/-- A record is read from the canonical form of the object that was written for it. -/
theorem record?_canonical {names : List String} {fields : List (String × Json)}
    (hn : fields.map (·.1) = names) (h : names.Nodup) :
    (obj fields).canonical.record? names = some (fields.map fun e => some e.2.canonical) := by
  have hkeys : ((canonicalFields fields).map (·.1)).Nodup := by rwa [keys_canonicalFields, hn]
  rw [← hn, canonical, record?, List.mapM_map,
    mapM_eq_some_map (g := fun e => some e.2.canonical)]
  intro e he
  -- A canonical object is a map, in which each name has one value at most.
  have hfind : Keyed.find? e.1 (canonicalFields fields) = some e.2.canonical := by
    rw [Keyed.find?_eq_some_iff hkeys, canonicalFields_eq_map]
    exact List.mem_map_of_mem (f := fun e : String × Json => (e.1, e.2.canonical)) he
  simp only [Function.comp, Keyed.filter_entries, Keyed.get?_ofList hkeys, hfind, Option.map_some,
    Option.toList_some]

/-! ## Parts -/

@[simp] theorem canonical_str (s : String) : (str s).canonical = str s := rfl

@[simp] theorem canonical_ofUInt64 (n : UInt64) : (ofUInt64 n).canonical = ofUInt64 n := rfl

@[simp] theorem canonical_ofUInt32 (n : UInt32) : (ofUInt32 n).canonical = ofUInt32 n := rfl

@[simp] theorem canonical_ofBytes (bs : Bytes) : (ofBytes bs).canonical = ofBytes bs := by
  simp [ofBytes, canonical, canonicalItems_eq_map]

theorem canonical_ofOption {α : Type} {write : α → Json} (h : ∀ a, (write a).canonical = write a)
    (o : Option α) : (ofOption write o).canonical = ofOption write o := by
  cases o with
  | none => rfl
  | some a => exact h a

@[simp] theorem required?_some {α : Type} (read : Json → Option α) (j : Json) :
    required? read (some j) = read j := rfl

theorem optional?_ofOption {α : Type} {write : α → Json} {read : Json → Option α} {g : α → α}
    (hne : ∀ a, write a ≠ null) (h : ∀ a, read (write a) = some (g a)) (o : Option α) :
    optional? read (some (ofOption write o)) = some (o.map g) := by
  cases o with
  | none => rfl
  | some a =>
      have hw := hne a
      simp only [optional?, ofOption]
      unfold asOption?
      split
      · next heq => exact absurd heq hw
      · rw [h a]
        rfl

theorem of_required? {α : Type} {read : Json → Option α} {P : α → Prop}
    (h : ∀ {j : Json} {a : α}, read j = some a → P a) {field : Option Json} {a : α}
    (ha : required? read field = some a) : P a := by
  cases field with
  | none => cases ha
  | some j => exact h ha

theorem of_optional? {α : Type} {read : Json → Option α} {P : α → Prop}
    (h : ∀ {j : Json} {a : α}, read j = some a → P a) {field : Option Json} {o : Option α}
    (ho : optional? read field = some o) : ∀ a ∈ o, P a := by
  rintro a rfl
  cases field with
  | none => cases ho
  | some j =>
      simp only [optional?] at ho
      unfold asOption? at ho
      split at ho
      · cases ho
      · obtain ⟨b, hb, heq⟩ := Option.map_eq_some_iff.1 ho
        cases heq
        exact h hb

@[simp] theorem asString?_str (s : String) : asString? (str s) = some s := rfl

@[simp] theorem optional?_ofOption_str (o : Option String) :
    optional? asString? (some (ofOption str o)) = some o := by
  rw [optional?_ofOption (g := id) (fun s => by simp) asString?_str, Option.map_id_fun, id]

@[simp] theorem asUInt64?_ofUInt64 (n : UInt64) : asUInt64? (ofUInt64 n) = some n := by
  have := n.toNat_lt
  simp [asUInt64?, ofUInt64, asNat?]
  omega

@[simp] theorem asUInt32?_ofUInt32 (n : UInt32) : asUInt32? (ofUInt32 n) = some n := by
  have := n.toNat_lt
  simp [asUInt32?, ofUInt32, asNat?]
  omega

/-- What was written item by item is read item by item. -/
theorem mapM_map_eq_some {α β : Type} {write : α → β} {read : β → Option α}
    (h : ∀ a, read (write a) = some a) (l : List α) : (l.map write).mapM read = some l := by
  induction l with
  | nil => rfl
  | cons a l ih =>
      rw [List.map_cons, List.mapM_cons, h a, ih]
      rfl

theorem asUInt8?_int (b : UInt8) : asUInt8? (.int b.toNat) = some b := by
  have := b.toNat_lt
  simp [asUInt8?, asNat?]
  omega

@[simp] theorem asBytes?_ofBytes (bs : Bytes) : asBytes? (ofBytes bs) = some bs :=
  mapM_map_eq_some asUInt8?_int bs

@[simp] theorem asTextMap?_ofTextMap (m : Keyed String) : asTextMap? (ofTextMap m) = some m := by
  have hentry : ∀ e : String × String, (asString? (str e.2)).map (e.1, ·) = some e := fun _ => rfl
  have h : (m.entries.map fun e => (e.1, str e.2)).mapM
      (fun e => (asString? e.2).map (e.1, ·)) = some m.entries := by
    apply mapM_map_eq_some
    exact hentry
  exact (congrArg (Option.map Keyed.ofList) h).trans (congrArg some m.ofList_entries)

end Json

@[simp] theorem Id.canonical_toJson {kind : IdKind} (id : Id kind) :
    id.toJson.canonical = id.toJson := rfl

namespace Email

@[simp] theorem canonical_toJson (e : Email) : e.toJson.canonical = e.toJson := rfl

@[simp] theorem ofJson?_toJson (e : Email) : ofJson? e.toJson = some e := rfl

end Email

namespace Instant

@[simp] theorem canonical_toJson (t : Instant) : t.toJson.canonical = t.toJson := rfl

@[simp] theorem canonical_ofOption_toJson (o : Option Instant) :
    (Json.ofOption toJson o).canonical = Json.ofOption toJson o :=
  Json.canonical_ofOption canonical_toJson o

@[simp] theorem optional?_ofOption_toJson (o : Option Instant) :
    Json.optional? ofJson? (some (Json.ofOption toJson o)) = some (o.map asRead) :=
  Json.optional?_ofOption (fun t => by simp [toJson]) ofJson?_toJson o

@[simp] theorem ofOption_toJson_map_asRead (o : Option Instant) :
    Json.ofOption toJson (o.map asRead) = Json.ofOption toJson o := by
  cases o <;> simp [Json.ofOption]

theorem isCivil_of_mem_none : ∀ t ∈ (none : Option Instant), t.IsCivil :=
  fun t ht => absurd ht (Option.not_mem_none t)

theorem isCivil_of_mem_some {t : Instant} (h : t.IsCivil) : ∀ u ∈ some t, u.IsCivil :=
  fun _ hu => Option.some.inj hu ▸ h

theorem map_asRead_of_isCivil {o : Option Instant} (h : ∀ t ∈ o, t.IsCivil) :
    o.map asRead = o := by
  cases o with
  | none => rfl
  | some t => rw [Option.map_some, asRead_of_isCivil (h t rfl)]

end Instant

/-! ## Users -/

namespace UserRecord

/-- The user that the record of a user is read as. -/
def asRead (r : UserRecord) : UserRecord :=
  { r with
    createdAt := r.createdAt.asRead
    lastLoginAt := r.lastLoginAt.map .asRead
    passwordChangedAt := r.passwordChangedAt.map .asRead }

@[simp] theorem toJson_asRead (r : UserRecord) : r.asRead.toJson = r.toJson := by
  simp [toJson, asRead]

@[simp] theorem ofJson?_canonical (r : UserRecord) :
    ofJson? r.toJson.canonical = some r.asRead := by
  have hrec : r.toJson.canonical.record? fieldNames = _ := Json.record?_canonical rfl (by decide)
  rw [ofJson?, hrec]
  -- A step that is true by computing would have the kernel read the written parts again.
  simp -implicitDefEqProofs [asRead]

/-- All times of the user are in civil time. -/
structure IsCivil (r : UserRecord) : Prop where
  createdAt : r.createdAt.IsCivil
  lastLoginAt : ∀ t ∈ r.lastLoginAt, t.IsCivil
  passwordChangedAt : ∀ t ∈ r.passwordChangedAt, t.IsCivil

theorem IsCivil.asRead_eq {r : UserRecord} (h : r.IsCivil) : r.asRead = r := by
  rw [asRead, Instant.asRead_of_isCivil h.createdAt, Instant.map_asRead_of_isCivil h.lastLoginAt,
    Instant.map_asRead_of_isCivil h.passwordChangedAt]

theorem IsCivil.ofJson?_canonical {r : UserRecord} (h : r.IsCivil) :
    ofJson? r.toJson.canonical = some r := by
  rw [UserRecord.ofJson?_canonical, h.asRead_eq]

theorem isCivil_of_ofJson? {j : Json} {r : UserRecord} (h : ofJson? j = some r) : r.IsCivil := by
  simp only [ofJson?, Option.bind_eq_bind, Option.bind_eq_some_iff] at h
  obtain ⟨fields, -, h⟩ := h
  split at h
  · simp only [Option.bind_eq_some_iff] at h
    obtain ⟨_, -, _, -, _, -, _, hcreated, _, hlogin, _, hchanged, _, -, h⟩ := h
    cases h
    exact ⟨Json.of_required? Instant.isCivil_of_ofJson? hcreated,
      Json.of_optional? Instant.isCivil_of_ofJson? hlogin,
      Json.of_optional? Instant.isCivil_of_ofJson? hchanged⟩
  · cases h

theorem isCivil_asRead (r : UserRecord) : r.asRead.IsCivil :=
  isCivil_of_ofJson? r.ofJson?_canonical

theorem asRead_eq_self_iff {r : UserRecord} : r.asRead = r ↔ r.IsCivil :=
  ⟨fun h => h ▸ r.isCivil_asRead, IsCivil.asRead_eq⟩

/-- The version of a stored user, as guards see it. -/
theorem field?_version (r : UserRecord) :
    r.toJson.canonical.field? "version" = some (Json.ofUInt64 r.version) := by
  rw [toJson, Json.field?_canonical (by simp)]
  simp [Json.canonicalFields_eq_map, Keyed.find?]

end UserRecord

/-! ## Outbox rows -/

namespace Outbox

@[simp] theorem Status.canonical_toJson (s : Status) : s.toJson.canonical = s.toJson := rfl

@[simp] theorem Status.ofJson?_toJson (s : Status) : ofJson? s.toJson = some s := by
  cases s <;> rfl

namespace Row

/-- The row that the record of a row is read as. -/
def asRead (r : Row) : Row :=
  { r with
    createdAt := r.createdAt.asRead
    lastAttemptAt := r.lastAttemptAt.map .asRead
    sentAt := r.sentAt.map .asRead
    lockedUntil := r.lockedUntil.map .asRead }

@[simp] theorem toJson_asRead (r : Row) : r.asRead.toJson = r.toJson := by
  simp [toJson, asRead]

@[simp] theorem ofJson?_canonical (r : Row) : ofJson? r.toJson.canonical = some r.asRead := by
  have hrec : r.toJson.canonical.record? fieldNames = _ := Json.record?_canonical rfl (by decide)
  have canon : ∀ o : Option String,
      (Json.ofOption Json.str o).canonical = Json.ofOption Json.str o :=
    Json.canonical_ofOption Json.canonical_str
  simp only [List.map_cons, List.map_nil] at hrec
  rw [ofJson?, hrec]
  show Option.bind (Json.required? (fun j => j.asString?.bind Uuid.parse) _) _ = _
  simp -implicitDefEqProofs only [Json.required?_some, Json.canonical_str, Json.asString?_str,
    Uuid.parse_text, Id.canonical_toJson, Id.ofJson?_toJson, Json.canonical_ofBytes,
    Json.asBytes?_ofBytes, Instant.canonical_toJson, Instant.ofJson?_toJson,
    Status.canonical_toJson, Status.ofJson?_toJson, Json.canonical_ofUInt32,
    Json.asUInt32?_ofUInt32, canon, Json.optional?_ofOption_str,
    Instant.canonical_ofOption_toJson, Instant.optional?_ofOption_toJson, Option.bind_eq_bind,
    Option.bind_some, Option.pure_def, asRead]

/-- All times of the row are in civil time. -/
structure IsCivil (r : Row) : Prop where
  createdAt : r.createdAt.IsCivil
  lastAttemptAt : ∀ t ∈ r.lastAttemptAt, t.IsCivil
  sentAt : ∀ t ∈ r.sentAt, t.IsCivil
  lockedUntil : ∀ t ∈ r.lockedUntil, t.IsCivil

theorem IsCivil.asRead_eq {r : Row} (h : r.IsCivil) : r.asRead = r := by
  rw [asRead, Instant.asRead_of_isCivil h.createdAt, Instant.map_asRead_of_isCivil h.lastAttemptAt,
    Instant.map_asRead_of_isCivil h.sentAt, Instant.map_asRead_of_isCivil h.lockedUntil]

theorem IsCivil.ofJson?_canonical {r : Row} (h : r.IsCivil) :
    ofJson? r.toJson.canonical = some r := by
  rw [Row.ofJson?_canonical, h.asRead_eq]

theorem isCivil_of_ofJson? {j : Json} {r : Row} (h : ofJson? j = some r) : r.IsCivil := by
  unfold ofJson? at h
  obtain ⟨fields, -, h⟩ := Option.bind_eq_some_iff.1 h
  split at h
  · -- The fields in order; all of them at once are too much for the simplifier.
    obtain ⟨_, -, h⟩ := Option.bind_eq_some_iff.1 h
    obtain ⟨_, -, h⟩ := Option.bind_eq_some_iff.1 h
    obtain ⟨_, -, h⟩ := Option.bind_eq_some_iff.1 h
    obtain ⟨_, -, h⟩ := Option.bind_eq_some_iff.1 h
    obtain ⟨_, -, h⟩ := Option.bind_eq_some_iff.1 h
    obtain ⟨_, hcreated, h⟩ := Option.bind_eq_some_iff.1 h
    obtain ⟨_, -, h⟩ := Option.bind_eq_some_iff.1 h
    obtain ⟨_, -, h⟩ := Option.bind_eq_some_iff.1 h
    obtain ⟨_, -, h⟩ := Option.bind_eq_some_iff.1 h
    obtain ⟨_, hattempt, h⟩ := Option.bind_eq_some_iff.1 h
    obtain ⟨_, hsent, h⟩ := Option.bind_eq_some_iff.1 h
    obtain ⟨_, hlocked, h⟩ := Option.bind_eq_some_iff.1 h
    cases h
    exact ⟨Json.of_required? Instant.isCivil_of_ofJson? hcreated,
      Json.of_optional? Instant.isCivil_of_ofJson? hattempt,
      Json.of_optional? Instant.isCivil_of_ofJson? hsent,
      Json.of_optional? Instant.isCivil_of_ofJson? hlocked⟩
  · cases h

theorem isCivil_asRead (r : Row) : r.asRead.IsCivil := isCivil_of_ofJson? r.ofJson?_canonical

theorem asRead_eq_self_iff {r : Row} : r.asRead = r ↔ r.IsCivil :=
  ⟨fun h => h ▸ r.isCivil_asRead, IsCivil.asRead_eq⟩

/-- A new row was stamped by a clock. -/
theorem isCivil_pending (id : Uuid) (now : Reading) (e : Event) (payload : Bytes) :
    (pending id now e payload).IsCivil :=
  ⟨now.civil, Instant.isCivil_of_mem_none, Instant.isCivil_of_mem_none,
    Instant.isCivil_of_mem_none⟩

end Row

end Outbox

/-! ## Events -/

namespace Event

/-- The event that the record of an event is read as. -/
def asRead (e : Event) : Event := e.withOccurredAt e.occurredAt.asRead

theorem asRead_eq_self_iff {e : Event} : e.asRead = e ↔ e.occurredAt.IsCivil := by
  refine Iff.trans ⟨fun h => ?_, fun h => ?_⟩ Instant.asRead_eq_self_iff
  · exact congrArg occurredAt h
  · rw [asRead, h]
    rfl

@[simp] theorem ofJson?_toJson (e : Event) : ofJson? e.toJson = some e.asRead := by
  have hrec : e.toJson.record? fieldNames = _ := Json.record?_obj rfl (by decide)
  rw [ofJson?, hrec]
  simp -implicitDefEqProofs [asRead, withOccurredAt]

theorem isCivil_of_ofJson? {j : Json} {e : Event} (h : ofJson? j = some e) :
    e.occurredAt.IsCivil := by
  simp only [ofJson?, Option.bind_eq_bind, Option.bind_eq_some_iff] at h
  obtain ⟨fields, -, h⟩ := h
  split at h
  · simp only [Option.bind_eq_some_iff] at h
    obtain ⟨_, -, _, -, _, htime, _, -, _, -, _, -, h⟩ := h
    cases h
    exact Json.of_required? Instant.isCivil_of_ofJson? htime
  · cases h

end Event

end Registrar
