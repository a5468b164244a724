import Registrar.Proofs.Codec.Json
import Registrar.Proofs.Codec.Record

set_option autoImplicit false

/-! # Events read back from bytes

An event that was serialized is deserialized under its own name (`deserialize_serialize`): its
record is plain JSON, so its text reads back, and the record reads back from that. It is the same
event but for a time that has no text of its own, a leap second that does not end a minute. Bytes
may spell an event in other ways than it is serialized: fields in any order and among others,
identifiers and times in any form. Whatever event is read from them, serializing it again loses
nothing (`Serializer.json_round_trip`). -/

namespace Registrar

namespace Json

theorem fitsInt_toNat (b : UInt8) : FitsInt b.toNat := by
  have := b.toNat_lt
  unfold FitsInt
  omega

theorem isPlain_ofBytes (bs : Bytes) : IsPlain (ofBytes bs) := by
  show PlainItems (bs.map fun b => .int b.toNat)
  induction bs with
  | nil => trivial
  | cons b bs ih => exact ⟨fitsInt_toNat b, ih⟩

theorem isPlain_ofTextMap (m : Keyed String) : IsPlain (ofTextMap m) := by
  show PlainFields (m.entries.map fun e => (e.1, .str e.2))
  induction m.entries with
  | nil => trivial
  | cons e es ih => exact ⟨trivial, ih⟩

end Json

namespace Event

theorem isPlain_toJson (e : Event) : e.toJson.IsPlain :=
  ⟨trivial, trivial, trivial, trivial, Json.isPlain_ofBytes e.payload,
    Json.isPlain_ofTextMap e.metadata, trivial⟩

/-- The name decides whether the event that was serialized is let through. -/
theorem deserialize_serialize_as (e : Event) (name : String) :
    deserialize e.serialize name =
      if e.name = name then .ok e.asRead else .error (.nameMismatch name e.name) := by
  rw [deserialize, serialize, Json.parse_print e.isPlain_toJson, Option.bind_some, ofJson?_toJson]
  rfl

theorem deserialize_serialize (e : Event) :
    deserialize e.serialize e.name = .ok e.asRead := by
  rw [deserialize_serialize_as, if_pos rfl]

/-- An event survives exactly if its time is civil. -/
theorem deserialize_serialize_eq_self_iff {e : Event} :
    deserialize e.serialize e.name = .ok e ↔ e.occurredAt.IsCivil := by
  rw [deserialize_serialize, Except.ok.injEq, asRead_eq_self_iff]

/-- **All that letting an event through says of it**: its name was asked for, and its time is
civil. -/
theorem of_deserialize {bs : Bytes} {name : String} {e : Event}
    (h : deserialize bs name = .ok e) : e.name = name ∧ e.occurredAt.IsCivil := by
  unfold deserialize at h
  split at h
  · cases h
  · next hread =>
      split at h
      · next hname =>
          cases h
          obtain ⟨_, -, hread⟩ := Option.bind_eq_some_iff.1 hread
          exact ⟨hname, isCivil_of_ofJson? hread⟩
      · cases h

end Event

theorem Serializer.deserialize_json (bs : Bytes) (name : String) :
    json.deserialize bs name = Event.deserialize bs name := by
  unfold json
  rfl

/-- **Events survive being stored as bytes.** Every event is serialized, and its bytes are
deserialized under its own name with the time that its text says, so as itself exactly if its time
is civil; under any other name they are refused with both names. And of any bytes at all, what is
deserialized under a name is an event of that name, which is serialized and deserialized again as
itself. -/
theorem Serializer.json_round_trip :
    (∀ e : Event, ∃ bs, json.serialize e = .ok bs ∧
      json.deserialize bs e.name = .ok (e.withOccurredAt e.occurredAt.asRead) ∧
      (json.deserialize bs e.name = .ok e ↔ e.occurredAt.IsCivil) ∧
      ∀ name, name ≠ e.name →
        json.deserialize bs name = .error (.nameMismatch name e.name)) ∧
    ∀ (bs : Bytes) (name : String) (e : Event), json.deserialize bs name = .ok e →
      e.name = name ∧
      ∃ bs', json.serialize e = .ok bs' ∧ json.deserialize bs' name = .ok e := by
  constructor
  · intro e
    simp only [Serializer.deserialize_json]
    refine ⟨e.serialize, rfl, e.deserialize_serialize, Event.deserialize_serialize_eq_self_iff,
      fun name hname => ?_⟩
    rw [e.deserialize_serialize_as, if_neg fun h => hname h.symm]
  · intro bs name e hread
    simp only [Serializer.deserialize_json] at hread ⊢
    obtain ⟨hname, hcivil⟩ := Event.of_deserialize hread
    refine ⟨hname, e.serialize, rfl, ?_⟩
    rw [← hname]
    exact Event.deserialize_serialize_eq_self_iff.2 hcivil

/-- **Not every event is deserialized as itself**: a leap second in the middle of a minute
is not. -/
theorem Serializer.not_every_event_survives :
    ¬ ∀ e : Event, ∃ bs, json.serialize e = .ok bs ∧ json.deserialize bs e.name = .ok e := by
  intro h
  obtain ⟨bs, hwritten, hread⟩ :=
    h (.new ⟨.ofNat 1⟩ Instant.strayLeap "a" ⟨.ofNat 2⟩ [])
  cases hwritten
  rw [Serializer.deserialize_json, Event.deserialize_serialize_eq_self_iff] at hread
  exact Instant.not_isCivil_strayLeap hread

/-- A record written as a list, its time with a leap second half over and its identifier as
a URN. -/
example : (Event.deserialize (Bytes.ascii ("[\"01890000000070008000000000000001\", \"a\", " ++
      "\"-1-6-30 23:59:60.5+00:00\", \"urn:uuid:01890000-0000-7000-8000-0000000000AA\", [7], " ++
      "\x7b\"k\":\"u\",\"k\":\"v\"\x7d]")) "a").map
      (fun e => (e.occurredAt.text, e.aggregateId.text, e.metadata.entries)) =
    .ok ("-0001-06-30T23:59:60.500Z", "01890000-0000-7000-8000-0000000000aa", [("k", "v")]) := by
  decide +kernel

end Registrar
