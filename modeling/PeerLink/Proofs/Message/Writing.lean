import PeerLink.Proofs.Json.Shapes
import PeerLink.Proofs.Message.Envelopes
import PeerLink.Proofs.Message.Reading

namespace PeerLink.Message

/-- What a codec makes of a message it takes for the same message again. -/
def Codec.Restores {α : Type} (c : Codec α) (a : α) (payload : Bytes) : Prop :=
  c.encode a = .ok payload ∧ c.decode payload = .ok a

theorem Codec.json_restores {shape : Json.Shape} (h : shape.Faithful) (v : shape.Value) :
    (Codec.json shape).Restores v (shape.write v) := by
  refine ⟨rfl, ?_⟩
  simp only [Codec.json, Json.Shape.read_write h]
  rfl

variable {T : Type} [DecidableEq T] {V : Vocabulary T}

namespace Registry

inductive Unwritten (r : Registry V) : (type : T) → V.Value type → SerializationError → Prop where
  | unregistered {type message} (hn : ∀ entry ∈ r.entries, entry.type ≠ type) :
    Unwritten r type message (.unregistered (V.name type))
  | payload {entry message fault} (hm : entry ∈ r.entries)
    (hf : entry.codec.encode message = .error fault) :
    Unwritten r entry.type message (.payload entry.kind fault)

variable {r : Registry V} {entry : Registration V} {message : V.Value entry.type}
  {payload : Bytes} {sequence : Int64} {type : T} {value : V.Value type}
  {error : SerializationError}

theorem envelope_fits (hm : entry ∈ r.entries) (sequence : Int64) (payload : Bytes) :
    (⟨entry.kind, sequence, payload⟩ : Envelope).Fits := kind_fits hm

theorem write_of_encode (hm : entry ∈ r.entries) (he : entry.codec.encode message = .ok payload)
    (sequence : Int64) : ∃ bytes, r.write entry.type message sequence = .ok bytes ∧
      Envelope.decode bytes = .ok ⟨entry.kind, sequence, payload⟩ := by
  have ht : r.byType? entry.type = some entry := byType?_eq_some.mpr ⟨hm, rfl⟩
  have hb := Envelope.encode_of_fits (envelope_fits hm sequence payload)
  refine ⟨_, ?_, Envelope.decode_of_encode hb⟩
  simp only [write, ht, Registration.encode, Boxed.open?_self, he, Except.mapError, hb]

theorem write_cases (r : Registry V) (type : T) (value : V.Value type) (sequence : Int64) :
    (∃ bytes, r.write type value sequence = .ok bytes) ∨
      ∃ error, r.write type value sequence = .error error ∧ r.Unwritten type value error := by
  cases ht : r.byType? type with
  | none =>
    exact .inr ⟨_, by simp [write, ht], .unregistered (byType?_eq_none.mp ht)⟩
  | some entry =>
    obtain ⟨hm, rfl⟩ := byType?_eq_some.mp ht
    cases he : entry.codec.encode value with
    | error fault =>
      refine .inr ⟨.payload entry.kind fault, ?_, .payload hm he⟩
      simp [write, ht, Registration.encode, he, Except.mapError]
    | ok payload =>
      obtain ⟨bytes, hw, -⟩ := write_of_encode hm he sequence
      exact .inl ⟨bytes, hw⟩

theorem Unwritten.write (h : r.Unwritten type value error) (sequence : Int64) :
    r.write type value sequence = .error error := by
  cases h with
  | unregistered hn => simp [Registry.write, byType?_eq_none.mpr hn]
  | payload hm hf =>
    have ht := byType?_eq_some.mpr ⟨hm, rfl⟩
    simp [Registry.write, ht, Registration.encode, hf, Except.mapError]

theorem write_eq_error : r.write type value sequence = .error error ↔
    r.Unwritten type value error := by
  constructor
  · intro h
    obtain ⟨bytes, hw⟩ | ⟨error', hw, hu⟩ := write_cases r type value sequence
    · cases h.symm.trans hw
    · cases h.symm.trans hw
      exact hu
  · exact fun h => h.write sequence

/-- A message of a registered type that its codec restores can be written, under whatever number;
and every registry with the same entry takes the bytes for that message, of that kind and with that
number. Messages as JSON are all restored. What can be wrong with a message to be written is that
its type is not registered or that its codec refuses it, and never its kind. -/
theorem written_is_read (r : Registry V) :
    (∀ entry ∈ r.entries, ∀ (message : V.Value entry.type) payload (sequence : Int64),
      entry.codec.Restores message payload →
      ∃ bytes, r.write entry.type message sequence = .ok bytes ∧
        ∀ r' : Registry V, entry ∈ r'.entries →
          r'.decode bytes = .ok ⟨entry.kind, sequence, entry.type, ⟨entry.type, message⟩⟩ ∧
          r'.readAs entry.type bytes = .ok ⟨sequence, message⟩) ∧
    (∀ (shape : Json.Shape) (v : shape.Value), shape.Faithful →
      ∃ payload, (Codec.json shape).Restores v payload) ∧
    (∀ type (value : V.Value type) sequence error,
      r.write type value sequence = .error error ↔ r.Unwritten type value error) ∧
    ∀ type (value : V.Value type) sequence reason,
      r.write type value sequence ≠ .error (.malformed reason) := by
  refine ⟨fun entry hm message payload sequence hc => ?_,
    fun shape v hs => ⟨_, Codec.json_restores hs v⟩,
    fun type value sequence error => write_eq_error, fun type value sequence reason h => ?_⟩
  · obtain ⟨bytes, hw, he⟩ := write_of_encode hm hc.1 sequence
    refine ⟨bytes, hw, fun r' hm' => ?_⟩
    have hh : r'.Holds bytes ⟨entry.kind, sequence, payload⟩ entry message := ⟨he, hm', rfl, hc.2⟩
    exact ⟨hh.decode, hh.readAs⟩
  · cases write_eq_error.mp h

end Registry

end PeerLink.Message
