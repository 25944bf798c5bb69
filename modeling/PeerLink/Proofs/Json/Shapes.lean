import PeerLink.Hello
import PeerLink.Proofs.Json.Numbers
import PeerLink.Proofs.Json.Strings

namespace PeerLink.Json

def Fields.names : Fields → List String
  | .none => []
  | .field name _ others => name :: others.names

mutual

def Shape.Faithful : Shape → Prop
  | .integer least greatest => -(1 <<< 63 : Nat) ≤ least ∧ greatest ≤ (1 <<< 64 : Nat) - 1
  | .text => True
  | .unit => True
  | .record fields => fields.Faithful

def Fields.Faithful : Fields → Prop
  | .none => True
  | .field name shape others => name ∉ others.names ∧ shape.Faithful ∧ others.Faithful

end

/-- The places of a record's members once all have been read. -/
def Fields.filled : (fields : Fields) → fields.Values → fields.Slots
  | .none, _ => ()
  | .field _ _ others, (v, vs) => (some v, others.filled vs)

variable {b : UInt8} {r : Bytes}

theorem skipBlanks_cons (h : isBlank b = false) : skipBlanks (b :: r) = b :: r := by
  rw [skipBlanks, List.dropWhile_cons_of_neg (by simp [h])]

theorem not_blank_of_digit {d : Nat} (h : digit? b = some d) : isBlank b = false := by
  cases hb : isBlank b with
  | false => rfl
  | true =>
    simp only [isBlank, Bool.or_eq_true, decide_eq_true_eq] at hb
    obtain ((rfl | rfl) | rfl) | rfl := hb <;> cases h

theorem skipBlanks_writeInteger (n : Int) :
    skipBlanks (writeInteger n ++ r) = writeInteger n ++ r := by
  rw [writeInteger]
  by_cases hn : n < 0
  · rw [if_pos hn]
    exact skipBlanks_cons rfl
  · obtain ⟨b, t, d, hb, hd⟩ := digits_head n.natAbs
    rw [if_neg hn, List.nil_append, show List.map ascii (Nat.toDigits 10 n.natAbs) = b :: t from hb]
    exact skipBlanks_cons (not_blank_of_digit hd)

namespace Fields

variable {fields : Fields}

theorem complete?_filled (vs : fields.Values) : fields.complete? (fields.filled vs) = some vs := by
  induction fields using Fields.rec (motive_1 := fun _ => True) with
  | none => rfl
  | field name shape others _ ih =>
    obtain ⟨v, vs⟩ := vs
    simp only [filled, complete?, ih vs]
  | _ => trivial

theorem length_names_le (first : Bool) (vs : fields.Values) :
    fields.names.length ≤ (fields.write first vs).length := by
  induction fields using Fields.rec (motive_1 := fun _ => True) generalizing first with
  | none => exact Nat.le_refl 0
  | field name shape others _ ih =>
    obtain ⟨v, vs⟩ := vs
    have := ih false vs
    simp only [names, write, List.length_append, List.length_cons]
    omega
  | _ => trivial

theorem clear_write (vs : fields.Values) : Clear (fields.write false vs ++ 0x7D :: r) := by
  cases fields with
  | none => exact ⟨rfl, by decide, by decide, by decide⟩
  | field name shape others =>
    obtain ⟨v, vs⟩ := vs
    exact ⟨rfl, by decide, by decide, by decide⟩

end Fields

theorem memberName?_write (first : Bool) (name : String) :
    memberName? first ((if first then [] else [0x2C]) ++ Text.write name ++ r) =
      .ok (some name, r) := by
  have hr : Text.read (name.toList.flatMap Text.writeChar ++ 0x22 :: r) = .ok (name, r) :=
    Text.read_write name r
  have hw : Text.write name ++ r = 0x22 :: (name.toList.flatMap Text.writeChar ++ 0x22 :: r) := by
    simp [Text.write]
  cases first with
  | true =>
    rw [if_pos rfl, List.nil_append, hw, memberName?, skipBlanks_cons rfl]
    simp [hr, Except.map]
  | false =>
    rw [if_neg Bool.false_ne_true, List.append_assoc, hw, List.singleton_append, memberName?,
      skipBlanks_cons rfl]
    simp [skipBlanks_cons (show isBlank 0x22 = false from rfl), hr, Except.map]

theorem memberName?_end (first : Bool) : memberName? first (0x7D :: r) = .ok (none, 0x7D :: r) := by
  rw [memberName?, skipBlanks_cons rfl]
  rfl

theorem colon_cons : colon (0x3A :: r) = .ok r := by
  rw [colon, skipBlanks_cons rfl]
  rfl

theorem objectEnd_cons : objectEnd (0x7D :: r) = .ok r := by
  rw [objectEnd, skipBlanks_cons rfl]
  rfl

mutual

theorem Shape.readValue_write : ∀ (shape : Shape) (v : shape.Value) (r : Bytes),
    shape.Faithful → Clear r → shape.readValue (shape.write v ++ r) = .ok (v, r)
  | .integer least greatest, v, r, ⟨hl, hg⟩, hr => by
    rw [Shape.readValue, Shape.write, skipBlanks_writeInteger]
    exact readInteger_write v hl hg hr
  | .text, v, r, _, _ => by
    have hw : Shape.write .text v ++ r =
        0x22 :: ((show String from v).toList.flatMap Text.writeChar ++ 0x22 :: r) := by
      simp [Shape.write, Text.write]
    rw [Shape.readValue, hw, skipBlanks_cons rfl, readText]
    exact Text.read_write _ r
  | .unit, v, r, _, _ => by
    rw [Shape.readValue, Shape.write]
    rfl
  | .record fields, vs, r, hf, _ => by
    have hw : (Shape.record fields).write vs ++ r =
        0x7B :: (fields.write true vs ++ 0x7D :: r) := by
      simp [Shape.write]
    have hn : fields.names.length < (fields.write true vs ++ 0x7D :: r).length + 1 := by
      have := fields.length_names_le true vs
      rw [List.length_append]
      omega
    have hm := Fields.members_write fields vs r true hf fields.readEntry (fun slots => slots)
      (fun slots key _ input => by
        cases fields.readEntry slots key input with
        | none => rfl
        | some reading => cases reading <;> rfl) hn
    rw [Shape.readValue, hw, skipBlanks_cons rfl]
    simp only [hm, fields.complete?_filled vs, objectEnd_cons]
    rfl

/-- The members of a record, read one after the other by whatever reads each of them into its
place. -/
theorem Fields.members_write : ∀ (fields : Fields) (vs : fields.Values) (r : Bytes) (first : Bool),
    fields.Faithful → ∀ {σ : Type} (entry : σ → String → Bytes → Option (Reading σ))
    (place : fields.Slots → σ) (_ : ∀ slots, ∀ key ∈ fields.names, ∀ input,
      entry (place slots) key input =
        (fields.readEntry slots key input).map (·.map fun (slots, r) => (place slots, r)))
    {fuel : Nat} (_ : fields.names.length < fuel),
    members entry fuel first (place fields.emptySlots) (fields.write first vs ++ 0x7D :: r) =
      .ok (place (fields.filled vs), 0x7D :: r)
  | .none, vs, r, first, _, _, entry, place, he, fuel, hn => by
    obtain ⟨fuel, rfl⟩ : ∃ f, fuel = f + 1 := ⟨fuel - 1, by omega⟩
    rw [Fields.write, List.nil_append, members, memberName?_end]
    rfl
  | .field name shape others, (v, vs), r, first, ⟨hname, hs, ho⟩, _, entry, place, he, fuel, hn => by
    obtain ⟨fuel, rfl⟩ : ∃ f, fuel = f + 1 := ⟨fuel - 1, by omega⟩
    have hw : (Fields.field name shape others).write first (v, vs) ++ 0x7D :: r =
        (if first then [] else [0x2C]) ++ Text.write name ++
          0x3A :: (shape.write v ++ (others.write false vs ++ 0x7D :: r)) := by
      simp [Fields.write]
    have hv := Shape.readValue_write shape v (others.write false vs ++ 0x7D :: r) hs
      (Fields.clear_write vs)
    have hentry : entry (place (Fields.field name shape others).emptySlots) name
        (0x3A :: (shape.write v ++ (others.write false vs ++ 0x7D :: r))) =
        some (.ok (place (some v, others.emptySlots), others.write false vs ++ 0x7D :: r)) := by
      rw [he _ name List.mem_cons_self]
      simp only [Fields.emptySlots, Fields.readEntry, if_true, colon_cons, hv]
      rfl
    rw [hw, members, memberName?_write]
    simp only [hentry]
    refine Fields.members_write others vs r false ho entry (fun slots => place (some v, slots))
      (fun slots key hk input => ?_) (by simpa [Fields.names] using hn)
    have hne : key ≠ name := by
      rintro rfl
      exact hname hk
    rw [he (some v, slots) key (List.mem_cons_of_mem _ hk) input]
    simp only [Fields.readEntry, if_neg hne]
    cases others.readEntry slots key input with
    | none => rfl
    | some reading => cases reading <;> rfl

end

theorem Shape.read_write {shape : Shape} (h : shape.Faithful) (v : shape.Value) :
    shape.read (shape.write v) = .ok v := by
  have hr : shape.readValue (shape.write v) = .ok (v, []) := by
    have hr := Shape.readValue_write shape v [] h trivial
    rwa [List.append_nil] at hr
  rw [Shape.read, hr]
  rfl

end PeerLink.Json

namespace PeerLink

variable {α : Type}

theorem Frame.Format.read_write {f : Frame.Format α} {a : α} (h : f.shape.Faithful)
    (ha : f.ofValue (f.toValue a) = a) : f.read (f.write a) = .ok a := by
  rw [Frame.Format.read, Frame.Format.write, Json.Shape.read_write h]
  exact congrArg Except.ok ha

theorem Endpoint.shape_faithful : Endpoint.shape.Faithful := by
  refine ⟨?_, trivial, List.not_mem_nil, ⟨?_, ?_⟩, trivial⟩ <;> decide

theorem Endpoint.ofValue_toValue (e : Endpoint) : Endpoint.ofValue e.toValue = e := by
  obtain ⟨host, port⟩ := e
  simp [Endpoint.toValue, Endpoint.ofValue]

theorem Hello.shape_faithful : Hello.shape.Faithful := by
  refine ⟨?_, ⟨?_, ?_⟩, List.not_mem_nil, Endpoint.shape_faithful, trivial⟩ <;> decide

/-- The greeting says the same at both ends. -/
theorem Hello.read_write (h : Hello) : Hello.format.read (Hello.format.write h) = .ok h := by
  apply Frame.Format.read_write Hello.shape_faithful
  obtain ⟨version, endpoint⟩ := h
  simp [Hello.format, Hello.toValue, Hello.ofValue, Endpoint.ofValue_toValue]

end PeerLink
