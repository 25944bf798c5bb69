import PeerLink.Message.Serializer
import PeerLink.Proofs.Message.Kinds

namespace PeerLink.Message

variable {T : Type} {V : Vocabulary T} {earlier before before' after after' entries :
  List (Registration V)} {r r' : Registration V} {e e' : SerializationError}

structure Distinct (entries : List (Registration V)) : Prop where
  fits : ∀ r ∈ entries, r.Fits
  kinds : (entries.map (·.kind)).Nodup
  types : (entries.map (·.type)).Nodup

def RegistryBuilder.of (entries : List (Registration V)) : RegistryBuilder V :=
  entries.foldl register {}

theorem RegistryBuilder.entries_foldl (b : RegistryBuilder V) (entries : List (Registration V)) :
    (entries.foldl register b).entries = b.entries ++ entries := by
  induction entries generalizing b with
  | nil => exact (List.append_nil _).symm
  | cons r entries ih => exact (ih _).trans (List.append_assoc _ _ _)

/-- A serializer's builder that has been given registrations one after the other. -/
def SerializerBuilder.of (entries : List (Registration V)) : SerializerBuilder V :=
  entries.foldl register {}

theorem SerializerBuilder.registry_foldl (b : SerializerBuilder V)
    (entries : List (Registration V)) :
    (entries.foldl register b).registry = entries.foldl RegistryBuilder.register b.registry := by
  induction entries generalizing b with
  | nil => rfl
  | cons r entries ih => exact ih _

namespace Registration.Flawed

theorem unique (h : r.Flawed earlier e) (h' : r.Flawed earlier e') : e = e' := by
  cases h with
  | length hl =>
    cases h' with
    | length => rfl
    | kind hl' | type hl' => exact absurd hl' hl
  | kind hl hk =>
    cases h' with
    | length hl' => exact absurd hl hl'
    | kind => rfl
    | type _ hk' => exact absurd hk hk'
  | type hl hk =>
    cases h' with
    | length hl' => exact absurd hl hl'
    | kind _ hk' => exact absurd hk' hk
    | type => rfl

theorem not_distinct (h : r.Flawed before e) : ¬Distinct (before ++ r :: after) := by
  intro hd
  have hrepeated : ∀ {κ : Type} {key : Registration V → κ}, key r ∈ before.map key →
      ¬((before ++ r :: after).map key).Nodup := fun hm hn => by
    rw [List.map_append, List.map_cons] at hn
    exact (List.nodup_append.mp hn).2.2 _ hm _ List.mem_cons_self rfl
  cases h with
  | length hl => exact hl (hd.fits r (List.mem_append_right _ List.mem_cons_self))
  | kind _ hk => exact hrepeated hk hd.kinds
  | type _ _ ht => exact hrepeated ht hd.types

theorem not_longer (h : r.Flawed before e) (hd : Distinct before')
    (hs : before ++ r :: after = before' ++ r' :: after') : before' <+: before := by
  obtain ⟨xs, rfl, hx⟩ | ⟨xs, rfl, -⟩ := List.append_eq_append_iff.mp hs
  · cases xs with
    | nil => simp
    | cons x xs =>
      obtain ⟨rfl, -⟩ := List.cons.inj hx
      exact absurd hd h.not_distinct
  · exact List.prefix_append _ _

/-- Where something is first wrong with a list of registrations is one place only. -/
theorem first (h : r.Flawed before e) (hd : Distinct before) (h' : r'.Flawed before' e')
    (hd' : Distinct before') (hs : before ++ r :: after = before' ++ r' :: after') : e = e' := by
  have hle := (h.not_longer hd' hs).length_le
  have hle' := (h'.not_longer hd hs.symm).length_le
  obtain ⟨rfl, hr⟩ := List.append_inj hs (Nat.le_antisymm hle' hle)
  obtain ⟨rfl, -⟩ := List.cons.inj hr
  exact h.unique h'

end Registration.Flawed

variable [DecidableEq T] {index : Index T} {registry : Registry V}

theorem RegistryBuilder.build_of (entries : List (Registration V)) :
    (of entries).build = Registry.build entries :=
  congrArg Registry.build (entries_foldl {} entries)

theorem SerializerBuilder.build_of (entries : List (Registration V)) :
    (of entries).build = Registry.build entries :=
  (congrArg RegistryBuilder.build (registry_foldl {} entries)).trans
    (RegistryBuilder.build_of entries)

theorem Index.Covers.distinct (h : index.Covers entries) : Distinct entries :=
  ⟨h.fits, h.kinds.nodup, h.types.nodup⟩

namespace Registry

theorem build_cases (entries : List (Registration V)) :
    (∃ r, build entries = .ok r ∧ r.entries = entries) ∨ ∃ before r after e,
      entries = before ++ r :: after ∧ Distinct before ∧ r.Flawed before e ∧
        build entries = .error e := by
  have hc := Index.Covers.nil.addAll entries
  simp only [List.length_nil, List.nil_append] at hc
  rw [build]
  split
  · exact .inl ⟨_, rfl, rfl⟩
  · next e he =>
    obtain ⟨_, ha, -⟩ | ⟨before, r, after, e', rfl, ha, hf, index, hi⟩ := hc
    · cases he.symm.trans ha
    · cases he.symm.trans ha
      exact .inr ⟨before, r, after, e, rfl, hi.distinct, hf, rfl⟩

theorem entries_of_build (h : build entries = .ok registry) : registry.entries = entries := by
  obtain ⟨r, hb, he⟩ | ⟨_, _, _, _, -, -, -, hb⟩ := build_cases entries
  · cases h.symm.trans hb
    exact he
  · cases h.symm.trans hb

theorem build_iff_distinct : (∃ r, build entries = .ok r) ↔ Distinct entries := by
  constructor
  · rintro ⟨r, hb⟩
    rw [← entries_of_build hb]
    exact r.covers.distinct
  · intro hd
    obtain ⟨r, hb, -⟩ | ⟨before, r, after, e, rfl, -, hf, -⟩ := build_cases entries
    · exact ⟨r, hb⟩
    · exact absurd hd hf.not_distinct

theorem build_eq_error : build entries = .error e ↔ ∃ before r after,
    entries = before ++ r :: after ∧ Distinct before ∧ r.Flawed before e := by
  constructor
  · intro h
    obtain ⟨r, hb, -⟩ | ⟨before, r, after, e', he, hd, hf, hb⟩ := build_cases entries
    · cases h.symm.trans hb
    · cases h.symm.trans hb
      exact ⟨before, r, after, he, hd, hf⟩
  · rintro ⟨before, r, after, rfl, hd, hf⟩
    obtain hb | ⟨before', r', after', e', he, hd', hf', hb⟩ := build_cases (before ++ r :: after)
    · have hb' : ∃ r', build (before ++ r :: after) = .ok r' := hb.imp fun _ => And.left
      exact absurd (build_iff_distinct.mp hb') hf.not_distinct
    · rw [hb, hf.first hd hf' hd' he]

theorem containsKind_iff (r : Registry V) (kind : String) :
    r.containsKind kind = true ↔ ∃ entry ∈ r.entries, entry.kind = kind := by
  rw [containsKind, r.covers.kinds.isSome_iff, List.mem_map]

theorem kindOf?_eq_some (r : Registry V) (type : T) (kind : String) : r.kindOf? type = some kind ↔
    ∃ entry ∈ r.entries, entry.type = type ∧ entry.kind = kind := by
  simp only [kindOf?, Option.map_eq_some_iff, byType?_eq_some, and_assoc]

theorem byKind?_of_kindOf? {r : Registry V} {type : T} {kind : String}
    (h : r.kindOf? type = some kind) : ∃ entry ∈ r.entries, entry.type = type ∧
      r.byType? type = some entry ∧ r.byKind? kind = some entry := by
  obtain ⟨entry, hm, rfl, rfl⟩ := (r.kindOf?_eq_some type kind).mp h
  exact ⟨entry, hm, rfl, byType?_eq_some.mpr ⟨hm, rfl⟩, byKind?_eq_some.mpr ⟨hm, rfl⟩⟩

/-- Registrations can be made with a registry's builder or with a serializer's, it comes to the same.
They make a registry if all kinds have 1 to 65535 bytes and no kind and no type comes twice; and if
not, building fails by what is wrong with the first registration that cannot follow the ones before
it: the length of its kind, or else its kind, or else its type. A registry has the entries it was
built from, in their order. It finds by a kind the entry of that kind, by a type the entry of that
type, and knows no other kinds and types. The entry that messages of a type are written by is the one
that their kind is read by. -/
theorem built_if_distinct (entries : List (Registration V)) :
    (RegistryBuilder.of entries).build = build entries ∧
    (SerializerBuilder.of entries).build = build entries ∧
    ((∃ r, build entries = .ok r) ↔
      (∀ entry ∈ entries, 1 ≤ (Text.Utf8.encode entry.kind).length ∧
        (Text.Utf8.encode entry.kind).length ≤ 65535) ∧
      (entries.map (·.kind)).Nodup ∧ (entries.map (·.type)).Nodup) ∧
    (∀ e, build entries = .error e ↔ ∃ before r after,
      entries = before ++ r :: after ∧ Distinct before ∧ r.Flawed before e) ∧
    ∀ r, build entries = .ok r →
      r.kinds = entries.map (·.kind) ∧ r.size = entries.length ∧
      (∀ kind, (r.containsKind kind = true ↔ ∃ entry ∈ entries, entry.kind = kind) ∧
        ∀ entry, r.byKind? kind = some entry ↔ entry ∈ entries ∧ entry.kind = kind) ∧
      (∀ type, (∀ kind, r.kindOf? type = some kind ↔
          ∃ entry ∈ entries, entry.type = type ∧ entry.kind = kind) ∧
        ∀ entry, r.byType? type = some entry ↔ entry ∈ entries ∧ entry.type = type) ∧
      ∀ type kind, r.kindOf? type = some kind → ∃ entry ∈ entries, entry.type = type ∧
        r.byType? type = some entry ∧ r.byKind? kind = some entry := by
  refine ⟨RegistryBuilder.build_of entries, SerializerBuilder.build_of entries, ?_,
    fun e => build_eq_error, fun r hb => ?_⟩
  · rw [build_iff_distinct]
    exact ⟨fun h => ⟨h.fits, h.kinds, h.types⟩, fun ⟨hf, hk, ht⟩ => ⟨hf, hk, ht⟩⟩
  · obtain rfl := entries_of_build hb
    exact ⟨rfl, rfl, fun kind => ⟨r.containsKind_iff kind, fun entry => byKind?_eq_some⟩,
      fun type => ⟨r.kindOf?_eq_some type, fun entry => byType?_eq_some⟩,
      fun type kind => byKind?_of_kindOf?⟩

end Registry

end PeerLink.Message
