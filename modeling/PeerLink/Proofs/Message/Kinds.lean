import PeerLink.Message.Registry
import PeerLink.Proofs.Manager.Tables
import Mathlib.Data.List.Nodup

namespace PeerLink.Message

variable {T : Type} [DecidableEq T] {V : Vocabulary T}

def Locates {κ : Type} [DecidableEq κ] (t : Table κ Nat) (ks : List κ) : Prop :=
  ∀ k i, t.get? k = some i ↔ ks[i]? = some k

namespace Locates

variable {κ α : Type} [DecidableEq κ] {t : Table κ Nat} {ks : List κ} {k : κ} {xs : List α}
  {key : α → κ} {x : α}

theorem nil : Locates ({} : Table κ Nat) [] := by
  simp [Locates, Table.get?]

theorem isSome_iff (h : Locates t ks) : (t.get? k).isSome = true ↔ k ∈ ks := by
  rw [Option.isSome_iff_exists, List.mem_iff_getElem?]
  exact exists_congr (h k)

theorem insert (h : Locates t ks) (hk : k ∉ ks) : Locates (t.insert k ks.length) (ks ++ [k]) := by
  have hn : t.get? k = none := by simpa using mt h.isSome_iff.mp hk
  intro j i
  rw [Table.get?_insert hn]
  split
  · next hj =>
    subst hj
    constructor
    · intro hi
      cases hi
      exact List.getElem?_concat_length
    · intro hi
      rw [List.getElem?_append] at hi
      split at hi
      · exact absurd (List.mem_of_getElem? hi) hk
      · have := (List.getElem?_eq_some_iff.mp hi).1
        simp only [List.length_singleton] at this
        exact congrArg some (by omega)
  · next hj =>
    rw [h j i]
    constructor
    · intro hi
      rw [List.getElem?_append_left (List.getElem?_eq_some_iff.mp hi).1, hi]
    · intro hi
      rw [List.getElem?_append] at hi
      split at hi
      · exact hi
      · exact absurd (List.mem_singleton.mp (List.mem_of_getElem? hi)) hj

theorem nodup (h : Locates t ks) : ks.Nodup := by
  refine List.nodup_iff_getElem?_ne_getElem?.mpr fun i j hij hj he => ?_
  have hi := (h ks[j] i).mpr (he.trans (List.getElem?_eq_getElem hj))
  have hj := (h ks[j] j).mpr (List.getElem?_eq_getElem hj)
  cases hi.symm.trans hj
  exact Nat.lt_irrefl _ hij

theorem found_iff (h : Locates t (xs.map key)) :
    (t.get? k).bind (xs[·]?) = some x ↔ x ∈ xs ∧ key x = k := by
  rw [Option.bind_eq_some_iff]
  constructor
  · rintro ⟨i, hi, hx⟩
    have hk := (h k i).mp hi
    rw [List.getElem?_map, hx] at hk
    exact ⟨List.mem_of_getElem? hx, Option.some.inj hk⟩
  · rintro ⟨hx, rfl⟩
    obtain ⟨i, hi⟩ := List.mem_iff_getElem?.mp hx
    exact ⟨i, (h (key x) i).mpr (by rw [List.getElem?_map, hi]; rfl), hi⟩

theorem missing_iff (h : Locates t (xs.map key)) :
    (t.get? k).bind (xs[·]?) = none ↔ ∀ x ∈ xs, key x ≠ k := by
  rw [Option.eq_none_iff_forall_ne_some]
  exact ⟨fun hn x hx hk => hn x (h.found_iff.mpr ⟨hx, hk⟩),
    fun hn x hx => hn x (h.found_iff.mp hx).1 (h.found_iff.mp hx).2⟩

end Locates

namespace Registration

def Fits (r : Registration V) : Prop := 1 ≤ r.kindLength ∧ r.kindLength ≤ Envelope.maxKindLength

/-- What is wrong with a registration that follows earlier ones. A kind that fits no envelope counts
before a repeated kind, and that before a repeated type. -/
inductive Flawed (earlier : List (Registration V)) (r : Registration V) :
    SerializationError → Prop where
  | length (hl : ¬r.Fits) :
    Flawed earlier r (.malformed (.invalidKind (V.name r.type) r.kindLength))
  | kind (hl : r.Fits) (hk : r.kind ∈ earlier.map (·.kind)) :
    Flawed earlier r (.duplicateKind r.kind)
  | type (hl : r.Fits) (hk : r.kind ∉ earlier.map (·.kind)) (ht : r.type ∈ earlier.map (·.type)) :
    Flawed earlier r (.duplicateType (V.name r.type))

end Registration

namespace Index

structure Covers (index : Index T) (entries : List (Registration V)) : Prop where
  fits : ∀ r ∈ entries, r.Fits
  kinds : Locates index.kinds (entries.map (·.kind))
  types : Locates index.types (entries.map (·.type))

variable {index : Index T} {earlier rest : List (Registration V)} {r : Registration V}

theorem Covers.nil : Covers ({} : Index T) ([] : List (Registration V)) :=
  ⟨fun _ hr => absurd hr List.not_mem_nil, Locates.nil, Locates.nil⟩

/-- The next entry is noted at its place, or refused for what is wrong with it. -/
theorem Covers.add (h : index.Covers earlier) (r : Registration V) :
    (∃ index', index.add earlier.length r = .ok index' ∧ index'.Covers (earlier ++ [r])) ∨
      ∃ e, index.add earlier.length r = .error e ∧ r.Flawed earlier e := by
  rw [Index.add]
  split
  · next hl => exact .inr ⟨_, rfl, .length fun hf => by unfold Registration.Fits at hf; omega⟩
  · next hl =>
    have hf : r.Fits := by unfold Registration.Fits; omega
    split
    · next hk => exact .inr ⟨_, rfl, .kind hf (h.kinds.isSome_iff.mp hk)⟩
    · next hk =>
      rw [h.kinds.isSome_iff] at hk
      split
      · next ht => exact .inr ⟨_, rfl, .type hf hk (h.types.isSome_iff.mp ht)⟩
      · next ht =>
        rw [h.types.isSome_iff] at ht
        refine .inl ⟨_, rfl, fun x hx => ?_, ?_, ?_⟩
        · obtain hx | hx := List.mem_append.mp hx
          · exact h.fits x hx
          · exact List.mem_singleton.mp hx ▸ hf
        · simpa using h.kinds.insert hk
        · simpa using h.types.insert ht

/-- All further entries are noted at their places, or the first with something wrong is refused. -/
theorem Covers.addAll (h : index.Covers earlier) (rest : List (Registration V)) :
    (∃ index', index.addAll earlier.length rest = .ok index' ∧ index'.Covers (earlier ++ rest)) ∨
      ∃ before r after e, rest = before ++ r :: after ∧
        index.addAll earlier.length rest = .error e ∧ r.Flawed (earlier ++ before) e ∧
        ∃ index' : Index T, index'.Covers (earlier ++ before) := by
  induction rest generalizing index earlier with
  | nil => exact .inl ⟨index, rfl, by simpa using h⟩
  | cons r rest ih =>
    simp only [Index.addAll]
    obtain ⟨index', ha, h'⟩ | ⟨e, ha, hf⟩ := h.add r
    · simp only [ha]
      have hrest := ih h'
      simp only [List.length_append, List.length_singleton, List.append_assoc,
        List.singleton_append] at hrest
      obtain hok | ⟨before, x, after, e, rfl, he, hf, hc⟩ := hrest
      · exact .inl hok
      · exact .inr ⟨r :: before, x, after, e, rfl, he, hf, hc⟩
    · simp only [ha]
      exact .inr ⟨[], r, rest, e, rfl, rfl, by simpa using hf, index, by simpa using h⟩

end Index

namespace Registry

variable {r : Registry V} {kind : String} {type : T} {entry : Registration V}

theorem covers (r : Registry V) : r.index.Covers r.entries := by
  have hc := Index.Covers.nil.addAll r.entries
  simp only [List.length_nil, r.indexed, List.nil_append] at hc
  obtain ⟨index, he, h⟩ | ⟨_, _, _, _, _, he, -⟩ := hc
  · cases he
    exact h
  · cases he

theorem byKind?_eq_some : r.byKind? kind = some entry ↔ entry ∈ r.entries ∧ entry.kind = kind :=
  r.covers.kinds.found_iff

theorem byKind?_eq_none : r.byKind? kind = none ↔ ∀ entry ∈ r.entries, entry.kind ≠ kind :=
  r.covers.kinds.missing_iff

theorem byType?_eq_some : r.byType? type = some entry ↔ entry ∈ r.entries ∧ entry.type = type :=
  r.covers.types.found_iff

theorem byType?_eq_none : r.byType? type = none ↔ ∀ entry ∈ r.entries, entry.type ≠ type :=
  r.covers.types.missing_iff

theorem kind_fits (h : entry ∈ r.entries) :
    1 ≤ entry.kindLength ∧ entry.kindLength ≤ Envelope.maxKindLength :=
  r.covers.fits entry h

end Registry

end PeerLink.Message
