import PeerLink.Frame.Typed
import PeerLink.Proofs.Frame.Parsing

namespace PeerLink.Frame

/-- What is made of the bodies of frames: nothing, or values of a type. -/
inductive Decoder (α : Type) where
  | bare
  | typed (format : Format α)

inductive Piece (α : Type) where
  | body (bytes : Bytes)
  | value (a : α)
  deriving DecidableEq

variable {α : Type}

namespace Decoder

def next (d : Decoder α) (max : Nat) (i : Intake) :
    Except IoError (Option (Piece α)) × Intake :=
  match d with
  | bare => (i.next max).map (·.map (·.map .body)) id
  | typed f => (f.next max i).map (·.map (·.map .value)) id

/-- What becomes of one body. -/
def read (d : Decoder α) (body : Bytes) : Except IoError (Piece α) :=
  match d with
  | bare => .ok (.body body)
  | typed f =>
    match f.read body with
    | .ok a => .ok (.value a)
    | .error problem => .error ⟨.invalidData, .json problem⟩

def readAll (d : Decoder α) (switched : Option Nat) (bodies : List Bytes) :
    List (Except IoError (Piece α)) :=
  match switched with
  | none => bodies.map d.read
  | some k => (bodies.take k).map d.read ++ (bodies.drop k).map bare.read

variable {d : Decoder α} {max : Nat} {i i' : Intake} {body : Bytes} {bodies : List Bytes}
  {error : IoError} {switched : Option Nat}

theorem next_some (h : i.next max = (.ok (some body), i')) :
    d.next max i = ((d.read body).map some, i') := by
  cases d with
  | bare => rw [next, h]; rfl
  | typed f =>
    simp only [next, Format.next, h, read]
    cases hr : f.read body <;>
      simp [Except.bind, Format.ofBody, hr, Except.map]

theorem next_none (h : i.next max = (.ok none, i')) : d.next max i = (.ok none, i') := by
  cases d with
  | bare => rw [next, h]; rfl
  | typed f => simp [next, Format.next, h, Except.bind, Format.ofBody, Except.map]

theorem next_error (h : i.next max = (.error error, i')) :
    d.next max i = (.error error, i') := by
  cases d with
  | bare => rw [next, h]; rfl
  | typed f => simp [next, Format.next, h, Except.bind, Except.map]

/-- A body that is not of the type is not mistaken for one that is too long. -/
theorem read_ne_tooBig : d.read body ≠ .error (tooBig .invalidData) := by
  cases d with
  | bare => exact nofun
  | typed f =>
    rw [read]
    split
    · exact nofun
    · exact fun h => nomatch h

theorem readAll_concat (h : ∀ k, switched = some k → k ≤ bodies.length) (body : Bytes) :
    d.readAll switched (bodies ++ [body]) =
      d.readAll switched bodies ++ [(if switched.isSome then bare else d).read body] := by
  cases switched with
  | none => simp [readAll]
  | some k =>
    have hk : k ≤ bodies.length := h k rfl
    simp only [readAll, List.take_append_of_le_length hk, List.drop_append_of_le_length hk,
      List.map_append, List.append_assoc, Option.isSome_some, if_true]
    rfl

theorem length_readAll : (d.readAll switched bodies).length = bodies.length := by
  cases switched with
  | none => exact List.length_map _
  | some k =>
    rw [readAll, List.length_append, List.length_map, List.length_map, ← List.length_append,
      List.take_append_drop]

end Decoder

variable {max : Nat}

theorem encode_all {bodies encodings : List Bytes}
    (h : bodies.mapM (encode? max) = .ok encodings) :
    (∀ body ∈ bodies, body.length ≤ limit max) ∧ encodings.flatten = bodies.flatMap encode := by
  induction bodies generalizing encodings with
  | nil =>
    cases h
    exact ⟨nofun, rfl⟩
  | cons body bodies ih =>
    rw [List.mapM_cons] at h
    cases hb : encode? max body with
    | error error => rw [hb] at h; cases h
    | ok bytes =>
      cases hr : bodies.mapM (encode? max) with
      | error error => rw [hb, hr] at h; cases h
      | ok rest =>
        rw [hb, hr] at h
        cases h
        obtain ⟨hl, rfl⟩ := encode?_eq_ok.mp hb
        obtain ⟨hw, hf⟩ := ih hr
        refine ⟨?_, ?_⟩
        · simpa using ⟨hl, hw⟩
        · rw [List.flatten_cons, hf, List.flatMap_cons]

theorem Format.encode_values {f : Format α} {values : List α} {encodings : List Bytes}
    (h : values.mapM (f.encode? max) = .ok encodings) :
    (values.map f.write).mapM (Frame.encode? max) = .ok encodings := by
  rw [List.mapM_map]
  exact h

theorem Decoder.readAll_values {f : Format α} {values : List α} {bodies : List Bytes}
    {switched : Option Nat} (h : ∀ a ∈ values, f.read (f.write a) = .ok a)
    (hs : switched = some values.length ∨ switched = none ∧ bodies = []) :
    (typed f).readAll switched (values.map f.write ++ bodies) =
      values.map (.ok ∘ .value) ++ bodies.map (.ok ∘ .body) := by
  have hv : (values.map f.write).map (typed f).read = values.map (.ok ∘ .value) := by
    rw [List.map_map]
    refine List.map_congr_left fun a ha => ?_
    simp only [Function.comp_apply, read, h a ha]
  obtain rfl | ⟨rfl, rfl⟩ := hs
  · have hl : values.length = (values.map f.write).length := (List.length_map _).symm
    rw [readAll, hl, List.take_left, List.drop_left, hv]
    rfl
  · rw [List.append_nil, readAll, hv, List.map_nil, List.append_nil]

namespace Intake

def settled (max : Nat) (s : Bytes) : Intake :=
  match Bytes.cut? 4 s with
  | none => ⟨.head, s⟩
  | some (head, tail) =>
    if limit max < Bytes.number head then ⟨.head, s⟩ else ⟨.body (Bytes.number head), tail⟩

theorem settled_nil (max : Nat) : settled max [] = {} := rfl

variable {max : Nat} {i i' : Intake} {body head tail : Bytes}

theorem eq_of_unread (hf : i.Fits max)
    (h : ∀ head tail, Bytes.cut? 4 i.unread = some (head, tail) → limit max < Bytes.number head) :
    i = ⟨.head, i.unread⟩ := by
  obtain ⟨phase, buffer⟩ := i
  cases phase with
  | head => rfl
  | body length =>
    have hl : length ≤ limit max := hf length rfl
    have ht := h _ _ (Bytes.cut?_bigEndian 4 length buffer)
    rw [number_bigEndian_of_le hl] at ht
    omega

theorem settled_of_none (hf : i.Fits max) (h : i.next max = (.ok none, i')) :
    i' = settled max i.unread := by
  rw [next_of_fits hf] at h
  split at h
  · next hs =>
    cases h
    simp only [settled, hs]
    exact eq_of_unread hf fun _ _ h => nomatch hs.symm.trans h
  · next head tail hs =>
    simp only [settled, hs]
    split at h
    · cases h
    · next hl =>
      rw [if_neg hl]
      cases hc : Bytes.cut? (Bytes.number head) tail with
      | some p => simp [takeBody, hc] at h
      | none =>
        simp only [takeBody, hc, Prod.mk.injEq, true_and] at h
        exact h.symm

theorem settled_of_error {error : IoError} (hf : i.Fits max)
    (h : i.next max = (.error error, i')) : i' = i ∧ i = settled max i.unread := by
  rw [next_of_fits hf] at h
  split at h
  · cases h
  · next head tail hs =>
    split at h
    · next hl =>
      cases h
      simp only [settled, hs, if_pos hl, true_and]
      refine eq_of_unread hf fun head' tail' h => ?_
      cases hs.symm.trans h
      exact hl
    · cases h

end Intake

end PeerLink.Frame
