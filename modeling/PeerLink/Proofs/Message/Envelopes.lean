import PeerLink.Envelope
import PeerLink.Proofs.Text.Utf8

namespace PeerLink.Envelope

open PeerLink.Text

/-- The length of a kind is one that its field can hold. -/
def Fits (e : Envelope) : Prop := 1 ≤ Utf8.size e.kind ∧ Utf8.size e.kind ≤ maxKindLength

def Laid (bytes : Bytes) : Prop :=
  ∃ high low kind rest, bytes = version :: high :: low :: (kind ++ rest) ∧
    Bytes.number [high, low] = kind.length ∧ kind ≠ [] ∧ (∃ text, Utf8.encode text = kind) ∧
    8 ≤ rest.length

def bodyInReads? (kindLength : Nat) (body : Bytes) : Option (Except Malformation Envelope) :=
  if kindLength = 0 then some (.error .emptyKind)
  else if body.length < kindLength + 8 then
    some (.error (.truncated (kindLength + 8) body.length))
  else do
    let (kind, rest) ← Bytes.cut? kindLength body
    match Utf8.decode kind with
    | .error fault => return .error (.kindNotText fault)
    | .ok kind =>
      let (sequence, payload) ← Bytes.cut? 8 rest
      return .ok ⟨kind, (UInt64.ofNat (Bytes.number sequence)).toInt64, payload⟩

def decodeInReads? (bytes : Bytes) : Option (Except Malformation Envelope) :=
  if bytes.length < 3 then some (.error (.shortHeader bytes.length))
  else do
    let (first, rest) ← Bytes.cut? 1 bytes
    if UInt8.ofNat (Bytes.number first) ≠ version then
      return .error (.unsupportedVersion (UInt8.ofNat (Bytes.number first)))
    else
      let (length, body) ← Bytes.cut? 2 rest
      bodyInReads? (Bytes.number length) body

variable {e : Envelope} {bytes kind sequence body : Bytes} {n : Nat}

theorem encode_of_fits (h : e.Fits) : e.encode = .ok (version ::
    Bytes.bigEndian 2 (Utf8.encode e.kind).length ++ Utf8.encode e.kind ++
      Bytes.bigEndian 8 e.sequence.toUInt64.toNat ++ e.payload) := by
  have h₁ : 1 ≤ (Utf8.encode e.kind).length := h.1
  have h₂ : (Utf8.encode e.kind).length ≤ maxKindLength := h.2
  simp only [encode]
  rw [if_neg (by omega), if_neg (by omega)]

theorem encode_of_not_fits (h : ¬e.Fits) : ∃ reason, e.encode = .error reason := by
  have h : ¬(1 ≤ (Utf8.encode e.kind).length ∧ (Utf8.encode e.kind).length ≤ maxKindLength) := h
  simp only [encode]
  by_cases h₀ : (Utf8.encode e.kind).length = 0
  · exact ⟨_, if_pos h₀⟩
  · exact ⟨_, by rw [if_neg h₀, if_pos (by omega)]⟩

theorem number_sequence (s : Int64) :
    (UInt64.ofNat (Bytes.number (Bytes.bigEndian 8 s.toUInt64.toNat))).toInt64 = s := by
  have hlt : s.toUInt64.toNat < Nat.pow 256 8 := s.toUInt64.toNat_lt
  rw [Bytes.number_bigEndian, Nat.mod_eq_of_lt hlt, UInt64.ofNat_toNat, Int64.toInt64_toUInt64]

theorem bigEndian_sequence (h : sequence.length = 8) : Bytes.bigEndian 8
    ((UInt64.ofNat (Bytes.number sequence)).toInt64).toUInt64.toNat = sequence := by
  have hlt : Bytes.number sequence < 2 ^ 64 := by
    have := Bytes.number_lt sequence
    rwa [h] at this
  have hn : (UInt64.ofNat (Bytes.number sequence)).toNat = Bytes.number sequence :=
    UInt64.toNat_ofNat_of_lt hlt
  rw [UInt64.toUInt64_toInt64, hn, ← h, Bytes.bigEndian_number]

theorem decodeBody_parts (hs : sequence.length = 8) (h₀ : kind ≠ []) (payload : Bytes) :
    decodeBody kind.length (kind ++ (sequence ++ payload)) =
      match Utf8.decode kind with
      | .error fault => .error (.kindNotText fault)
      | .ok text => .ok ⟨text, (UInt64.ofNat (Bytes.number sequence)).toInt64, payload⟩ := by
  have hk : kind.length ≠ 0 := fun h => h₀ (List.length_eq_zero_iff.mp h)
  have hl : ¬(kind ++ (sequence ++ payload)).length < kind.length + 8 := by
    simp only [List.length_append]
    omega
  rw [decodeBody, if_neg hk, if_neg hl]
  cases hd : Utf8.decode kind <;>
    simp only [List.splitAt_eq, List.take_left, List.drop_left, ← hs, hd]

theorem decode_cons (high low : UInt8) (body : Bytes) :
    decode (version :: high :: low :: body) = decodeBody (Bytes.number [high, low]) body := by
  rw [decode, if_neg (by simp)]

theorem exists_parts (h : n + 8 ≤ body.length) : ∃ kind sequence payload,
    body = kind ++ (sequence ++ payload) ∧ n = kind.length ∧ sequence.length = 8 := by
  refine ⟨body.take n, (body.drop n).take 8, (body.drop n).drop 8, ?_, ?_, ?_⟩
  · rw [List.take_append_drop, List.take_append_drop]
  · rw [List.length_take]
    omega
  · rw [List.length_take, List.length_drop]
    omega

theorem body_of_decodeBody (h : decodeBody n body = .ok e) :
    ∃ sequence, body = Utf8.encode e.kind ++ (sequence ++ e.payload) ∧
      n = (Utf8.encode e.kind).length ∧ Utf8.encode e.kind ≠ [] ∧ sequence.length = 8 ∧
      e.sequence = (UInt64.ofNat (Bytes.number sequence)).toInt64 := by
  by_cases h₀ : n = 0
  · rw [decodeBody, if_pos h₀] at h
    cases h
  by_cases hl : body.length < n + 8
  · rw [decodeBody, if_neg h₀, if_pos hl] at h
    cases h
  obtain ⟨kind, sequence, payload, rfl, rfl, hs⟩ := exists_parts (Nat.not_lt.mp hl)
  have hk : kind ≠ [] := fun hk => h₀ (congrArg List.length hk)
  rw [decodeBody_parts hs hk] at h
  split at h
  · cases h
  · next text ht =>
    cases h
    rw [Utf8.encode_of_decode ht]
    exact ⟨sequence, rfl, rfl, hk, hs, rfl⟩

/-- Bytes that can be read are laid out as an envelope, of the parts that are found in them. -/
theorem parts_of_decode (h : decode bytes = .ok e) :
    ∃ high low sequence, bytes = version :: high :: low ::
        (Utf8.encode e.kind ++ (sequence ++ e.payload)) ∧
      Bytes.number [high, low] = (Utf8.encode e.kind).length ∧ Utf8.encode e.kind ≠ [] ∧
      sequence.length = 8 ∧ e.sequence = (UInt64.ofNat (Bytes.number sequence)).toInt64 := by
  unfold decode at h
  split at h
  · next first high low body =>
    split at h
    · cases h
    · next hv =>
      obtain rfl : first = version := by simpa using hv
      obtain ⟨sequence, rfl, hparts⟩ := body_of_decodeBody h
      exact ⟨high, low, sequence, rfl, hparts⟩
  · cases h

theorem encode_of_decode (h : decode bytes = .ok e) : e.encode = .ok bytes := by
  obtain ⟨high, low, sequence, rfl, hn, h₀, hs, hseq⟩ := parts_of_decode h
  have hpos := List.length_pos_iff.mpr h₀
  have hlt : Bytes.number [high, low] < Nat.pow 256 2 := Bytes.number_lt [high, low]
  have hmax : Nat.pow 256 2 = maxKindLength + 1 := rfl
  have hfits : e.Fits := by
    show 1 ≤ (Utf8.encode e.kind).length ∧ (Utf8.encode e.kind).length ≤ maxKindLength
    omega
  have hl : Bytes.bigEndian 2 (Utf8.encode e.kind).length = [high, low] :=
    hn ▸ Bytes.bigEndian_number [high, low]
  rw [encode_of_fits hfits, hl, hseq, bigEndian_sequence hs]
  simp

theorem decode_of_encode (h : e.encode = .ok bytes) : decode bytes = .ok e := by
  by_cases hf : e.Fits
  · rw [encode_of_fits hf] at h
    obtain rfl := Except.ok.inj h
    obtain ⟨h₁, h₂⟩ : 1 ≤ (Utf8.encode e.kind).length ∧
      (Utf8.encode e.kind).length ≤ maxKindLength := hf
    have h₀ : Utf8.encode e.kind ≠ [] := List.length_pos_iff.mp h₁
    have hn : Bytes.number (Bytes.bigEndian 2 (Utf8.encode e.kind).length) =
        (Utf8.encode e.kind).length := by
      have hmax : Nat.pow 256 2 = maxKindLength + 1 := rfl
      rw [Bytes.number_bigEndian, Nat.mod_eq_of_lt (by omega)]
    obtain ⟨high, low, hhl⟩ : ∃ high low,
        Bytes.bigEndian 2 (Utf8.encode e.kind).length = [high, low] := ⟨_, _, rfl⟩
    rw [hhl] at hn ⊢
    simp only [List.cons_append, List.nil_append, List.append_assoc]
    rw [decode_cons, hn, decodeBody_parts (Bytes.length_bigEndian 8 _) h₀, Utf8.decode_encode,
      number_sequence]
  · obtain ⟨reason, he⟩ := encode_of_not_fits hf
    cases h.symm.trans he

theorem laid_iff : Laid bytes ↔ ∃ e, decode bytes = .ok e := by
  constructor
  · rintro ⟨high, low, kind, rest, rfl, hn, h₀, ⟨text, rfl⟩, hl⟩
    have hs : (rest.take 8).length = 8 := by
      rw [List.length_take]
      omega
    have hd := decodeBody_parts hs h₀ (rest.drop 8)
    rw [List.take_append_drop, Utf8.decode_encode] at hd
    exact ⟨_, by rw [decode_cons, hn, hd]⟩
  · rintro ⟨e, h⟩
    obtain ⟨high, low, sequence, rfl, hn, h₀, hs, -⟩ := parts_of_decode h
    refine ⟨high, low, _, _, rfl, hn, h₀, ⟨e.kind, rfl⟩, ?_⟩
    rw [List.length_append]
    omega

theorem bodyInReads?_eq (n : Nat) (body : Bytes) :
    bodyInReads? n body = some (decodeBody n body) := by
  by_cases h₀ : n = 0
  · rw [bodyInReads?, decodeBody, if_pos h₀, if_pos h₀]
  by_cases hl : body.length < n + 8
  · rw [bodyInReads?, decodeBody, if_neg h₀, if_neg h₀, if_pos hl, if_pos hl]
  obtain ⟨kind, sequence, payload, rfl, rfl, hs⟩ := exists_parts (Nat.not_lt.mp hl)
  have hk : kind ≠ [] := fun hk => h₀ (congrArg List.length hk)
  have h₈ : Bytes.cut? 8 (sequence ++ payload) = some (sequence, payload) :=
    hs ▸ Bytes.cut?_append sequence payload
  rw [bodyInReads?, if_neg h₀, if_neg hl, decodeBody_parts hs hk, Bytes.cut?_append]
  simp only [Option.bind_eq_bind, Option.bind_some, h₈]
  cases Utf8.decode kind <;> rfl

theorem decodeInReads?_eq (bytes : Bytes) : decodeInReads? bytes = some (decode bytes) := by
  match bytes with
  | [] => rfl
  | [_] => rfl
  | [_, _] => rfl
  | first :: high :: low :: body =>
    have h₁ : Bytes.cut? 1 (first :: high :: low :: body) = some ([first], high :: low :: body) :=
      Bytes.cut?_append [first] _
    have h₂ : Bytes.cut? 2 (high :: low :: body) = some ([high, low], body) :=
      Bytes.cut?_append [high, low] _
    have hf : UInt8.ofNat (Bytes.number [first]) = first := by simp [Bytes.number]
    rw [decodeInReads?, if_neg (by simp), h₁, decode]
    simp only [Option.bind_eq_bind, Option.bind_some, h₂, hf, bodyInReads?_eq]
    split <;> rfl

/-- Encoding and decoding are each other's inverse. An envelope whose kind has a length that fits
its field is spelled in as many bytes as were announced, and no other can be spelled; the bytes that
can be read are those laid out as an envelope, all others are malformed, and no read goes past the
end of the bytes that there are. -/
theorem decode_inverts_encode (e : Envelope) (bytes : Bytes) :
    (e.Fits → ∃ spelled, e.encode = .ok spelled ∧ spelled.length = e.encodedLength ∧
      decode spelled = .ok e) ∧
    (¬e.Fits → ∃ reason, e.encode = .error reason) ∧
    (decode bytes = .ok e ↔ e.encode = .ok bytes) ∧
    (Laid bytes ↔ ∃ e, decode bytes = .ok e) ∧
    (¬Laid bytes → ∃ reason, decode bytes = .error reason) ∧
    decodeInReads? bytes = some (decode bytes) := by
  refine ⟨fun hf => ?_, encode_of_not_fits, ⟨encode_of_decode, decode_of_encode⟩, laid_iff,
    fun hn => ?_, decodeInReads?_eq bytes⟩
  · have he := encode_of_fits hf
    refine ⟨_, he, ?_, decode_of_encode he⟩
    simp only [List.cons_append, List.length_cons, List.length_append, Bytes.length_bigEndian,
      encodedLength, Utf8.size]
    omega
  · cases hd : decode bytes with
    | error reason => exact ⟨reason, rfl⟩
    | ok e => exact absurd (laid_iff.mpr ⟨e, hd⟩) hn

end PeerLink.Envelope
