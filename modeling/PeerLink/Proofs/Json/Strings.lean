import PeerLink.Json.Text
import PeerLink.Proofs.Text.Utf8

namespace PeerLink.Json.Text

open PeerLink.Text

def Plain (b : UInt8) : Prop := b ≠ 0x22 ∧ b ≠ 0x5C ∧ ¬b < 0x20

variable {c : Char} {bs done r : Bytes} {n : Nat}

theorem body_plain (h : ∀ b ∈ bs, Plain b) (fuel : Nat) :
    body (bs.length + fuel) done (bs ++ r) = body fuel (bs.reverse ++ done) r := by
  induction bs generalizing done with
  | nil => simp
  | cons b bs ih =>
    obtain ⟨h₁, h₂, h₃⟩ := h b List.mem_cons_self
    have hl : (b :: bs).length + fuel = (bs.length + fuel) + 1 := by simp; omega
    rw [hl, List.cons_append, body]
    simp only [if_neg h₁, if_neg h₂, if_neg h₃]
    rw [ih fun b' hb => h b' (List.mem_cons_of_mem _ hb)]
    simp

theorem body_escape {e spelled rest : Bytes} (h : escape e = .ok (spelled, rest)) (fuel : Nat) :
    body (1 + fuel) done (0x5C :: e) = body fuel (spelled.reverse ++ done) rest := by
  rw [Nat.add_comm, body]
  simp [h]

theorem plain_of_toNat {b : UInt8} (h : 0x5D ≤ b.toNat) : Plain b := by
  refine ⟨?_, ?_, ?_⟩
  · rintro rfl
    exact absurd h (by decide)
  · rintro rfl
    exact absurd h (by decide)
  · rw [UInt8.lt_iff_toNat_lt]
    have hn : (0x20 : UInt8).toNat = 0x20 := rfl
    omega

theorem plain_byte {k : Nat} (hl : 0x80 ≤ k) (hg : k < 0x100) : Plain (UInt8.ofNat k) := by
  apply plain_of_toNat
  rw [Utf8.toNat_byte hg]
  omega

theorem plain_encodeNat (h₁ : n ≠ 0x22) (h₂ : n ≠ 0x5C) (h₃ : 0x20 ≤ n) (h₄ : n < 0x110000) :
    ∀ b ∈ Utf8.encodeNat n, Plain b := by
  rw [Utf8.encodeNat]
  split
  · intro b hb
    rw [List.mem_singleton] at hb
    subst hb
    have hn : (UInt8.ofNat n).toNat = n := Utf8.toNat_byte (by omega)
    refine ⟨fun he => h₁ ?_, fun he => h₂ ?_, ?_⟩
    · rw [← hn, he]
      rfl
    · rw [← hn, he]
      rfl
    · rw [UInt8.lt_iff_toNat_lt, hn]
      exact Nat.not_lt.mpr h₃
  · repeat' split
    all_goals
      simp only [List.mem_cons, List.not_mem_nil, or_false, forall_eq_or_imp, forall_eq]
      refine ⟨plain_byte ?_ ?_, ?_⟩ <;> try omega
    · exact plain_byte (by omega) (by omega)
    · exact ⟨plain_byte (by omega) (by omega), plain_byte (by omega) (by omega)⟩
    · exact ⟨plain_byte (by omega) (by omega), plain_byte (by omega) (by omega),
        plain_byte (by omega) (by omega)⟩

theorem hexDigit?_letter : ∀ k < 16, hexDigit? (hexLetter k) = some k := by decide

theorem escape_control (h : n < 0x20) :
    escape (0x75 :: 0x30 :: 0x30 :: hexLetter (n / 16) :: hexLetter (n % 16) :: r) =
      .ok (Utf8.encodeNat n, r) := by
  have hz : hexDigit? 0x30 = some 0 := by decide
  have hu : unit (0x30 :: 0x30 :: hexLetter (n / 16) :: hexLetter (n % 16) :: r) = .ok (n, r) := by
    have hv : 0x10 * (n / 16) + n % 16 = n := by omega
    simp [unit, hexDigits?, hz, hexDigit?_letter (n / 16) (by omega),
      hexDigit?_letter (n % 16) (by omega), hv]
  have hs : shortEscape? 0x75 = none := by decide
  have hp : codePoint (0x30 :: 0x30 :: hexLetter (n / 16) :: hexLetter (n % 16) :: r) =
      .ok (n, r) := by
    rw [codePoint, hu]
    simp only
    rw [if_neg (by omega), if_pos (by omega)]
  simp [escape, hs, hp, Except.map]

theorem escape_short {b x : UInt8} (h : shortEscape? b = some x) :
    escape (b :: r) = .ok ([x], r) := by
  rw [escape, h]

/-- A character takes as many turns as bytes, or fewer. -/
theorem body_writeChar (c : Char) : ∃ k ≤ (writeChar c).length, ∀ fuel done r,
    body (k + fuel) done (writeChar c ++ r) = body fuel ((Utf8.encodeChar c).reverse ++ done) r := by
  have hshort : ∀ (b x : UInt8), shortEscape? b = some x → writeChar c = [0x5C, b] →
      Utf8.encodeChar c = [x] → ∃ k ≤ (writeChar c).length, ∀ fuel done r,
      body (k + fuel) done (writeChar c ++ r) =
        body fuel ((Utf8.encodeChar c).reverse ++ done) r := by
    intro b x hs hw he
    refine ⟨1, by rw [hw]; simp, fun fuel done r => ?_⟩
    rw [hw, he]
    exact body_escape (escape_short hs) fuel
  obtain ⟨hg, -⟩ := Utf8.toNat_cases c
  by_cases h₁ : c.toNat = 0x22
  · exact hshort 0x22 0x22 (by decide) (by simp [writeChar, h₁])
      (by simp [Utf8.encodeChar, Utf8.encodeNat, h₁])
  by_cases h₂ : c.toNat = 0x5C
  · exact hshort 0x5C 0x5C (by decide) (by simp [writeChar, h₂])
      (by simp [Utf8.encodeChar, Utf8.encodeNat, h₂])
  by_cases h₃ : c.toNat = 0x08
  · exact hshort 0x62 0x08 (by decide) (by simp [writeChar, h₃])
      (by simp [Utf8.encodeChar, Utf8.encodeNat, h₃])
  by_cases h₄ : c.toNat = 0x0C
  · exact hshort 0x66 0x0C (by decide) (by simp [writeChar, h₄])
      (by simp [Utf8.encodeChar, Utf8.encodeNat, h₄])
  by_cases h₅ : c.toNat = 0x0A
  · exact hshort 0x6E 0x0A (by decide) (by simp [writeChar, h₅])
      (by simp [Utf8.encodeChar, Utf8.encodeNat, h₅])
  by_cases h₆ : c.toNat = 0x0D
  · exact hshort 0x72 0x0D (by decide) (by simp [writeChar, h₆])
      (by simp [Utf8.encodeChar, Utf8.encodeNat, h₆])
  by_cases h₇ : c.toNat = 0x09
  · exact hshort 0x74 0x09 (by decide) (by simp [writeChar, h₇])
      (by simp [Utf8.encodeChar, Utf8.encodeNat, h₇])
  by_cases h₈ : c.toNat < 0x20
  · have hw : writeChar c = [0x5C, 0x75, 0x30, 0x30, hexLetter (c.toNat / 16),
        hexLetter (c.toNat % 16)] := by
      simp [writeChar, h₁, h₂, h₃, h₄, h₅, h₆, h₇, h₈]
    refine ⟨1, by rw [hw]; simp, fun fuel done r => ?_⟩
    rw [hw]
    exact body_escape (escape_control h₈) fuel
  · have hw : writeChar c = Utf8.encodeChar c := by
      simp [writeChar, h₁, h₂, h₃, h₄, h₅, h₆, h₇, h₈]
    refine ⟨(Utf8.encodeChar c).length, Nat.le_of_eq (by rw [hw]), fun fuel done r => ?_⟩
    rw [hw]
    exact body_plain (plain_encodeNat h₁ h₂ (by omega) hg) fuel

theorem body_write (cs : List Char) (done : Bytes) {fuel : Nat}
    (h : (cs.flatMap writeChar).length < fuel) :
    body fuel done (cs.flatMap writeChar ++ 0x22 :: r) =
      .ok (done.reverse ++ Utf8.encodeChars cs, r) := by
  induction cs generalizing done fuel with
  | nil =>
    obtain ⟨f, rfl⟩ : ∃ f, fuel = f + 1 := ⟨fuel - 1, by omega⟩
    simp [body, Utf8.encodeChars]
  | cons c cs ih =>
    obtain ⟨k, hk, hb⟩ := body_writeChar c
    rw [List.flatMap_cons, List.length_append] at h
    obtain ⟨f, rfl⟩ : ∃ f, fuel = k + f := ⟨fuel - k, by omega⟩
    rw [List.flatMap_cons, List.append_assoc, hb, ih _ (by omega)]
    simp [Utf8.encodeChars]

theorem read_write (s : String) (r : Bytes) :
    read (s.toList.flatMap writeChar ++ 0x22 :: r) = .ok (s, r) := by
  have hl : (s.toList.flatMap writeChar).length <
      (s.toList.flatMap writeChar ++ 0x22 :: r).length + 1 := by
    rw [List.length_append]
    omega
  have hb := body_write (r := r) s.toList [] hl
  have hd : Utf8.decode (Utf8.encodeChars s.toList) = .ok s := Utf8.decode_encode s
  rw [read, hb]
  simp only [List.reverse_nil, List.nil_append, hd]

end PeerLink.Json.Text
