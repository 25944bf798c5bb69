
namespace PeerLink

abbrev Bytes := List UInt8

namespace Bytes

def bigEndian : Nat → Nat → Bytes
  | 0, _ => []
  | width + 1, n => UInt8.ofNat (n / Nat.pow 256 width) :: bigEndian width n

/-- The number that bytes spell, the most significant byte first. -/
def number (bytes : Bytes) : Nat :=
  bytes.foldl (fun n b => 256 * n + b.toNat) 0

def cut? (n : Nat) (bytes : Bytes) : Option (Bytes × Bytes) :=
  let (front, rest) := bytes.splitAt n
  if front.length = n then some (front, rest) else none

@[simp] theorem length_bigEndian (width n : Nat) : (bigEndian width n).length = width := by
  induction width <;> simp [bigEndian, *]

theorem foldl_number (bytes : Bytes) (n : Nat) :
    bytes.foldl (fun n b => 256 * n + b.toNat) n = n * Nat.pow 256 bytes.length + number bytes := by
  induction bytes generalizing n with
  | nil => simp [number]
  | cons b r ih =>
    have hpow : Nat.pow 256 (b :: r).length = Nat.pow 256 r.length * 256 := rfl
    simp only [List.foldl_cons, number] at ih ⊢
    rw [ih, ih (256 * 0 + b.toNat), hpow]
    grind

theorem number_cons (b : UInt8) (r : Bytes) :
    number (b :: r) = b.toNat * Nat.pow 256 r.length + number r := by
  have h := foldl_number r (256 * 0 + b.toNat)
  simpa [number] using h

theorem number_bigEndian (width n : Nat) :
    number (bigEndian width n) = n % Nat.pow 256 width := by
  induction width with
  | zero => simp [bigEndian, number, Nat.mod_one]
  | succ k ih =>
    have hpow : Nat.pow 256 (k + 1) = Nat.pow 256 k * 256 := rfl
    rw [bigEndian, number_cons, ih, length_bigEndian, UInt8.toNat_ofNat', hpow, Nat.mod_mul,
      Nat.mul_comm (Nat.pow 256 k), Nat.add_comm]

theorem bigEndian_mul_add (width k n : Nat) :
    bigEndian width (k * Nat.pow 256 width + n) = bigEndian width n := by
  induction width generalizing k with
  | zero => rfl
  | succ width ih =>
    have hpos : 0 < Nat.pow 256 width := Nat.pow_pos (by decide)
    have hpow : Nat.pow 256 (width + 1) = 256 * Nat.pow 256 width := Nat.pow_succ'
    have hk : k * Nat.pow 256 (width + 1) + n = n + k * 256 * Nat.pow 256 width := by
      rw [hpow, Nat.mul_assoc, Nat.add_comm]
    rw [bigEndian, bigEndian, hk, Nat.add_mul_div_right _ _ hpos, Nat.add_comm n, ih]
    congr 1
    apply UInt8.toNat_inj.mp
    rw [UInt8.toNat_ofNat', UInt8.toNat_ofNat']
    exact Nat.add_mul_mod_self_right _ _ _

theorem number_lt (bytes : Bytes) : number bytes < Nat.pow 256 bytes.length := by
  induction bytes with
  | nil => decide
  | cons b r ih =>
    have hpow : Nat.pow 256 (b :: r).length = 256 * Nat.pow 256 r.length := Nat.pow_succ'
    have hb : b.toNat * Nat.pow 256 r.length ≤ 255 * Nat.pow 256 r.length :=
      Nat.mul_le_mul_right _ (Nat.le_of_lt_succ b.toNat_lt)
    rw [number_cons, hpow]
    omega

/-- Bytes are the spelling of the number that they spell. -/
theorem bigEndian_number (bytes : Bytes) : bigEndian bytes.length (number bytes) = bytes := by
  induction bytes with
  | nil => rfl
  | cons b r ih =>
    have hpos : 0 < Nat.pow 256 r.length := Nat.pow_pos (by decide)
    have hd : (b.toNat * Nat.pow 256 r.length + number r) / Nat.pow 256 r.length = b.toNat := by
      rw [Nat.add_comm, Nat.add_mul_div_right _ _ hpos, Nat.div_eq_of_lt (number_lt r), Nat.zero_add]
    rw [number_cons, List.length_cons, bigEndian, hd, bigEndian_mul_add, ih, UInt8.ofNat_toNat]

theorem cut?_append (front rest : Bytes) :
    cut? front.length (front ++ rest) = some (front, rest) := by
  simp [cut?, List.splitAt_eq]

theorem cut?_eq_some {n : Nat} {bytes front rest : Bytes} (h : cut? n bytes = some (front, rest)) :
    bytes = front ++ rest ∧ front.length = n := by
  simp only [cut?, List.splitAt_eq] at h
  split at h
  · next hn =>
    obtain ⟨rfl, rfl⟩ := Prod.mk.inj (Option.some.inj h)
    exact ⟨(List.take_append_drop n bytes).symm, hn⟩
  · cases h

end Bytes

end PeerLink
