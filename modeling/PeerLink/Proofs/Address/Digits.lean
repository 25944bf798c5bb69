import Mathlib.Data.Nat.Digits.Defs
import PeerLink.Address.Printer
import PeerLink.Address.Reader

namespace PeerLink.Address

def Ends (radix : Nat) (rest : List Char) : Prop :=
  ∀ c ∈ rest.head?, digitValue? radix c = none

variable {radix n : Nat} {c : Char} {rest : List Char}

@[simp] theorem ends_nil (radix : Nat) : Ends radix [] := nofun

theorem ends_cons : Ends radix (c :: rest) ↔ digitValue? radix c = none := by
  simp [Ends]

/-- A digit of a small radix is one of radix sixteen, and of the same value. -/
theorem digitValue?_eq_some_iff {value : Nat} (hr : radix ≤ 16) :
    digitValue? radix c = some value ↔ digitValue? 16 c = some value ∧ value < radix := by
  simp only [digitValue?, Option.ite_none_right_eq_some, Option.some.injEq]
  constructor
  · rintro ⟨hlt, rfl⟩
    exact ⟨⟨by omega, rfl⟩, hlt⟩
  · rintro ⟨⟨-, rfl⟩, hlt⟩
    exact ⟨hlt, rfl⟩

theorem digitValue?_digitChar (hr : radix ≤ 16) (hn : n < radix) :
    digitValue? radix (Nat.digitChar n) = some n := by
  have hsixteen : ∀ k < 16, digitValue? 16 (Nat.digitChar k) = some k := by decide
  exact (digitValue?_eq_some_iff hr).mpr ⟨hsixteen n (by omega), hn⟩

theorem digitRun_of_ends (h : Ends radix rest) (value count : Nat) :
    digitRun radix value count rest = (value, count, rest) := by
  cases rest with
  | nil => rfl
  | cons c rest => rw [digitRun, ends_cons.mp h]

theorem digitRun_toDigits (hb : 1 < radix) (hr : radix ≤ 16) (n : Nat) (rest : List Char) :
    digitRun radix 0 0 (Nat.toDigits radix n ++ rest) =
      digitRun radix n (Nat.toDigits radix n).length rest := by
  induction n using Nat.strong_induction_on generalizing rest with
  | _ n ih =>
    by_cases hn : n < radix
    · rw [Nat.toDigits_of_lt_base hn, List.singleton_append, digitRun,
        digitValue?_digitChar hr hn]
      simp only [Nat.mul_zero, Nat.zero_add, List.length_singleton]
    · have hlt : n / radix < n := Nat.div_lt_self (by omega) hb
      have hmod : n % radix < radix := Nat.mod_lt n (by omega)
      rw [Nat.toDigits_of_base_le hb (Nat.not_lt.mp hn), List.append_assoc, ih _ hlt,
        List.singleton_append, digitRun, digitValue?_digitChar hr hmod]
      simp only [Nat.div_add_mod, List.length_append, List.length_singleton]

theorem digitRun_number (hb : 1 < radix) (hr : radix ≤ 16) (n : Nat) (h : Ends radix rest) :
    digitRun radix 0 0 (Nat.toDigits radix n ++ rest) =
      (n, (Nat.toDigits radix n).length, rest) := by
  rw [digitRun_toDigits hb hr, digitRun_of_ends h]

theorem rest_of_digitRun (radix value count : Nat) (cs : List Char) :
    (digitRun radix value count cs).2.2 = cs.dropWhile fun c => (digitValue? radix c).isSome := by
  induction cs generalizing value count with
  | nil => rfl
  | cons c cs ih =>
    rw [digitRun, List.dropWhile_cons]
    cases hd : digitValue? radix c with
    | none => rfl
    | some d => simpa using ih _ _

theorem start_of_toDigits (hb : 1 < radix) (hr : radix ≤ 16) (hn : 0 < n) :
    ∃ c cs, Nat.toDigits radix n = c :: cs ∧ c ≠ '0' := by
  induction n using Nat.strong_induction_on with
  | _ n ih =>
    by_cases hlt : n < radix
    · refine ⟨Nat.digitChar n, [], Nat.toDigits_of_lt_base hlt, ?_⟩
      rw [Ne, Nat.digitChar_eq_zero]
      omega
    · have hpos : 0 < n / radix := Nat.div_pos (Nat.not_lt.mp hlt) (by omega)
      obtain ⟨c, cs, hcs, hc⟩ := ih _ (Nat.div_lt_self hn hb) hpos
      refine ⟨c, cs ++ [Nat.digitChar (n % radix)], ?_, hc⟩
      rw [Nat.toDigits_of_base_le hb (Nat.not_lt.mp hlt), hcs, List.cons_append]

theorem digitValue?_of_mem_toDigits (hb : 1 < radix) (hr : radix ≤ 16)
    (h : c ∈ Nat.toDigits radix n) : (digitValue? radix c).isSome = true := by
  induction n using Nat.strong_induction_on with
  | _ n ih =>
    by_cases hlt : n < radix
    · rw [Nat.toDigits_of_lt_base hlt, List.mem_singleton] at h
      rw [h, digitValue?_digitChar hr hlt]
      rfl
    · have hmod : n % radix < radix := Nat.mod_lt n (by omega)
      rw [Nat.toDigits_of_base_le hb (Nat.not_lt.mp hlt), List.mem_append,
        List.mem_singleton] at h
      obtain h | rfl := h
      · exact ih _ (Nat.div_lt_self (by omega) hb) h
      · rw [digitValue?_digitChar hr hmod]
        rfl

theorem octet?_decimal (a : UInt8) (h : Ends 10 rest) :
    octet? (decimal a.toNat ++ rest) = some (a, rest) := by
  have hlt : a.toNat < 10 ^ 3 := by
    have := a.toNat_lt
    omega
  have hlen : (Nat.toDigits 10 a.toNat).length ≤ 3 := Nat.toDigits_length 10 _ 3 (by decide) hlt
  have hpos : 0 < (Nat.toDigits 10 a.toNat).length := Nat.length_toDigits_pos
  have hmax : a.toNat ≤ 255 := Nat.le_of_lt_succ a.toNat_lt
  have hzero : ¬((Nat.toDigits 10 a.toNat ++ rest).head? = some '0' ∧
      1 < (Nat.toDigits 10 a.toNat).length) := by
    rintro ⟨hz, hl⟩
    obtain h0 | h0 := Nat.eq_zero_or_pos a.toNat
    · rw [h0] at hl
      exact absurd hl (by decide)
    · obtain ⟨c, cs, hcs, hc⟩ := start_of_toDigits (by decide : 1 < 10) (by decide) h0
      rw [hcs, List.cons_append, List.head?_cons] at hz
      exact hc (Option.some.inj hz)
  rw [octet?, decimal, digitRun_number (by decide) (by decide) _ h]
  dsimp only
  rw [if_neg, UInt8.ofNat_toNat]
  rintro (h | h | h | h)
  · omega
  · omega
  · omega
  · exact hzero h

theorem group?_hexGroup (g : UInt16) (h : Ends 16 rest) :
    group? (hexGroup g ++ rest) = some (g, rest) := by
  have hlen : (Nat.toDigits 16 g.toNat).length ≤ 4 :=
    Nat.toDigits_length 16 _ 4 (by decide) g.toNat_lt
  have hpos : 0 < (Nat.toDigits 16 g.toNat).length := Nat.length_toDigits_pos
  rw [group?, hexGroup, digitRun_number (by decide) (by decide) _ h]
  dsimp only
  rw [if_neg (by omega), UInt16.ofNat_toNat]

end PeerLink.Address
