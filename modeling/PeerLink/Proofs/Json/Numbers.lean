import PeerLink.Json.Shape

namespace PeerLink.Json

def Clear : Bytes → Prop
  | [] => True
  | b :: _ => digit? b = none ∧ b ≠ 0x2E ∧ b ≠ 0x65 ∧ b ≠ 0x45

/-- The digits of a number. -/
def digits (n : Nat) : Bytes := (Nat.toDigits 10 n).map ascii

variable {n : Nat} {r : Bytes} {negative : Bool}

theorem digit?_digitChar : ∀ d < 10, digit? (ascii (Nat.digitChar d)) = some d := by decide

theorem digits_small (h : n < 10) : digits n = [ascii (Nat.digitChar n)] := by
  rw [digits, Nat.toDigits_of_lt_base h]
  rfl

theorem digits_large (h : 10 ≤ n) :
    digits n = digits (n / 10) ++ [ascii (Nat.digitChar (n % 10))] := by
  rw [digits, Nat.toDigits_of_base_le (by decide) h, List.map_append]
  rfl

theorem digits_head (n : Nat) : ∃ b t d, digits n = b :: t ∧ digit? b = some d := by
  induction n using Nat.strongRecOn with
  | ind n ih =>
    by_cases h : n < 10
    · exact ⟨_, [], n, digits_small h, digit?_digitChar n h⟩
    · obtain ⟨b, t, d, hb, hd⟩ := ih (n / 10) (by omega)
      refine ⟨b, t ++ [ascii (Nat.digitChar (n % 10))], d, ?_, hd⟩
      rw [digits_large (by omega), hb]
      rfl

namespace Number

theorem integerDigits_digit {acc d : Nat} (hd : d < 10) (h : 10 * acc + d ≤ greatestSignificand) :
    integerDigits negative acc (ascii (Nat.digitChar d) :: r) =
      integerDigits negative (10 * acc + d) r := by
  rw [integerDigits]
  simp only [digit?_digitChar d hd]
  rw [if_neg (by omega)]

theorem magnitude_digits (h₀ : 0 < n) (h : n ≤ greatestSignificand) (r : Bytes) :
    magnitude negative (digits n ++ r) = integerDigits negative n r := by
  induction n using Nat.strongRecOn generalizing r with
  | ind n ih =>
    by_cases hn : n < 10
    · have hne : ∀ d < 10, 0 < d → ascii (Nat.digitChar d) ≠ 0x30 := by decide
      rw [digits_small hn, List.singleton_append, magnitude]
      · simp only [digit?_digitChar n hn]
      · exact fun he => hne n hn h₀ he
    · have hv : 10 * (n / 10) + n % 10 = n := by omega
      rw [digits_large (by omega), List.append_assoc, ih (n / 10) (by omega) (by omega) (by omega),
        List.singleton_append, integerDigits_digit (by omega) (by omega), hv]

theorem afterInteger_clear (hr : Clear r) :
    afterInteger negative n r = .ok (signed negative n, r) := by
  cases r with
  | nil => rfl
  | cons b r =>
    obtain ⟨-, h₁, h₂, h₃⟩ := hr
    simp only [afterInteger]
    split
    · next he => exact absurd (List.cons.inj he).1 h₁
    · next he => exact absurd (List.cons.inj he).1 h₂
    · next he => exact absurd (List.cons.inj he).1 h₃
    · rfl

theorem integerDigits_clear (hr : Clear r) :
    integerDigits negative n r = .ok (signed negative n, r) := by
  cases r with
  | nil => rfl
  | cons b r =>
    rw [integerDigits]
    simp only [hr.1]
    exact afterInteger_clear hr

theorem magnitude_clear (h : n ≤ greatestSignificand) (hr : Clear r) :
    magnitude negative (digits n ++ r) = .ok (signed negative n, r) := by
  by_cases h₀ : n = 0
  · subst h₀
    have hz : digits 0 = [0x30] := by decide
    rw [hz, List.singleton_append]
    cases r with
    | nil => rfl
    | cons b r =>
      rw [magnitude]
      simp only [hr.1]
      exact afterInteger_clear hr
  · rw [magnitude_digits (by omega) h, integerDigits_clear hr]

theorem read?_negative (h₀ : 0 < n) (h : n ≤ 1 <<< 63) (hr : Clear r) :
    read? (0x2D :: digits n ++ r) = some (.ok (.integer (-n), r)) := by
  have hg : n ≤ greatestSignificand := by
    rw [greatestSignificand]
    omega
  rw [List.cons_append, read?, magnitude_clear hg hr, signed]
  simp only [if_true]
  rw [if_neg (by omega)]

theorem read?_natural (h : n ≤ greatestSignificand) (hr : Clear r) :
    read? (digits n ++ r) = some (.ok (.integer n, r)) := by
  have hm : magnitude false (digits n ++ r) = .ok (signed false n, r) := magnitude_clear h hr
  obtain ⟨b, t, d, hb, hd⟩ := digits_head n
  rw [hb, List.cons_append] at hm ⊢
  have hne : b ≠ 0x2D := by
    rintro rfl
    cases hd
  rw [read?]
  · rw [hd, hm]
    rfl
  · exact fun he => hne he

end Number

/-- An integer of 64 bits is read back, provided that no digit or the like follows. -/
theorem readInteger_write {least greatest : Int} (v : { n : Int // least ≤ n ∧ n ≤ greatest })
    (hl : -(1 <<< 63 : Nat) ≤ least) (hg : greatest ≤ (1 <<< 64 : Nat) - 1) (hr : Clear r) :
    readInteger least greatest (writeInteger v.val ++ r) = .ok (v, r) := by
  obtain ⟨n, h₁, h₂⟩ := v
  have hread : Number.read? (writeInteger n ++ r) = some (.ok (.integer n, r)) := by
    rw [writeInteger]
    by_cases hn : n < 0
    · have ha : (-(n.natAbs : Int)) = n := by omega
      have hneg := Number.read?_negative (n := n.natAbs) (r := r) (by omega) (by omega) hr
      rw [ha] at hneg
      rw [if_pos hn]
      exact hneg
    · have ha : (n.natAbs : Int) = n := by omega
      rw [if_neg hn, List.nil_append, ← ha]
      apply Number.read?_natural _ hr
      rw [Number.greatestSignificand]
      omega
  rw [readInteger, hread]
  simp only
  rw [dif_pos ⟨h₁, h₂⟩]

end PeerLink.Json
