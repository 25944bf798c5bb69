import PeerLink.Text.Numeral

namespace PeerLink.Text.Numeral

def Spells (cs : List Char) (n : Nat) : Prop :=
  ∃ digits, (cs = digits ∨ cs = '+' :: digits) ∧ digits ≠ [] ∧ (∀ c ∈ digits, c.isDigit = true) ∧
    Nat.ofDigitChars 10 digits 0 = n

variable {greatest n m : Nat} {c : Char} {cs digits : List Char}

theorem le_ofDigitChars (cs : List Char) (n : Nat) : n ≤ Nat.ofDigitChars 10 cs n := by
  induction cs generalizing n with
  | nil => exact Nat.le_refl n
  | cons c cs ih =>
    rw [Nat.ofDigitChars_cons]
    calc n ≤ 10 * n + (c.toNat - '0'.toNat) := by omega
      _ ≤ Nat.ofDigitChars 10 cs (10 * n + (c.toNat - '0'.toNat)) := ih _

/-- Further digits are read if they are digits and their value is within the bound. -/
theorem digits?_eq_some_iff (h : n ≤ greatest) :
    digits? greatest n cs = some m ↔
      (∀ c ∈ cs, c.isDigit = true) ∧ Nat.ofDigitChars 10 cs n = m ∧ m ≤ greatest := by
  induction cs generalizing n with
  | nil =>
    rw [digits?, Nat.ofDigitChars_nil, Option.some.injEq]
    constructor
    · rintro rfl
      exact ⟨nofun, rfl, h⟩
    · exact fun h => h.2.1
  | cons c cs ih =>
    rw [digits?, Nat.ofDigitChars_cons, List.forall_mem_cons]
    by_cases hc : c.isDigit = true
    · rw [if_pos hc]
      by_cases hg : 10 * n + (c.toNat - '0'.toNat) ≤ greatest
      · simp only [if_pos hg, ih hg, hc, true_and]
      · have hle := le_ofDigitChars cs (10 * n + (c.toNat - '0'.toNat))
        simp only [if_neg hg, reduceCtorEq, false_iff]
        rintro ⟨-, rfl, hm⟩
        omega
    · simp [hc]

theorem ne_plus_of_digits (h : ∀ d ∈ c :: cs, d.isDigit = true) : c ≠ '+' := by
  rintro rfl
  exact absurd (h '+' List.mem_cons_self) (by decide)

theorem read?_plus (c : Char) (cs : List Char) :
    read? greatest ('+' :: c :: cs) = digits? greatest 0 (c :: cs) := rfl

theorem read?_cons (h : c ≠ '+') : read? greatest (c :: cs) = digits? greatest 0 (c :: cs) := by
  rw [read?]
  · exact fun _ _ he _ => h he
  · exact fun he _ => h he

theorem read?_of_spells (h : Spells cs n) (hn : n ≤ greatest) : read? greatest cs = some n := by
  obtain ⟨digits, hcs, hne, hd, hv⟩ := h
  have hr : digits? greatest 0 digits = some n :=
    (digits?_eq_some_iff (Nat.zero_le _)).mpr ⟨hd, hv, hn⟩
  obtain ⟨c, ds, rfl⟩ := List.exists_cons_of_ne_nil hne
  obtain rfl | rfl := hcs
  · rw [read?_cons (ne_plus_of_digits hd), hr]
  · rw [read?_plus, hr]

theorem spells_of_digits? (h : digits? greatest 0 digits = some n) (hne : digits ≠ [])
    (hcs : cs = digits ∨ cs = '+' :: digits) : Spells cs n ∧ n ≤ greatest := by
  obtain ⟨hd, hv, hn⟩ := (digits?_eq_some_iff (Nat.zero_le _)).mp h
  exact ⟨⟨digits, hcs, hne, hd, hv⟩, hn⟩

theorem read?_eq_some_iff : read? greatest cs = some n ↔ Spells cs n ∧ n ≤ greatest := by
  constructor
  · intro h
    match cs with
    | [] => cases h
    | c :: ds =>
      by_cases hc : c = '+'
      · subst hc
        match ds with
        | [] => cases h
        | c :: ds =>
          rw [read?_plus] at h
          exact spells_of_digits? h (List.cons_ne_nil c ds) (.inr rfl)
      · rw [read?_cons hc] at h
        exact spells_of_digits? h (List.cons_ne_nil c ds) (.inl rfl)
  · exact fun ⟨h, hn⟩ => read?_of_spells h hn

theorem spells_toDigits (n : Nat) : Spells (Nat.toDigits 10 n) n := by
  refine ⟨Nat.toDigits 10 n, .inl rfl, Nat.toDigits_ne_nil, ?_, Nat.ofDigitChars_ten_toDigits⟩
  exact fun c hc => Nat.isDigit_of_mem_toDigits (by decide) (by decide) hc

end PeerLink.Text.Numeral
