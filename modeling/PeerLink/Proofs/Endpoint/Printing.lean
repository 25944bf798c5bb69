import PeerLink.Proofs.Endpoint.Grammar

namespace PeerLink.Endpoint

open PeerLink.Text

def shown (host : List Char) : List Char :=
  if ':' ∈ host then '[' :: host ++ [']'] else host

def IsLabel (label : List Char) : Prop :=
  label ≠ [] ∧ ∀ c ∈ label, c.isAlphanum = true ∨ c = '-' ∨ c = '_' ∨ 0x80 ≤ c.toNat

/-- Labels with dots between them; one more may follow the last label. -/
def IsDomainName (host : List Char) : Prop :=
  ∃ labels, labels ≠ [] ∧ (∀ label ∈ labels, IsLabel label) ∧
    (host = ['.'].intercalate labels ∨ host = ['.'].intercalate labels ++ ['.'])

variable {host host' : List Char} {e e' : Endpoint}

theorem printChars_eq (e : Endpoint) :
    e.printChars = shown e.host.toList ++ ':' :: Nat.toDigits 10 e.port.toNat := rfl

theorem not_mem_digits (n : Nat) : ':' ∉ Nat.toDigits 10 n := by
  intro h
  have hd : ':'.isDigit = true := Nat.isDigit_of_mem_toDigits (by decide) (by decide) h
  exact absurd hd (by decide)

theorem written_shown_iff :
    Written (shown host) host ↔ ¬(':' ∉ host ∧ ∃ x, host = '[' :: x ++ [']']) := by
  rw [shown]
  by_cases h : ':' ∈ host
  · rw [if_pos h]
    exact iff_of_true (.inl rfl) fun hn => hn.1 h
  · rw [if_neg h]
    constructor
    · rintro (hb | ⟨-, hn⟩) ⟨-, hx⟩
      · have hl := congrArg List.length hb
        simp only [List.length_append, List.length_cons] at hl
        omega
      · exact hn hx
    · exact fun hn => .inr ⟨rfl, fun hx => hn ⟨h, hx⟩⟩

theorem names_printChars_iff :
    Names e.printChars e ↔ Written (shown e.host.toList) e.host.toList ∧ e.host ≠ "" := by
  constructor
  · rintro ⟨host, port, he, hp, hw, hne, -⟩
    rw [printChars_eq] at he
    obtain ⟨rfl, -⟩ := eq_of_last_colon (not_mem_digits _) hp he
    exact ⟨hw, hne⟩
  · rintro ⟨hw, hne⟩
    exact ⟨_, _, printChars_eq e, not_mem_digits _, hw, hne, Numeral.spells_toDigits _⟩

theorem read_print_eq_ok_iff :
    read e.print = .ok e ↔
      e.host ≠ "" ∧ ¬(':' ∉ e.host.toList ∧ ∃ x, e.host.toList = '[' :: x ++ [']']) := by
  rw [(read_iff_names e.print).1, print, String.toList_ofList, names_printChars_iff,
    written_shown_iff, and_comm]

theorem mem_shown_iff : ':' ∈ shown host ↔ ':' ∈ host := by
  rw [shown]
  by_cases h : ':' ∈ host
  · simp [h]
  · rw [if_neg h]

theorem shown_injective (h : shown host = shown host') : host = host' := by
  have hc : ':' ∈ host ↔ ':' ∈ host' := by rw [← mem_shown_iff, h, mem_shown_iff]
  rw [shown, shown] at h
  by_cases hm : ':' ∈ host
  · rw [if_pos hm, if_pos (hc.mp hm)] at h
    exact List.append_cancel_right (List.cons.inj h).2
  · rwa [if_neg hm, if_neg (mt hc.mpr hm)] at h

theorem eq_of_print (h : e.print = e'.print) : e = e' := by
  have hp : e.printChars = e'.printChars := String.ofList_injective h
  rw [printChars_eq, printChars_eq] at hp
  obtain ⟨hh, hd⟩ := eq_of_last_colon (not_mem_digits _) (not_mem_digits _) hp
  have hn : e.port.toNat = e'.port.toNat :=
    calc e.port.toNat = Nat.ofDigitChars 10 (Nat.toDigits 10 e.port.toNat) 0 :=
          Nat.ofDigitChars_ten_toDigits.symm
      _ = Nat.ofDigitChars 10 (Nat.toDigits 10 e'.port.toNat) 0 := by rw [hd]
      _ = e'.port.toNat := Nat.ofDigitChars_ten_toDigits
  obtain ⟨host, port⟩ := e
  obtain ⟨host', port'⟩ := e'
  rw [mk.injEq]
  exact ⟨String.toList_injective (shown_injective hh), UInt16.toNat_inj.mp hn⟩

theorem read_print_of_start (h : ∃ c r, e.host.toList = c :: r ∧ c ≠ '[') :
    read e.print = .ok e := by
  obtain ⟨c, r, hh, hc⟩ := h
  rw [read_print_eq_ok_iff]
  constructor
  · rw [Ne, ← String.toList_eq_nil_iff, hh]
    exact List.cons_ne_nil c r
  · rintro ⟨-, x, hx⟩
    rw [hh] at hx
    exact hc (List.cons.inj hx).1

theorem start_of_domainName (h : IsDomainName host) : ∃ c r, host = c :: r ∧ c ≠ '[' := by
  obtain ⟨labels, hne, hl, hh⟩ := h
  obtain ⟨label, labels, rfl⟩ := List.exists_cons_of_ne_nil hne
  obtain ⟨hlabel, hc⟩ := hl label List.mem_cons_self
  obtain ⟨c, r, rfl⟩ := List.exists_cons_of_ne_nil hlabel
  have hb : c ≠ '[' := by
    rintro rfl
    exact absurd (hc '[' List.mem_cons_self) (by decide)
  obtain ⟨t, ht⟩ : ∃ t, ['.'].intercalate ((c :: r) :: labels) = c :: t := by
    cases labels <;> exact ⟨_, rfl⟩
  rw [ht] at hh
  obtain rfl | rfl := hh
  · exact ⟨c, t, rfl, hb⟩
  · exact ⟨c, t ++ ['.'], rfl, hb⟩

theorem start_of_address {ip : IpAddress} (h : IpAddress.read? host = some ip) :
    ∃ c r, host = c :: r ∧ c ≠ '[' := by
  cases host with
  | nil =>
    have hn : IpAddress.read? [] = none := rfl
    rw [hn] at h
    cases h
  | cons c r =>
    refine ⟨c, r, rfl, ?_⟩
    rintro rfl
    have hn : IpAddress.read? ('[' :: r) = none := rfl
    rw [hn] at h
    cases h

/-- An endpoint is read back from its printed form exactly if it has a host, and one that is not a
text in brackets without a colon. That is so for each host with a colon, for domain names and for
addresses. -/
theorem read_print_iff (e e' : Endpoint) :
    (read e.print = .ok e ↔
      e.host ≠ "" ∧ ¬(':' ∉ e.host.toList ∧ ∃ x, e.host.toList = '[' :: x ++ [']'])) ∧
    (':' ∈ e.host.toList ∨ IsDomainName e.host.toList ∨ e.ip?.isSome → read e.print = .ok e) ∧
    (e.print = e'.print → e = e') := by
  refine ⟨read_print_eq_ok_iff, ?_, eq_of_print⟩
  rintro (hc | hd | hip)
  · rw [read_print_eq_ok_iff]
    refine ⟨?_, fun hn => hn.1 hc⟩
    rw [Ne, ← String.toList_eq_nil_iff]
    exact List.ne_nil_of_mem hc
  · exact read_print_of_start (start_of_domainName hd)
  · obtain ⟨ip, hip⟩ := Option.isSome_iff_exists.mp hip
    exact read_print_of_start (start_of_address hip)

theorem read_print_iff_brackets :
    ':' ∈ (⟨"[a:]", 80⟩ : Endpoint).host.toList ∧
      read (⟨"[a:]", 80⟩ : Endpoint).print = .ok ⟨"[a:]", 80⟩ ∧
      read (⟨"[a]", 80⟩ : Endpoint).print ≠ .ok ⟨"[a]", 80⟩ := by
  have hc : ':' ∈ (⟨"[a:]", 80⟩ : Endpoint).host.toList := by decide
  refine ⟨hc, (read_print_iff ⟨"[a:]", 80⟩ ⟨"[a:]", 80⟩).2.1 (.inl hc), fun h => ?_⟩
  have hn := ((read_print_iff ⟨"[a]", 80⟩ ⟨"[a]", 80⟩).1.mp h).2
  exact hn ⟨by decide, ['a'], by decide⟩

end PeerLink.Endpoint
