import Mathlib.Data.List.TakeDrop
import Mathlib.Data.List.TakeWhile
import PeerLink.Endpoint
import PeerLink.Proofs.Text.Numerals

namespace PeerLink.Endpoint

open PeerLink.Text

def Written (text host : List Char) : Prop :=
  text = '[' :: host ++ [']'] ∨ text = host ∧ ¬∃ x, text = '[' :: x ++ [']']

def Names (text : List Char) (e : Endpoint) : Prop :=
  ∃ host port, text = host ++ ':' :: port ∧ ':' ∉ port ∧ Written host e.host.toList ∧ e.host ≠ "" ∧
    Numeral.Spells port e.port.toNat

def Hostless (text : List Char) : Prop :=
  ∃ host port, text = host ++ ':' :: port ∧ ':' ∉ port ∧ Written host []

/-- The texts that have the flaw. -/
def Flaw.Of (text : List Char) : Flaw → Prop
  | .missingPort => ':' ∉ text
  | .emptyHost => Hostless text
  | .invalidPort => ':' ∈ text ∧ ¬Hostless text ∧ ∀ e, ¬Names text e

variable {text host port host' port' h : List Char} {e : Endpoint} {flaw : Flaw}

theorem exists_last_colon (h : ':' ∈ text) :
    ∃ host port, text = host ++ ':' :: port ∧ ':' ∉ port := by
  have hr : ':' ∈ text.reverse := List.mem_reverse.mpr h
  obtain ⟨port, host, hs, hp⟩ := List.eq_append_cons_of_mem hr
  refine ⟨host.reverse, port.reverse, ?_, fun hm => hp (List.mem_reverse.mp hm)⟩
  rw [← List.reverse_reverse text, hs]
  simp

theorem span_of_not_mem (h : ':' ∉ port) (rest : List Char) :
    (port ++ ':' :: rest).span (· ≠ ':') = (port, ':' :: rest) := by
  have hne : ∀ c ∈ port, decide (c ≠ ':') = true := by
    intro c hc
    rw [decide_eq_true_iff]
    rintro rfl
    exact h hc
  rw [List.span_eq_takeWhile_dropWhile, List.takeWhile_append_of_pos hne,
    List.dropWhile_append_of_pos hne]
  simp

theorem splitAtLastColon?_append (h : ':' ∉ port) :
    splitAtLastColon? (host ++ ':' :: port) = some (host, port) := by
  have hr : (host ++ ':' :: port).reverse = port.reverse ++ ':' :: host.reverse := by simp
  have hp : ':' ∉ port.reverse := fun hm => h (List.mem_reverse.mp hm)
  rw [splitAtLastColon?, hr, span_of_not_mem hp]
  simp

theorem splitAtLastColon?_of_not_mem (h : ':' ∉ text) : splitAtLastColon? text = none := by
  have hne : ∀ c ∈ text.reverse, decide (c ≠ ':') = true := by
    intro c hc
    rw [decide_eq_true_iff]
    rintro rfl
    exact h (List.mem_reverse.mp hc)
  rw [splitAtLastColon?, List.span_eq_takeWhile_dropWhile, List.dropWhile_eq_nil_iff.mpr hne]

theorem eq_of_last_colon (h : ':' ∉ port) (h' : ':' ∉ port')
    (he : host ++ ':' :: port = host' ++ ':' :: port') : host = host' ∧ port = port' := by
  have hs : splitAtLastColon? (host ++ ':' :: port) = some (host, port) :=
    splitAtLastColon?_append h
  rw [he, splitAtLastColon?_append h'] at hs
  obtain ⟨rfl, rfl⟩ := Prod.mk.inj (Option.some.inj hs)
  exact ⟨rfl, rfl⟩

theorem unbracket_brackets (x : List Char) : unbracket ('[' :: x ++ [']']) = x := by
  rw [List.cons_append, unbracket, if_pos List.getLast?_concat, List.dropLast_concat]

theorem unbracket_of_not (h : ¬∃ x, text = '[' :: x ++ [']']) : unbracket text = text := by
  rw [unbracket.eq_def]
  split
  · next rest =>
    split
    · next hl =>
      obtain ⟨x, rfl⟩ := List.getLast?_eq_some_iff.mp hl
      exact absurd ⟨x, rfl⟩ h
    · rfl
  · rfl

theorem written_unbracket (text : List Char) : Written text (unbracket text) := by
  by_cases h : ∃ x, text = '[' :: x ++ [']']
  · obtain ⟨x, rfl⟩ := h
    rw [unbracket_brackets]
    exact .inl rfl
  · rw [unbracket_of_not h]
    exact .inr ⟨rfl, h⟩

/-- A written host is that of one host only. -/
theorem written_iff : Written text h ↔ unbracket text = h := by
  constructor
  · rintro (rfl | ⟨rfl, hn⟩)
    · exact unbracket_brackets h
    · exact unbracket_of_not hn
  · rintro rfl
    exact written_unbracket text

theorem readChars_of_not_mem (h : ':' ∉ text) : readChars text = .error .missingPort := by
  rw [readChars, splitAtLastColon?_of_not_mem h]

theorem readChars_of_hostless (h : Hostless text) : readChars text = .error .emptyHost := by
  obtain ⟨host, port, rfl, hp, hw⟩ := h
  rw [readChars, splitAtLastColon?_append hp]
  simp only [written_iff.mp hw, List.isEmpty_nil, if_true]

theorem readChars_of_no_number (hp : ':' ∉ port) (hw : Written host h) (hne : h ≠ [])
    (hn : Numeral.read? 65535 port = none) :
    readChars (host ++ ':' :: port) = .error .invalidPort := by
  rw [readChars, splitAtLastColon?_append hp]
  simp only [written_iff.mp hw, List.isEmpty_iff, if_neg hne, hn]

theorem readChars_of_number {n : Nat} (hp : ':' ∉ port) (hw : Written host h) (hne : h ≠ [])
    (hn : Numeral.read? 65535 port = some n) :
    readChars (host ++ ':' :: port) = .ok ⟨String.ofList h, UInt16.ofNat n⟩ := by
  rw [readChars, splitAtLastColon?_append hp]
  simp only [written_iff.mp hw, List.isEmpty_iff, if_neg hne, hn]

theorem readChars_of_names (h : Names text e) : readChars text = .ok e := by
  obtain ⟨host, port, rfl, hp, hw, hne, hs⟩ := h
  have hr : Numeral.read? 65535 port = some e.port.toNat :=
    Numeral.read?_of_spells hs (Nat.le_of_lt_succ e.port.toNat_lt)
  rw [readChars_of_number hp hw (mt String.toList_eq_nil_iff.mp hne) hr, String.ofList_toList,
    UInt16.ofNat_toNat]

theorem names_of_spells {n : Nat} (hp : ':' ∉ port) (hw : Written host h) (hne : h ≠ [])
    (hs : Numeral.Spells port n) (hn : n ≤ 65535) :
    Names (host ++ ':' :: port) ⟨String.ofList h, UInt16.ofNat n⟩ := by
  have ht : (UInt16.ofNat n).toNat = n := UInt16.toNat_ofNat_of_lt (Nat.lt_succ_of_le hn)
  refine ⟨host, port, rfl, hp, ?_, ?_, ?_⟩
  · rwa [String.toList_ofList]
  · rwa [Ne, ← String.toList_eq_nil_iff, String.toList_ofList]
  · rwa [ht]

theorem invalidPort_of_readChars (h : readChars text = .error .invalidPort) :
    Flaw.invalidPort.Of text := by
  refine ⟨?_, fun hh => ?_, fun e he => ?_⟩
  · by_contra hc
    rw [readChars_of_not_mem hc] at h
    cases h
  · rw [readChars_of_hostless hh] at h
    cases h
  · rw [readChars_of_names he] at h
    cases h

theorem names_or_flaw (text : List Char) :
    (∃ e, readChars text = .ok e ∧ Names text e) ∨
      ∃ flaw, readChars text = .error flaw ∧ flaw.Of text := by
  by_cases hc : ':' ∈ text
  · obtain ⟨host, port, rfl, hp⟩ := exists_last_colon hc
    have hw := written_unbracket host
    by_cases hne : unbracket host = []
    · have hh : Hostless (host ++ ':' :: port) := ⟨host, port, rfl, hp, hne ▸ hw⟩
      exact .inr ⟨.emptyHost, readChars_of_hostless hh, hh⟩
    · cases hn : Numeral.read? 65535 port with
      | none =>
        have hr := readChars_of_no_number hp hw hne hn
        exact .inr ⟨.invalidPort, hr, invalidPort_of_readChars hr⟩
      | some n =>
        obtain ⟨hs, hle⟩ := Numeral.read?_eq_some_iff.mp hn
        have he := names_of_spells hp hw hne hs hle
        exact .inl ⟨_, readChars_of_names he, he⟩
  · exact .inr ⟨.missingPort, readChars_of_not_mem hc, hc⟩

theorem readChars_eq_ok_iff : readChars text = .ok e ↔ Names text e := by
  refine ⟨fun h => ?_, readChars_of_names⟩
  obtain ⟨e', hr, he⟩ | ⟨flaw, hr, -⟩ := names_or_flaw text
  · rw [hr] at h
    cases h
    exact he
  · rw [hr] at h
    cases h

theorem readChars_of_flaw (h : flaw.Of text) : readChars text = .error flaw := by
  cases flaw with
  | missingPort => exact readChars_of_not_mem h
  | emptyHost => exact readChars_of_hostless h
  | invalidPort =>
    obtain ⟨hc, hh, hn⟩ := h
    obtain ⟨e, -, he⟩ | ⟨flaw, hr, hf⟩ := names_or_flaw text
    · exact absurd he (hn e)
    · cases flaw with
      | missingPort => exact absurd hc hf
      | emptyHost => exact absurd hf hh
      | invalidPort => exact hr

theorem readChars_eq_error_iff : readChars text = .error flaw ↔ flaw.Of text := by
  refine ⟨fun h => ?_, readChars_of_flaw⟩
  obtain ⟨e, hr, -⟩ | ⟨flaw', hr, hf⟩ := names_or_flaw text
  · rw [hr] at h
    cases h
  · rw [hr] at h
    cases h
    exact hf

/-- What is read from a text is the endpoint that it names. A text that names none is reported as it
is, with its flaw: it has no colon, or no host before the last one, or else a port that is no number
up to 65535. -/
theorem read_iff_names (text : String) :
    (∀ e, read text = .ok e ↔ Names text.toList e) ∧
      ∀ error, read text = .error error ↔ error.text = text ∧ error.flaw.Of text.toList := by
  constructor
  · intro e
    rw [← readChars_eq_ok_iff, read]
    cases readChars text.toList <;> simp [Except.mapError]
  · rintro ⟨flaw, t⟩
    rw [← readChars_eq_error_iff, read]
    cases readChars text.toList <;> simp [Except.mapError, and_comm, eq_comm]

end PeerLink.Endpoint
