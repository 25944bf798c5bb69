import PeerLink.Frame.Basic

namespace PeerLink

namespace Bytes

theorem cut?_append_right {n : Nat} {bytes front rest : Bytes} (more : Bytes)
    (h : cut? n bytes = some (front, rest)) :
    cut? n (bytes ++ more) = some (front, rest ++ more) := by
  obtain ⟨rfl, rfl⟩ := cut?_eq_some h
  rw [List.append_assoc, cut?_append]

theorem cut?_bigEndian (width n : Nat) (rest : Bytes) :
    cut? width (bigEndian width n ++ rest) = some (bigEndian width n, rest) := by
  have h := cut?_append (bigEndian width n) rest
  rwa [length_bigEndian] at h

theorem length_of_cut? {n : Nat} {bytes : Bytes} (h : cut? n bytes = none) :
    bytes.length < n := by
  simp only [cut?, List.splitAt_eq] at h
  split at h
  · cases h
  · next hn =>
    rw [List.length_take] at hn
    omega

theorem cut?_of_length {n : Nat} {bytes : Bytes} (h : bytes.length < n) :
    cut? n bytes = none := by
  simp only [cut?, List.splitAt_eq, List.length_take]
  exact if_neg (by omega)

theorem cut?_eq_bigEndian {n : Nat} {bytes front rest : Bytes}
    (h : cut? n bytes = some (front, rest)) : bytes = bigEndian n (number front) ++ rest := by
  obtain ⟨rfl, rfl⟩ := cut?_eq_some h
  rw [bigEndian_number]

end Bytes

namespace Frame

inductive Remainder where
  | nothing
  | part
  | tooLong
  deriving DecidableEq

/-- The bodies of the complete frames in front of a byte string, and what stands behind them. -/
def parse (max : Nat) (s : Bytes) : List Bytes × Remainder :=
  match _hs : Bytes.cut? 4 s with
  | none => ([], if s = [] then .nothing else .part)
  | some (head, tail) =>
    if limit max < Bytes.number head then ([], .tooLong)
    else
      match _ht : Bytes.cut? (Bytes.number head) tail with
      | none => ([], .part)
      | some (body, rest) => ((parse max rest).map (body :: ·) id)
termination_by s.length
decreasing_by
  obtain ⟨rfl, hl⟩ := Bytes.cut?_eq_some _hs
  obtain ⟨rfl, -⟩ := Bytes.cut?_eq_some _ht
  simp only [List.length_append]
  omega

variable {max : Nat} {s head tail body bytes rest : Bytes} {bodies : List Bytes} {cut : Nat}
  {error : IoError}

theorem length_encode (body : Bytes) : (encode body).length = 4 + body.length := by
  simp [encode]

theorem encode_ne_nil (body : Bytes) : encode body ≠ [] := by
  simp [encode, Bytes.bigEndian]

theorem limit_le (max : Nat) : limit max ≤ max := Nat.min_le_left _ _

theorem encode?_eq_ok :
    encode? max body = .ok bytes ↔ body.length ≤ limit max ∧ bytes = encode body := by
  rw [encode?]
  split
  · next h => simp [Nat.not_le.mpr h]
  · next h => simp [Nat.not_lt.mp h, eq_comm]

theorem encode?_eq_error :
    encode? max body = .error error ↔ limit max < body.length ∧ error = tooBig .invalidInput := by
  rw [encode?]
  split
  · next h => simp [h, eq_comm]
  · next h => simp [h]

theorem parse_short (h : Bytes.cut? 4 s = none) :
    parse max s = ([], if s = [] then .nothing else .part) := by
  rw [parse]
  split
  · rfl
  · next hs => cases h.symm.trans hs

theorem parse_tooLong (h : Bytes.cut? 4 s = some (head, tail))
    (hl : limit max < Bytes.number head) : parse max s = ([], .tooLong) := by
  rw [parse]
  split
  · next hs => cases h.symm.trans hs
  · next hs =>
    cases h.symm.trans hs
    rw [if_pos hl]

theorem parse_part (h : Bytes.cut? 4 s = some (head, tail))
    (hl : Bytes.number head ≤ limit max) (ht : Bytes.cut? (Bytes.number head) tail = none) :
    parse max s = ([], .part) := by
  rw [parse]
  split
  · next hs => cases h.symm.trans hs
  · next hs =>
    cases h.symm.trans hs
    rw [if_neg (by omega)]
    split
    · rfl
    · next hc => cases ht.symm.trans hc

theorem parse_frame (h : Bytes.cut? 4 s = some (head, tail))
    (hl : Bytes.number head ≤ limit max)
    (ht : Bytes.cut? (Bytes.number head) tail = some (body, rest)) :
    parse max s = (body :: (parse max rest).1, (parse max rest).2) := by
  rw [parse]
  split
  · next hs => cases h.symm.trans hs
  · next hs =>
    cases h.symm.trans hs
    rw [if_neg (by omega)]
    split
    · next hc => cases ht.symm.trans hc
    · next hc =>
      cases ht.symm.trans hc
      rfl

theorem number_bigEndian_of_le {n : Nat} (h : n ≤ limit max) :
    Bytes.number (Bytes.bigEndian 4 n) = n := by
  rw [Bytes.number_bigEndian]
  apply Nat.mod_eq_of_lt
  have hm : n ≤ maxBody := Nat.le_trans h (Nat.min_le_right _ _)
  exact Nat.lt_of_le_of_lt hm (by decide)

/-- A frame within the limit is read back, whatever stands behind it. -/
theorem parse_encode (h : body.length ≤ limit max) (rest : Bytes) :
    parse max (encode body ++ rest) = (body :: (parse max rest).1, (parse max rest).2) := by
  have hn := number_bigEndian_of_le h
  rw [encode, List.append_assoc]
  refine parse_frame (Bytes.cut?_bigEndian _ _ _) (by rw [hn]; exact h) ?_
  rw [hn, Bytes.cut?_append]

theorem parse_encodes (h : ∀ b ∈ bodies, b.length ≤ limit max)
    (rest : Bytes) :
    parse max (bodies.flatMap encode ++ rest) =
      (bodies ++ (parse max rest).1, (parse max rest).2) := by
  induction bodies with
  | nil => rfl
  | cons b bodies ih =>
    rw [List.flatMap_cons, List.append_assoc, parse_encode (h b (by simp)),
      ih fun b hb => h b (by simp [hb])]
    rfl

theorem parse_nil : parse max [] = ([], .nothing) := parse_short rfl

theorem length_of_parse (h : parse max s = (bodies, .nothing)) :
    s.length = (bodies.flatMap encode).length := by
  fun_induction parse max s generalizing bodies with
  | case1 s hs =>
    obtain ⟨rfl, hn⟩ := Prod.mk.inj h
    split at hn
    · next he => rw [he]; rfl
    · cases hn
  | case2 => cases h
  | case3 => cases h
  | case4 s head tail hs hl body rest ht ih =>
    obtain ⟨rfl, hn⟩ := Prod.mk.inj h
    obtain ⟨rfl, h₄⟩ := Bytes.cut?_eq_some hs
    obtain ⟨rfl, -⟩ := Bytes.cut?_eq_some ht
    have hrest : rest.length = ((parse max rest).1.flatMap encode).length := ih (Prod.ext rfl hn)
    simp only [List.flatMap_cons, List.length_append, length_encode, h₄, hrest]
    omega

theorem parse_take (h : body.length ≤ limit max) (hc : cut < 4 + body.length) :
    parse max ((encode body).take cut) = ([], if cut = 0 then .nothing else .part) := by
  by_cases h₄ : cut < 4
  · have hl : ((encode body).take cut).length = cut := by
      rw [List.length_take, length_encode]
      omega
    rw [parse_short (Bytes.cut?_of_length (by omega))]
    simp only [← List.length_eq_zero_iff, hl]
  · have hn := number_bigEndian_of_le h
    have ht : (encode body).take cut = Bytes.bigEndian 4 body.length ++ body.take (cut - 4) := by
      rw [encode, List.take_append, Bytes.length_bigEndian, List.take_of_length_le (by simp; omega)]
    rw [ht, if_neg (by omega)]
    refine parse_part (Bytes.cut?_bigEndian _ _ _) (by rw [hn]; exact h) ?_
    rw [hn]
    apply Bytes.cut?_of_length
    rw [List.length_take]
    omega

namespace Intake

def unread (i : Intake) : Bytes :=
  match i.phase with
  | .head => i.buffer
  | .body length => Bytes.bigEndian 4 length ++ i.buffer

def Fits (max : Nat) (i : Intake) : Prop := ∀ length, i.phase = .body length → length ≤ limit max

variable {i i' : Intake}

theorem fits_new : Fits max {} := by
  intro length h
  cases h

theorem unread_feed (bytes : Bytes) : (i.feed bytes).unread = i.unread ++ bytes := by
  cases i with
  | mk phase buffer => cases phase <;> simp [feed, unread]

theorem Fits.feed (h : i.Fits max) (bytes : Bytes) : (i.feed bytes).Fits max := h

theorem put_eq (max : Nat) (body : Bytes) (i : Intake) :
    i.put max body =
      if limit max < body.length then (.error (tooBig .invalidInput), i)
      else (.ok (), i.feed (encode body)) := by
  rw [put, encode?]
  by_cases h : limit max < body.length
  · rw [if_pos h, if_pos h]
  · rw [if_neg h, if_neg h]

/-- Whether the length is still to be taken off makes no difference. -/
theorem next_of_fits (hf : i.Fits max) :
    i.next max = match Bytes.cut? 4 i.unread with
      | none => (.ok none, i)
      | some (head, tail) =>
        if limit max < Bytes.number head then (.error (tooBig .invalidData), i)
        else
          let (body, i) := takeBody (Bytes.number head) tail
          (.ok body, i) := by
  obtain ⟨phase, buffer⟩ := i
  cases phase with
  | head => rfl
  | body length =>
    have hl : length ≤ limit max := hf length rfl
    have hn := number_bigEndian_of_le hl
    simp only [unread, Bytes.cut?_bigEndian, hn, if_neg (Nat.not_lt.mpr hl), next]

theorem unread_of_some (hf : i.Fits max) (h : i.next max = (.ok (some body), i')) :
    i'.Fits max ∧ body.length ≤ limit max ∧ i.unread = encode body ++ i'.unread := by
  rw [next_of_fits hf] at h
  split at h
  · cases h
  · next head tail hs =>
    split at h
    · cases h
    · next hl =>
      cases hc : Bytes.cut? (Bytes.number head) tail with
      | none => simp [takeBody, hc] at h
      | some p =>
        simp only [takeBody, hc, Prod.mk.injEq, Except.ok.injEq, Option.some.injEq] at h
        obtain ⟨rfl, rfl⟩ := h
        obtain ⟨ht, hn⟩ := Bytes.cut?_eq_some hc
        refine ⟨fun _ h => (nomatch h), by omega, ?_⟩
        rw [Bytes.cut?_eq_bigEndian hs, ht, encode, hn, List.append_assoc]
        rfl

theorem unread_of_none (hf : i.Fits max) (h : i.next max = (.ok none, i')) :
    i'.Fits max ∧ i'.unread = i.unread := by
  rw [next_of_fits hf] at h
  split at h
  · cases h
    exact ⟨hf, rfl⟩
  · next head tail hs =>
    split at h
    · cases h
    · next hl =>
      cases hc : Bytes.cut? (Bytes.number head) tail with
      | some p => simp [takeBody, hc] at h
      | none =>
        simp only [takeBody, hc, Prod.mk.injEq, true_and] at h
        subst h
        refine ⟨fun length h => ?_, (Bytes.cut?_eq_bigEndian hs).symm⟩
        cases h
        exact Nat.not_lt.mp hl

theorem next_some (hf : i.Fits max) (h : i.next max = (.ok (some body), i')) :
    i'.Fits max ∧ ∀ more, parse max (i.unread ++ more) =
      (body :: (parse max (i'.unread ++ more)).1, (parse max (i'.unread ++ more)).2) := by
  obtain ⟨hf', hl, hu⟩ := unread_of_some hf h
  refine ⟨hf', fun more => ?_⟩
  rw [hu, List.append_assoc]
  exact parse_encode hl _

theorem next_none (hf : i.Fits max) (h : i.next max = (.ok none, i')) :
    i'.Fits max ∧ (∀ more, parse max (i'.unread ++ more) = parse max (i.unread ++ more)) ∧
      (parse max i'.unread = ([], .part) ∨ i' = {} ∧ parse max i'.unread = ([], .nothing)) := by
  obtain ⟨hf', hu⟩ := unread_of_none hf h
  refine ⟨hf', fun more => by rw [hu], ?_⟩
  rw [hu]
  rw [next_of_fits hf] at h
  split at h
  · next hs =>
    cases h
    rw [parse_short hs]
    by_cases hb : i.unread = []
    · obtain ⟨phase, buffer⟩ := i
      cases phase with
      | head =>
        cases hb
        exact .inr ⟨rfl, rfl⟩
      | body length => simp [unread, Bytes.bigEndian] at hb
    · rw [if_neg hb]
      exact .inl rfl
  · next head tail hs =>
    split at h
    · cases h
    · next hl =>
      cases hc : Bytes.cut? (Bytes.number head) tail with
      | some p => simp [takeBody, hc] at h
      | none => exact .inl (parse_part hs (Nat.not_lt.mp hl) hc)

theorem next_error {error : IoError} (hf : i.Fits max) (h : i.next max = (.error error, i')) :
    error = tooBig .invalidData ∧ ∀ more, parse max (i.unread ++ more) = ([], .tooLong) := by
  rw [next_of_fits hf] at h
  split at h
  · cases h
  · next head tail hs =>
    split at h
    · next hl =>
      cases h
      exact ⟨rfl, fun more => parse_tooLong (Bytes.cut?_append_right more hs) hl⟩
    · cases h

/-- At the end of a stream, a reader that holds no complete frame fails unless it holds nothing, or
nothing but a length. -/
theorem last_of_incomplete (hf : i.Fits max) (hp : (parse max i.unread).1 = [])
    (hl : (parse max i.unread).2 ≠ .tooLong) :
    (i.last max).1 = if i.unread.length = 0 ∨ i.unread.length = 4 then .ok none
      else .error unfinished := by
  rw [last, next_of_fits hf]
  cases hc : Bytes.cut? 4 i.unread with
  | none =>
    have hlen := Bytes.length_of_cut? hc
    have hb : i.unread = i.buffer := by
      obtain ⟨phase, buffer⟩ := i
      cases phase with
      | head => rfl
      | body length =>
        simp only [unread, List.length_append, Bytes.length_bigEndian] at hlen
        omega
    simp only [← hb, List.isEmpty_iff_length_eq_zero]
    have h₄ : i.unread.length ≠ 4 := by omega
    simp only [h₄, or_false]
  | some p =>
    obtain ⟨head, tail⟩ := p
    obtain ⟨hu, h₄⟩ := Bytes.cut?_eq_some hc
    have hfit : ¬limit max < Bytes.number head := by
      intro ht
      rw [parse_tooLong hc ht] at hl
      exact hl rfl
    have hb : Bytes.cut? (Bytes.number head) tail = none := by
      cases hb : Bytes.cut? (Bytes.number head) tail with
      | none => rfl
      | some p =>
        rw [parse_frame hc (by omega) hb] at hp
        cases hp
    simp only [if_neg hfit, takeBody, hb, List.isEmpty_iff_length_eq_zero]
    have hlen : i.unread.length = 4 + tail.length := by rw [hu, List.length_append, h₄]
    simp only [hlen]
    congr 1
    simp

end Intake

end Frame

end PeerLink
