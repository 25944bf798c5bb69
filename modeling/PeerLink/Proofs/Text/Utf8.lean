import PeerLink.Text.Utf8

namespace PeerLink.Text.Utf8

variable {n i x y z : Nat} {a b c d : UInt8} {r bytes : Bytes} {done cs : List Char}

theorem toNat_byte (h : n < 256) : (UInt8.ofNat n).toNat = n := UInt8.toNat_ofNat_of_lt h

theorem continuation?_byte (h : n < 0x40) : continuation? (UInt8.ofNat (0x80 + n)) = some n := by
  have hb : (UInt8.ofNat (0x80 + n)).toNat = 0x80 + n := toNat_byte (by omega)
  rw [continuation?, hb, if_pos (by omega), Nat.add_sub_cancel_left]

theorem second?_byte {first : Nat} (h : n < 0x40) (hl : (secondRange first).1 ≤ 0x80 + n)
    (hg : 0x80 + n ≤ (secondRange first).2) :
    second? first (UInt8.ofNat (0x80 + n)) = some n := by
  have hb : (UInt8.ofNat (0x80 + n)).toNat = 0x80 + n := toNat_byte (by omega)
  rw [second?, hb, if_pos ⟨hl, hg⟩, Nat.add_sub_cancel_left]

theorem scan_one (h : n < 0x80) :
    scan (encodeNat n ++ r) i done = scan r (i + 1) (Char.ofNat n :: done) := by
  have hb : (UInt8.ofNat n).toNat = n := toNat_byte (by omega)
  rw [encodeNat, if_pos h]
  rw [List.singleton_append, scan.eq_def]
  simp only [hb, if_pos h]

theorem scan_two (hl : 0x80 ≤ n) (hg : n < 0x800) :
    scan (encodeNat n ++ r) i done = scan r (i + 2) (Char.ofNat n :: done) := by
  have hb : (UInt8.ofNat (0xC0 + n / 0x40)).toNat = 0xC0 + n / 0x40 := toNat_byte (by omega)
  have hc : continuation? (UInt8.ofNat (0x80 + n % 0x40)) = some (n % 0x40) :=
    continuation?_byte (by omega)
  have hn : (0xC0 + n / 0x40 - 0xC0) * 0x40 + n % 0x40 = n := by omega
  rw [encodeNat, if_neg (by omega), if_pos hg]
  rw [List.cons_append, List.singleton_append, scan.eq_def]
  simp only [hb, hc, hn]
  rw [if_neg (by omega), if_neg (by omega), if_pos (by omega)]

/-- The second byte of a character of three bytes is in the range that goes with the first. -/
theorem second?_three (hl : 0x800 ≤ n) (hg : n < 0x10000) (hs : n < 0xD800 ∨ 0xDFFF < n) :
    second? (0xE0 + n / 0x1000) (UInt8.ofNat (0x80 + n / 0x40 % 0x40)) =
      some (n / 0x40 % 0x40) := by
  apply second?_byte (by omega)
  · rw [secondRange]
    repeat' split
    all_goals simp only
    all_goals omega
  · rw [secondRange]
    repeat' split
    all_goals simp only
    all_goals omega

theorem scan_three (hl : 0x800 ≤ n) (hg : n < 0x10000) (hs : n < 0xD800 ∨ 0xDFFF < n) :
    scan (encodeNat n ++ r) i done = scan r (i + 3) (Char.ofNat n :: done) := by
  have hb : (UInt8.ofNat (0xE0 + n / 0x1000)).toNat = 0xE0 + n / 0x1000 := toNat_byte (by omega)
  have hc : continuation? (UInt8.ofNat (0x80 + n % 0x40)) = some (n % 0x40) :=
    continuation?_byte (by omega)
  have hn : (0xE0 + n / 0x1000 - 0xE0) * 0x1000 + n / 0x40 % 0x40 * 0x40 + n % 0x40 = n := by
    omega
  rw [encodeNat, if_neg (by omega), if_neg (by omega), if_pos hg]
  rw [List.cons_append, List.cons_append, List.singleton_append, scan.eq_def]
  simp only [hb, second?_three hl hg hs, hc, hn]
  rw [if_neg (by omega), if_neg (by omega), if_neg (by omega), if_pos (by omega)]

theorem second?_four (hl : 0x10000 ≤ n) (hg : n < 0x110000) :
    second? (0xF0 + n / 0x40000) (UInt8.ofNat (0x80 + n / 0x1000 % 0x40)) =
      some (n / 0x1000 % 0x40) := by
  apply second?_byte (by omega)
  · rw [secondRange]
    repeat' split
    all_goals simp only
    all_goals omega
  · rw [secondRange]
    repeat' split
    all_goals simp only
    all_goals omega

theorem scan_four (hl : 0x10000 ≤ n) (hg : n < 0x110000) :
    scan (encodeNat n ++ r) i done = scan r (i + 4) (Char.ofNat n :: done) := by
  have hb : (UInt8.ofNat (0xF0 + n / 0x40000)).toNat = 0xF0 + n / 0x40000 := toNat_byte (by omega)
  have hc : continuation? (UInt8.ofNat (0x80 + n / 0x40 % 0x40)) = some (n / 0x40 % 0x40) :=
    continuation?_byte (by omega)
  have hd : continuation? (UInt8.ofNat (0x80 + n % 0x40)) = some (n % 0x40) :=
    continuation?_byte (by omega)
  have hn : (0xF0 + n / 0x40000 - 0xF0) * 0x40000 + n / 0x1000 % 0x40 * 0x1000 +
      n / 0x40 % 0x40 * 0x40 + n % 0x40 = n := by
    omega
  rw [encodeNat, if_neg (by omega), if_neg (by omega), if_neg (by omega)]
  rw [List.cons_append, List.cons_append, List.cons_append, List.singleton_append, scan.eq_def]
  simp only [hb, second?_four hl hg, hc, hd, hn]
  rw [if_neg (by omega), if_neg (by omega), if_neg (by omega), if_neg (by omega),
    if_pos (by omega)]

theorem toNat_cases (c : Char) :
    c.toNat < 0x110000 ∧ (c.toNat < 0xD800 ∨ 0xDFFF < c.toNat) := by
  have h : c.toNat.isValidChar := c.valid
  simp only [Nat.isValidChar] at h
  omega

theorem scan_encodeChar (c : Char) (r : Bytes) (i : Nat) (done : List Char) :
    ∃ j, scan (encodeChar c ++ r) i done = scan r j (c :: done) := by
  obtain ⟨hg, hs⟩ := toNat_cases c
  have hc : Char.ofNat c.toNat = c := Char.ofNat_toNat c
  rw [encodeChar]
  by_cases h₁ : c.toNat < 0x80
  · exact ⟨i + 1, by rw [scan_one h₁, hc]⟩
  by_cases h₂ : c.toNat < 0x800
  · exact ⟨i + 2, by rw [scan_two (by omega) h₂, hc]⟩
  by_cases h₃ : c.toNat < 0x10000
  · exact ⟨i + 3, by rw [scan_three (by omega) h₃ hs, hc]⟩
  · exact ⟨i + 4, by rw [scan_four (by omega) hg, hc]⟩

theorem scan_encodeChars (cs : List Char) (i : Nat) (done : List Char) :
    scan (encodeChars cs) i done = .ok (cs.reverse ++ done) := by
  induction cs generalizing i done with
  | nil => simp [encodeChars, scan]
  | cons c cs ih =>
    have he : encodeChars (c :: cs) = encodeChar c ++ encodeChars cs := rfl
    obtain ⟨j, hj⟩ := scan_encodeChar c (encodeChars cs) i done
    rw [he, hj, ih]
    simp

theorem decode_encode (s : String) : decode (encode s) = .ok s := by
  rw [decode, encode, scan_encodeChars]
  simp [Except.map]

theorem continuation?_eq_some (h : continuation? b = some x) :
    0x80 + x = b.toNat ∧ x < 0x40 := by
  rw [continuation?] at h
  split at h
  · obtain rfl := Option.some.inj h
    omega
  · cases h

/-- A second byte is one that continues a character, and leaves out what would be spelled in fewer
bytes, the surrogates, and what is beyond the last code point. -/
theorem second?_eq_some {first : Nat} (h : second? first b = some x) :
    0x80 + x = b.toNat ∧ x < 0x40 ∧ (first = 0xE0 → 0x20 ≤ x) ∧ (first = 0xED → x < 0x20) ∧
      (first = 0xF0 → 0x10 ≤ x) ∧ (first = 0xF4 → x < 0x10) := by
  rw [second?] at h
  split at h
  · next hr =>
    obtain rfl := Option.some.inj h
    rw [secondRange] at hr
    repeat' split at hr
    all_goals simp only at hr
    all_goals omega
  · cases h

theorem byte_of_toNat (h : n = b.toNat) : UInt8.ofNat n = b := by
  rw [h, UInt8.ofNat_toNat]

theorem encodeChar_ofNat (h : n < 0xD800 ∨ 0xDFFF < n ∧ n < 0x110000) :
    encodeChar (Char.ofNat n) = encodeNat n := by
  have hv : n.isValidChar := h
  have hn : (Char.ofNat n).toNat = n := by
    rw [Char.ofNat, dif_pos hv]
    exact UInt32.toNat_ofNatLT ..
  rw [encodeChar, hn]

theorem encodeChar_one (h : a.toNat < 0x80) : encodeChar (Char.ofNat a.toNat) = [a] := by
  rw [encodeChar_ofNat (by omega), encodeNat, if_pos h, UInt8.ofNat_toNat]

theorem encodeChar_two (hl : 0xC2 ≤ a.toNat) (hg : a.toNat < 0xE0) (hb : continuation? b = some x) :
    encodeChar (Char.ofNat ((a.toNat - 0xC0) * 0x40 + x)) = [a, b] := by
  obtain ⟨hb, hx⟩ := continuation?_eq_some hb
  rw [encodeChar_ofNat (by omega), encodeNat, if_neg (by omega), if_pos (by omega),
    byte_of_toNat (b := a) (by omega), byte_of_toNat (b := b) (by omega)]

theorem encodeChar_three (hl : 0xE0 ≤ a.toNat) (hg : a.toNat < 0xF0)
    (hb : second? a.toNat b = some x) (hc : continuation? c = some y) :
    encodeChar (Char.ofNat ((a.toNat - 0xE0) * 0x1000 + x * 0x40 + y)) = [a, b, c] := by
  obtain ⟨hb, hx, hE0, hED, -, -⟩ := second?_eq_some hb
  obtain ⟨hc, hy⟩ := continuation?_eq_some hc
  rw [encodeChar_ofNat (by omega), encodeNat, if_neg (by omega), if_neg (by omega),
    if_pos (by omega), byte_of_toNat (b := a) (by omega), byte_of_toNat (b := b) (by omega),
    byte_of_toNat (b := c) (by omega)]

theorem encodeChar_four (hl : 0xF0 ≤ a.toNat) (hg : a.toNat < 0xF5)
    (hb : second? a.toNat b = some x) (hc : continuation? c = some y)
    (hd : continuation? d = some z) :
    encodeChar (Char.ofNat ((a.toNat - 0xF0) * 0x40000 + x * 0x1000 + y * 0x40 + z)) =
      [a, b, c, d] := by
  obtain ⟨hb, hx, -, -, hF0, hF4⟩ := second?_eq_some hb
  obtain ⟨hc, hy⟩ := continuation?_eq_some hc
  obtain ⟨hd, hz⟩ := continuation?_eq_some hd
  rw [encodeChar_ofNat (by omega), encodeNat, if_neg (by omega), if_neg (by omega),
    if_neg (by omega), byte_of_toNat (b := a) (by omega), byte_of_toNat (b := b) (by omega),
    byte_of_toNat (b := c) (by omega), byte_of_toNat (b := d) (by omega)]

def Spells (bytes : Bytes) (done cs : List Char) : Prop :=
  ∃ found, cs = found.reverse ++ done ∧ bytes = encodeChars found

theorem Spells.cons {c : Char} {front rest : Bytes} (h : Spells rest (c :: done) cs)
    (hc : encodeChar c = front) : Spells (front ++ rest) done cs := by
  obtain ⟨found, rfl, rfl⟩ := h
  exact ⟨c :: found, by simp, by rw [← hc]; rfl⟩

theorem spells_of_scan (h : scan bytes i done = .ok cs) : Spells bytes done cs := by
  fun_induction scan bytes i done with
  | case1 => exact ⟨[], by cases h; rfl, rfl⟩
  | case2 _ _ _ _ _ h₁ ih => exact (ih h).cons (encodeChar_one h₁)
  | case6 _ _ _ _ _ hl hg _ _ _ hb ih =>
    exact (ih h).cons (encodeChar_two (Nat.not_lt.mp hl) hg hb)
  | case11 _ _ _ _ _ _ hl hg _ _ _ _ hb _ hc ih =>
    exact (ih h).cons (encodeChar_three (Nat.not_lt.mp hl) hg hb hc)
  | case18 _ _ _ _ _ _ _ hl hg _ _ _ hb _ _ _ hc _ hd ih =>
    exact (ih h).cons (encodeChar_four (Nat.not_lt.mp hl) hg hb hc hd)
  | _ => cases h

theorem encode_of_decode {s : String} (h : decode bytes = .ok s) : encode s = bytes := by
  cases hs : scan bytes 0 [] with
  | error => simp [decode, hs, Except.map] at h
  | ok cs =>
    obtain ⟨found, rfl, rfl⟩ := spells_of_scan hs
    have hd : String.ofList found = s := by simpa [decode, hs, Except.map] using h
    rw [← hd, encode, String.toList_ofList]

end PeerLink.Text.Utf8
