import PeerLink.Bytes

namespace PeerLink.Text.Utf8

/-- Why bytes are no text: at `index`, after the longest valid part, stand `length` bytes that begin
no character, or a character is cut off by the end of the input. -/
inductive Fault where
  | invalid (index length : Nat)
  | cut (index : Nat)
  deriving DecidableEq, Repr

def Fault.message : Fault → String
  | .invalid index length => s!"invalid utf-8 sequence of {length} bytes from index {index}"
  | .cut index => s!"incomplete utf-8 byte sequence from index {index}"

def encodeNat (n : Nat) : Bytes :=
  if n < 0x80 then [UInt8.ofNat n]
  else if n < 0x800 then [UInt8.ofNat (0xC0 + n / 0x40), UInt8.ofNat (0x80 + n % 0x40)]
  else if n < 0x10000 then
    [UInt8.ofNat (0xE0 + n / 0x1000), UInt8.ofNat (0x80 + n / 0x40 % 0x40),
      UInt8.ofNat (0x80 + n % 0x40)]
  else
    [UInt8.ofNat (0xF0 + n / 0x40000), UInt8.ofNat (0x80 + n / 0x1000 % 0x40),
      UInt8.ofNat (0x80 + n / 0x40 % 0x40), UInt8.ofNat (0x80 + n % 0x40)]

def encodeChar (c : Char) : Bytes := encodeNat c.toNat

def encodeChars (cs : List Char) : Bytes := cs.flatMap encodeChar

def encode (s : String) : Bytes := encodeChars s.toList

/-- The length of the text's spelling. -/
def size (s : String) : Nat := (encode s).length

def continuation? (b : UInt8) : Option Nat :=
  if 0x80 ≤ b.toNat ∧ b.toNat ≤ 0xBF then some (b.toNat - 0x80) else none

/-- The least and greatest second byte of a character of three or four bytes: no character has two
spellings, and surrogates and numbers above the last code point have none. -/
def secondRange (first : Nat) : Nat × Nat :=
  if first = 0xE0 then (0xA0, 0xBF)
  else if first = 0xED then (0x80, 0x9F)
  else if first = 0xF0 then (0x90, 0xBF)
  else if first = 0xF4 then (0x80, 0x8F)
  else (0x80, 0xBF)

def second? (first : Nat) (b : UInt8) : Option Nat :=
  if (secondRange first).1 ≤ b.toNat ∧ b.toNat ≤ (secondRange first).2 then some (b.toNat - 0x80)
  else none

def scan : Bytes → Nat → List Char → Except Fault (List Char)
  | [], _, done => .ok done
  | a :: r, index, done =>
    let first := a.toNat
    if first < 0x80 then scan r (index + 1) (Char.ofNat first :: done)
    else if first < 0xC2 then .error (.invalid index 1)
    else if first < 0xE0 then
      match r with
      | [] => .error (.cut index)
      | b :: r =>
        match continuation? b with
        | none => .error (.invalid index 1)
        | some x => scan r (index + 2) (Char.ofNat ((first - 0xC0) * 0x40 + x) :: done)
    else if first < 0xF0 then
      match r with
      | [] => .error (.cut index)
      | b :: r =>
        match second? first b, r with
        | none, _ => .error (.invalid index 1)
        | some _, [] => .error (.cut index)
        | some x, c :: r =>
          match continuation? c with
          | none => .error (.invalid index 2)
          | some y =>
            scan r (index + 3) (Char.ofNat ((first - 0xE0) * 0x1000 + x * 0x40 + y) :: done)
    else if first < 0xF5 then
      match r with
      | [] => .error (.cut index)
      | b :: r =>
        match second? first b, r with
        | none, _ => .error (.invalid index 1)
        | some _, [] => .error (.cut index)
        | some x, c :: r =>
          match continuation? c, r with
          | none, _ => .error (.invalid index 2)
          | some _, [] => .error (.cut index)
          | some y, d :: r =>
            match continuation? d with
            | none => .error (.invalid index 3)
            | some z =>
              scan r (index + 4)
                (Char.ofNat ((first - 0xF0) * 0x40000 + x * 0x1000 + y * 0x40 + z) :: done)
    else .error (.invalid index 1)

def decode (bytes : Bytes) : Except Fault String :=
  (scan bytes 0 []).map fun cs => String.ofList cs.reverse

end PeerLink.Text.Utf8
