import PeerLink.Json.Basic
import PeerLink.Text.Utf8

namespace PeerLink.Json.Text

open PeerLink.Text

def hexDigit? (b : UInt8) : Option Nat :=
  let n := b.toNat
  if 0x30 ≤ n ∧ n ≤ 0x39 then some (n - 0x30)
  else if 0x41 ≤ n ∧ n ≤ 0x46 then some (n - 0x41 + 10)
  else if 0x61 ≤ n ∧ n ≤ 0x66 then some (n - 0x61 + 10)
  else none

def hexDigits? (a b c d : UInt8) : Option Nat := do
  let a ← hexDigit? a
  let b ← hexDigit? b
  let c ← hexDigit? c
  let d ← hexDigit? d
  return 0x1000 * a + 0x100 * b + 0x10 * c + d

def unit : Bytes → Reading Nat
  | a :: b :: c :: d :: r =>
    match hexDigits? a b c d with
    | some n => .ok (n, r)
    | none => .error .malformed
  | _ => .error .cut

/-- A numeric escape behind its `u`: a code point, or a leading surrogate with the escape of its
trailing one. -/
def codePoint (input : Bytes) : Reading Nat :=
  match unit input with
  | .error p => .error p
  | .ok (n, r) =>
    if 0xDC00 ≤ n ∧ n ≤ 0xDFFF then .error .malformed
    else if n < 0xD800 ∨ 0xDBFF < n then .ok (n, r)
    else
      match r with
      | [] => .error .cut
      | 0x5C :: [] => .error .cut
      | 0x5C :: 0x75 :: r =>
        match unit r with
        | .error p => .error p
        | .ok (m, r) =>
          if 0xDC00 ≤ m ∧ m ≤ 0xDFFF then
            .ok (0x10000 + 0x400 * (n - 0xD800) + (m - 0xDC00), r)
          else .error .malformed
      | _ => .error .malformed

def shortEscape? (b : UInt8) : Option UInt8 :=
  if b = 0x22 ∨ b = 0x5C ∨ b = 0x2F then some b
  else if b = 0x62 then some 0x08
  else if b = 0x66 then some 0x0C
  else if b = 0x6E then some 0x0A
  else if b = 0x72 then some 0x0D
  else if b = 0x74 then some 0x09
  else none

def escape : Bytes → Reading Bytes
  | [] => .error .cut
  | b :: r =>
    match shortEscape? b with
    | some c => .ok ([c], r)
    | none =>
      if b = 0x75 then (codePoint r).map fun (n, r) => (Utf8.encodeNat n, r)
      else .error .malformed

/-- The bytes of a string up to its closing quotation mark; `done` holds those read, last first. -/
def body : (fuel : Nat) → (done input : Bytes) → Reading Bytes
  | 0, _, _ => .error .cut
  | fuel + 1, done, input =>
    match input with
    | [] => .error .cut
    | b :: r =>
      if b = 0x22 then .ok (done.reverse, r)
      else if b = 0x5C then
        match escape r with
        | .error p => .error p
        | .ok (spelled, r) => body fuel (spelled.reverse ++ done) r
      else if b < 0x20 then .error .malformed
      else body fuel (b :: done) r

/-- A string behind its opening quotation mark. Each turn takes at least one byte, so the length of
the input bounds their number. -/
def read (input : Bytes) : Reading String :=
  match body (input.length + 1) [] input with
  | .error p => .error p
  | .ok (bytes, r) =>
    match Utf8.decode bytes with
    | .error _ => .error .malformed
    | .ok s => .ok (s, r)

def hexLetter (n : Nat) : UInt8 := if n < 10 then UInt8.ofNat (0x30 + n) else UInt8.ofNat (0x57 + n)

def writeChar (c : Char) : Bytes :=
  let n := c.toNat
  if n = 0x22 ∨ n = 0x5C then [0x5C, UInt8.ofNat n]
  else if n = 0x08 then [0x5C, 0x62]
  else if n = 0x0C then [0x5C, 0x66]
  else if n = 0x0A then [0x5C, 0x6E]
  else if n = 0x0D then [0x5C, 0x72]
  else if n = 0x09 then [0x5C, 0x74]
  else if n < 0x20 then [0x5C, 0x75, 0x30, 0x30, hexLetter (n / 16), hexLetter (n % 16)]
  else Utf8.encodeChar c

def write (s : String) : Bytes := 0x22 :: s.toList.flatMap writeChar ++ [0x22]

end PeerLink.Json.Text
