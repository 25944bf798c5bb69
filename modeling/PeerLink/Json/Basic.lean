import PeerLink.Bytes

namespace PeerLink.Json

/-- Why bytes are not JSON of the wanted shape: they are no JSON, they end inside a value, or they
hold another type, a number out of range, or a wrong set of members. -/
inductive Problem where
  | malformed
  | cut
  | mismatch
  deriving DecidableEq, Repr

def Problem.message : Problem → String
  | .malformed => "malformed JSON"
  | .cut => "unfinished JSON"
  | .mismatch => "JSON of another shape"

/-- A value with the input behind it, or the first problem. -/
abbrev Reading (α : Type) := Except Problem (α × Bytes)

def ascii (c : Char) : UInt8 := UInt8.ofNat c.toNat

def asciis (s : String) : Bytes := s.toList.map ascii

def isBlank (b : UInt8) : Bool := b = 0x20 || b = 0x0A || b = 0x09 || b = 0x0D

def skipBlanks (input : Bytes) : Bytes := input.dropWhile isBlank

/-- The value of a decimal digit. -/
def digit? (b : UInt8) : Option Nat :=
  if 0x30 ≤ b.toNat ∧ b.toNat ≤ 0x39 then some (b.toNat - 0x30) else none

def skipDigits (input : Bytes) : Bytes := input.dropWhile fun b => (digit? b).isSome

def word : Bytes → Bytes → Except Problem Bytes
  | [], input => .ok input
  | _ :: _, [] => .error .cut
  | w :: ws, b :: r => if b = w then word ws r else .error .malformed

end PeerLink.Json
