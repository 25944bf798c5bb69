import PeerLink.Json.Basic

namespace PeerLink.Json.Number

/-- A number read: an integer from `-2^63` to `2^64 - 1`, or a number that counts as a fraction
(with a point or an exponent, negative zero, or an integer beyond 64 bits). -/
inductive Numeric where
  | integer (value : Int)
  | fraction
  deriving DecidableEq, Repr

def nearest53 (n : Nat) : Nat :=
  let bits := n.log2 + 1
  if bits ≤ 53 then n
  else
    let shift := bits - 53
    let quotient := n >>> shift
    let rest := n % (1 <<< shift)
    let half := 1 <<< (shift - 1)
    let rounded :=
      if half < rest ∨ (rest = half ∧ quotient % 2 = 1) then quotient + 1 else quotient
    rounded <<< shift

def exceedsRange (significand : Nat) (exponent : Int) : Bool :=
  if significand = 0 ∨ exponent < 0 then false
  else if 308 < exponent then true
  else (1 <<< 1024) - (1 <<< 970) ≤ nearest53 significand * nearest53 (Nat.pow 10 exponent.toNat)

def ofParts (significand : Nat) (exponent : Int) (rest : Bytes) : Reading Numeric :=
  if exceedsRange significand exponent then .error .malformed else .ok (.fraction, rest)

def greatestExponent : Nat := 2147483647

def exponentDigits (significand : Nat) (start : Int) (positive : Bool) :
    Nat → Bytes → Reading Numeric
  | exponent, [] =>
    ofParts significand (if positive then start + exponent else start - exponent) []
  | exponent, b :: r =>
    match digit? b with
    | none => ofParts significand (if positive then start + exponent else start - exponent) (b :: r)
    | some d =>
      if greatestExponent < 10 * exponent + d then
        if significand ≠ 0 ∧ positive then .error .malformed else .ok (.fraction, skipDigits r)
      else exponentDigits significand start positive (10 * exponent + d) r

def exponentSign : Bytes → Bool × Bytes
  | 0x2B :: r => (true, r)
  | 0x2D :: r => (false, r)
  | r => (true, r)

def exponent (significand : Nat) (start : Int) (input : Bytes) : Reading Numeric :=
  match exponentSign input with
  | (_, []) => .error .cut
  | (positive, b :: r) =>
    match digit? b with
    | none => .error .malformed
    | some d => exponentDigits significand start positive d r

def afterDigits (significand : Nat) (start : Int) : Bytes → Reading Numeric
  | 0x65 :: r => exponent significand start r
  | 0x45 :: r => exponent significand start r
  | r => ofParts significand start r

def greatestSignificand : Nat := 18446744073709551615

/-- The digits after a point, of which `after` have been read. -/
def decimals (before : Int) : (significand after : Nat) → Bytes → Reading Numeric
  | significand, after, [] =>
    if after = 0 then .error .cut else ofParts significand (before - after) []
  | significand, after, b :: r =>
    match digit? b with
    | some d =>
      if greatestSignificand < 10 * significand + d then
        afterDigits significand (before - after) (skipDigits r)
      else decimals before (10 * significand + d) (after + 1) r
    | none =>
      if after = 0 then .error .malformed else afterDigits significand (before - after) (b :: r)

/-- The digits of an integer beyond 64 bits, of which `dropped` are no longer counted. -/
def longInteger (significand : Nat) : (dropped : Nat) → Bytes → Reading Numeric
  | dropped, [] => ofParts significand dropped []
  | dropped, b :: r =>
    match digit? b with
    | some _ => longInteger significand (dropped + 1) r
    | none =>
      if b = 0x2E then decimals dropped significand 0 r
      else afterDigits significand dropped (b :: r)

def signed (negative : Bool) (significand : Nat) : Numeric :=
  if negative then
    if significand = 0 ∨ 1 <<< 63 < significand then .fraction else .integer (-significand)
  else .integer significand

def afterInteger (negative : Bool) (significand : Nat) : Bytes → Reading Numeric
  | 0x2E :: r => decimals 0 significand 0 r
  | 0x65 :: r => exponent significand 0 r
  | 0x45 :: r => exponent significand 0 r
  | r => .ok (signed negative significand, r)

def integerDigits (negative : Bool) : Nat → Bytes → Reading Numeric
  | significand, [] => .ok (signed negative significand, [])
  | significand, b :: r =>
    match digit? b with
    | some d =>
      if greatestSignificand < 10 * significand + d then longInteger significand 1 r
      else integerDigits negative (10 * significand + d) r
    | none => afterInteger negative significand (b :: r)

def magnitude (negative : Bool) : Bytes → Reading Numeric
  | [] => .error .cut
  | 0x30 :: r =>
    match r with
    | b :: _ => if (digit? b).isSome then .error .malformed else afterInteger negative 0 r
    | [] => afterInteger negative 0 r
  | b :: r =>
    match digit? b with
    | some d => integerDigits negative d r
    | none => .error .malformed

/-- A number from its first byte on, if that is a digit or a minus sign. -/
def read? : Bytes → Option (Reading Numeric)
  | 0x2D :: r => some (magnitude true r)
  | b :: r => if (digit? b).isSome then some (magnitude false (b :: r)) else none
  | [] => none

end PeerLink.Json.Number
