import PeerLink.Json.Number
import PeerLink.Json.Text

namespace PeerLink.Json.Skip

def string : (fuel : Nat) → Bytes → Except Problem Bytes
  | 0, _ => .error .cut
  | fuel + 1, input =>
    match input with
    | [] => .error .cut
    | 0x22 :: r => .ok r
    | 0x5C :: [] => .error .cut
    | 0x5C :: b :: r =>
      if (Text.shortEscape? b).isSome then string fuel r
      else if b = 0x75 then
        match Text.unit r with
        | .error p => .error p
        | .ok (_, r) => string fuel r
      else .error .malformed
    | b :: r => if b < 0x20 then .error .malformed else string fuel r

def exponent (input : Bytes) : Except Problem Bytes :=
  match (Number.exponentSign input).2 with
  | b :: r => if (digit? b).isSome then .ok (skipDigits r) else .error .malformed
  | [] => .error .malformed

def afterDigits : Bytes → Except Problem Bytes
  | 0x65 :: r => exponent r
  | 0x45 :: r => exponent r
  | r => .ok r

def afterInteger : Bytes → Except Problem Bytes
  | 0x2E :: b :: r =>
    if (digit? b).isSome then afterDigits (skipDigits r) else .error .malformed
  | 0x2E :: [] => .error .malformed
  | r => afterDigits r

/-- A number behind its sign. -/
def number : Bytes → Except Problem Bytes
  | 0x30 :: b :: r => if (digit? b).isSome then .error .malformed else afterInteger (b :: r)
  | b :: r => if (digit? b).isSome then afterInteger (skipDigits r) else .error .malformed
  | [] => .error .malformed

inductive Bracket where
  | array
  | object
  deriving DecidableEq, Repr

/-- A place between the tokens of nested values: before a value, behind an opening bracket, or
behind a complete value. -/
inductive Place where
  | value
  | opened
  | closed
  deriving DecidableEq, Repr

/-- Either the value ended there, or the place that follows and the brackets still open. -/
inductive Progress where
  | finished (rest : Bytes)
  | next (place : Place) (brackets : List Bracket) (rest : Bytes)

def scalar (brackets : List Bracket) (rest : Except Problem Bytes) : Except Problem Progress :=
  rest.map (.next .closed brackets)

def value (brackets : List Bracket) : Bytes → Except Problem Progress
  | [] => .error .cut
  | b :: r =>
    if b = 0x6E then scalar brackets (word (asciis "ull") r)
    else if b = 0x74 then scalar brackets (word (asciis "rue") r)
    else if b = 0x66 then scalar brackets (word (asciis "alse") r)
    else if b = 0x2D then scalar brackets (number r)
    else if (digit? b).isSome then scalar brackets (number (b :: r))
    else if b = 0x22 then scalar brackets (string (r.length + 1) r)
    else if b = 0x5B then .ok (.next .opened (.array :: brackets) r)
    else if b = 0x7B then .ok (.next .opened (.object :: brackets) r)
    else .error .malformed

def member (brackets : List Bracket) (input : Bytes) : Except Problem Progress :=
  match brackets with
  | .object :: _ =>
    match skipBlanks input with
    | [] => .error .cut
    | 0x22 :: r =>
      match string (r.length + 1) r with
      | .error p => .error p
      | .ok r =>
        match skipBlanks r with
        | [] => .error .cut
        | 0x3A :: r => .ok (.next .value brackets r)
        | _ => .error .malformed
    | _ => .error .malformed
  | _ => .ok (.next .value brackets input)

def closes (bracket : Bracket) (b : UInt8) : Bool :=
  match bracket with
  | .array => b = 0x5D
  | .object => b = 0x7D

def advance (place : Place) (brackets : List Bracket) (input : Bytes) : Except Problem Progress :=
  match place, brackets with
  | .value, _ => value brackets (skipBlanks input)
  | _, [] => .ok (.finished input)
  | place, bracket :: outer =>
    match skipBlanks input with
    | [] => .error .cut
    | b :: r =>
      if closes bracket b then .ok (.next .closed outer r)
      else if place = .opened then member brackets (b :: r)
      else if b = 0x2C then member brackets r
      else .error .malformed

def loop : (fuel : Nat) → Place → List Bracket → Bytes → Except Problem Bytes
  | 0, _, _, _ => .error .cut
  | fuel + 1, place, brackets, input =>
    match advance place brackets input with
    | .error p => .error p
    | .ok (.finished rest) => .ok rest
    | .ok (.next place brackets rest) => loop fuel place brackets rest

/-- The input behind one value of any kind. A turn that takes no byte is followed by one that does
or by the last, so twice the length of the input bounds their number. -/
def any (input : Bytes) : Except Problem Bytes :=
  loop (2 * input.length + 2) .value [] input

end PeerLink.Json.Skip
