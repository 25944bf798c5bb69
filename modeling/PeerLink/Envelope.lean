import PeerLink.Error

namespace PeerLink

structure Envelope where
  kind : String
  sequence : Int64
  payload : Bytes
  deriving DecidableEq

namespace Envelope

open PeerLink.Text

def version : UInt8 := 1

/-- The longest kind whose length fits its field. -/
def maxKindLength : Nat := 65535

def encodedLength (e : Envelope) : Nat := 3 + Utf8.size e.kind + 8 + e.payload.length

def encode (e : Envelope) : Except Malformation Bytes :=
  let kind := Utf8.encode e.kind
  if kind.length = 0 then .error .emptyKind
  else if maxKindLength < kind.length then .error (.longKind kind.length)
  else
    .ok (version :: Bytes.bigEndian 2 kind.length ++ kind ++
      Bytes.bigEndian 8 e.sequence.toUInt64.toNat ++ e.payload)

/-- What follows the header. -/
def decodeBody (kindLength : Nat) (body : Bytes) : Except Malformation Envelope :=
  if kindLength = 0 then .error .emptyKind
  else if body.length < kindLength + 8 then .error (.truncated (kindLength + 8) body.length)
  else
    let (kind, rest) := body.splitAt kindLength
    let (sequence, payload) := rest.splitAt 8
    match Utf8.decode kind with
    | .error fault => .error (.kindNotText fault)
    | .ok kind => .ok ⟨kind, (UInt64.ofNat (Bytes.number sequence)).toInt64, payload⟩

def decode (bytes : Bytes) : Except Malformation Envelope :=
  match bytes with
  | first :: high :: low :: body =>
    if first ≠ version then .error (.unsupportedVersion first)
    else decodeBody (Bytes.number [high, low]) body
  | _ => .error (.shortHeader bytes.length)

end Envelope

end PeerLink
