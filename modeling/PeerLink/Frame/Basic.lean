import PeerLink.IoError

namespace PeerLink.Frame

/-- The longest body whose length fits its field. -/
def maxBody : Nat := 4294967295

/-- The longest body under a limit. -/
def limit (max : Nat) : Nat := min max maxBody

def tooBig (kind : IoKind) : IoError := ⟨kind, .text "frame size too big"⟩

def unfinished : IoError := ⟨.other, .text "bytes remaining on stream"⟩

def encode (body : Bytes) : Bytes := Bytes.bigEndian 4 body.length ++ body

def encode? (max : Nat) (body : Bytes) : Except IoError Bytes :=
  if limit max < body.length then .error (tooBig .invalidInput) else .ok (encode body)

inductive Phase where
  | head
  | body (length : Nat)
  deriving DecidableEq, Repr

/-- A reader's position in a stream: what it expects, and the bytes it has not used. -/
structure Intake where
  phase : Phase := .head
  buffer : Bytes := []
  deriving DecidableEq

namespace Intake

def feed (i : Intake) (bytes : Bytes) : Intake := { i with buffer := i.buffer ++ bytes }

def put (max : Nat) (body : Bytes) (i : Intake) : Except IoError Unit × Intake :=
  match encode? max body with
  | .error error => (.error error, i)
  | .ok frame => (.ok (), i.feed frame)

def takeBody (length : Nat) (buffer : Bytes) : Option Bytes × Intake :=
  match Bytes.cut? length buffer with
  | some (body, rest) => (some body, ⟨.head, rest⟩)
  | none => (none, ⟨.body length, buffer⟩)

def next (max : Nat) (i : Intake) : Except IoError (Option Bytes) × Intake :=
  match i.phase with
  | .body length =>
    let (body, i) := takeBody length i.buffer
    (.ok body, i)
  | .head =>
    match Bytes.cut? 4 i.buffer with
    | none => (.ok none, i)
    | some (head, rest) =>
      let length := Bytes.number head
      if limit max < length then (.error (tooBig .invalidData), i)
      else
        let (body, i) := takeBody length rest
        (.ok body, i)

def last (max : Nat) (i : Intake) : Except IoError (Option Bytes) × Intake :=
  match i.next max with
  | (.ok none, i) => (if i.buffer.isEmpty then .ok none else .error unfinished, i)
  | result => result

end Intake

end PeerLink.Frame
