import PeerLink.Frame.Basic
import PeerLink.Json.Shape

namespace PeerLink.Frame

/-- How the values of a type are written as JSON and read. -/
structure Format (α : Type) where
  shape : Json.Shape
  toValue : α → shape.Value
  ofValue : shape.Value → α

namespace Format

variable {α : Type}

def write (f : Format α) (a : α) : Bytes := f.shape.write (f.toValue a)

def read (f : Format α) (bytes : Bytes) : Except Json.Problem α :=
  (f.shape.read bytes).map f.ofValue

def encode? (f : Format α) (max : Nat) (a : α) : Except IoError Bytes :=
  Frame.encode? max (f.write a)

def put (f : Format α) (max : Nat) (a : α) (i : Intake) : Except IoError Unit × Intake :=
  i.put max (f.write a)

def ofBody (f : Format α) : Option Bytes → Except IoError (Option α)
  | none => .ok none
  | some body =>
    match f.read body with
    | .ok a => .ok (some a)
    | .error problem => .error ⟨.invalidData, .json problem⟩

/-- The next value on a stream, if its frame is complete. -/
def next (f : Format α) (max : Nat) (i : Intake) : Except IoError (Option α) × Intake :=
  let (body, i) := i.next max
  (body.bind f.ofBody, i)

def last (f : Format α) (max : Nat) (i : Intake) : Except IoError (Option α) × Intake :=
  match f.next max i with
  | (.ok none, i) => (if i.buffer.isEmpty then .ok none else .error unfinished, i)
  | result => result

end Format

end PeerLink.Frame
