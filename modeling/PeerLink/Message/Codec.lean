import PeerLink.Error
import PeerLink.Json.Shape

namespace PeerLink.Message

/-- The message types in use: how each is called, and its messages. -/
structure Vocabulary (T : Type) where
  name : T → String
  Value : T → Type

structure Boxed {T : Type} (V : Vocabulary T) where
  type : T
  value : V.Value type

def Boxed.open? {T : Type} [DecidableEq T] {V : Vocabulary T} (b : Boxed V) (type : T) :
    Option (V.Value type) :=
  if h : b.type = type then some (h ▸ b.value) else none

structure Codec (α : Type) where
  encode : α → Except PayloadFault Bytes
  decode : Bytes → Except PayloadFault α

def Codec.json (shape : Json.Shape) : Codec shape.Value where
  encode v := .ok (shape.write v)
  decode bytes := (shape.read bytes).mapError .json

end PeerLink.Message
