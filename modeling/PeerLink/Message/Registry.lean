import PeerLink.Envelope
import PeerLink.Manager.Table
import PeerLink.Message.Codec
import PeerLink.Text.Quoted

namespace PeerLink.Message

variable {T : Type} [DecidableEq T] (V : Vocabulary T)

structure Registration where
  type : T
  kind : String
  codec : Codec (V.Value type)

variable {V}

namespace Registration

/-- The codec for messages of any type. It refuses those of another type than its own. -/
def encode (r : Registration V) (message : Boxed V) : Except SerializationError Bytes :=
  match message.open? r.type with
  | none => .error (.payload r.kind (.text "message does not match the registered type"))
  | some message => (r.codec.encode message).mapError (.payload r.kind)

def decode (r : Registration V) (payload : Bytes) : Except SerializationError (Boxed V) :=
  match r.codec.decode payload with
  | .error fault => .error (.payload r.kind fault)
  | .ok message => .ok ⟨r.type, message⟩

def kindLength (r : Registration V) : Nat := Text.Utf8.size r.kind

end Registration

/-- Where the entry of each kind and the entry of each type stand in a list of entries. -/
structure Index (T : Type) where
  kinds : Table String Nat := {}
  types : Table T Nat := {}

namespace Index

/-- Notes an entry at a place behind the others, unless something speaks against it: the length of
its kind, a kind in use or a type in use, whichever comes first. -/
def add (index : Index T) (place : Nat) (r : Registration V) :
    Except SerializationError (Index T) :=
  if r.kindLength = 0 ∨ Envelope.maxKindLength < r.kindLength then
    .error (.malformed (.invalidKind (V.name r.type) r.kindLength))
  else if (index.kinds.get? r.kind).isSome then .error (.duplicateKind r.kind)
  else if (index.types.get? r.type).isSome then .error (.duplicateType (V.name r.type))
  else .ok ⟨index.kinds.insert r.kind place, index.types.insert r.type place⟩

def addAll : (index : Index T) → (place : Nat) → List (Registration V) →
    Except SerializationError (Index T)
  | index, _, [] => .ok index
  | index, place, r :: rest =>
    match index.add place r with
    | .error e => .error e
    | .ok index => addAll index (place + 1) rest

end Index

variable (V) in
/-- Registrations in the order in which they were made, with their index. -/
structure Registry where
  entries : List (Registration V)
  index : Index T
  indexed : Index.addAll {} 0 entries = .ok index

namespace Registry

def build (entries : List (Registration V)) : Except SerializationError (Registry V) :=
  match h : Index.addAll {} 0 entries with
  | .ok index => .ok ⟨entries, index, h⟩
  | .error e => .error e

def byKind? (r : Registry V) (kind : String) : Option (Registration V) :=
  (r.index.kinds.get? kind).bind (r.entries[·]?)

def byType? (r : Registry V) (type : T) : Option (Registration V) :=
  (r.index.types.get? type).bind (r.entries[·]?)

def containsKind (r : Registry V) (kind : String) : Bool := (r.index.kinds.get? kind).isSome

def kindOf? (r : Registry V) (type : T) : Option String := (r.byType? type).map (·.kind)

def kinds (r : Registry V) : List String := r.entries.map (·.kind)

def size (r : Registry V) : Nat := r.entries.length

def debug (r : Registry V) : String :=
  "SchemaRegistry \x7b kinds: [" ++ ", ".intercalate (r.kinds.map Text.Quoted.quote) ++ "] \x7d"

end Registry

variable (V) in
/-- Collects the registrations of a registry; nothing is checked before it is built. -/
structure RegistryBuilder where
  entries : List (Registration V) := []

namespace RegistryBuilder

def register (b : RegistryBuilder V) (r : Registration V) : RegistryBuilder V :=
  ⟨b.entries ++ [r]⟩

def build (b : RegistryBuilder V) : Except SerializationError (Registry V) :=
  Registry.build b.entries

end RegistryBuilder

variable (V) in
/-- Collects the registrations of a serializer, which needs nothing but its registry. -/
structure SerializerBuilder where
  registry : RegistryBuilder V := {}

namespace SerializerBuilder

def register (b : SerializerBuilder V) (r : Registration V) : SerializerBuilder V :=
  ⟨b.registry.register r⟩

def build (b : SerializerBuilder V) : Except SerializationError (Registry V) := b.registry.build

end SerializerBuilder

end PeerLink.Message
