import PeerLink.Message.Router

namespace PeerLink.Message.Registry

variable {T : Type} [DecidableEq T] {V : Vocabulary T} {ω : Type}

def write (r : Registry V) (type : T) (message : V.Value type) (sequence : Int64) :
    Except SerializationError Bytes :=
  match r.byType? type with
  | none => .error (.unregistered (V.name type))
  | some entry =>
    match entry.encode ⟨type, message⟩ with
    | .error e => .error e
    | .ok payload => (Envelope.encode ⟨entry.kind, sequence, payload⟩).mapError .malformed

def decode (r : Registry V) (bytes : Bytes) : Except SerializationError (Decoded V) :=
  match Envelope.decode bytes with
  | .error reason => .error (.malformed reason)
  | .ok envelope =>
    match r.byKind? envelope.kind with
    | none => .error (.unknownKind envelope.kind)
    | some entry =>
      match entry.decode envelope.payload with
      | .error e => .error e
      | .ok message => .ok ⟨envelope.kind, envelope.sequence, entry.type, message⟩

/-- Reads an envelope and hands its message to the router. -/
def read (r : Registry V) (bytes : Bytes) (router : Router T ω) :
    Except SerializationError Unit × List (Handover T V ω) :=
  match r.decode bytes with
  | .error e => (.error e, [])
  | .ok m => router.route m

def readAs (r : Registry V) (type : T) (bytes : Bytes) :
    Except SerializationError (Instance (V.Value type)) :=
  match r.decode bytes with
  | .error e => .error e
  | .ok m => (m.downcast type).mapError fun m => .typeMismatch m.kind (V.name type)

end PeerLink.Message.Registry
