import PeerLink.Log.Warning
import PeerLink.Message.Registry

namespace PeerLink.Message

/-- A message of one type with the number that its sender gave it. -/
structure Instance (α : Type) where
  sequence : Int64
  message : α

variable {T : Type} [DecidableEq T] (V : Vocabulary T)

structure Decoded where
  kind : String
  sequence : Int64
  type : T
  message : Boxed V

variable {V}

namespace Decoded

def is (m : Decoded V) (type : T) : Bool := m.type = type

def downcast (m : Decoded V) (type : T) : Except (Decoded V) (Instance (V.Value type)) :=
  if m.is type then
    match m.message.open? type with
    | some message => .ok ⟨m.sequence, message⟩
    | none => .error m
  else .error m

def debug (m : Decoded V) : String :=
  "DecodedMessage \x7b kind: " ++ Text.Quoted.quote m.kind ++ ", sequence: " ++
    toString m.sequence.toInt ++ ", .. \x7d"

end Decoded

structure Delivery (T : Type) (V : Vocabulary T) (ω : Type) where
  subscriber : ω
  type : T
  content : Instance (V.Value type)

inductive Handover (T : Type) (V : Vocabulary T) (ω : Type) where
  | delivered (delivery : Delivery T V ω)
  | warned (warning : Warning)

/-- A subscriber, and the type that it was subscribed for. -/
structure Route (T ω : Type) where
  type : T
  subscriber : ω

/-- Hands over a message, whatever its type. A subscriber takes none but those of its own. -/
def Route.hand {ω : Type} (route : Route T ω) (sequence : Int64) (message : Boxed V) :
    Handover T V ω :=
  match message.open? route.type with
  | some message => .delivered ⟨route.subscriber, route.type, sequence, message⟩
  | none => .warned (.misrouted (V.name route.type))

/-- The route for each message type that has one. -/
structure Router (T ω : Type) where
  routes : List (T × Route T ω) := []

namespace Router

variable {ω : Type}

def route? (router : Router T ω) (type : T) : Option (Route T ω) :=
  (router.routes.find? (·.1 = type)).map Prod.snd

def subscribe (router : Router T ω) (type : T) (subscriber : ω) : Router T ω :=
  ⟨(type, ⟨type, subscriber⟩) :: router.routes.filter (·.1 ≠ type)⟩

def handles (router : Router T ω) (type : T) : Bool := (router.route? type).isSome

def route (router : Router T ω) (m : Decoded V) :
    Except SerializationError Unit × List (Handover T V ω) :=
  match router.route? m.type with
  | some route => (.ok (), [route.hand m.sequence m.message])
  | none => (.error (.noSubscriber m.kind), [])

end Router

end PeerLink.Message
