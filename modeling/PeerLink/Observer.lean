import PeerLink.Log.Warning

namespace PeerLink

inductive Callback (α : Type) where
  | next (value : α)
  | error (error : RemoteError)
  | completed
  deriving DecidableEq

/-- A channel takes values for as long as its receiving end is there. -/
inductive Observer where
  | recorder
  | function
  | channel (connected : Bool)
  | shared (inner : Observer)
  deriving DecidableEq

inductive Reaction (α : Type) where
  | seen (callback : Callback α)
  | warned (warning : Warning)

namespace Observer

variable {α : Type}

def takeValues (receive : Bool) : Callback α → List (Reaction α)
  | .next value => if receive then [.seen (.next value)] else []
  | .error error => [.warned (.unhandledError error)]
  | .completed => []

def react : Observer → Callback α → List (Reaction α)
  | .recorder, callback => [.seen callback]
  | .function, callback => takeValues true callback
  | .channel connected, callback => takeValues connected callback
  | .shared inner, callback => inner.react callback

/-- The receiving end of a channel goes away; other observers have none. -/
def disconnect : Observer → Observer
  | .channel _ => .channel false
  | .shared inner => .shared inner.disconnect
  | o => o

end Observer

end PeerLink
