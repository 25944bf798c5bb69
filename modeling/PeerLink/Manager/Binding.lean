import PeerLink.Manager.Run

namespace PeerLink.Manager

def noCandidate : IoError := ⟨.addrNotAvailable, .text "empty port range"⟩

def candidates (requested : Endpoint) (range : Option PortRange) : List Endpoint :=
  match range with
  | some range =>
    if requested.isWildcard then range.ports.map requested.withPort else [requested]
  | none => [requested]

variable {σ β : Type}

def firstBound (bind : Endpoint → σ → Except IoError β × σ) :
    List Endpoint → IoError → σ → Except IoError β × σ
  | [], error, s => (.error error, s)
  | e :: es, _, s =>
    match bind e s with
    | (.ok b, s) => (.ok b, s)
    | (.error error, s) => firstBound bind es error s

def bindListener (bind : Endpoint → σ → Except IoError β × σ) (requested : Endpoint)
    (range : Option PortRange) (s : σ) : Except RemoteError β × σ :=
  match firstBound bind (candidates requested range) noCandidate s with
  | (.ok b, s) => (.ok b, s)
  | (.error error, s) => (.error (.bind requested error), s)

/-- What a network offers to those who want to listen: binding an endpoint, telling at which one a
listener listens, and letting go of it. -/
structure Provider (σ β : Type) where
  bind : Endpoint → σ → Except IoError β × σ
  address : β → σ → Except IoError Endpoint
  drop : β → σ → σ

/-- A manager that listens, with its listener. One that cannot tell its own address does not come to
be. -/
def listen (p : Provider σ β) (requested : Endpoint) (config : Config) (clock : Nat) (s : σ) :
    Except RemoteError (Manager × β) × σ :=
  match bindListener p.bind requested config.portRange s with
  | (.error error, s) => (.error error, s)
  | (.ok listener, s) =>
    match p.address listener s with
    | .error error => (.error (.bind requested error), p.drop listener s)
    | .ok address => (.ok (new address config clock, listener), s)

end PeerLink.Manager
