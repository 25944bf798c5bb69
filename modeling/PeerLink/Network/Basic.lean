import PeerLink.Network.Pipe

namespace PeerLink

namespace Network

open Manager (Answer StreamId)

structure Connection where
  forth : Pipe := {}
  back : Pipe := {}
  deriving DecidableEq

/-- What a dial comes to where it is not left to the listeners. The far ends of held connections
are kept under a label. -/
inductive Route where
  | stalled
  | failing (error : IoError)
  | held (label : String)
  deriving DecidableEq

inductive Arrival where
  | connection (stream : StreamId) (peer : Endpoint)
  | fault (error : IoError)
  deriving DecidableEq

def Arrival.answer : Arrival → Answer
  | .connection stream peer => .incoming stream peer
  | .fault error => .failed error

def Arrival.stream? : Arrival → Option StreamId
  | .connection stream _ => some stream
  | .fault _ => none

structure Listener where
  address : Endpoint
  arrivals : List Arrival := []
  deriving DecidableEq

/-- What a dial comes to; a stalled one is never heard of again. -/
inductive Dial where
  | stalled
  | failed (error : IoError)
  | connected (stream : StreamId)
  deriving DecidableEq

def Dial.answer : Dial → Answer
  | .stalled => .none
  | .failed error => .failed error
  | .connected stream => .connected stream

end Network

structure Network where
  connections : List Network.Connection := []
  listeners : List Network.Listener := []
  routes : Table Endpoint Network.Route := {}
  taken : Table Endpoint IoError := {}
  held : List (String × Manager.StreamId) := []
  nextPort : Nat := 40000

namespace Network

open Manager (Answer StreamId)

variable (n : Network)

def outgoing (s : StreamId) : Pipe :=
  match n.connections[s / 2]? with
  | some c => if s % 2 = 0 then c.forth else c.back
  | none => {}

/-- The pipe that the holder of an end reads from. -/
def incoming (s : StreamId) : Pipe :=
  match n.connections[s / 2]? with
  | some c => if s % 2 = 0 then c.back else c.forth
  | none => {}

def modifyOutgoing (s : StreamId) (f : Pipe → Pipe) : Network :=
  { n with connections := n.connections.modify (s / 2) fun c =>
      if s % 2 = 0 then { c with forth := f c.forth } else { c with back := f c.back } }

def modifyIncoming (s : StreamId) (f : Pipe → Pipe) : Network :=
  { n with connections := n.connections.modify (s / 2) fun c =>
      if s % 2 = 0 then { c with back := f c.back } else { c with forth := f c.forth } }

def read (s : StreamId) : Answer × Network :=
  let (answer, pipe) := (n.incoming s).read
  (answer, n.modifyIncoming s fun _ => pipe)

def write (s : StreamId) (bytes : Bytes) : Network := n.modifyOutgoing s (·.push bytes)

def finish (s : StreamId) : Network := n.modifyOutgoing s Pipe.finish

def release (s : StreamId) : Network := (n.finish s).modifyIncoming s Pipe.abandon

def hasReader (s : StreamId) : Bool := !(n.outgoing s).abandoned

def isBound (address : Endpoint) : Bool := n.listeners.any (·.address = address)

def modifyListener (address : Endpoint) (f : Listener → Listener) : Network :=
  { n with listeners := n.listeners.map fun l => if l.address = address then f l else l }

def freePort (host : String) (port : Nat) : Nat → Nat
  | 0 => port
  | k + 1 => if n.isBound ⟨host, UInt16.ofNat port⟩ then freePort host (port + 1) k else port

/-- Port 0 stands for the next port that is free. -/
def bind (requested : Endpoint) : Except IoError Endpoint × Network :=
  match n.taken.get? requested with
  | some error => (.error error, n)
  | none =>
    if requested.isWildcard then
      let port := n.freePort requested.host n.nextPort n.listeners.length
      let address := requested.withPort (UInt16.ofNat port)
      (.ok address,
        { n with nextPort := port + 1, listeners := n.listeners ++ [{ address }] })
    else if n.isBound requested then (.error ⟨.addrInUse, .bare⟩, n)
    else (.ok requested, { n with listeners := n.listeners ++ [{ address := requested }] })

def unbind (address : Endpoint) : Network :=
  let (gone, kept) := n.listeners.partition (·.address = address)
  let streams := gone.flatMap fun l => l.arrivals.filterMap Arrival.stream?
  streams.foldl release { n with listeners := kept }

/-- The listener at an address gets one more arrival. -/
def arrive (address : Endpoint) (arrival : Arrival) : Network :=
  n.modifyListener address fun l => { l with arrivals := l.arrivals ++ [arrival] }

/-- What the listener at an address has for its acceptor, and what is left. -/
def accept (address : Endpoint) : Answer × Network :=
  match n.listeners.find? (·.address = address) with
  | none => (.none, n)
  | some l =>
    match l.arrivals with
    | [] => (.none, n)
    | arrival :: arrivals => (arrival.answer, n.modifyListener address ({ · with arrivals }))

def findListener? (target : Endpoint) : Option Endpoint :=
  [target, ⟨"0.0.0.0", target.port⟩, ⟨"::", target.port⟩].find? n.isBound

/-- A new connection, and the number of its dialling end. -/
def connect : StreamId × Network :=
  (2 * n.connections.length, { n with connections := n.connections ++ [{}] })

/-- Dials an endpoint; `peer` is what the accepting side sees of the caller. -/
def dial (peer target : Endpoint) : Dial × Network :=
  match n.routes.get? target with
  | some .stalled => (.stalled, n)
  | some (.failing error) => (.failed error, n)
  | some (.held label) =>
    let (stream, n) := n.connect
    (.connected stream, { n with held := n.held ++ [(label, stream + 1)] })
  | none =>
    match n.findListener? target with
    | none => (.failed ⟨.connectionRefused, .bare⟩, n)
    | some address =>
      let (stream, n) := n.connect
      (.connected stream, n.arrive address (.connection (stream + 1) peer))

def heldUnder (label : String) : List StreamId :=
  n.held.filterMap fun (l, stream) => if l = label then some stream else none

def setRoute (target : Endpoint) (route : Route) : Network :=
  { n with routes := (n.routes.erase target).insert target route }

def take (address : Endpoint) (error : IoError) : Network :=
  { n with taken := (n.taken.erase address).insert address error }

end Network

end PeerLink
