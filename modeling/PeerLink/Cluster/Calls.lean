import PeerLink.Cluster.Basic
import PeerLink.Manager.Binding

namespace PeerLink.Cluster

open Manager (Happening Move SendId Task)

variable (c : Cluster)

def find? (name : String) : Option HostId :=
  (c.hosts.zipIdx.find? fun (host, _) => host.live && host.name = name).map Prod.snd

def manager? (h : HostId) : Option Manager := (c.hosts[h]?).map Host.manager

def act (h : HostId) (move : Move) : Cluster :=
  match c.perform h move with
  | some (c, _) => c
  | none => c

def begin (h : HostId) (move : Move) (task : Manager → Task) : Cluster :=
  match c.manager? h with
  | none => c
  | some m => runTask h (task m) patience (c.act h move)

/-- Drops a manager. What was called on it goes on, to learn that it is closed. -/
def drop (h : HostId) : Cluster :=
  let c := c.begin h (.finish .drop) fun m => .closing m.closings.length
  { c with hosts := c.hosts.modify h ({ · with live := false }) }

abbrev Attempts := Network × List Endpoint

def attempt (e : Endpoint) : Attempts → Except IoError Endpoint × Attempts
  | (n, attempts) =>
    let (result, n) := n.bind e
    (result, n, attempts ++ [e])

def provider (fault : Option IoError) : Manager.Provider Attempts Endpoint where
  bind := attempt
  address listener _ :=
    match fault with
    | some error => .error error
    | none => .ok listener
  drop listener := fun (n, attempts) => (n.unbind listener, attempts)

/-- Binds a manager, and tells which endpoints were tried. A live manager of the same name is
dropped in the end. -/
def bind (name : String) (requested : Endpoint) (ip : String) (config : Config)
    (fault : Option IoError) : Except RemoteError Endpoint × List Endpoint × Cluster :=
  match Manager.listen (provider fault) requested config c.clock (c.network, []) with
  | (.error error, network, attempts) => (.error error, attempts, { c with network })
  | (.ok (manager, address), network, attempts) =>
    let old := c.find? name
    let c := { c with network, hosts := c.hosts ++ [{ name, manager, ip }] }
    (.ok address, attempts,
      match old with
      | some h => c.drop h
      | none => c)

def registered? (h : HostId) (id : Nat) : Option (Except RemoteError Unit) := do
  let m ← c.manager? h
  let r ← m.registrations[id]?
  match r.stage with
  | .finished result => some result
  | _ => none

/-- Registers an observer under a name for reports. -/
def register (h : HostId) (remote : Endpoint) (name : String) (observer : Observer) :
    Except RemoteError Unit × Cluster :=
  match c.manager? h with
  | none => (.error .closed, c)
  | some m =>
    let id := m.registrations.length
    let c := { c with observers := c.observers ++ [(name, observer)] }.begin h
      (.register remote c.observers.length) fun _ => .registration id
    ((c.registered? h id).getD (.error .closed), c)

def unregister (h : HostId) (remote : Endpoint) : Bool × Cluster :=
  match c.perform h (.unregister remote) with
  | some (c, happenings) => (happenings.contains (.unregistered true), c)
  | none => (false, c)

def opened? (h : HostId) (id : Nat) : Option (Except RemoteError Unit) := do
  let m ← c.manager? h
  let o ← m.openings[id]?
  match o.stage with
  | .found _ => some (.ok ())
  | .refused => some (.error .closed)
  | _ => none

def openSender (h : HostId) (destination : Endpoint) : Except RemoteError Unit × Cluster :=
  match c.manager? h with
  | none => (.error .closed, c)
  | some m =>
    let id := m.openings.length
    let c := c.begin h (.open destination) fun _ => .opening id
    ((c.opened? h id).getD (.error .closed), c)

def sent? (h : HostId) (id : SendId) : Option (Except RemoteError Unit × Nat) := do
  let m ← c.manager? h
  let s ← m.sends[id]?
  match s.stage with
  | .finished result time => some (result, time)
  | _ => none

def beginSend (h : HostId) (destination : Endpoint) (frame : Bytes) : SendId × Cluster :=
  ((c.manager? h).elim 0 (·.sends.length),
    c.begin h (.send destination frame) fun m => .send m.sends.length)

def abandonSend (h : HostId) (id : SendId) : Cluster := c.act h (.abandon id)

/-- The time after which a call is taken not to come back, in milliseconds. -/
def longest : Nat := 3600000

/-- Sends a frame, and waits for the outcome. A call that does not come back is given up. -/
def send (h : HostId) (destination : Endpoint) (frame : Bytes) :
    Option (Except RemoteError Unit) × Cluster :=
  let (id, c) := c.beginSend h destination frame
  let c := c.wait (fun c => (c.sent? h id).isSome) longest
  match c.sent? h id with
  | some (result, _) => (some result, c)
  | none => (none, c.abandonSend h id)

def hasClosed (h : HostId) (id : Manager.ClosingId) : Bool :=
  match (c.manager? h).bind fun m => m.closings[id]? with
  | some { stage := .finished _, .. } => true
  | _ => false

/-- Closes a manager, and waits until it is closed. -/
def close (h : HostId) : Cluster :=
  let id := (c.manager? h).elim 0 (·.closings.length)
  let c := c.begin h (.finish .close) fun _ => .closing id
  c.wait (fun c => c.hasClosed h id) longest

def advance (time : Nat) : Cluster := c.wait (fun _ => false) time

def failAccept (h : HostId) (error : IoError) : Cluster :=
  match c.manager? h with
  | none => c
  | some m =>
    if m.acceptor = .stopped then c
    else { c with network := c.network.arrive m.address (.fault error) }

end PeerLink.Cluster
