import PeerLink.Manager.Run
import PeerLink.Network.Basic

namespace PeerLink

abbrev HostId := Nat

/-- A manager with the address at which it listens and the one from which it dials. `live` says that
the manager has not been dropped; what runs in it may outlive it. -/
structure Host where
  name : String
  manager : Manager
  ip : String
  live : Bool := true

structure Report where
  dials : List Endpoint := []
  callbacks : List (String × Callback Bytes) := []
  warnings : List Warning := []

structure Cluster where
  clock : Nat := 0
  network : Network := {}
  hosts : List Host := []
  dials : List ((HostId × Manager.SendId) × Network.Dial) := []
  observers : List (String × Observer) := []
  report : Report := {}

namespace Cluster

open Manager (Answer Happening Move Request SendId StreamId Task)

variable (c : Cluster)

def setManager (h : HostId) (m : Manager) : Cluster :=
  { c with hosts := c.hosts.modify h ({ · with manager := m }) }

def dialPort : UInt16 := UInt16.ofNat (50001 + c.network.connections.length)

def modifyReport (f : Report → Report) : Cluster := { c with report := f c.report }

def warn (warning : Warning) : Cluster :=
  c.modifyReport fun r => { r with warnings := r.warnings ++ [warning] }

/-- Calls an observer. -/
def call (observer : Manager.ObserverId) (callback : Callback Bytes) : Cluster :=
  match c.observers[observer]? with
  | none => c
  | some (name, observer) =>
    (observer.react callback).foldl (fun c reaction =>
      match reaction with
      | .warned warning => c.warn warning
      | .seen callback =>
        c.modifyReport fun r => { r with callbacks := r.callbacks ++ [(name, callback)] }) c

def witness (h : HostId) (host : Host) (happening : Happening) : Cluster :=
  match happening with
  | .warned warning => c.warn warning
  | .dialled send target =>
    let (dial, network) := c.network.dial ⟨host.ip, c.dialPort⟩ target
    { c with network, dials := ((h, send), dial) :: c.dials }.modifyReport fun r =>
      { r with dials := r.dials ++ [target] }
  | .wrote stream bytes => { c with network := c.network.write stream bytes }
  | .shut stream => { c with network := c.network.finish stream }
  | .released stream => { c with network := c.network.release stream }
  | .stoppedListening => { c with network := c.network.unbind host.manager.address }
  | .called _ observer callback => c.call observer callback
  | .enqueued .. => c
  | .unregistered _ => c

def perform (h : HostId) (move : Move) : Option (Cluster × List Happening) := do
  let host ← c.hosts[h]?
  let (m, happenings) ← host.manager.move move
  return (happenings.foldl (fun c happening => c.witness h host happening) (c.setManager h m),
    happenings)

def respond (h : HostId) (host : Host) (task : Task) : Answer × Network :=
  match host.manager.request task with
  | .none => (.none, c.network)
  | .accept => c.network.accept host.manager.address
  | .connect =>
    match task with
    | .send id =>
      (match c.dials.lookup (h, id) with
        | some dial => dial.answer
        | none => .none, c.network)
    | _ => (.none, c.network)
  | .read stream => c.network.read stream
  | .write stream bytes => ((c.network.outgoing stream).offer bytes, c.network)
  | .shut stream => ((c.network.outgoing stream).offerEnd, c.network)

def stepTask (h : HostId) (task : Task) : Option Cluster := do
  let host ← c.hosts[h]?
  let (answer, network) := c.respond h host task
  let (c, _) ← { c with network }.perform h (.step task answer)
  return c

/-- Has a task go on for as long as it can, but for so many steps at most. -/
def runTask (h : HostId) (task : Task) : Nat → Cluster → Cluster
  | 0, c => c
  | fuel + 1, c =>
    match c.stepTask h task with
    | none => c
    | some c => runTask h task fuel c

def tasksOf (m : Manager) : List Task :=
  .acceptor :: (List.range m.receivers.length).map .receiver ++
    (List.range m.subscriptions.length).map .dispatch ++
    (List.range m.registrations.length).map .registration ++
    (List.range m.openings.length).map .opening ++
    (List.range m.sends.length).map .send ++
    (List.range m.closings.length).map .closing

def tasks : List (HostId × Task) :=
  c.hosts.zipIdx.flatMap fun (host, h) => (tasksOf host.manager).map (h, ·)

/-- Has all tasks go on until each of them waits, but for so many steps at most. -/
def settle : Nat → Cluster → Cluster
  | 0, c => c
  | fuel + 1, c =>
    match c.tasks.findSome? fun (h, task) => c.stepTask h task with
    | none => c
    | some c => settle fuel c

def nextTimer? : Option Nat :=
  (c.hosts.flatMap fun host => host.manager.timers.filter (c.clock < ·)).min?

def elapse (time : Nat) : Cluster :=
  { c with
    clock := c.clock + time
    hosts := c.hosts.map fun host =>
      match host.manager.move (.elapse time) with
      | some (m, _) => { host with manager := m }
      | none => host }

def patience : Nat := 100000000

def rest : Cluster := settle patience c

/-- Waits until something holds, from timer to timer up to a point of time. The number is that of
the timers, which bounds what is waited for. -/
def await (done : Cluster → Bool) (limit : Nat) : Nat → Cluster → Cluster
  | 0, c => c
  | fuel + 1, c =>
    let c := c.rest
    if done c then c
    else
      match c.nextTimer? with
      | some t => if t ≤ limit then await done limit fuel (c.elapse (t - c.clock))
                  else (c.elapse (limit - c.clock)).rest
      | none => (c.elapse (limit - c.clock)).rest

/-- Waits until something holds, but no longer than so many milliseconds. -/
def wait (done : Cluster → Bool) (time : Nat) : Cluster :=
  await done (c.clock + time) (time + 1) c

end Cluster

end PeerLink
