import PeerLink.Manager.Ending
import PeerLink.Manager.Receiving
import PeerLink.Manager.Sending

namespace PeerLink.Manager

inductive Task where
  | acceptor
  | receiver (id : Nat)
  | dispatch (id : SubscriptionId)
  | send (id : SendId)
  | opening (id : Nat)
  | registration (id : Nat)
  | closing (id : ClosingId)
  deriving DecidableEq

variable (m : Manager)

def step (task : Task) (answer : Answer) : Outcome :=
  match task with
  | .acceptor => m.acceptorStep answer
  | .receiver id => m.receiverStep id answer
  | .send id => m.sendStep id answer
  | .closing id => m.closingStep id answer
  | .dispatch id => if answer = .none then m.dispatchStep id else none
  | .opening id => if answer = .none then m.openingStep id else none
  | .registration id => if answer = .none then m.registrationStep id else none

def refersTo (l : LinkId) : Bool :=
  m.links.values.contains l || m.sends.any (·.stage.link? = some l) ||
    m.openings.any (·.link? = some l) || m.closings.any (·.stage.links.contains l)

def strayStreams : List (LinkId × StreamId) :=
  m.allLinks.zipIdx.filterMap fun (link, l) =>
    match link.writer with
    | none => none
    | some w => if m.refersTo l then none else some (l, w.stream)

/-- Lets go of the streams of links that nothing refers to any more. -/
def reap (outcome : Manager × List Happening) : Manager × List Happening :=
  let stray := outcome.1.strayStreams
  (stray.foldl (fun m (l, _) => m.modifyLink l Link.disconnect) outcome.1,
    outcome.2 ++ stray.map fun (_, stream) => .released stream)

inductive Move where
  | register (remote : Endpoint) (observer : ObserverId)
  | unregister (remote : Endpoint)
  | open (destination : Endpoint)
  | send (destination : Endpoint) (frame : Bytes)
  | abandon (id : SendId)
  | finish (ending : Ending)
  | step (task : Task) (answer : Answer)
  | elapse (time : Nat)
  deriving DecidableEq

/-- The outcome of a move, unless it is a step that cannot be taken now. -/
def move : Move → Outcome
  | .register remote observer =>
    some ({ m with registrations := m.registrations ++ [{ remote, observer }] }, [])
  | .unregister remote =>
    let (m, found) := m.unregister remote
    some (m, [.unregistered found])
  | .open destination => some ({ m with openings := m.openings ++ [{ destination }] }, [])
  | .send destination frame =>
    some ({ m with sends := m.sends ++ [{ destination, frame }] }, [])
  | .abandon id => (m.abandonSend id).map reap
  | .finish ending => some ({ m with closings := m.closings ++ [{ ending }] }, [])
  | .step task answer => (m.step task answer).map reap
  | .elapse time => some ({ m with clock := m.clock + time }, [])

/-- The outcome of a list of moves, if each can be taken. -/
def run : Manager → List Move → Outcome
  | m, [] => some (m, [])
  | m, move :: moves => do
    let (m, happenings) ← m.move move
    let (m, more) ← run m moves
    return (m, happenings ++ more)

def new (address : Endpoint) (config : Config) (clock : Nat) : Manager := { address, config, clock }

inductive Request where
  | none
  | accept
  | connect
  | read (stream : StreamId)
  | write (stream : StreamId) (bytes : Bytes)
  | shut (stream : StreamId)
  deriving DecidableEq

def sendRequest (id : SendId) : Request :=
  match m.sends[id]? with
  | none => .none
  | some s =>
    let write (l : LinkId) : Request :=
      match (m.allLinks[l]?).bind Link.writer with
      | some w => .write w.stream w.buffer
      | none => .none
    match s.stage with
    | .connecting .. => .connect
    | .greeting _ stream unsent => .write stream unsent
    | .draining l => write l
    | .flushing l => write l
    | _ => .none

def receiverRequest (id : Nat) : Request :=
  match m.receivers[id]? with
  | none => .none
  | some r =>
    match r.stage with
    | .greeting _ reading => if reading.fresh then .none else .read r.stream
    | .receiving _ reading => if reading.fresh then .none else .read r.stream
    | _ => .none

def closingRequest (id : ClosingId) : Request :=
  match (m.closings[id]?).map Closing.stage with
  | some (.flushing w _ _) =>
    if w.buffer.isEmpty then .shut w.stream else .write w.stream w.buffer
  | _ => .none

/-- What a task waits for from the network. A cancelled manager's tasks no longer wait for anything,
its closing apart. -/
def request (task : Task) : Request :=
  match task with
  | .closing id => m.closingRequest id
  | task =>
    if m.cancelled then .none
    else
      match task with
      | .acceptor => if m.acceptor = .accepting then .accept else .none
      | .receiver id => m.receiverRequest id
      | .send id => m.sendRequest id
      | _ => .none

def timers : List Nat :=
  let acceptor := match m.acceptor with
    | .pausing t => [t]
    | _ => []
  let receivers := m.receivers.filterMap fun r =>
    match r.stage with
    | .greeting t _ => some t
    | _ => none
  let sends := m.sends.filterMap fun s =>
    match s.stage with
    | .connecting _ t => some t
    | _ => none
  let closings := m.closings.filterMap fun c =>
    match c.stage with
    | .flushing _ t _ => some t
    | .awaiting t => some t
    | _ => none
  acceptor ++ receivers ++ sends ++ closings

end PeerLink.Manager
