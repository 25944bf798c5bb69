import PeerLink.Manager.State

namespace PeerLink.Manager

/-- How long the acceptor pauses after a failure. -/
def acceptPause : Nat := 100

variable (m : Manager)

def acceptorStep (answer : Answer) : Outcome :=
  match m.acceptor, answer with
  | .accepting, .none =>
    if m.cancelled then some ({ m with acceptor := .stopped }, [.stoppedListening]) else none
  | .accepting, .incoming stream peer =>
    if m.cancelled then none
    else some ({ m with receivers := m.receivers ++ [{ stream, peer }] }, [])
  | .accepting, .failed error =>
    if m.cancelled then none
    else
      some ({ m with acceptor := .pausing (m.clock + acceptPause) },
        [.warned (.acceptFailed error)])
  | .pausing deadline, .none =>
    if m.cancelled then some ({ m with acceptor := .stopped }, [.stoppedListening])
    else if deadline ≤ m.clock then some ({ m with acceptor := .accepting }, [])
    else none
  | _, _ => none

/-- The endpoint that frames are attributed to: an announced address that stands for none in
particular is replaced by the one that the connection came from. -/
def resolveSource (hello : Hello) (peer : Endpoint) : Endpoint :=
  if hello.endpoint.isUnspecified then ⟨peer.host, hello.endpoint.port⟩ else hello.endpoint

def Reading.take? (r : Reading) : Answer → Option Reading
  | .chunk bytes => some { r with intake := r.intake.feed bytes, fresh := true }
  | .ended => some { r with atEnd := true, fresh := true }
  | _ => none

def endReceiver (id : Nat) (r : Receiver) (happenings : List Happening) :
    Manager × List Happening :=
  (m.setReceiver id .ended, happenings ++ [.released r.stream])

def endEstablished (id : Nat) (r : Receiver) (happenings : List Happening) :
    Manager × List Happening :=
  { m with established := m.established - 1 }.endReceiver id r happenings

def greetingStep (id : Nat) (r : Receiver) (deadline : Nat) (reading : Reading)
    (answer : Answer) : Outcome :=
  match answer with
  | .none =>
    if m.cancelled then some (m.endReceiver id r [])
    else if reading.fresh then
      let max := m.config.maxFrame
      let (result, intake) :=
        if reading.atEnd then Hello.format.last max reading.intake
        else Hello.format.next max reading.intake
      match result with
      | .error _ => some (m.endReceiver id r [.warned (.badHandshake r.peer)])
      | .ok (some hello) =>
        if hello.version = Hello.currentVersion then
          let source := resolveSource hello r.peer
          let m := { m with established := m.established + 1 }
          some (m.setReceiver id (.receiving source { reading with intake }), [])
        else
          some (m.endReceiver id r [.warned (.unsupportedVersion r.peer hello.version)])
      | .ok none =>
        if reading.atEnd then some (m.endReceiver id r [])
        else
          let reading := { reading with intake, fresh := false }
          some (m.setReceiver id (.greeting deadline reading), [])
    else if deadline ≤ m.clock then
      some (m.endReceiver id r [.warned (.handshakeTimedOut r.peer)])
    else none
  | answer =>
    if m.cancelled || reading.fresh then none
    else
      match answer with
      | .failed _ => some (m.endReceiver id r [.warned (.badHandshake r.peer)])
      | answer => (reading.take? answer).map fun r => (m.setReceiver id (.greeting deadline r), [])

def failReceiver (id : Nat) (source : Endpoint) (reading : Reading) (error : IoError) :
    Manager × List Happening :=
  (m.setReceiver id (.routing source reading (.failure (.connection source error)) .exact),
    [.warned (.receiveFailed source error)])

def receivingStep (id : Nat) (r : Receiver) (source : Endpoint) (reading : Reading)
    (answer : Answer) : Outcome :=
  match answer with
  | .none =>
    if m.cancelled then some (m.endEstablished id r [])
    else if reading.fresh then
      let max := m.config.maxFrame
      let (result, intake) :=
        if reading.atEnd then reading.intake.last max else reading.intake.next max
      let reading := { reading with intake }
      match result with
      | .error error => some (m.failReceiver id source reading error)
      | .ok (some body) =>
        some (m.setReceiver id (.routing source reading (.frame body) .exact), [])
      | .ok none =>
        if reading.atEnd then some (m.endEstablished id r [])
        else some (m.setReceiver id (.receiving source { reading with fresh := false }), [])
    else none
  | answer =>
    if m.cancelled || reading.fresh then none
    else
      match answer with
      | .failed error => some (m.failReceiver id source reading error)
      | answer => (reading.take? answer).map fun r => (m.setReceiver id (.receiving source r), [])

/-- What a receiver does once an item has been handed over or dropped. -/
def afterRouting (id : Nat) (r : Receiver) (source : Endpoint) (reading : Reading) (item : Item)
    (happenings : List Happening) : Manager × List Happening :=
  match item with
  | .frame _ => (m.setReceiver id (.receiving source reading), happenings)
  | .failure _ => m.endEstablished id r happenings

def findQueue (key : Endpoint) : Option (Manager × SubscriptionId) :=
  (m.observers.get? key).map fun s =>
    (m.modifySubscription s fun s => { s with handles := s.handles + 1 }, s)

def routingStep (id : Nat) (r : Receiver) (source : Endpoint) (reading : Reading) (item : Item)
    (routing : Routing) : Manager × List Happening :=
  match routing with
  | .exact =>
    match m.findQueue source with
    | some (m, s) => (m.setReceiver id (.routing source reading item (.handing s)), [])
    | none =>
      if source.isWildcard then m.afterRouting id r source reading item []
      else (m.setReceiver id (.routing source reading item .wildcard), [])
  | .wildcard =>
    match m.findQueue source.toWildcard with
    | some (m, s) => (m.setReceiver id (.routing source reading item (.handing s)), [])
    | none => m.afterRouting id r source reading item []
  | .handing s =>
    let m := (m.modifySubscription s (·.push item)).dropHandle s
    m.afterRouting id r source reading item [.enqueued s item]

def receiverStep (id : Nat) (answer : Answer) : Outcome := do
  let r ← m.receivers[id]?
  match r.stage, answer with
  | .opening, .none =>
    if m.cancelled then return m.endReceiver id r []
    else return (m.setReceiver id (.greeting (m.clock + m.config.handshakeTimeout) {}), [])
  | .greeting deadline reading, answer => m.greetingStep id r deadline reading answer
  | .receiving source reading, answer => m.receivingStep id r source reading answer
  | .routing source reading item routing, .none =>
    return m.routingStep id r source reading item routing
  | _, _ => none

end PeerLink.Manager
