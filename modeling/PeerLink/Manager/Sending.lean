import PeerLink.Manager.Lookup

namespace PeerLink.Manager

/-- A buffer that has reached this size is written out before more is put into it. -/
def bufferBoundary : Nat := 8192

def connectTimedOut : IoError := ⟨.timedOut, .text "connect timed out"⟩

variable (m : Manager)

def finishSend (id : SendId) (result : Except RemoteError Unit) : Manager :=
  m.setSend id (.finished result m.clock)

def leaveLink (id : SendId) (l : LinkId) (result : Except RemoteError Unit) : Manager :=
  (m.modifyLink l (·.leave (.send id))).finishSend id result

/-- A failed connect retires the link at once; the table is looked after in the next step. -/
def failConnect (id : SendId) (l : LinkId) (error : IoError) : Manager :=
  (m.modifyLink l Link.retire).setSend id (.failing l error)

/-- A failed write lets go of the stream. The link stays, and the next call connects again. -/
def failWrite (id : SendId) (s : Send) (l : LinkId) (w : Writer) (error : IoError) :
    Manager × List Happening :=
  ((m.modifyLink l Link.disconnect).leaveLink id l (.error (.connection s.destination error)),
    [.warned (.sendFailed s.destination error), .released w.stream])

def stageFrame (id : SendId) (s : Send) (l : LinkId) (w : Writer) : Manager × List Happening :=
  match Frame.encode? m.config.maxFrame s.frame with
  | .error error => m.failWrite id s l w error
  | .ok bytes => ((m.modifyLink l (·.append bytes)).setSend id (.flushing l), [])

def beginWrite (id : SendId) (s : Send) (l : LinkId) (w : Writer) : Manager × List Happening :=
  if bufferBoundary ≤ w.buffer.length then (m.setSend id (.draining l), [])
  else m.stageFrame id s l w

def queuedStep (id : SendId) (s : Send) (l : LinkId) : Outcome := do
  let link ← m.allLinks[l]?
  if m.cancelled then return (m.leaveLink id l (.error .closed), [])
  else if link.holder ≠ some (.send id) then none
  else if link.retired then
    return ((m.modifyLink l (·.leave (.send id))).setSend id (.linking .checking), [])
  else
    match link.writer with
    | some w => return m.beginWrite id s l w
    | none =>
      return (m.setSend id (.connecting l (m.clock + m.config.connectTimeout)),
        [.dialled id s.destination])

def beginGreeting (id : SendId) (l : LinkId) (stream : StreamId) : Manager × List Happening :=
  match Hello.format.encode? m.config.maxFrame (.of m.address) with
  | .error error => (m.failConnect id l error, [.released stream])
  | .ok bytes => (m.setSend id (.greeting l stream bytes), [])

def connectingStep (id : SendId) (l : LinkId) (deadline : Nat) (answer : Answer) : Outcome :=
  match answer with
  | .none =>
    if m.cancelled then some (m.leaveLink id l (.error .closed), [])
    else if deadline ≤ m.clock then some (m.failConnect id l connectTimedOut, [])
    else none
  | .connected stream => if m.cancelled then none else some (m.beginGreeting id l stream)
  | .failed error => if m.cancelled then none else some (m.failConnect id l error, [])
  | _ => none

/-- The stream has taken some of the greeting. With the last byte of it the stream becomes the
link's, and the frame is next. -/
def greetStep (id : SendId) (s : Send) (l : LinkId) (stream : StreamId) (unsent : Bytes)
    (answer : Answer) : Outcome :=
  match answer with
  | .none =>
    if m.cancelled then some (m.leaveLink id l (.error .closed), [.released stream]) else none
  | .accepted count =>
    if m.cancelled || count = 0 || unsent.length < count then none
    else if count = unsent.length then
      let (m, happenings) := (m.modifyLink l (·.connect stream)).beginWrite id s l ⟨stream, []⟩
      some (m, .wrote stream unsent :: happenings)
    else
      some (m.setSend id (.greeting l stream (unsent.drop count)),
        [.wrote stream (unsent.take count)])
  | .failed error =>
    if m.cancelled then none else some (m.failConnect id l error, [.released stream])
  | _ => none

def writeStep (id : SendId) (s : Send) (l : LinkId) (answer : Answer)
    (done : Manager → Writer → Manager × List Happening) : Outcome := do
  let link ← m.allLinks[l]?
  match link.writer, answer with
  | none, _ => none
  | some w, .accepted count =>
    if m.cancelled || count = 0 || w.buffer.length < count then none
    else
      let m := m.modifyLink l (·.consume count)
      let wrote := Happening.wrote w.stream (w.buffer.take count)
      if count = w.buffer.length then
        let (m, happenings) := done m ⟨w.stream, []⟩
        return (m, wrote :: happenings)
      else return (m, [wrote])
  | some w, .failed error => if m.cancelled then none else return m.failWrite id s l w error
  | some _, .none =>
    if m.cancelled then return (m.leaveLink id l (.error .closed), []) else none
  | some _, _ => none

def sendStep (id : SendId) (answer : Answer) : Outcome := do
  let s ← m.sends[id]?
  match s.stage, answer with
  | .starting, .none =>
    if m.closed then return (m.finishSend id (.error .closed), [])
    else if m.config.maxFrame < s.frame.length then
      return (m.finishSend id (.error (.frameTooLarge s.frame.length m.config.maxFrame)), [])
    else return (m.setSend id (.linking .checking), [])
  | .linking (.found l), .none => return (m.setSend id (.requesting l), [])
  | .linking .refused, .none => return (m.finishSend id (.error .closed), [])
  | .linking lookup, .none =>
    let (m, lookup) ← m.lookupStep s.destination lookup
    return (m.setSend id (.linking lookup), [])
  | .requesting l, .none =>
    if m.cancelled then return (m.finishSend id (.error .closed), [])
    else return ((m.modifyLink l (·.request (.send id))).setSend id (.queued l), [])
  | .queued l, .none => m.queuedStep id s l
  | .connecting l deadline, answer => m.connectingStep id l deadline answer
  | .greeting l stream unsent, answer => m.greetStep id s l stream unsent answer
  | .failing l error, .none =>
    return ((m.evict s.destination l).leaveLink id l (.error (.connection s.destination error)), [])
  | .draining l, answer => m.writeStep id s l answer fun m w => m.stageFrame id s l w
  | .flushing l, answer => m.writeStep id s l answer fun m _ => (m.leaveLink id l (.ok ()), [])
  | _, _ => none

def abandonSend (id : SendId) : Outcome := do
  let s ← m.sends[id]?
  let leave (l : LinkId) : Manager :=
    (m.modifyLink l (·.leave (.send id))).setSend id .abandoned
  match s.stage with
  | .starting => return (m.setSend id .abandoned, [])
  | .queued l => return (leave l, [])
  | .connecting l _ => return (leave l, [])
  | .greeting l stream _ => return (leave l, [.released stream])
  | .draining l => return (leave l, [])
  | .flushing l => return (leave l, [])
  | _ => none

end PeerLink.Manager
