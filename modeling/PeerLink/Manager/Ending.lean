import PeerLink.Manager.Subscribing

namespace PeerLink.Manager

def flushTimeout : Nat := 1000

variable (m : Manager)

def nextLink (id : ClosingId) (w : Writer) (rest : List LinkId) (happenings : List Happening) :
    Manager × List Happening :=
  (m.setClosing id (.retiring rest), happenings ++ [.released w.stream])

/-- Takes the writer out of a link whose lock is held, and retires the link. -/
def retireLink (id : ClosingId) (l : LinkId) (rest : List LinkId) : Outcome := do
  let link ← m.allLinks[l]?
  if link.holder ≠ some (.closing id) then none
  else
    let m := m.modifyLink l fun link => link.shutDown.leave (.closing id)
    match link.writer with
    | none => return (m.setClosing id (.retiring rest), [])
    | some w => return (m.setClosing id (.flushing w (m.clock + flushTimeout) rest), [])

def flushStep (id : ClosingId) (w : Writer) (deadline : Nat) (rest : List LinkId)
    (answer : Answer) : Outcome :=
  match answer with
  | .none => if deadline ≤ m.clock then some (m.nextLink id w rest []) else none
  | .accepted count =>
    if count = 0 || w.buffer.length < count then none
    else
      let written := { w with buffer := w.buffer.drop count }
      some (m.setClosing id (.flushing written deadline rest),
        [.wrote w.stream (w.buffer.take count)])
  | .shut => if w.buffer.isEmpty then some (m.nextLink id w rest [.shut w.stream]) else none
  | .failed _ => some (m.nextLink id w rest [])
  | _ => none

def closingStep (id : ClosingId) (answer : Answer) : Outcome := do
  let c ← m.closings[id]?
  match c.stage, answer with
  | .swapping, .none =>
    if m.closed then return (m.setClosing id (.finished m.clock), [])
    else return ({ m with closed := true }.setClosing id .cancelling, [])
  | .cancelling, .none =>
    return ({ m with cancelled := true }.setClosing id .clearingObservers, [])
  | .clearingObservers, .none =>
    let next := match c.ending with
      | .close => ClosingStage.collecting
      | .drop => .clearingLinks []
    return (m.clearObservers.setClosing id next, [])
  | .collecting, .none => return (m.setClosing id (.clearingLinks m.links.values), [])
  | .clearingLinks links, .none =>
    let next := match c.ending with
      | .close => ClosingStage.retiring links
      | .drop => .finished m.clock
    return ({ m with links := {} }.setClosing id next, [])
  | .retiring [], .none =>
    return (m.setClosing id (.awaiting (m.clock + m.config.shutdownTimeout)), [])
  | .retiring (l :: rest), .none =>
    return ((m.modifyLink l (·.request (.closing id))).setClosing id (.queued l rest), [])
  | .queued l rest, .none => m.retireLink id l rest
  | .flushing w deadline rest, answer => m.flushStep id w deadline rest answer
  | .awaiting deadline, .none =>
    if m.runningTasks = 0 then return (m.setClosing id (.finished m.clock), [])
    else if deadline ≤ m.clock then
      return (m.setClosing id (.finished m.clock),
        [.warned (.tasksRemain m.address m.runningTasks)])
    else none
  | _, _ => none

end PeerLink.Manager
