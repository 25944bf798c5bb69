import PeerLink.Manager.State

namespace PeerLink.Manager

variable (m : Manager)

def removeObserver (remote : Endpoint) : Manager :=
  match m.observers.get? remote with
  | none => m
  | some s =>
    let m := m.dropHandle s
    { m with observers := m.observers.erase remote }

/-- What was queued is still delivered before the observer is told that all is over. -/
def unregister (remote : Endpoint) : Manager × Bool :=
  (m.removeObserver remote, (m.observers.get? remote).isSome)

def clearObservers : Manager :=
  let m := m.observers.values.foldl dropHandle m
  { m with observers := {} }

def registrationStep (id : Nat) : Outcome := do
  let r ← m.registrations[id]?
  match r.stage with
  | .checking =>
    return (m.setRegistration id (if m.closed then .finished (.error .closed) else .inserting), [])
  | .inserting =>
    match m.observers.get? r.remote with
    | some _ => return (m.setRegistration id (.finished (.error (.alreadyRegistered r.remote))), [])
    | none =>
      let s := m.subscriptions.length
      let made : Subscription := { remote := r.remote, observer := r.observer }
      let m := { m with
        subscriptions := m.subscriptions ++ [made]
        observers := m.observers.insert r.remote s }
      return (m.setRegistration id (.confirming s), [])
  | .confirming s =>
    return (m.setRegistration id (if m.closed then .undoing s else .spawning s), [])
  | .undoing s =>
    let m := (m.removeObserver r.remote).modifySubscription s fun s => { s with stage := .ended }
    return (m.setRegistration id (.finished (.error .closed)), [])
  | .spawning s =>
    let m := m.modifySubscription s fun s => { s with stage := .running }
    return (m.setRegistration id (.finished (.ok ())), [])
  | .finished _ => none

def dispatchStep (id : SubscriptionId) : Outcome := do
  let s ← m.subscriptions[id]?
  if s.stage ≠ .running then none
  else if m.cancelled then
    return (m.modifySubscription id fun s => { s with stage := .ended }, [])
  else
    match s.queue with
    | item :: rest =>
      return (m.modifySubscription id fun s => { s with queue := rest },
        [.called id s.observer item.callback])
    | [] =>
      if s.handles = 0 then
        return (m.modifySubscription id fun s => { s with stage := .ended },
          [.called id s.observer .completed])
      else none

end PeerLink.Manager
