import PeerLink.Manager.State

namespace PeerLink.Manager

variable (m : Manager)

/-- Takes a link out of the table, unless another one has taken its place. -/
def evict (destination : Endpoint) (l : LinkId) : Manager :=
  if m.links.get? destination = some l then { m with links := m.links.erase destination } else m

def lookupStep (destination : Endpoint) : Lookup → Option (Manager × Lookup)
  | .checking => some (m, if m.closed then .refused else .entering)
  | .entering =>
    match m.links.get? destination with
    | some l => some (m, .confirming l)
    | none =>
      let l := m.allLinks.length
      some ({ m with
        allLinks := m.allLinks ++ [{ destination }]
        links := m.links.insert destination l }, .confirming l)
  | .confirming l => some (m, if m.closed then .evicting l else .found l)
  | .evicting l => some (m.evict destination l, .refused)
  | .found _ => none
  | .refused => none

def openingStep (id : Nat) : Outcome := do
  let o ← m.openings[id]?
  let (m, stage) ← m.lookupStep o.destination o.stage
  return (m.setOpening id stage, [])

end PeerLink.Manager
