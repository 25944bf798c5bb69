import PeerLink.Network.Basic

namespace PeerLink.Network

open Manager (StreamId)

variable (n : Network)

/-- Writes, unless the far end no longer reads or the pipe has been ended. -/
def write? (s : StreamId) (bytes : Bytes) : Option Network :=
  let pipe := n.outgoing s
  if pipe.abandoned || pipe.ended then none else some (n.write s bytes)

/-- All that the far end wrote, and whether it is through with writing. -/
def drain (s : StreamId) : Bytes × Bool × Network :=
  let pipe := n.incoming s
  (pipe.unread, pipe.ended, n.modifyIncoming s fun p => { p with unread := [] })

def breakReads (s : StreamId) (error : IoError) : Network :=
  n.modifyOutgoing s fun p => { p with fault := some error }

def setFlow (s : StreamId) (flow : Flow) : Network :=
  n.modifyIncoming s fun p => { p with flow }

def hangUp? (s : StreamId) : Option Network :=
  if (n.incoming s).abandoned then none else some (n.release s)

def dialWith (peer target : Endpoint) (bytes : Bytes) : Dial × Network :=
  match n.dial peer target with
  | (.connected stream, n) => (.connected stream, n.write stream bytes)
  | outcome => outcome

end PeerLink.Network
