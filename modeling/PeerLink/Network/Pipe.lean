import PeerLink.Manager.State

namespace PeerLink.Network

inductive Flow where
  | free
  | stalled
  | stalledAtEnd
  | failing (error : IoError)
  deriving DecidableEq

structure Pipe where
  unread : Bytes := []
  fault : Option IoError := none
  ended : Bool := false
  abandoned : Bool := false
  flow : Flow := .free
  deriving DecidableEq

namespace Pipe

open Manager (Answer)

/-- What a read brings, and what is left: all bytes there are, then the fault, then the end. -/
def read (p : Pipe) : Answer × Pipe :=
  if p.unread ≠ [] then (.chunk p.unread, { p with unread := [] })
  else
    match p.fault with
    | some error => (.failed error, { p with fault := none })
    | none => (if p.ended then .ended else .none, p)

/-- How an attempt to write goes. A failing pipe shows its own error, and one whose reader is gone
is broken however it flows. -/
def offer (p : Pipe) (bytes : Bytes) : Answer :=
  match p.flow with
  | .failing error => .failed error
  | flow =>
    if p.abandoned then .failed ⟨.brokenPipe, .bare⟩
    else if flow = .stalled then .none
    else .accepted bytes.length

def offerEnd (p : Pipe) : Answer :=
  match p.flow with
  | .failing error => .failed error
  | .stalledAtEnd => .none
  | _ => .shut

def push (p : Pipe) (bytes : Bytes) : Pipe := { p with unread := p.unread ++ bytes }

def finish (p : Pipe) : Pipe := { p with ended := true }

def abandon (p : Pipe) : Pipe := { p with unread := [], abandoned := true }

end Pipe

end PeerLink.Network
