import PeerLink.Bytes
import PeerLink.Endpoint

namespace PeerLink.Manager

abbrev StreamId := Nat

/-- A link, by its place among all links that were ever made. -/
abbrev LinkId := Nat

abbrev SendId := Nat

abbrev ClosingId := Nat

/-- The writing end of a stream, with the bytes that the stream has not taken yet. -/
structure Writer where
  stream : StreamId
  buffer : Bytes := []
  deriving DecidableEq

inductive Waiter where
  | send (id : SendId)
  | closing (id : ClosingId)
  deriving DecidableEq

/-- A retired link is never written to again. -/
structure Link where
  destination : Endpoint
  writer : Option Writer := none
  holder : Option Waiter := none
  queue : List Waiter := []
  connected : Bool := false
  retired : Bool := false
  deriving DecidableEq

namespace Link

/-- Asks for the lock: a free one is had at once. -/
def request (l : Link) (w : Waiter) : Link :=
  match l.holder with
  | none => { l with holder := some w }
  | some _ => { l with queue := l.queue ++ [w] }

def release (l : Link) : Link :=
  match l.queue with
  | [] => { l with holder := none }
  | w :: ws => { l with holder := some w, queue := ws }

def leave (l : Link) (w : Waiter) : Link :=
  if l.holder = some w then l.release else { l with queue := l.queue.filter (· ≠ w) }

def retire (l : Link) : Link := { l with retired := true }

def shutDown (l : Link) : Link := { l with writer := none, connected := false, retired := true }

def connect (l : Link) (stream : StreamId) : Link :=
  { l with writer := some ⟨stream, []⟩, connected := true }

def disconnect (l : Link) : Link := { l with writer := none, connected := false }

def append (l : Link) (bytes : Bytes) : Link :=
  { l with writer := l.writer.map fun w => { w with buffer := w.buffer ++ bytes } }

def consume (l : Link) (count : Nat) : Link :=
  { l with writer := l.writer.map fun w => { w with buffer := w.buffer.drop count } }

end Link

end PeerLink.Manager
