import PeerLink.Config
import PeerLink.Hello
import PeerLink.Manager.Link
import PeerLink.Manager.Table
import PeerLink.Observer

namespace PeerLink

namespace Manager

/-- A subscription, by its place among all that were ever made. -/
abbrev SubscriptionId := Nat

abbrev ObserverId := Nat

inductive Item where
  | frame (body : Bytes)
  | failure (error : RemoteError)
  deriving DecidableEq

def Item.callback : Item → Callback Bytes
  | .frame body => .next body
  | .failure error => .error error

inductive DispatchStage where
  | unstarted
  | running
  | ended
  deriving DecidableEq

/-- An observer's queue. Its handles are the ways in which something can still be put into it: the
table's entry and the deliveries that have looked it up. -/
structure Subscription where
  remote : Endpoint
  observer : ObserverId
  queue : List Item := []
  handles : Nat := 1
  stage : DispatchStage := .unstarted
  deriving DecidableEq

/-- Nothing can be put into the queue of an ended dispatch. -/
def Subscription.push (s : Subscription) (item : Item) : Subscription :=
  if s.stage = .ended then s else { s with queue := s.queue ++ [item] }

inductive Acceptor where
  | accepting
  | pausing (deadline : Nat)
  | stopped
  deriving DecidableEq

/-- The reading end of a stream: `fresh` says that there may be a whole frame in the buffer, `atEnd`
that no more bytes will come. -/
structure Reading where
  intake : Frame.Intake := {}
  fresh : Bool := false
  atEnd : Bool := false
  deriving DecidableEq

/-- Finding the subscription for an item: first the exact source is looked up, then its host. -/
inductive Routing where
  | exact
  | wildcard
  | handing (subscription : SubscriptionId)
  deriving DecidableEq

inductive ReceiverStage where
  | opening
  | greeting (deadline : Nat) (reading : Reading)
  | receiving (source : Endpoint) (reading : Reading)
  | routing (source : Endpoint) (reading : Reading) (item : Item) (routing : Routing)
  | ended
  deriving DecidableEq

structure Receiver where
  stream : StreamId
  peer : Endpoint
  stage : ReceiverStage := .opening
  deriving DecidableEq

/-- Finding or making the link to a destination. Whether the manager is closed is looked at before
and after; a link found too late is taken out of the table again. -/
inductive Lookup where
  | checking
  | entering
  | confirming (link : LinkId)
  | evicting (link : LinkId)
  | found (link : LinkId)
  | refused
  deriving DecidableEq

def Lookup.link? : Lookup → Option LinkId
  | .confirming l => some l
  | .evicting l => some l
  | .found l => some l
  | _ => none

inductive SendStage where
  | starting
  | linking (lookup : Lookup)
  | requesting (link : LinkId)
  | queued (link : LinkId)
  | connecting (link : LinkId) (deadline : Nat)
  | greeting (link : LinkId) (stream : StreamId) (unsent : Bytes)
  | failing (link : LinkId) (error : IoError)
  | draining (link : LinkId)
  | flushing (link : LinkId)
  | finished (result : Except RemoteError Unit) (time : Nat)
  | abandoned

def SendStage.link? : SendStage → Option LinkId
  | .linking lookup => lookup.link?
  | .requesting l => some l
  | .queued l => some l
  | .connecting l _ => some l
  | .greeting l _ _ => some l
  | .failing l _ => some l
  | .draining l => some l
  | .flushing l => some l
  | _ => none

structure Send where
  destination : Endpoint
  frame : Bytes
  stage : SendStage := .starting

structure Opening where
  destination : Endpoint
  stage : Lookup := .checking

/-- The link that a call for a sender refers to. A sender finds the link anew for every frame, so a
call that is over keeps none. -/
def Opening.link? (o : Opening) : Option LinkId :=
  match o.stage with
  | .found _ => none
  | stage => stage.link?

inductive RegistrationStage where
  | checking
  | inserting
  | confirming (subscription : SubscriptionId)
  | undoing (subscription : SubscriptionId)
  | spawning (subscription : SubscriptionId)
  | finished (result : Except RemoteError Unit)

structure Registration where
  remote : Endpoint
  observer : ObserverId
  stage : RegistrationStage := .checking

inductive Ending where
  | close
  | drop
  deriving DecidableEq

inductive ClosingStage where
  | swapping
  | cancelling
  | clearingObservers
  | collecting
  | clearingLinks (links : List LinkId)
  | retiring (links : List LinkId)
  | queued (link : LinkId) (rest : List LinkId)
  | flushing (writer : Writer) (deadline : Nat) (rest : List LinkId)
  | awaiting (deadline : Nat)
  | finished (time : Nat)
  deriving DecidableEq

def ClosingStage.links : ClosingStage → List LinkId
  | .clearingLinks ls => ls
  | .retiring ls => ls
  | .queued l ls => l :: ls
  | .flushing _ _ ls => ls
  | _ => []

structure Closing where
  ending : Ending
  stage : ClosingStage := .swapping
  deriving DecidableEq

end Manager

structure Manager where
  address : Endpoint
  config : Config
  clock : Nat := 0
  closed : Bool := false
  cancelled : Bool := false
  observers : Table Endpoint Manager.SubscriptionId := {}
  links : Table Endpoint Manager.LinkId := {}
  established : Nat := 0
  acceptor : Manager.Acceptor := .accepting
  subscriptions : List Manager.Subscription := []
  receivers : List Manager.Receiver := []
  allLinks : List Manager.Link := []
  sends : List Manager.Send := []
  openings : List Manager.Opening := []
  registrations : List Manager.Registration := []
  closings : List Manager.Closing := []

namespace Manager

/-- What a step does that can be seen from outside. -/
inductive Happening where
  | warned (warning : Warning)
  | dialled (send : SendId) (destination : Endpoint)
  | wrote (stream : StreamId) (bytes : Bytes)
  | shut (stream : StreamId)
  | released (stream : StreamId)
  | stoppedListening
  | enqueued (subscription : SubscriptionId) (item : Item)
  | called (subscription : SubscriptionId) (observer : ObserverId) (callback : Callback Bytes)
  | unregistered (found : Bool)
  deriving DecidableEq

/-- What the network says to the operation that a task waits for. -/
inductive Answer where
  | none
  | incoming (stream : StreamId) (peer : Endpoint)
  | connected (stream : StreamId)
  | accepted (count : Nat)
  | chunk (bytes : Bytes)
  | ended
  | shut
  | failed (error : IoError)
  deriving DecidableEq

/-- The outcome of a step, unless the task has to wait or is over. -/
abbrev Outcome := Option (Manager × List Happening)

variable (m : Manager)

def modifyLink (l : LinkId) (f : Link → Link) : Manager :=
  { m with allLinks := m.allLinks.modify l f }

def modifySubscription (s : SubscriptionId) (f : Subscription → Subscription) : Manager :=
  { m with subscriptions := m.subscriptions.modify s f }

def setSend (id : SendId) (stage : SendStage) : Manager :=
  { m with sends := m.sends.modify id fun s => { s with stage } }

def setReceiver (id : Nat) (stage : ReceiverStage) : Manager :=
  { m with receivers := m.receivers.modify id fun r => { r with stage } }

def setClosing (id : ClosingId) (stage : ClosingStage) : Manager :=
  { m with closings := m.closings.modify id fun c => { c with stage } }

def setOpening (id : Nat) (stage : Lookup) : Manager :=
  { m with openings := m.openings.modify id fun o => { o with stage } }

def setRegistration (id : Nat) (stage : RegistrationStage) : Manager :=
  { m with registrations := m.registrations.modify id fun r => { r with stage } }

def dropHandle (s : SubscriptionId) : Manager :=
  m.modifySubscription s fun s => { s with handles := s.handles - 1 }

def isConnected (l : LinkId) : Bool :=
  match m.allLinks[l]? with
  | some link => link.connected
  | none => false

def hasConnection (destination : Endpoint) : Bool :=
  match m.links.get? destination with
  | some l => m.isConnected l
  | none => false

def observerCount : Nat := m.observers.size

def peerCount : Nat := m.links.size

def connectionCount : Nat := (m.links.values.filter m.isConnected).length + m.established

/-- The background tasks that are not over: the acceptor, the receivers and the dispatches. -/
def runningTasks : Nat :=
  (if m.acceptor = .stopped then 0 else 1) +
    (m.receivers.filter (·.stage ≠ .ended)).length +
    (m.subscriptions.filter (·.stage = .running)).length

end Manager

end PeerLink
