import PeerLink.Endpoint
import PeerLink.IoError
import PeerLink.Text.Utf8

namespace PeerLink

/-- What is wrong with an envelope, or with the kind of a message to be put into one. -/
inductive Malformation where
  | shortHeader (available : Nat)
  | unsupportedVersion (version : UInt8)
  | emptyKind
  | longKind (length : Nat)
  | truncated (needed available : Nat)
  | kindNotText (fault : Text.Utf8.Fault)
  | invalidKind (typeName : String) (length : Nat)
  | stated (reason : String)
  deriving DecidableEq, Repr

def Malformation.message : Malformation → String
  | .shortHeader available => s!"need at least 3 header bytes, have {available}"
  | .unsupportedVersion version => s!"unsupported envelope version {version.toNat}"
  | .emptyKind => "empty message kind"
  | .longKind length => s!"message kind is {length} bytes (max 65535)"
  | .truncated needed available =>
    s!"truncated envelope: need {needed} bytes after header, have {available}"
  | .kindNotText fault => s!"message kind is not UTF-8: {fault.message}"
  | .invalidKind typeName length => s!"invalid message kind for {typeName}: length {length}"
  | .stated reason => reason

inductive PayloadFault where
  | json (problem : Json.Problem)
  | text (said : String)
  deriving DecidableEq, Repr

def PayloadFault.message : PayloadFault → String
  | .json problem => problem.message
  | .text said => said

inductive SerializationError where
  | unregistered (typeName : String)
  | unknownKind (kind : String)
  | malformed (reason : Malformation)
  | payload (kind : String) (fault : PayloadFault)
  | duplicateKind (kind : String)
  | duplicateType (typeName : String)
  | noSubscriber (kind : String)
  | typeMismatch (kind expected : String)
  deriving DecidableEq, Repr

namespace SerializationError

def message : SerializationError → String
  | .unregistered typeName => s!"message type {typeName} is not registered"
  | .unknownKind kind => s!"unknown message kind '{kind}'"
  | .malformed reason => s!"malformed envelope: {reason.message}"
  | .payload kind fault => s!"payload codec failed for '{kind}': {fault.message}"
  | .duplicateKind kind => s!"message kind '{kind}' registered more than once"
  | .duplicateType typeName => s!"message type {typeName} registered under more than one kind"
  | .noSubscriber kind => s!"no subscriber for message kind '{kind}'"
  | .typeMismatch kind expected => s!"expected {expected} but decoded message kind '{kind}'"

def cause? : SerializationError → Option String
  | .payload _ fault => some fault.message
  | _ => none

end SerializationError

inductive RemoteError where
  | bind (endpoint : Endpoint) (cause : IoError)
  | connection (endpoint : Endpoint) (cause : IoError)
  | frameTooLarge (size max : Nat)
  | serialization (error : SerializationError)
  | closed
  | alreadyRegistered (endpoint : Endpoint)
  deriving DecidableEq, Repr

namespace RemoteError

def message : RemoteError → String
  | .bind endpoint cause => s!"failed to bind {endpoint.print}: {cause.message}"
  | .connection endpoint cause => s!"connection to {endpoint.print} failed: {cause.message}"
  | .frameTooLarge size max => s!"frame of {size} bytes exceeds the {max} byte limit"
  | .serialization error => error.message
  | .closed => "remote manager is closed"
  | .alreadyRegistered endpoint => s!"an observer is already registered for {endpoint.print}"

/-- Failures of a connection may pass; all others come back on every attempt. -/
def isRetryable : RemoteError → Bool
  | .connection .. => true
  | _ => false

def isClosed : RemoteError → Bool
  | .closed => true
  | _ => false

/-- The wording of the failure behind this one. A failure of serialization stands for itself, so
its own cause counts. -/
def cause? : RemoteError → Option String
  | .bind _ cause => some cause.message
  | .connection _ cause => some cause.message
  | .serialization error => error.cause?
  | _ => none

def ioKind? : RemoteError → Option IoKind
  | .bind _ cause => some cause.kind
  | .connection _ cause => some cause.kind
  | _ => none

end RemoteError

end PeerLink
