import PeerLink.Error

namespace PeerLink

inductive Warning where
  | invalidValue (name value : String)
  | unhandledError (error : RemoteError)
  | sendFailed (peer : Endpoint) (error : IoError)
  | acceptFailed (error : IoError)
  | badHandshake (peer : Endpoint)
  | handshakeTimedOut (peer : Endpoint)
  | unsupportedVersion (peer : Endpoint) (version : UInt16)
  | receiveFailed (source : Endpoint) (error : IoError)
  | tasksRemain (endpoint : Endpoint) (remaining : Nat)
  | misrouted (typeName : String)
  deriving DecidableEq, Repr

def Warning.line : Warning → String
  | .invalidValue name value =>
    s!"Ignoring invalid configuration value value={value} variable={name}"
  | .unhandledError error => s!"Unhandled observer error error={error.message}"
  | .sendFailed peer error =>
    s!"Send failed, dropping connection error={error.message} peer={peer.print}"
  | .acceptFailed error => s!"Accept failed error={error.message}"
  | .badHandshake peer => s!"Rejected connection: bad handshake peer={peer.print}"
  | .handshakeTimedOut peer => s!"Rejected connection: handshake timed out peer={peer.print}"
  | .unsupportedVersion peer version =>
    s!"Rejected connection: unsupported link version peer={peer.print} version={version.toNat}"
  | .receiveFailed source error =>
    s!"Receive failed, closing connection error={error.message} source={source.print}"
  | .tasksRemain endpoint remaining =>
    "Background tasks still running after shutdown timeout " ++
      s!"endpoint={endpoint.print} remaining={remaining}"
  | .misrouted typeName => s!"Routed message has the wrong type type_name={typeName}"

end PeerLink
