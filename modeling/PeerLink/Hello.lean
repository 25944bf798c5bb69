import PeerLink.Endpoint
import PeerLink.Frame.Typed

namespace PeerLink

structure Hello where
  version : UInt16
  endpoint : Endpoint
  deriving DecidableEq, Repr

namespace Endpoint

def shape : Json.Shape :=
  .record (.field "host" .text (.field "port" (.unsigned 16) .none))

def toValue (e : Endpoint) : shape.Value :=
  (e.host, ⟨(e.port.toNat : Int), by have := e.port.toNat_lt; omega⟩, ())

def ofValue : shape.Value → Endpoint
  | (host, port, ()) => ⟨host, UInt16.ofNat port.val.toNat⟩

def format : Frame.Format Endpoint := ⟨shape, toValue, ofValue⟩

end Endpoint

namespace Hello

/-- The version of the link that is spoken. -/
def currentVersion : UInt16 := 1

def of (e : Endpoint) : Hello := ⟨currentVersion, e⟩

def shape : Json.Shape :=
  .record (.field "version" (.unsigned 16) (.field "endpoint" Endpoint.shape .none))

def toValue (h : Hello) : shape.Value :=
  (⟨(h.version.toNat : Int), by have := h.version.toNat_lt; omega⟩, h.endpoint.toValue, ())

def ofValue : shape.Value → Hello
  | (version, endpoint, ()) => ⟨UInt16.ofNat version.val.toNat, Endpoint.ofValue endpoint⟩

def format : Frame.Format Hello := ⟨shape, toValue, ofValue⟩

end Hello

end PeerLink
