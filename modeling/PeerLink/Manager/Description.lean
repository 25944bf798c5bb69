import PeerLink.Manager.State
import PeerLink.Text.Quoted

namespace PeerLink

def Endpoint.describe (e : Endpoint) : String :=
  s!"Endpoint \x7b host: {Text.Quoted.quote e.host}, port: {e.port.toNat} \x7d"

namespace Manager

variable (m : Manager)

def describe : String :=
  s!"RemoteManager \x7b local: {m.address.describe}, closed: {m.closed}, " ++
    s!"observers: {m.observerCount}, peers: {m.peerCount} \x7d"

def describeSender (destination : Endpoint) : String :=
  s!"RemoteSender \x7b destination: {destination.describe}, " ++
    s!"connected: {m.hasConnection destination} \x7d"

end Manager

end PeerLink
