
namespace PeerLink.Address

structure V4 where
  a : UInt8
  b : UInt8
  c : UInt8
  d : UInt8
  deriving DecidableEq, Repr

structure V6 where
  groups : List UInt16
  length_groups : groups.length = 8
  deriving DecidableEq, Repr

def V4.unspecified : V4 := ⟨0, 0, 0, 0⟩

def V6.unspecified : V6 := ⟨List.replicate 8 0, rfl⟩

/-- The two groups of a version 6 address that hold a version 4 address. -/
def V4.groups (ip : V4) : List UInt16 :=
  [UInt16.ofNat (256 * ip.a.toNat + ip.b.toNat), UInt16.ofNat (256 * ip.c.toNat + ip.d.toNat)]

def V4.ofGroups (high low : UInt16) : V4 :=
  ⟨UInt8.ofNat (high.toNat / 256), UInt8.ofNat high.toNat,
    UInt8.ofNat (low.toNat / 256), UInt8.ofNat low.toNat⟩

/-- The version 4 address that a version 6 address of the block `::ffff:0:0/96` stands for. -/
def V6.mapped? (ip : V6) : Option V4 :=
  match ip.groups with
  | [0, 0, 0, 0, 0, 0xFFFF, high, low] => some (.ofGroups high low)
  | _ => none

end PeerLink.Address

namespace PeerLink

inductive IpAddress where
  | v4 (ip : Address.V4)
  | v6 (ip : Address.V6)
  deriving DecidableEq, Repr

def IpAddress.isUnspecified : IpAddress → Bool
  | .v4 ip => ip = .unspecified
  | .v6 ip => ip = .unspecified

/-- An address with a port. The flow and scope of a version 6 address are no part of an endpoint. -/
inductive SocketAddress where
  | v4 (ip : Address.V4) (port : UInt16)
  | v6 (ip : Address.V6) (port : UInt16) (flow scope : UInt32)
  deriving DecidableEq, Repr

namespace SocketAddress

def ip : SocketAddress → IpAddress
  | .v4 ip _ => .v4 ip
  | .v6 ip .. => .v6 ip

def port : SocketAddress → UInt16
  | .v4 _ port => port
  | .v6 _ port .. => port

end SocketAddress

end PeerLink
