import PeerLink.Manager.Receiving
import PeerLink.Proofs.Address.Reading
import PeerLink.Proofs.Endpoint.Printing

namespace PeerLink

def IpAddress.IsZero : IpAddress → Prop
  | .v4 ip => ip.a = 0 ∧ ip.b = 0 ∧ ip.c = 0 ∧ ip.d = 0
  | .v6 ip => ∀ g ∈ ip.groups, g = 0

theorem IpAddress.isUnspecified_iff (ip : IpAddress) : ip.isUnspecified = true ↔ ip.IsZero := by
  cases ip with
  | v4 ip =>
    obtain ⟨a, b, c, d⟩ := ip
    simp [isUnspecified, IsZero, Address.V4.unspecified]
  | v6 ip =>
    obtain ⟨groups, hlen⟩ := ip
    simp only [isUnspecified, IsZero, Address.V6.unspecified, decide_eq_true_eq,
      Address.V6.mk.injEq, List.eq_replicate_iff, hlen, true_and]

namespace Endpoint

open Manager (resolveSource)

variable (a b : SocketAddress)

theorem ip?_ofSocket : (ofSocket a).ip? = some a.ip := by
  rw [ip?, ofSocket, String.toList_ofList, IpAddress.read?_print]

theorem read_print_ofSocket : read (ofSocket a).print = .ok (ofSocket a) :=
  read_print_of_start (start_of_address (ip?_ofSocket a))

theorem isUnspecified_ofSocket : (ofSocket a).isUnspecified = true ↔ a.ip.IsZero := by
  rw [isUnspecified, ip?_ofSocket]
  exact IpAddress.isUnspecified_iff a.ip

variable {a b}

theorem host_ofSocket_eq_iff : (ofSocket a).host = (ofSocket b).host ↔ a.ip = b.ip := by
  constructor
  · exact fun h => IpAddress.print_injective (String.ofList_injective h)
  · exact fun h => congrArg (fun ip : IpAddress => String.ofList ip.print) h

theorem ofSocket_eq_iff : ofSocket a = ofSocket b ↔ a.ip = b.ip ∧ a.port = b.port := by
  rw [← host_ofSocket_eq_iff, ofSocket, ofSocket, mk.injEq]

theorem host_resolveSource {hello : Hello} {peer : Endpoint}
    (h : hello.endpoint.isUnspecified = true) : (resolveSource hello peer).host = peer.host := by
  rw [resolveSource, if_pos h]

/-- The endpoint of a socket tells the address and the port of it, is read back from its printed
form, and stands for no particular address exactly if all bits of the address are zero. Two sockets
have one endpoint exactly if they have one address and port; and connections whose greeting names no
particular address are attributed to one host exactly if they come from one address. -/
theorem ofSocket_canonical (a b : SocketAddress) :
    (ofSocket a).ip? = some a.ip ∧ (ofSocket a).port = a.port ∧
      read (ofSocket a).print = .ok (ofSocket a) ∧
      ((ofSocket a).isUnspecified = true ↔ a.ip.IsZero) ∧
      (ofSocket a = ofSocket b ↔ a.ip = b.ip ∧ a.port = b.port) ∧
      ∀ hello hello' : Hello, hello.endpoint.isUnspecified = true →
        hello'.endpoint.isUnspecified = true →
        ((resolveSource hello (ofSocket a)).host = (resolveSource hello' (ofSocket b)).host ↔
          a.ip = b.ip) := by
  refine ⟨ip?_ofSocket a, rfl, read_print_ofSocket a, isUnspecified_ofSocket a, ofSocket_eq_iff, ?_⟩
  intro hello hello' h h'
  rw [host_resolveSource h, host_resolveSource h', host_ofSocket_eq_iff]

theorem ofSocket_canonical_scoped :
    let ip : Address.V6 := ⟨[0xfe80, 0, 0, 1, 0, 0, 0, 0xab], rfl⟩
    let a := SocketAddress.v6 ip 50001 7 1
    let b := SocketAddress.v6 ip 50002 0 2
    let hello := Hello.of ⟨"0.0.0.0", 9000⟩
    let hello' := Hello.of ⟨"::", 9001⟩
    hello.endpoint.isUnspecified = true ∧ hello'.endpoint.isUnspecified = true ∧
      (ofSocket a).print = "[fe80:0:0:1::ab]:50001" ∧ ofSocket a ≠ ofSocket b ∧
      (resolveSource hello (ofSocket a)).host = (resolveSource hello' (ofSocket b)).host := by
  intro ip a b hello hello'
  have h : hello.endpoint.isUnspecified = true := by decide
  have h' : hello'.endpoint.isUnspecified = true := by decide
  have hc := ofSocket_canonical a b
  refine ⟨h, h', by decide +kernel, ?_, (hc.2.2.2.2.2 hello hello' h h').mpr rfl⟩
  intro heq
  exact absurd (hc.2.2.2.2.1.mp heq).2 (by decide)

end Endpoint

end PeerLink
