import PeerLink.Address.Basic

namespace PeerLink.Address

def decimal (n : Nat) : List Char := Nat.toDigits 10 n

def V4.print (ip : V4) : List Char :=
  decimal ip.a.toNat ++ '.' :: decimal ip.b.toNat ++ '.' :: decimal ip.c.toNat ++
    '.' :: decimal ip.d.toNat

def hexGroup (g : UInt16) : List Char := Nat.toDigits 16 g.toNat

def printGroups (gs : List UInt16) : List Char :=
  List.intercalate [':'] (gs.map hexGroup)

/-- How many zero groups stand in front. -/
def leadingZeros (gs : List UInt16) : Nat := (gs.takeWhile (· = 0)).length

/-- Start and length of the first of the longest runs of zero groups. -/
def longestZeros : List UInt16 → Nat × Nat
  | [] => (0, 0)
  | g :: gs =>
    let here := leadingZeros (g :: gs)
    let later := longestZeros gs
    if later.2 ≤ here then (0, here) else (later.1 + 1, later.2)

def V6.print (ip : V6) : List Char :=
  match ip.mapped? with
  | some v4 => "::ffff:".toList ++ v4.print
  | none =>
    let (start, count) := longestZeros ip.groups
    if 1 < count then
      printGroups (ip.groups.take start) ++ ':' :: ':' ::
        printGroups (ip.groups.drop (start + count))
    else printGroups ip.groups

end PeerLink.Address

namespace PeerLink

def IpAddress.print : IpAddress → List Char
  | .v4 ip => ip.print
  | .v6 ip => ip.print

end PeerLink
