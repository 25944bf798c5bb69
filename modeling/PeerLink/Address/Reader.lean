import PeerLink.Address.Basic

namespace PeerLink.Address

def digitValue? (radix : Nat) (c : Char) : Option Nat :=
  let n := c.toNat
  let value :=
    if '0'.toNat ≤ n ∧ n ≤ '9'.toNat then n - '0'.toNat
    else if 'a'.toNat ≤ n ∧ n ≤ 'z'.toNat then n - 'a'.toNat + 10
    else if 'A'.toNat ≤ n ∧ n ≤ 'Z'.toNat then n - 'A'.toNat + 10
    else 36
  if value < radix then some value else none

/-- Reads digits for as long as there are any: their value, their number and the rest. -/
def digitRun (radix : Nat) : (value count : Nat) → List Char → Nat × Nat × List Char
  | value, count, [] => (value, count, [])
  | value, count, c :: cs =>
    match digitValue? radix c with
    | some d => digitRun radix (radix * value + d) (count + 1) cs
    | none => (value, count, c :: cs)

/-- A decimal number below 256 of at most three digits without leading zeros. -/
def octet? (cs : List Char) : Option (UInt8 × List Char) :=
  match digitRun 10 0 0 cs with
  | (value, count, rest) =>
    if count = 0 ∨ 3 < count ∨ 255 < value ∨ (cs.head? = some '0' ∧ 1 < count) then none
    else some (UInt8.ofNat value, rest)

def group? (cs : List Char) : Option (UInt16 × List Char) :=
  match digitRun 16 0 0 cs with
  | (value, count, rest) =>
    if count = 0 ∨ 4 < count then none else some (UInt16.ofNat value, rest)

def mark? (mark : Char) : List Char → Option (List Char)
  | c :: cs => if c = mark then some cs else none
  | [] => none

def v4? (cs : List Char) : Option (V4 × List Char) := do
  let (a, cs) ← octet? cs
  let (b, cs) ← octet? (← mark? '.' cs)
  let (c, cs) ← octet? (← mark? '.' cs)
  let (d, cs) ← octet? (← mark? '.' cs)
  return (⟨a, b, c, d⟩, cs)

def groups : (room : Nat) → (first : Bool) → List Char → List UInt16 × Bool × List Char
  | 0, _, cs => ([], false, cs)
  | room + 1, first, cs =>
    match if first then some cs else mark? ':' cs with
    | none => ([], false, cs)
    | some start =>
      match if 1 ≤ room then v4? start else none with
      | some (ip, rest) => (ip.groups, true, rest)
      | none =>
        match group? start with
        | none => ([], false, cs)
        | some (g, rest) =>
          let (gs, quad, rest) := groups room false rest
          (g :: gs, quad, rest)

def v6OfGroups? (gs : List UInt16) : Option V6 :=
  if h : gs.length = 8 then some ⟨gs, h⟩ else none

def v6? (cs : List Char) : Option (V6 × List Char) :=
  let (front, quad, rest) := groups 8 true cs
  if front.length = 8 then (v6OfGroups? front).map (·, rest)
  else if quad then none
  else
    match rest with
    | ':' :: ':' :: rest =>
      let (back, _, rest) := groups (8 - (front.length + 1)) true rest
      let zeros := List.replicate (8 - front.length - back.length) 0
      (v6OfGroups? (front ++ zeros ++ back)).map (·, rest)
    | _ => none

def number? (greatest : Nat) (cs : List Char) : Option (Nat × List Char) :=
  match digitRun 10 0 0 cs with
  | (value, count, rest) => if count = 0 ∨ greatest < value then none else some (value, rest)

end PeerLink.Address

namespace PeerLink

def IpAddress.read? (cs : List Char) : Option IpAddress :=
  match Address.v4? cs with
  | some (ip, rest) => if rest.isEmpty then some (.v4 ip) else none
  | none =>
    match Address.v6? cs with
    | some (ip, []) => some (.v6 ip)
    | _ => none

namespace SocketAddress

def port? (cs : List Char) : Option UInt16 := do
  match ← Address.number? 65535 (← Address.mark? ':' cs) with
  | (port, []) => some (UInt16.ofNat port)
  | _ => none

/-- `a.b.c.d:port`, `[groups]:port` or `[groups%scope]:port`. -/
def read? (cs : List Char) : Option SocketAddress :=
  match Address.v4? cs with
  | some (ip, rest) => (port? rest).map (.v4 ip ·)
  | none => do
    let (ip, rest) ← Address.v6? (← Address.mark? '[' cs)
    let (scope, rest) ←
      match rest with
      | '%' :: rest => Address.number? 4294967295 rest
      | rest => some (0, rest)
    let port ← port? (← Address.mark? ']' rest)
    return .v6 ip port 0 (UInt32.ofNat scope)

end SocketAddress

end PeerLink
