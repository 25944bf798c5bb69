import PeerLink.Json.Shape

namespace PeerLink

structure ConnectionId where
  digits : List (Fin 16)
  length_digits : digits.length = 32
  deriving DecidableEq

namespace ConnectionId

def digit? (c : Char) : Option (Fin 16) :=
  let n := c.toNat
  if '0'.toNat ≤ n ∧ n ≤ '9'.toNat then some (Fin.ofNat 16 (n - '0'.toNat))
  else if 'a'.toNat ≤ n ∧ n ≤ 'f'.toNat then some (Fin.ofNat 16 (n - 'a'.toNat + 10))
  else if 'A'.toNat ≤ n ∧ n ≤ 'F'.toNat then some (Fin.ofNat 16 (n - 'A'.toNat + 10))
  else none

def digitChar (d : Fin 16) : Char :=
  if d.val < 10 then Char.ofNat (d.val + '0'.toNat) else Char.ofNat (d.val - 10 + 'a'.toNat)

def ofPlain? (cs : List Char) : Option ConnectionId :=
  (cs.mapM digit?).bind fun ds => if h : ds.length = 32 then some ⟨ds, h⟩ else none

/-- The digits of a hyphenated spelling, with hyphens in exactly the four places. -/
def ofHyphenated? (cs : List Char) : Option ConnectionId :=
  let hyphens := [8, 13, 18, 23]
  if cs.length = 36 ∧ hyphens.all (fun i => cs[i]? = some '-') then
    let parts := cs.zipIdx.filter fun (_, i) => !hyphens.contains i
    ofPlain? (parts.map Prod.fst)
  else none

def nameStart : List Char := "urn:uuid:".toList

/-- The text without the braces or the start of a name around it. -/
def unwrap (cs : List Char) : List Char :=
  match cs with
  | '\x7b' :: rest => if cs.length = 38 ∧ rest.getLast? = some '\x7d' then rest.dropLast else cs
  | _ => if cs.length = 45 ∧ (cs.take 9).map Char.toLower = nameStart then cs.drop 9 else cs

def readChars? (cs : List Char) : Option ConnectionId :=
  if cs.length = 32 then ofPlain? cs else ofHyphenated? (unwrap cs)

def print (id : ConnectionId) : String :=
  let cs := id.digits.map digitChar
  String.intercalate "-"
    ([(0, 8), (8, 4), (12, 4), (16, 4), (20, 12)].map fun (start, n) =>
      String.ofList ((cs.drop start).take n))

/-- A JSON string that spells an identity. -/
def read (input : Bytes) : Except Json.Problem ConnectionId :=
  match Json.Shape.text.read input with
  | .error p => .error p
  | .ok (s : String) =>
    match readChars? s.toList with
    | some id => .ok id
    | none => .error .mismatch

def write (id : ConnectionId) : Bytes := Json.Text.write id.print

end ConnectionId

end PeerLink
