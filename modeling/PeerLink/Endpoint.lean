import PeerLink.Address.Printer
import PeerLink.Address.Reader
import PeerLink.Text.Numeral

namespace PeerLink

structure Endpoint where
  host : String
  port : UInt16
  deriving DecidableEq, Repr, Inhabited

namespace Endpoint

def loopback : Endpoint := ⟨"127.0.0.1", 0⟩

def isWildcard (e : Endpoint) : Bool := e.port = 0

def withPort (e : Endpoint) (port : UInt16) : Endpoint := { e with port }

def toWildcard (e : Endpoint) : Endpoint := e.withPort 0

def ip? (e : Endpoint) : Option IpAddress := IpAddress.read? e.host.toList

/-- The host is the address that stands for no particular one. -/
def isUnspecified (e : Endpoint) : Bool :=
  match e.ip? with
  | some ip => ip.isUnspecified
  | none => false

def ofSocket (a : SocketAddress) : Endpoint := ⟨String.ofList a.ip.print, a.port⟩

/-- By host, then by port. -/
def compare (x y : Endpoint) : Ordering :=
  (Ord.compare x.host y.host).then (Ord.compare x.port y.port)

def le (x y : Endpoint) : Bool := (x.compare y).isLE

def printChars (e : Endpoint) : List Char :=
  let host := e.host.toList
  let shown := if ':' ∈ host then '[' :: host ++ [']'] else host
  shown ++ ':' :: Address.decimal e.port.toNat

def print (e : Endpoint) : String := String.ofList e.printChars

inductive Flaw where
  | missingPort
  | invalidPort
  | emptyHost
  deriving DecidableEq, Repr

/-- Why a text names no endpoint. -/
structure ReadError where
  flaw : Flaw
  text : String
  deriving DecidableEq, Repr

def ReadError.message (e : ReadError) : String :=
  match e.flaw with
  | .missingPort => s!"missing port in '{e.text}'"
  | .invalidPort => s!"invalid port in '{e.text}'"
  | .emptyHost => s!"empty host in '{e.text}'"

/-- What stands before and after the last colon. -/
def splitAtLastColon? (cs : List Char) : Option (List Char × List Char) :=
  match cs.reverse.span (· ≠ ':') with
  | (_, []) => none
  | (port, _ :: host) => some (host.reverse, port.reverse)

/-- Takes off one pair of brackets around a host, if it has both. -/
def unbracket (host : List Char) : List Char :=
  match host with
  | '[' :: rest => if rest.getLast? = some ']' then rest.dropLast else host
  | _ => host

def readChars (cs : List Char) : Except Flaw Endpoint :=
  match splitAtLastColon? cs with
  | none => .error .missingPort
  | some (host, port) =>
    let host := unbracket host
    if host.isEmpty then .error .emptyHost
    else
      match Text.Numeral.read? 65535 port with
      | none => .error .invalidPort
      | some n => .ok ⟨String.ofList host, UInt16.ofNat n⟩

def read (text : String) : Except ReadError Endpoint :=
  (readChars text.toList).mapError (⟨·, text⟩)

end Endpoint

end PeerLink
