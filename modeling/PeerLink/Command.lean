import PeerLink.Endpoint

namespace PeerLink.Command

structure Request where
  listen : Endpoint
  peer : Option Endpoint
  deriving DecidableEq

inductive Refusal where
  | help
  | listenAddress (error : Endpoint.ReadError)
  | peerAddress (error : Endpoint.ReadError)
  | count
  deriving DecidableEq

def Refusal.message? : Refusal → Option String
  | .help => none
  | .listenAddress error => some s!"error: invalid listen address: {error.message}"
  | .peerAddress error => some s!"error: invalid peer address: {error.message}"
  | .count => some "error: expected one or two addresses"

def usage : List String :=
  ["Usage: tether-ping <listen-addr> [peer-addr]",
    "",
    "Arguments:",
    "  <listen-addr>    host:port to listen on (port 0 picks one)",
    "  [peer-addr]      host:port of another tether-ping to ping"]

/-- Asking for help anywhere wins over all else. -/
def read (args : List String) : Except Refusal Request :=
  if args.any fun a => a = "-h" ∨ a = "--help" then .error .help
  else
    match args with
    | [listen] => do
      let listen ← (Endpoint.read listen).mapError .listenAddress
      return ⟨listen, none⟩
    | [listen, peer] => do
      let listen ← (Endpoint.read listen).mapError .listenAddress
      let peer ← (Endpoint.read peer).mapError .peerAddress
      return ⟨listen, some peer⟩
    | _ => .error .count

/-- What a refused command line is answered with. -/
def Refusal.lines (r : Refusal) : List String :=
  match r.message? with
  | some message => message :: "" :: usage
  | none => usage

end PeerLink.Command
