import PeerLink.Command
import PeerLink.Error

def main (args : List String) : IO UInt32 := do
  match PeerLink.Command.read args with
  | .error refusal =>
    for line in refusal.lines do IO.eprintln line
    return 2
  | .ok request =>
    let error : PeerLink.RemoteError := .bind request.listen ⟨.unsupported, .bare⟩
    IO.eprintln s!"error: {error.message}"
    return 1
