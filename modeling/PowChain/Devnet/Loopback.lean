import PowChain.Devnet.Messages
import PowChain.Host.Socket

/-!
# A console session over sockets

A socket session listens on the machine and sends framed messages to
addresses.  A send first frames the message, which must fit the size limit,
then connects to the address, which must resolve; as the machine has no
network, the connection itself then fails, and nothing reaches the listener.
A failed send names the address it was for.
-/

namespace PowChain
namespace Devnet

/-- One step of a socket session. -/
inductive SocketStep where
  | listen
  | bind (addr : String)
  /-- Sends a message to an address (the listener's by default) as `sender`. -/
  | send (m : MessageSpec) (dest : Option String) (sender : String)
  | raw (bytes : ByteArray)
  | recv

/-- A socket session: the listener's address once there is one, and the
messages it took in, oldest first. -/
structure Sockets where
  listener : Option String := none
  received : List Net.Message := []

namespace Sockets

/-- The address a listener bound to port 0 is given. -/
def listenerAddr : String := "127.0.0.1:0"

/-- Sends a framed message to an address. -/
def send (dest : String) (m : Net.Message) : Result Unit := do
  let _ ← m.encode
  match Host.connect dest with
  | .ok () => pure ()
  | .error e => throw (.network s!"{dest}: {e}")

/-- What a step answers, and the session after it. -/
def step (s : Sockets) : SocketStep → Json.Doc × Sockets
  | .listen => (View.done, { s with listener := some listenerAddr })
  | .bind addr =>
    (View.unit ((Host.bind addr).mapError fun e => .network s!"Failed to bind {addr}: {e}"), s)
  | .send spec dest sender =>
    let target := dest.getD (s.listener.getD listenerAddr)
    let r := do send target (← spec.build #[])
    (.obj [("local", .str sender), ("result", View.unit r)], s)
  | .raw _ =>
    let target := s.listener.getD listenerAddr
    let r : Result Unit := (Host.connect target).mapError fun e => .io e
    (View.unit r, s)
  | .recv =>
    match s.received with
    | m :: rest => (View.message m, { s with received := rest })
    | [] => (.obj [("timeout", .bool true)], s)

/-- Runs steps in order, collecting their answers. -/
def run (steps : List SocketStep) (s : Sockets) : List Json.Doc × Sockets :=
  steps.foldl (fun (acc, s) st => let (d, s) := s.step st; (acc ++ [d], s)) ([], s)

end Sockets
end Devnet
end PowChain
