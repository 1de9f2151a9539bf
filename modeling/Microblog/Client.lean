import Microblog.CommandLine
import Microblog.Server
import Microblog.Wire.ReplyReader

/-!
# Clients

A client has a connection to a server, or was turned away by it, and reads the
replies that the server sends it.

The client of the command line sends a command for each line that it is given and
then closes the connection.  It shows the replies until it has shown the one that
acknowledges a LOGOUT, or the server has closed the connection.

## Main definitions

* `Client` — a client, and `Client.connect`, `send`, `close`, `next`.
* `Transcript` — what the client of the command line shows.
* `Client.converse`, `Client.unreachable` — its run, with a server and without.
-/

namespace Microblog

open Wire

/-- A client of a server. -/
structure Client where
  /-- Its connection, unless it was turned away. -/
  connection : Option ConnectionId
  /-- The bytes that it has received and not used. -/
  buffer : Bytes := []
  deriving DecidableEq, Repr, Inhabited

namespace Client

/-- A client connects to a server. -/
def connect (server : Server) : Client × Server :=
  match server.connect with
  | (.ok c, server) => ({ connection := some c }, server)
  | (.error _, server) => ({ connection := none }, server)

/-- A client sends some bytes. -/
def send (client : Client) (server : Server) (bs : Bytes) : Server :=
  match client.connection with
  | some c => server.receive c bs
  | none => server

/-- A client closes its connection. -/
def close (client : Client) (server : Server) : Server :=
  match client.connection with
  | some c => server.close c
  | none => server

/-- The bytes that are on their way to a client, and the server once they have been
taken. -/
def incoming (client : Client) (server : Server) : Bytes × Server :=
  match client.connection with
  | some c =>
    let received := server.hub.service.switchboard.receive c
    (received.1.flatMap Message.encode,
      { server with hub := server.hub.mapSwitchboard fun _ => received.2 })
  | none => ([], server)

/-- The client reads the next reply, or finds that nothing is on its way. -/
def next (client : Client) (server : Server) :
    Except Error (Option Reply) × Client × Server :=
  let (bs, server) := client.incoming server
  let (result, reader) := ReplyReader.nextFrom (client.buffer ++ bs) []
  (result, { client with buffer := reader.buffer }, server)

/-! ### The client of the command line -/

/-- The address that is tried if none is given. -/
def defaultAddress : String := "127.0.0.1:7777"

end Client

/-- What a run of the client of the command line shows. -/
structure Transcript where
  /-- The lines on standard output. -/
  output : List String := []
  /-- The lines on standard error. -/
  complaints : List String := []
  /-- The exit code. -/
  exitCode : Nat := 0
  deriving DecidableEq, Repr, Inhabited

/-- Lines as a text. -/
def unlines (lines : List String) : String := String.join (lines.map fun l => l ++ "\n")

namespace Client

/-- The lines of a text that are not blank. -/
def typedLines (input : String) : List String :=
  ((Text.pieces '\n' input.toList).filter fun line => Text.trim line ≠ []).map String.ofList

/-- The reply acknowledges a LOGOUT. -/
def isFarewell : Reply → Bool
  | .ack a => a.opcode = .logout
  | _ => false

/-- The lines that replies are shown on, up to the first that acknowledges a LOGOUT;
and whether there is one. -/
def shown : List Reply → List String × Bool
  | [] => ([], false)
  | r :: rs =>
    if isFarewell r then ([r.line], true) else (r.line :: (shown rs).1, (shown rs).2)

/-- What is shown of all that a server sent until it closed the connection. -/
def report (address : String) (complaints : List String) (bs : Bytes) : Transcript :=
  let received := replies bs
  let lines := shown received.1
  let output := ("Connected to " ++ address) :: lines.1
  if lines.2 then { output, complaints }
  else match (ReplyReader.nextFrom received.2 []).1 with
    | .ok _ => { output := output ++ ["Disconnected by server"], complaints }
    | .error e =>
      { output, complaints := complaints ++ ["Connection error: " ++ e.message], exitCode := 1 }

/-- A run without a server: the connection failed for the reason given. -/
def unreachable (address reason : String) : Transcript :=
  { complaints := ["Could not connect to " ++ address ++ ": " ++ reason], exitCode := 1 }

/-- A run with a server. -/
def converse (address : String) (server : Server) (input : String) : Transcript × Server :=
  let (client, server) := connect server
  let (server, complaints) := (typedLines input).foldl
    (fun (server, complaints) line =>
      match Command.ofLine line with
      | .ok command => (client.send server command.encode, complaints)
      | .error why => (server, (Error.protocol why).message :: complaints))
    (server, [])
  let (bs, server) := client.incoming (client.close server)
  (report address complaints.reverse bs, server)

end Client

end Microblog
