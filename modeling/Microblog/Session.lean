import Microblog.Execution
import Microblog.Switchboard
import Microblog.Wire.Decoder

/-!
# Sessions

A session is the server's end of one connection.  It is started with the number
of its connection, takes one message after another, and after an accepted LOGOUT
takes no more bytes.  All sessions work on one service, which has the directory,
the filter for private messages, and the switchboard.

A link is a session and the decoder for the bytes that arrive for it.

## Main definitions

* `Service` — what all sessions share.
* `Session.process` — one message.
* `Session.disconnect` — the connection is gone.
* `Link.receive` — some bytes.
-/

namespace Microblog

/-- What all sessions share. -/
structure Service where
  /-- All users, and what they said. -/
  directory : Directory
  /-- What is redacted from private messages. -/
  filter : ContentFilter := {}
  /-- The channels to the clients. -/
  switchboard : Switchboard := {}
  deriving DecidableEq, Inhabited

namespace Service

/-- A reply for one connection. -/
def send (s : Service) (c : ConnectionId) (r : Reply) : Service :=
  { s with switchboard := s.switchboard.send c (.reply r) }

/-- The service after what a command from the connection `c` does. -/
def apply (s : Service) (c : ConnectionId) (e : Effect) : Service :=
  let switchboard :=
    e.outgoing.foldl (fun board item => board.send item.1 (.reply item.2)) s.switchboard
  { s with
    directory := e.directory
    switchboard := if e.closes then switchboard.release c else switchboard }

end Service

/-- The server's end of one connection. -/
structure Session where
  /-- The connection, once the session has been started. -/
  connection : Option ConnectionId := none
  /-- The session was closed by a LOGOUT. -/
  terminated : Bool := false
  deriving DecidableEq, Repr, Inhabited

namespace Session

/-- The number that the session goes by: that of its connection, and zero before it
is started. -/
def id (s : Session) : ConnectionId := s.connection.getD 0

/-- A message for the session.  A command is carried out, or answered by an ERROR
that has its opcode.  Replies are ignored, and so is everything that comes before
the session is started. -/
def process (s : Session) (service : Service) (m : Message) : Session × Service :=
  match s.connection, m with
  | some c, .command command =>
    match command.execute service.directory service.filter service.switchboard.accepts c with
    | .ok effect =>
      ({ s with terminated := s.terminated || effect.closes }, service.apply c effect)
    | .error _ => (s, service.send c m.refusal)
  | _, _ => (s, service)

/-- The connection is gone: its user is logged out, and the switchboard lets go of
it. -/
def disconnect (s : Session) (service : Service) : Service :=
  { service with
    directory := service.directory.logout s.id
    switchboard :=
      match s.connection with
      | some c => service.switchboard.release c
      | none => service.switchboard }

end Session

/-- A session, and the decoder for what arrives for it. -/
structure Link where
  /-- The decoder. -/
  decoder : Wire.Decoder := .idle
  /-- The session. -/
  session : Session := {}
  deriving DecidableEq, Repr, Inhabited

/-- A link after some bytes. -/
structure Received where
  /-- The link. -/
  link : Link
  /-- The service. -/
  service : Service
  /-- How many messages were completed and processed. -/
  processed : Nat

/-- Some bytes for a link, `processed` messages having been processed before.  Each
message is processed with its last byte.  After a message that leaves the session
terminated the remaining bytes are dropped. -/
def Link.receiveFrom (l : Link) (service : Service) (processed : Nat) : Bytes → Received
  | [] => ⟨l, service, processed⟩
  | b :: bs =>
    match l.decoder.step b with
    | (decoder, none) => receiveFrom { l with decoder } service processed bs
    | (decoder, some command) =>
      match l.session.process service (.command command) with
      | (session, service) =>
        if session.terminated then ⟨⟨decoder, session⟩, service, processed + 1⟩
        else receiveFrom ⟨decoder, session⟩ service (processed + 1) bs

/-- Some bytes for a link. -/
def Link.receive (l : Link) (service : Service) (bs : Bytes) : Received :=
  l.receiveFrom service 0 bs

end Microblog
