import Microblog.Config
import Microblog.Hub

/-!
# The server

A server is a hub that takes connections up to a limit.  A connection is open until
its client closes it or an accepted LOGOUT does; from then on nothing that arrives
on it has any effect, and its number is not given out again.

## Main definitions

* `Server` — the hub and the limit.
* `Server.connect`, `Server.receive`, `Server.close` — what clients do.
* `Server.Step`, `Server.run` — the same as one type, and many of them.
-/

namespace Microblog

/-- A hub that takes connections up to a limit. -/
structure Server where
  /-- The hub. -/
  hub : Hub
  /-- The most connections open at one time. -/
  capacity : Nat
  deriving DecidableEq, Inhabited

namespace Server

/-- A server that has just been started. -/
def start (config : Config) (directory : Directory) : Server :=
  { hub := .ofDirectory directory config.filter, capacity := config.maxConnections }

/-- How many connections are open. -/
def openCount (s : Server) : Nat := s.hub.service.switchboard.size

/-- The connection `c` is open. -/
def isOpen (s : Server) (c : ConnectionId) : Bool := s.hub.service.switchboard.holds c

/-- A client connects: the number of the connection, unless the server is full. -/
def connect (s : Server) : Except Error ConnectionId × Server :=
  if s.capacity ≤ s.openCount then (.error (.connectionLimit s.openCount), s)
  else (.ok s.hub.connect.1, { s with hub := s.hub.connect.2 })

/-- The session of `c` was closed by a LOGOUT. -/
def hasTerminated (s : Server) (c : ConnectionId) : Bool :=
  s.hub.links[c]?.any fun l => l.session.terminated

/-- Some bytes arrive on `c`.  Once the session is closed the connection is given up. -/
def receive (s : Server) (c : ConnectionId) (bs : Bytes) : Server :=
  if s.isOpen c then
    let s := { s with hub := (s.hub.bytes c bs).2 }
    if s.hasTerminated c then { s with hub := s.hub.disconnect c } else s
  else s

/-- The client of `c` closes the connection. -/
def close (s : Server) (c : ConnectionId) : Server :=
  if s.isOpen c then { s with hub := s.hub.disconnect c } else s

/-- What clients do to a server. -/
inductive Step where
  /-- One connects. -/
  | connect
  /-- Some bytes arrive. -/
  | receive (c : ConnectionId) (bs : Bytes)
  /-- One closes its connection. -/
  | close (c : ConnectionId)
  deriving DecidableEq, Repr, Inhabited

/-- The server after a step. -/
def step (s : Server) : Step → Server
  | .connect => s.connect.2
  | .receive c bs => s.receive c bs
  | .close c => s.close c

/-- The server after some steps, one after another. -/
def run (s : Server) (steps : List Step) : Server := steps.foldl step s

@[simp] theorem run_nil (s : Server) : s.run [] = s := rfl

@[simp] theorem run_cons (s : Server) (x : Step) (xs : List Step) :
    s.run (x :: xs) = (s.step x).run xs := rfl

end Server

end Microblog
