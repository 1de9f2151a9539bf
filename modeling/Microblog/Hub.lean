import Microblog.Session

/-!
# The hub

The hub is a service with all its links.  What happens to it is an `Event`: a
connection opens, a message or some bytes arrive on one, one is closed from this
side or that.  Events on a connection that was never opened do nothing; those on a
connection that has ended are carried out like any other.

## Main definitions

* `Hub`, `Event` — the hub, and what can happen to it.
* `Hub.step`, `Hub.run` — one event, and many.
-/

namespace Microblog

/-- A service with all its links. -/
structure Hub where
  /-- What the sessions share. -/
  service : Service
  /-- The links, by connection number. -/
  links : Array Link := #[]
  deriving DecidableEq, Inhabited

/-- What can happen to a hub. -/
inductive Event where
  /-- A connection opens. -/
  | connect
  /-- A message arrives. -/
  | message (c : ConnectionId) (m : Message)
  /-- Some bytes arrive. -/
  | bytes (c : ConnectionId) (bs : Bytes)
  /-- A connection is gone, and its session with it. -/
  | disconnect (c : ConnectionId)
  /-- The receiving end of a connection is gone. -/
  | hangUp (c : ConnectionId)
  /-- The switchboard lets go of a connection. -/
  | release (c : ConnectionId)
  /-- A message for everybody. -/
  | broadcast (m : Message)
  deriving DecidableEq, Repr, Inhabited

namespace Hub

/-- A hub with a given directory and filter and no connections. -/
def ofDirectory (directory : Directory) (filter : ContentFilter) : Hub :=
  { service := { directory, filter } }

/-- The hub with its switchboard changed by `f`. -/
def mapSwitchboard (h : Hub) (f : Switchboard → Switchboard) : Hub :=
  { h with service := { h.service with switchboard := f h.service.switchboard } }

/-- A connection opens: its number, and the hub after it. -/
def connect (h : Hub) : ConnectionId × Hub :=
  let opened := h.service.switchboard.connect
  (opened.1,
    { service := { h.service with switchboard := opened.2 }
      links := h.links.push { session := { connection := some opened.1 } } })

/-- A message arrives on `c`. -/
def message (h : Hub) (c : ConnectionId) (m : Message) : Hub :=
  match h.links[c]? with
  | none => h
  | some l =>
    match l.session.process h.service m with
    | (session, service) => { service, links := h.links.modify c fun l => { l with session } }

/-- Some bytes arrive on `c`: how many messages they complete, and the hub after
them. -/
def bytes (h : Hub) (c : ConnectionId) (bs : Bytes) : Nat × Hub :=
  match h.links[c]? with
  | none => (0, h)
  | some l =>
    let received := l.receive h.service bs
    (received.processed,
      { service := received.service, links := h.links.modify c fun _ => received.link })

/-- The connection `c` is gone. -/
def disconnect (h : Hub) (c : ConnectionId) : Hub :=
  match h.links[c]? with
  | none => h
  | some l => { h with service := l.session.disconnect h.service }

/-- The hub after an event. -/
def step (h : Hub) : Event → Hub
  | .connect => h.connect.2
  | .message c m => h.message c m
  | .bytes c bs => (h.bytes c bs).2
  | .disconnect c => h.disconnect c
  | .hangUp c => h.mapSwitchboard (·.hangUp c)
  | .release c => h.mapSwitchboard (·.release c)
  | .broadcast m => h.mapSwitchboard (·.broadcast m)

/-- The hub after some events, one after another. -/
def run (h : Hub) (events : List Event) : Hub := events.foldl step h

@[simp] theorem run_nil (h : Hub) : h.run [] = h := rfl

@[simp] theorem run_cons (h : Hub) (e : Event) (es : List Event) :
    h.run (e :: es) = (h.step e).run es := rfl

theorem run_append (h : Hub) (es fs : List Event) : h.run (es ++ fs) = (h.run es).run fs :=
  List.foldl_append

end Hub

end Microblog
