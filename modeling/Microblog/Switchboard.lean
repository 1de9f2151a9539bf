import Microblog.Account

/-!
# The switchboard

Every connection has a channel that carries messages to its client.  The
switchboard hands out connection numbers, 0, 1, 2 and so on, each once, and holds
the sending ends of the channels; the receiving ends belong to whoever serves the
clients.

A channel takes messages as long as the switchboard holds its sending end and the
receiving end exists.  Neither comes back.  Messages that wait when the switchboard
lets go of the sending end can still be received.

## Main definitions

* `Channel` — one channel, and `Channel.push`, a message for it.
* `Switchboard` — the channels, by connection number.
* `Switchboard.accepts` — whether a message for a connection would be taken.
* `Switchboard.connect`, `send`, `broadcast`, `release`, `hangUp`, `receive`.
* `Switchboard.Operation`, `Switchboard.run` — the same as one type, and many of them.
-/

namespace Microblog

/-- What carries messages to a client. -/
structure Channel where
  /-- The messages on their way, the oldest first. -/
  waiting : List Message := []
  /-- The switchboard holds the sending end. -/
  held : Bool := true
  /-- The receiving end exists. -/
  heard : Bool := true
  deriving DecidableEq, Repr, Inhabited

namespace Channel

/-- The channel takes messages. -/
def accepts (ch : Channel) : Bool := ch.held && ch.heard

/-- The channel after a message for it, which is lost if the channel takes none. -/
def push (m : Message) (ch : Channel) : Channel :=
  if ch.accepts then { ch with waiting := ch.waiting ++ [m] } else ch

/-- A message changes nothing about what the channel takes. -/
@[simp] theorem accepts_push (m : Message) (ch : Channel) : (ch.push m).accepts = ch.accepts := by
  unfold push
  split <;> rfl

/-- Nor does it change who holds the channel. -/
@[simp] theorem held_push (m : Message) (ch : Channel) : (ch.push m).held = ch.held := by
  unfold push
  split <;> rfl

/-- Nor whether anybody hears it. -/
@[simp] theorem heard_push (m : Message) (ch : Channel) : (ch.push m).heard = ch.heard := by
  unfold push
  split <;> rfl

theorem waiting_push (m : Message) (ch : Channel) :
    (ch.push m).waiting = if ch.accepts then ch.waiting ++ [m] else ch.waiting := by
  unfold push
  split <;> rfl

/-- The channel without its sending end. -/
def release (ch : Channel) : Channel := { ch with held := false }

/-- The channel without its receiving end, where nothing waits any more. -/
def hangUp (ch : Channel) : Channel := { ch with heard := false, waiting := [] }

/-- The channel after all that waits was received. -/
def drain (ch : Channel) : Channel := { ch with waiting := [] }

/-- The channel after up to `n` of the messages that wait were received. -/
def advance (n : Nat) (ch : Channel) : Channel := { ch with waiting := ch.waiting.drop n }

end Channel

/-- The channels of all connections. -/
structure Switchboard where
  /-- The channels, by connection number. -/
  channels : Array Channel := #[]
  deriving DecidableEq, Repr, Inhabited

namespace Switchboard

/-- A new connection: its number, and the switchboard after it. -/
def connect (s : Switchboard) : ConnectionId × Switchboard :=
  (s.channels.size, { channels := s.channels.push {} })

/-- The switchboard holds the sending end of the channel of `c`. -/
def holds (s : Switchboard) (c : ConnectionId) : Bool := s.channels[c]?.any Channel.held

/-- A message for `c` would be taken. -/
def accepts (s : Switchboard) (c : ConnectionId) : Bool := s.channels[c]?.any Channel.accepts

/-- The messages on their way to `c`, the oldest first. -/
def waiting (s : Switchboard) (c : ConnectionId) : List Message :=
  (s.channels[c]?.map Channel.waiting).getD []

/-- How many connections the switchboard holds. -/
def size (s : Switchboard) : Nat := s.channels.countP Channel.held

/-- A message for one connection. -/
def send (s : Switchboard) (c : ConnectionId) (m : Message) : Switchboard :=
  { channels := s.channels.modify c (Channel.push m) }

/-- A message for every connection. -/
def broadcast (s : Switchboard) (m : Message) : Switchboard :=
  { channels := s.channels.map (Channel.push m) }

/-- The switchboard lets go of a connection. -/
def release (s : Switchboard) (c : ConnectionId) : Switchboard :=
  { channels := s.channels.modify c Channel.release }

/-- The receiving end of a connection is gone. -/
def hangUp (s : Switchboard) (c : ConnectionId) : Switchboard :=
  { channels := s.channels.modify c Channel.hangUp }

/-- All messages on their way to `c` are received: these, and the switchboard after
it. -/
def receive (s : Switchboard) (c : ConnectionId) : List Message × Switchboard :=
  (s.waiting c, { channels := s.channels.modify c Channel.drain })

/-- Up to `n` of the messages on their way to `c` are received, the oldest first: these, and
the switchboard after it. -/
def receiveSome (s : Switchboard) (c : ConnectionId) (n : Nat) : List Message × Switchboard :=
  ((s.waiting c).take n, { channels := s.channels.modify c (Channel.advance n) })

/-! ### One operation after another -/

/-- What can be done with a switchboard. -/
inductive Operation where
  /-- A connection opens. -/
  | connect
  /-- A message is sent to one connection. -/
  | send (c : ConnectionId) (m : Message)
  /-- A message is sent to every connection. -/
  | broadcast (m : Message)
  /-- The switchboard lets go of a connection. -/
  | release (c : ConnectionId)
  /-- The receiving end of a connection is gone. -/
  | hangUp (c : ConnectionId)
  /-- Up to `n` messages are received on a connection. -/
  | receive (c : ConnectionId) (n : Nat)
  deriving DecidableEq, Repr, Inhabited

/-- The switchboard after an operation. -/
def step (s : Switchboard) : Operation → Switchboard
  | .connect => s.connect.2
  | .send c m => s.send c m
  | .broadcast m => s.broadcast m
  | .release c => s.release c
  | .hangUp c => s.hangUp c
  | .receive c n => (s.receiveSome c n).2

/-- The switchboard after some operations, one after another. -/
def run (s : Switchboard) (ops : List Operation) : Switchboard := ops.foldl step s

@[simp] theorem run_nil (s : Switchboard) : s.run [] = s := rfl

@[simp] theorem run_cons (s : Switchboard) (op : Operation) (ops : List Operation) :
    s.run (op :: ops) = (s.step op).run ops := rfl

theorem run_append (s : Switchboard) (ops others : List Operation) :
    s.run (ops ++ others) = (s.run ops).run others := List.foldl_append

/-! ### A message goes where it is sent, once -/

/-- What waits in a channel, if there is one, after a message for it. -/
theorem waiting_map_push (o : Option Channel) (m : Message) :
    ((o.map (Channel.push m)).map Channel.waiting).getD []
      = if o.any Channel.accepts then (o.map Channel.waiting).getD [] ++ [m]
        else (o.map Channel.waiting).getD [] := by
  cases o with
  | none => rfl
  | some ch => exact Channel.waiting_push m ch

theorem waiting_send (s : Switchboard) (c other : ConnectionId) (m : Message) :
    (s.send c m).waiting other
      = if c = other ∧ s.accepts c then s.waiting other ++ [m] else s.waiting other := by
  by_cases h : c = other
  · subst h
    simpa [send, waiting, accepts, Array.getElem?_modify] using waiting_map_push s.channels[c]? m
  · simp [send, waiting, Array.getElem?_modify, h]

theorem waiting_broadcast (s : Switchboard) (c : ConnectionId) (m : Message) :
    (s.broadcast m).waiting c = if s.accepts c then s.waiting c ++ [m] else s.waiting c := by
  rw [broadcast, waiting, Array.getElem?_map]
  exact waiting_map_push s.channels[c]? m

/-- Sending changes nothing about who is reached. -/
@[simp] theorem accepts_send (s : Switchboard) (c other : ConnectionId) (m : Message) :
    (s.send c m).accepts other = s.accepts other := by
  simp only [send, accepts, Array.getElem?_modify]
  split
  · cases s.channels[other]? <;> simp
  · rfl

end Switchboard

end Microblog
