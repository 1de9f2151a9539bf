import Microblog.BirthDate
import Microblog.Opcode

/-!
# Messages

A client sends commands and a server sends replies.  Both are frames of the same
protocol, so a connection carries values of `Message`; but the two never mix in
one direction, and each has a type of its own.

## Main definitions

* `Command` — what a client asks for.
* `Notification` — a post or private message as its readers get it.
* `Ack`, `AckBody`, `Stats` — the answer to a command that was carried out.
* `Reply` — what a server says.
* `Message` — either of them.
* `Command.ack` — the acknowledgement that a command calls for.
-/

namespace Microblog

/-- What a client asks the server to do. -/
inductive Command where
  /-- Open an account. -/
  | register (username password : String) (birthDate : BirthDate)
  /-- Open a session on this connection. -/
  | login (username password : String) (captcha : UInt8)
  /-- Close the session and the connection. -/
  | logout
  /-- Follow a user, or stop following when `follow` is false. -/
  | follow (follow : Bool) (username : String)
  /-- Publish to one's followers and to the users mentioned. -/
  | post (content : String)
  /-- Write to one user. -/
  | pm (username content : String)
  /-- Statistics of everybody. -/
  | logStat
  /-- Statistics of the users listed. -/
  | stat (usernames : List String)
  /-- Block a user. -/
  | block (username : String)
  deriving DecidableEq, Repr, Inhabited

/-- How a notification came about. -/
inductive NotificationKind where
  /-- By a private message. -/
  | pm
  /-- By a post. -/
  | post
  deriving DecidableEq, Repr, Inhabited

/-- A post or private message as its readers get it. -/
structure Notification where
  /-- Post or private message. -/
  kind : NotificationKind
  /-- Who wrote it. -/
  author : String
  /-- What it says. -/
  content : String
  deriving DecidableEq, Repr, Inhabited

/-- The figures that are published about a user. -/
structure Stats where
  /-- Age at registration. -/
  age : UInt16
  /-- Number of posts. -/
  posts : UInt16
  /-- Number of followers. -/
  followers : UInt16
  /-- Number of users followed. -/
  following : UInt16
  deriving DecidableEq, Repr, Inhabited

/-- What an acknowledgement tells besides the command that it answers. -/
inductive AckBody where
  /-- Nothing. -/
  | empty
  /-- The direction that was carried out, and the user it concerned. -/
  | follow (follow : Bool) (username : String)
  /-- One entry for each user reported. -/
  | stats (entries : List Stats)
  deriving DecidableEq, Repr, Inhabited

/-- The answer to a command that was carried out. -/
structure Ack where
  /-- The command. -/
  opcode : Opcode
  /-- What else there is to tell. -/
  body : AckBody
  deriving DecidableEq, Repr, Inhabited

/-- What a server says. -/
inductive Reply where
  /-- Somebody wrote something. -/
  | notification (n : Notification)
  /-- A command was carried out. -/
  | ack (a : Ack)
  /-- The command with this opcode was refused. -/
  | error (opcode : Opcode)
  deriving DecidableEq, Repr, Inhabited

/-- A frame of the protocol. -/
inductive Message where
  /-- From a client. -/
  | command (c : Command)
  /-- From a server. -/
  | reply (r : Reply)
  deriving DecidableEq, Repr, Inhabited

namespace Command

/-- The opcode of a command. -/
def opcode : Command → Opcode
  | register .. => .register
  | login .. => .login
  | logout => .logout
  | follow .. => .follow
  | post _ => .post
  | pm .. => .pm
  | logStat => .logStat
  | stat _ => .stat
  | block _ => .block

/-- The acknowledgement that a command calls for.  The statistics of an answer
are only known once the command is carried out, so here they are empty. -/
def ack (c : Command) : Ack where
  opcode := c.opcode
  body := match c with
    | follow direction username => .follow direction username
    | logStat | stat _ => .stats []
    | _ => .empty

/-- Commands have opcodes that are not reserved for the server. -/
theorem isServerOnly_opcode (c : Command) : c.opcode.isServerOnly = false := by
  cases c <;> rfl

end Command

/-- The opcode of a reply. -/
def Reply.opcode : Reply → Opcode
  | notification _ => .notification
  | ack _ => .ack
  | error _ => .error

namespace Message

/-- The opcode of a message. -/
def opcode : Message → Opcode
  | command c => c.opcode
  | reply r => r.opcode

/-- The acknowledgement that a message calls for; replies call for none. -/
def ack? : Message → Option Ack
  | command c => some c.ack
  | reply _ => none

/-- The reply that refuses a message. -/
def refusal (m : Message) : Reply := .error m.opcode

end Message

end Microblog
