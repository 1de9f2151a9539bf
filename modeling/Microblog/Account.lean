import Microblog.Message
import Std.Data.ExtTreeMap
import Std.Data.ExtTreeSet

/-!
# Accounts

An account holds what a server knows of one user: who may use it, whom the user
follows and is followed by, who has blocked the user, and the notifications that
wait for the user to log in.

A notification goes to the connection that the user is logged in on.  If there is
none, or if that connection takes no more, it waits in the account, and the next
login hands over all that wait, the oldest first.

## Main definitions

* `Account` — one user.
* `Account.connect`, `Account.disconnect` — the beginning and the end of a session.
* `Account.liveOn` — where a notification can be sent at once.
-/

namespace Microblog

/-- A connection, by its number in the order of opening.  The switchboard counts in 64 bits.
Fewer than `2 ^ 64` numbers are ever handed out, so its counter never wraps and the plain
number says the same. -/
abbrev ConnectionId := Nat

/-- A set of usernames. -/
abbrev Names := Std.ExtTreeSet String

/-- What is known of one user. -/
structure Account where
  /-- The name that the user goes by. -/
  name : String
  /-- What the user has to give to log in. -/
  password : String
  /-- The place in the order of registration, counted from zero.  It too is counted in 64 bits,
  and fewer than `2 ^ 64` users ever register. -/
  number : Nat
  /-- The age at registration. -/
  age : UInt16
  /-- The users that this one follows. -/
  following : Names := ∅
  /-- The users that follow this one. -/
  followers : Names := ∅
  /-- The users that have blocked this one. -/
  blockedBy : Names := ∅
  /-- The connection that the user is logged in on. -/
  connection : Option ConnectionId := none
  /-- The user is logged in.  A login looks at this and not at the connection. -/
  isConnected : Bool := false
  /-- The notifications that wait for the next login, the oldest first. -/
  pending : List Notification := []
  deriving DecidableEq, Inhabited

namespace Account

/-- The account at the beginning of a session on `c`; nothing waits any more. -/
def connect (c : ConnectionId) (a : Account) : Account :=
  { a with connection := some c, isConnected := true, pending := [] }

/-- The account at the end of a session. -/
def disconnect (a : Account) : Account :=
  { a with connection := none, isConnected := false }

/-- The account with one notification more that waits. -/
def queue (n : Notification) (a : Account) : Account :=
  { a with pending := a.pending ++ [n] }

/-- The connection that takes a notification for the user at once, given which
connections take anything. -/
def liveOn (a : Account) (accepts : ConnectionId → Bool) : Option ConnectionId :=
  a.connection.filter accepts

/-- The account of a user that follows `name` too. -/
def startFollowing (name : String) (a : Account) : Account :=
  { a with following := a.following.insert name }

/-- The account of a user that does not follow `name`. -/
def stopFollowing (name : String) (a : Account) : Account :=
  { a with following := a.following.erase name }

/-- The account of a user that `name` follows too. -/
def gainFollower (name : String) (a : Account) : Account :=
  { a with followers := a.followers.insert name }

/-- The account of a user that `name` does not follow. -/
def loseFollower (name : String) (a : Account) : Account :=
  { a with followers := a.followers.erase name }

/-- The account of a user that `name` has blocked too. -/
def addBlock (name : String) (a : Account) : Account :=
  { a with blockedBy := a.blockedBy.insert name }

end Account

end Microblog
