import Microblog.Session

/-!
# Commands carried out in place

`Command.execute` gives the whole effect of a command at once, or refuses it.  A handler
does the same by and by: one check after another, one change after another, on the service
itself, and every message goes out when its turn comes.  Nothing is ever taken back.  What
a handler has done before it refuses its command stays done.

## Main definitions

* `Desk`, `Handler` — what a handler works on, and how.
* `Handler.send`, `Handler.change`, `Handler.refuseIf` — what handlers consist of.
* `Handler.deliver`, `Handler.drain`, `Handler.followOrUnfollow` — their common parts.
* `Command.handle` — the handler of each command.
* `Session.handle` — a command for a session, carried out in place.
-/

namespace Microblog

/-- What a handler works on. -/
structure Desk where
  /-- The service. -/
  service : Service
  /-- The session was closed by a LOGOUT. -/
  terminated : Bool := false

namespace Desk

/-- The desk with the directory changed by `f`. -/
def change (s : Desk) (f : Directory → Directory) : Desk :=
  { s with service := { s.service with directory := f s.service.directory } }

/-- The desk after a reply for a connection. -/
def send (s : Desk) (c : ConnectionId) (r : Reply) : Desk :=
  { s with service := s.service.send c r }

/-- The desk after a connection was let go of because of a LOGOUT. -/
def close (s : Desk) (c : ConnectionId) : Desk where
  service := { s.service with switchboard := s.service.switchboard.release c }
  terminated := true

end Desk

/-- What carries out a command, or refuses it.  The desk is changed in either case. -/
abbrev Handler := EStateM Rejection Desk

namespace Handler

/-! ### Steps -/

/-- The directory as it is. -/
def directory : Handler Directory := do return (← get).service.directory

/-- The directory changed by `f`. -/
def change (f : Directory → Directory) : Handler Unit := modify fun desk => desk.change f

/-- A reply for a connection.  The result says whether its channel took it. -/
def send (c : ConnectionId) (r : Reply) : Handler Bool := do
  let desk ← get
  set (desk.send c r)
  return desk.service.switchboard.accepts c

/-- The command is refused if `p` holds. -/
def refuseIf (p : Prop) [Decidable p] (why : Rejection) : Handler Unit :=
  if p then throw why else pure ()

/-- The user of the connection. -/
def currentUser (c : ConnectionId) : Handler (AccountId × Account) := do
  match (← directory).sessionOn c with
  | none => throw .notLoggedIn
  | some user => return user

/-- The account of a member. -/
def member (name : String) : Handler Account := do
  match (← directory).member? name with
  | none => throw (.unknownUser name)
  | some account => return account

/-- The accounts of some members, looked up one after another. -/
def members : List String → Handler (List Account)
  | [] => return []
  | name :: names => do
    let account ← member name
    let accounts ← members names
    return account :: accounts

/-- The number of the next account, which `name` gets. -/
def takeNumber (name : String) : Handler Nat := do
  let number := (← directory).roll.size
  change fun d => { d with roll := d.roll.push name }
  return number

/-- The name `followed` is put on the list of those that an account follows.  The result
says whether it was not there. -/
def addFollowed (id : AccountId) (followed : String) : Handler Bool := do
  let isNew := ((← directory).account? id).all fun a => followed ∉ a.following
  change fun d => d.update id (Account.startFollowing followed)
  return isNew

/-- The name `followed` is taken off the list of those that an account follows.  The
result says whether it was there. -/
def removeFollowed (id : AccountId) (followed : String) : Handler Bool := do
  let wasThere := ((← directory).account? id).any fun a => followed ∈ a.following
  change fun d => d.update id (Account.stopFollowing followed)
  return wasThere

/-! ### Parts -/

/-- The notifications that wait for a member go out, the oldest first, each taken from the
queue before it is sent. -/
def drain (c : ConnectionId) (name : String) : List Notification → Handler Unit
  | [] => return
  | n :: rest => do
    change fun d => d.update (.member name) fun a => { a with pending := rest }
    discard <| send c (.notification n)
    drain c name rest

/-- A notification for a member is sent to the connection that the account names.  If
there is none, or if its channel does not take it, it waits in the account. -/
def deliver (n : Notification) (name : String) : Handler Unit := do
  match (← directory).member? name with
  | none => return
  | some account =>
    match account.connection with
    | none => change fun d => d.update (.member name) (Account.queue n)
    | some reader =>
      if ← send reader (.notification n) then return
      else change fun d => d.update (.member name) (Account.queue n)

/-- A notification for some members, one after another. -/
def deliverAll (n : Notification) : List String → Handler Unit
  | [] => return
  | name :: names => do
    deliver n name
    deliverAll n names

/-- An edge of the follow graph is put in or taken out, one side after the other.  The
result says whether that could be done. -/
def followOrUnfollow (id : AccountId) (actor : Account) (name : String) (follow : Bool) :
    Handler Bool := do
  match (← directory).member? name with
  | none => return false
  | some target =>
    if follow ∧ target.name ∈ actor.blockedBy then return false
    else if actor.number = target.number then return false
    else if follow then
      if ← addFollowed id target.name then
        change fun d => d.update (.member name) (Account.gainFollower actor.name)
        return true
      else return false
    else
      if ← removeFollowed id target.name then
        change fun d => d.update (.member name) (Account.loseFollower actor.name)
        return true
      else return false

/-- An edge of the follow graph is taken out, if it is there. -/
def sever (follower : AccountId) (a : Account) (followed : AccountId) (b : Account) :
    Handler Unit := do
  if ← removeFollowed follower b.name then
    change fun d => d.update followed (Account.loseFollower a.name)

/-! ### Handlers -/

section

variable (c : ConnectionId) (ack : Ack)

/-- A new account. -/
def register (name password : String) (born : BirthDate) : Handler Unit := do
  let d ← directory
  refuseIf (name ∈ d.members) (.usernameTaken name)
  let number ← takeNumber name
  let account : Account := { name, password, number, age := ageOn d.today born }
  change fun d => { d with members := d.members.insert name account }
  discard <| send c (.ack ack)

/-- A session on the connection. -/
def login (name password : String) (captcha : UInt8) : Handler Unit := do
  refuseIf (c ∈ (← directory).sessions) .alreadyLoggedIn
  refuseIf (captcha = refusedCaptcha) .captchaRejected
  let account ← member name
  refuseIf (account.password ≠ password) .wrongPassword
  refuseIf account.isConnected (.alreadyConnected name)
  discard <| send c (.ack ack)
  drain c name account.pending
  change fun d => d.update (.member name) fun a => { a with connection := some c }
  change fun d => d.update (.member name) fun a => { a with isConnected := true }
  change fun d => { d with sessions := d.sessions.insert c (.member name) }

/-- The end of the session, if there is one, and of the connection. -/
def logout : Handler Unit := do
  let d ← directory
  refuseIf d.sessions.isEmpty .noActiveSessions
  match d.sessions[c]? with
  | none => pure ()
  | some id =>
    change fun d => { d with sessions := d.sessions.erase c }
    change fun d => d.update id fun a => { a with connection := none }
    change fun d => d.update id fun a => { a with isConnected := false }
  discard <| send c (.ack ack)
  modify fun desk => desk.close c

/-- The user of the connection follows another, or stops to. -/
def follow (direction : Bool) (name : String) : Handler Unit := do
  let (id, actor) ← currentUser c
  let changed ← followOrUnfollow id actor name direction
  refuseIf (changed = false) (.followRejected name)
  discard <| send c (.ack ack)

/-- A post reaches its audience and enters the history. -/
def post (content : String) : Handler Unit := do
  let (_, author) ← currentUser c
  let n : Notification := ⟨.post, author.name, content⟩
  deliverAll n ((← directory).audience author content)
  change fun d => d.record n
  discard <| send c (.ack ack)

/-- A private message, redacted, reaches its recipient and enters the history. -/
def pm (name content : String) : Handler Unit := do
  let (_, author) ← currentUser c
  let recipient ← member name
  refuseIf (author.name ∈ recipient.blockedBy) (.blocked name)
  let n : Notification := ⟨.pm, author.name, (← get).service.filter.apply content⟩
  deliver n name
  change fun d => d.record n
  discard <| send c (.ack ack)

/-- The statistics of everybody who has not blocked the user of the connection. -/
def logStat : Handler Unit := do
  let (_, caller) ← currentUser c
  let d ← directory
  discard <| send c (.ack { ack with body := .stats ((d.visibleTo caller).map d.statsOf) })

/-- The statistics of the users listed. -/
def stat (names : List String) : Handler Unit := do
  let (_, caller) ← currentUser c
  let accounts ← members names
  let d ← directory
  let shown := accounts.filter fun a => a.name ∉ caller.blockedBy
  discard <| send c (.ack { ack with body := .stats (shown.map d.statsOf) })

/-- The user of the connection blocks another, and neither follows the other any more. -/
def block (name : String) : Handler Unit := do
  let (id, blocker) ← currentUser c
  let target ← member name
  change fun d => d.update (.member name) (Account.addBlock blocker.name)
  if blocker.number = target.number then pure ()
  else
    sever id blocker (.member name) target
    sever (.member name) target id blocker
  discard <| send c (.ack ack)

end

end Handler

/-- A command from the connection `c`, carried out in place. -/
def Command.handle (c : ConnectionId) (command : Command) : Handler Unit :=
  match command with
  | register name password born => Handler.register c command.ack name password born
  | login name password captcha => Handler.login c command.ack name password captcha
  | logout => Handler.logout c command.ack
  | follow direction name => Handler.follow c command.ack direction name
  | post content => Handler.post c command.ack content
  | pm name content => Handler.pm c command.ack name content
  | logStat => Handler.logStat c command.ack
  | stat names => Handler.stat c command.ack names
  | block name => Handler.block c command.ack name

/-- A command for a session, carried out in place.  If it is refused, an ERROR follows. -/
def Session.handle (s : Session) (service : Service) (command : Command) : Session × Service :=
  match s.connection with
  | none => (s, service)
  | some c =>
    match command.handle c { service, terminated := s.terminated } with
    | .ok _ desk => ({ s with terminated := desk.terminated }, desk.service)
    | .error _ desk =>
      ({ s with terminated := desk.terminated }, desk.service.send c (.error command.opcode))

end Microblog
