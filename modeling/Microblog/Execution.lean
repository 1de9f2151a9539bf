import Microblog.ContentFilter
import Microblog.Directory

/-!
# Carrying out commands

A command comes from a connection.  It is either rejected, for one reason and
without any effect, or carried out, and then its whole effect is given at once:
the directory after it, the replies that it sends and in which order, and whether
it closes the connection.

Whether a connection takes a notification is decided outside and cannot change
while a command is carried out, so it is given as a predicate.

## Main definitions

* `Effect` — what a command does.
* `Command.execute` — a command carried out, or the reason why not.
-/

namespace Microblog

/-- What a command does. -/
structure Effect where
  /-- The directory after the command. -/
  directory : Directory
  /-- The replies that are sent, in order, each to the connection it is for. -/
  outgoing : List (ConnectionId × Reply)
  /-- The connection that the command came from is closed after the last reply. -/
  closes : Bool := false

/-- The captcha that is always refused. -/
def refusedCaptcha : UInt8 := 0x30

/-- The accounts of the members named, or the first name that is nobody's. -/
def Directory.lookup (d : Directory) (names : List String) : Except Rejection (List Account) :=
  names.mapM fun name =>
    match d.member? name with
    | some account => .ok account
    | none => .error (.unknownUser name)

section

variable (d : Directory) (filter : ContentFilter) (accepts : ConnectionId → Bool)
  (c : ConnectionId)

/-- A new account. -/
def executeRegister (ack : Ack) (name password : String) (born : BirthDate) :
    Except Rejection Effect :=
  match d.register name password born with
  | .ok d => .ok { directory := d, outgoing := [(c, .ack ack)] }
  | .error why => .error why

/-- A session on the connection, if it has none and the account is not in use.  All
notifications that wait are sent after the acknowledgement. -/
def executeLogin (ack : Ack) (name password : String) (captcha : UInt8) :
    Except Rejection Effect :=
  if c ∈ d.sessions then .error .alreadyLoggedIn
  else if captcha = refusedCaptcha then .error .captchaRejected
  else match d.member? name with
    | none => .error (.unknownUser name)
    | some account =>
      if account.password ≠ password then .error .wrongPassword
      else if account.isConnected then .error (.alreadyConnected name)
      else .ok
        { directory := d.login (.member name) c
          outgoing := (c, .ack ack) :: account.pending.map fun n => (c, .notification n) }

/-- The end of the session and of the connection.  This is carried out whenever
anybody has a session anywhere. -/
def executeLogout (ack : Ack) : Except Rejection Effect :=
  if d.sessions.isEmpty then .error .noActiveSessions
  else .ok { directory := d.logout c, outgoing := [(c, .ack ack)], closes := true }

/-- The user of the connection follows another, or stops to. -/
def executeFollow (ack : Ack) (follow : Bool) (name : String) : Except Rejection Effect :=
  match d.sessionOn c with
  | none => .error .notLoggedIn
  | some (id, _) =>
    match if follow then d.follow? id name else d.unfollow? id name with
    | none => .error (.followRejected name)
    | some d => .ok { directory := d, outgoing := [(c, .ack ack)] }

/-- A post reaches its audience and enters the history. -/
def executePost (ack : Ack) (content : String) : Except Rejection Effect :=
  match d.sessionOn c with
  | none => .error .notLoggedIn
  | some (_, author) =>
    let n : Notification := ⟨.post, author.name, content⟩
    let delivered := d.deliverAll accepts n (d.audience author content)
    .ok
      { directory := delivered.2.record n
        outgoing := (delivered.1.map fun reader => (reader, .notification n)) ++ [(c, .ack ack)] }

/-- A private message, redacted, reaches its recipient and enters the history.  It
is refused if the sender has blocked the recipient. -/
def executePm (ack : Ack) (name content : String) : Except Rejection Effect :=
  match d.sessionOn c with
  | none => .error .notLoggedIn
  | some (_, author) =>
    match d.member? name with
    | none => .error (.unknownUser name)
    | some recipient =>
      if author.name ∈ recipient.blockedBy then .error (.blocked name)
      else
        let n : Notification := ⟨.pm, author.name, filter.apply content⟩
        let delivered := d.deliver accepts n (.member name)
        .ok
          { directory := delivered.2.record n
            outgoing :=
              (delivered.1.toList.map fun reader => (reader, .notification n)) ++ [(c, .ack ack)] }

/-- The statistics of everybody who has not blocked the user of the connection. -/
def executeLogStat (ack : Ack) : Except Rejection Effect :=
  match d.sessionOn c with
  | none => .error .notLoggedIn
  | some (_, caller) =>
    let entries := (d.visibleTo caller).map d.statsOf
    .ok { directory := d, outgoing := [(c, .ack { ack with body := .stats entries })] }

/-- The statistics of the users listed.  All of them must exist; those who have
blocked the user of the connection are left out. -/
def executeStat (ack : Ack) (names : List String) : Except Rejection Effect :=
  match d.sessionOn c with
  | none => .error .notLoggedIn
  | some (_, caller) =>
    match d.lookup names with
    | .error why => .error why
    | .ok accounts =>
      let entries := (accounts.filter fun a => a.name ∉ caller.blockedBy).map d.statsOf
      .ok { directory := d, outgoing := [(c, .ack { ack with body := .stats entries })] }

/-- The user of the connection blocks another. -/
def executeBlock (ack : Ack) (name : String) : Except Rejection Effect :=
  match d.sessionOn c with
  | none => .error .notLoggedIn
  | some (id, _) =>
    match d.member? name with
    | none => .error (.unknownUser name)
    | some _ =>
      .ok { directory := d.block id (.member name), outgoing := [(c, .ack ack)] }

/-- A command from the connection `c`, carried out on the directory `d`. -/
def Command.execute (command : Command) : Except Rejection Effect :=
  match command with
  | register name password born => executeRegister d c command.ack name password born
  | login name password captcha => executeLogin d c command.ack name password captcha
  | logout => executeLogout d c command.ack
  | follow direction name => executeFollow d c command.ack direction name
  | post content => executePost d accepts c command.ack content
  | pm name content => executePm d filter accepts c command.ack name content
  | logStat => executeLogStat d c command.ack
  | stat names => executeStat d c command.ack names
  | block name => executeBlock d c command.ack name

end

end Microblog
