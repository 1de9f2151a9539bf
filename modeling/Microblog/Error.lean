import Microblog.Opcode

/-!
# What can go wrong

Errors are kept as causes.  The wording is in one place, `Error.message`, and
hangs on nothing but the cause.

## Main definitions

* `Rejection` — why a server refuses a command.
* `ProtocolFault` — what is wrong with the bytes of a server or the line of a user.
* `ConfigFault` — what is wrong with a configuration.
* `Error` — any of these, a failure of the transport, or a full server.
* `Opcode.form` — how each command is to be typed.
* `Error.message` — the wording.
-/

namespace Microblog

/-- Why a server refuses a command. -/
inductive Rejection where
  /-- The command needs a session, and the connection has none. -/
  | notLoggedIn
  /-- The connection already has a session. -/
  | alreadyLoggedIn
  /-- An account with this name exists. -/
  | usernameTaken (name : String)
  /-- No account has this name. -/
  | unknownUser (name : String)
  /-- The password is not that of the account. -/
  | wrongPassword
  /-- The captcha was not solved. -/
  | captchaRejected
  /-- The account is in use on some connection. -/
  | alreadyConnected (name : String)
  /-- There is no session that could be closed. -/
  | noActiveSessions
  /-- The user cannot be followed, or is not followed. -/
  | followRejected (name : String)
  /-- The sender has blocked this user. -/
  | blocked (name : String)
  deriving DecidableEq, Repr, Inhabited

/-- What is wrong with the bytes of a server, or with the line of a user. -/
inductive ProtocolFault where
  /-- No frame has this code. -/
  | unknownOpcode (code : UInt16)
  /-- A server sends no such frame. -/
  | notAReply (opcode : Opcode)
  /-- The stream ended after `count` bytes of an incomplete reply. -/
  | truncated (count : Nat)
  /-- The line has no words. -/
  | emptyCommand
  /-- No command has this name. -/
  | unknownCommand (keyword : String)
  /-- The line lacks a word that this command needs. -/
  | missingWord (opcode : Opcode)
  /-- Anything else, in words. -/
  | other (text : String)
  deriving DecidableEq, Repr, Inhabited

/-- What is wrong with a configuration. -/
inductive ConfigFault where
  /-- The address to listen on cannot be read; `shown` is that address, quoted. -/
  | invalidListenAddress (shown : String)
  /-- Anything else, in words. -/
  | other (text : String)
  deriving DecidableEq, Repr, Inhabited

/-- What can go wrong. -/
inductive Error where
  /-- The transport failed. -/
  | io (text : String)
  /-- Something that was received, or typed, makes no sense. -/
  | protocol (fault : ProtocolFault)
  /-- The server has as many connections as it takes. -/
  | connectionLimit (active : Nat)
  /-- The configuration makes no sense. -/
  | config (fault : ConfigFault)
  /-- A command was refused. -/
  | rejected (why : Rejection)
  deriving DecidableEq, Repr, Inhabited

/-- How a command is to be typed. -/
def Opcode.form : Opcode → String
  | .register => "REGISTER <user> <password> <DD-MM-YYYY>"
  | .login => "LOGIN <user> <password> <captcha>"
  | .follow => "FOLLOW <0|1> <user>"
  | .post => "POST <content>"
  | .pm => "PM <user> <content>"
  | .stat => "STAT <user1|user2|...>"
  | .block => "BLOCK <user>"
  | o => o.name

/-- The wording of a refusal. -/
def Rejection.message : Rejection → String
  | notLoggedIn => "No user is logged in on this connection"
  | alreadyLoggedIn => "A user is already logged in on this connection"
  | usernameTaken name => "Username already registered: " ++ name
  | unknownUser name => "Unknown user: " ++ name
  | wrongPassword => "Wrong password"
  | captchaRejected => "Captcha rejected"
  | alreadyConnected name => "User already connected elsewhere: " ++ name
  | noActiveSessions => "No user is logged in anywhere"
  | followRejected name => "Follow/unfollow rejected for " ++ name
  | blocked name => "Blocked relationship with " ++ name

/-- The wording of a fault in what was received or typed. -/
def ProtocolFault.message : ProtocolFault → String
  | unknownOpcode code => "Unknown opcode: " ++ code.toNat.repr
  | notAReply opcode => opcode.name ++ " is not a server reply"
  | truncated count =>
    "Connection closed with " ++ count.repr ++ " bytes of an incomplete reply"
  | emptyCommand => "empty command"
  | unknownCommand keyword => "unknown command: " ++ keyword
  | missingWord opcode => "usage: " ++ opcode.form
  | other text => text

/-- The wording of a fault in a configuration. -/
def ConfigFault.message : ConfigFault → String
  | invalidListenAddress shown =>
    "invalid listen address " ++ shown ++ ": invalid socket address syntax"
  | other text => text

/-- The wording of an error. -/
def Error.message : Error → String
  | io text => "IO error: " ++ text
  | protocol fault => "Protocol error: " ++ fault.message
  | connectionLimit active => "Connection limit reached (" ++ active.repr ++ " active)"
  | config fault => "Configuration error: " ++ fault.message
  | rejected why => why.message

end Microblog
