import Microblog.Error
import Microblog.Message
import Microblog.Text.Blank
import Microblog.Text.Pieces
import Microblog.Text.Quoted

/-!
# Commands and replies as lines

A user types a command on a line and is shown each reply on a line of its own.

A line is trimmed by the property `White_Space`, but a word ends only at U+0020;
what stands before the next word is trimmed again.  The command may be typed in
small or capital letters of ASCII.  Words that a command does not need are
ignored.

## Main definitions

* `firstWord` — the first word of a line, and what follows it.
* `Command.ofLine` — the command that a line gives.
* `Message.line` — how a message is shown.
-/

namespace Microblog

open Text

/-- The first word of a line, and what follows it. -/
def firstWord (cs : List Char) : List Char × List Char :=
  ((trimStart cs).takeWhile (· ≠ ' '), trimStart (((trimStart cs).dropWhile (· ≠ ' ')).drop 1))

/-- The commands that can be typed. -/
def Opcode.commands : List Opcode :=
  [.register, .login, .logout, .follow, .post, .pm, .logStat, .stat, .block]

/-- The command with a given name. -/
def Opcode.ofName? (name : String) : Option Opcode := Opcode.commands.find? (·.name = name)

/-- The names in a list with bars between them, trimmed, without the empty ones. -/
def listedNames (cs : List Char) : List String :=
  (((pieces '|' cs).map trim).filter fun name => !name.isEmpty).map String.ofList

/-- The command `o` with the words `cs`. -/
def Command.ofWords (o : Opcode) (cs : List Char) : Except ProtocolFault Command :=
  let first := firstWord cs
  let second := firstWord first.2
  let third := firstWord second.2
  match o with
  | .register =>
    if first.1 = [] ∨ second.1 = [] ∨ third.1 = [] then .error (.missingWord .register)
    else .ok (.register (String.ofList first.1) (String.ofList second.1)
      (.ofField (Utf8.encode (String.ofList third.1))))
  | .login =>
    if first.1 = [] ∨ second.1 = [] ∨ third.1 = [] then .error (.missingWord .login)
    else .ok (.login (String.ofList first.1) (String.ofList second.1)
      ((Utf8.encode (String.ofList third.1)).headD 0))
  | .follow =>
    if first.1 = [] ∨ second.1 = [] then .error (.missingWord .follow)
    else .ok (.follow (first.1 = ['0']) (String.ofList second.1))
  | .post => .ok (.post (String.ofList cs))
  | .pm =>
    if first.1 = [] then .error (.missingWord .pm)
    else .ok (.pm (String.ofList first.1) (String.ofList first.2))
  | .stat =>
    if cs = [] then .error (.missingWord .stat)
    else .ok (.stat (listedNames cs))
  | .block =>
    if first.1 = [] then .error (.missingWord .block)
    else .ok (.block (String.ofList first.1))
  | .logout => .ok .logout
  | .logStat => .ok .logStat
  | .notification | .ack | .error => .error (.unknownCommand o.name)

/-- The command that a line gives. -/
def Command.ofLine (line : String) : Except ProtocolFault Command :=
  let split := firstWord (trim line.toList)
  let keyword := String.ofList (split.1.map Char.toUpper)
  if keyword = "" then .error .emptyCommand
  else match Opcode.ofName? keyword with
    | some o => Command.ofWords o split.2
    | none => .error (.unknownCommand keyword)

/-! ### Showing messages -/

/-- A word, and between braces the fields that belong to it. -/
def record (name : String) (fields : List (String × String)) : String :=
  name ++ " \x7b " ++ ", ".intercalate (fields.map fun f => f.1 ++ ": " ++ f.2) ++ " \x7d"

/-- A truth value as a word. -/
def truth (b : Bool) : String := if b then "true" else "false"

/-- A number in decimal digits. -/
def decimal (n : UInt16) : String := n.toNat.repr

/-- How a command is shown: the fields by name, texts between quotes. -/
def Command.line : Command → String
  | register username password birthDate =>
    record "Register" [("username", quoted username), ("password", quoted password),
      ("birth_date", record "BirthDate" [("day", decimal birthDate.day),
        ("month", decimal birthDate.month), ("year", decimal birthDate.year)])]
  | login username password captcha =>
    record "Login" [("username", quoted username), ("password", quoted password),
      ("captcha", captcha.toNat.repr)]
  | logout => "Logout"
  | follow direction username =>
    record "Follow" [("follow", truth direction), ("username", quoted username)]
  | post content => record "Post" [("content", quoted content)]
  | pm username content =>
    record "Pm" [("username", quoted username), ("content", quoted content)]
  | logStat => "LogStat"
  | stat usernames =>
    record "Stat" [("usernames", "[" ++ ", ".intercalate (usernames.map quoted) ++ "]")]
  | block username => record "Block" [("username", quoted username)]

/-- How an acknowledgement is shown: one line, or one for each entry of statistics. -/
def Ack.line (a : Ack) : String :=
  let start := "ACK " ++ decimal a.opcode.code
  match a.body with
  | .empty | .stats [] => start
  | .follow direction username => " ".intercalate [start, if direction then "0" else "1", username]
  | .stats entries =>
    "\n".intercalate <| entries.map fun s =>
      " ".intercalate
        [start, decimal s.age, decimal s.posts, decimal s.followers, decimal s.following]

/-- How a reply is shown. -/
def Reply.line : Reply → String
  | notification n =>
    let kind := match n.kind with
      | .pm => "PM"
      | .post => "Public"
    " ".intercalate ["NOTIFICATION", kind, n.author, n.content]
  | ack a => a.line
  | error opcode => "ERROR " ++ decimal opcode.code

/-- How a message is shown. -/
def Message.line : Message → String
  | command c => c.line
  | reply r => r.line

end Microblog
