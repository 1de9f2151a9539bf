import Microblog.Message

/-!
# Writing frames

A frame is its opcode, high byte first, and a body whose shape the opcode
decides.  Frames carry no length: a text ends with a zero byte, and everything
else has a fixed width or is counted.

| opcode | body |
|---|---|
| `REGISTER` | username, password, `DD-MM-YYYY`, each a field |
| `LOGIN` | username and password, each a field; captcha byte, zero |
| `LOGOUT`, `LOGSTAT` | nothing |
| `FOLLOW` | a byte, zero to follow and one to stop; username |
| `POST` | content |
| `PM` | username, content |
| `STAT` | one field, the usernames with bars between them |
| `BLOCK` | username |
| `NOTIFICATION` | a byte, zero for a private message and one for a post; author, content |
| `ERROR` | the opcode refused |
| `ACK` | the opcode acknowledged, and what there is to tell |

## Main definitions

* `word`, `field` — the two ways of writing a number and a text.
* `Command.encode`, `Reply.encode`, `Message.encode` — the bytes of a frame.
-/

namespace Microblog

namespace Wire

/-- The byte that ends a field. -/
def terminator : UInt8 := 0

/-- The byte that may stand between frames. -/
def separator : UInt8 := 0x3B

/-- A number of sixteen bits, high byte first. -/
def word (n : UInt16) : Bytes := [(n >>> 8).toUInt8, n.toUInt8]

/-- The number whose high and low bytes are given. -/
def ofBytes (hi lo : UInt8) : UInt16 := hi.toUInt16 <<< 8 ||| lo.toUInt16

/-- A text, ended by a zero byte. -/
def field (s : String) : Bytes := Text.Utf8.encode s ++ [terminator]

/-- The most entries that an acknowledgement can count. -/
def maxEntries : Nat := 0xFFFF

/-- One entry of statistics: four numbers and a zero byte. -/
def entry (s : Stats) : Bytes :=
  word s.age ++ word s.posts ++ word s.followers ++ word s.following ++ [terminator]

/-- The direction of a `FOLLOW` command. -/
def directionByte (follow : Bool) : UInt8 := if follow then 0 else 1

/-- The direction of a `FOLLOW` acknowledgement, which is a digit. -/
def directionDigit (follow : Bool) : UInt8 := if follow then 0x30 else 0x31

/-- How a notification came about. -/
def kindByte : NotificationKind → UInt8
  | .pm => 0
  | .post => 1

end Wire

open Wire

/-- The bytes of a command, after its opcode. -/
def Command.body : Command → Bytes
  | register username password birthDate =>
    field username ++ field password ++ field birthDate.text
  | login username password captcha =>
    field username ++ field password ++ [captcha, terminator]
  | logout | logStat => []
  | follow direction username => directionByte direction :: field username
  | post content => field content
  | pm username content => field username ++ field content
  | stat usernames => field ("|".intercalate usernames)
  | block username => field username

/-- What an acknowledgement tells besides the command.  Statistics are counted in
sixteen bits, so only the first `maxEntries` entries are written. -/
def AckBody.encode : AckBody → Bytes
  | empty => []
  | follow direction username => directionDigit direction :: 0x20 :: field username
  | stats entries =>
    word (min entries.length maxEntries).toUInt16 ++ (entries.take maxEntries).flatMap entry

/-- The bytes of a reply, after its opcode. -/
def Reply.body : Reply → Bytes
  | notification n => kindByte n.kind :: (field n.author ++ field n.content)
  | ack a => word a.opcode.code ++ a.body.encode
  | error opcode => word opcode.code

/-- The bytes of a command. -/
def Command.encode (c : Command) : Bytes := word c.opcode.code ++ c.body

/-- The bytes of a reply. -/
def Reply.encode (r : Reply) : Bytes := word r.opcode.code ++ r.body

/-- The bytes of a message. -/
def Message.encode : Message → Bytes
  | command c => c.encode
  | reply r => r.encode

end Microblog
