/-!
# Opcodes

Every frame opens with a sixteen-bit code that says what it is.  Twelve codes
are in use; nine of them name the commands of a client and three the replies
that only a server sends.

## Main definitions

* `Opcode` — the twelve kinds of frame.
* `Opcode.code`, `Opcode.ofCode?` — their codes, and the way back.
* `Opcode.name` — the word for each, as command lines and diagnostics spell it.

## Main results

* `Opcode.ofCode?_eq_some_iff` — a code is read as the opcode that has it, and a
  code that no opcode has is read as none.
-/

namespace Microblog

/-- What a frame is. -/
inductive Opcode where
  /-- Open an account. -/
  | register
  /-- Open a session on the connection. -/
  | login
  /-- Close the session and the connection. -/
  | logout
  /-- Follow a user, or stop following. -/
  | follow
  /-- Publish a post. -/
  | post
  /-- Write to one user. -/
  | pm
  /-- Ask for the statistics of everybody. -/
  | logStat
  /-- Ask for the statistics of the users listed. -/
  | stat
  /-- A post or private message, on its way to a reader. -/
  | notification
  /-- A command was carried out. -/
  | ack
  /-- A command was refused. -/
  | error
  /-- Block a user. -/
  | block
  deriving DecidableEq, Repr, Inhabited

namespace Opcode

/-- The sixteen-bit code of an opcode. -/
def code : Opcode → UInt16
  | register => 1
  | login => 2
  | logout => 3
  | follow => 4
  | post => 5
  | pm => 6
  | logStat => 7
  | stat => 8
  | notification => 9
  | ack => 10
  | error => 11
  | block => 12

/-- The opcode of a code, if the code is in use. -/
def ofCode? : UInt16 → Option Opcode
  | 1 => some register
  | 2 => some login
  | 3 => some logout
  | 4 => some follow
  | 5 => some post
  | 6 => some pm
  | 7 => some logStat
  | 8 => some stat
  | 9 => some notification
  | 10 => some ack
  | 11 => some error
  | 12 => some block
  | _ => none

@[simp] theorem ofCode?_code (o : Opcode) : ofCode? o.code = some o := by
  cases o <;> rfl

/-- A code is read as the opcode that has it. -/
theorem ofCode?_eq_some_iff {c : UInt16} {o : Opcode} : ofCode? c = some o ↔ o.code = c := by
  refine ⟨fun h => ?_, fun h => h ▸ ofCode?_code o⟩
  unfold ofCode? at h
  split at h <;> first | (cases h; rfl) | contradiction

/-- The word for an opcode. -/
def name : Opcode → String
  | register => "REGISTER"
  | login => "LOGIN"
  | logout => "LOGOUT"
  | follow => "FOLLOW"
  | post => "POST"
  | pm => "PM"
  | logStat => "LOGSTAT"
  | stat => "STAT"
  | notification => "NOTIFICATION"
  | ack => "ACK"
  | error => "ERROR"
  | block => "BLOCK"

/-- Only a server sends these. -/
def isServerOnly : Opcode → Bool
  | notification | ack | error => true
  | _ => false

end Opcode

end Microblog
