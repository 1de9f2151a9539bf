import Microblog.Wire.Reply

/-!
# Reading replies with a cursor

The reading of `Reply` again, but by a cursor that goes forward over all the bytes and does
not go back when something cannot be read.  Statistics are counted before any of them is
read.  The three parts of a notification are read whatever became of those before, and only
then is it asked whether all of them are there.

## Main definitions

* `Cursor`, `Reading` — a position in some bytes, and what goes forward from there.
* `Cursor.reply` — the reply at the cursor.
* `Cursor.decodeReply` — the reply at the front of bytes, and where the cursor is behind it.
-/

namespace Microblog.Wire

open Text

/-- A position in some bytes. -/
structure Cursor where
  /-- The bytes. -/
  bytes : Bytes
  /-- How many of them have been read. -/
  pos : Nat := 0
  deriving DecidableEq, Repr, Inhabited

/-- Why nothing was read. -/
inductive Halt where
  /-- The bytes end too early. -/
  | short
  /-- The bytes are no reply. -/
  | fault (why : ProtocolFault)
  deriving DecidableEq, Repr, Inhabited

/-- What reads a value at a cursor, or nothing.  The cursor goes forward in either case. -/
abbrev Reading := EStateM Halt Cursor

namespace Cursor

/-- How many bytes an entry of statistics takes. -/
def entrySize : Nat := 9

/-- The bytes that are left. -/
def rest (c : Cursor) : Bytes := c.bytes.drop c.pos

/-- How many bytes are left. -/
def remaining (c : Cursor) : Nat := c.bytes.length - c.pos

/-- The cursor `n` bytes further on. -/
def advance (c : Cursor) (n : Nat) : Cursor := { c with pos := c.pos + n }

theorem advance_advance (c : Cursor) (n m : Nat) : (c.advance n).advance m = c.advance (n + m) :=
  congrArg (Cursor.mk c.bytes) (Nat.add_assoc ..)

theorem rest_advance (c : Cursor) (n : Nat) : (c.advance n).rest = c.rest.drop n :=
  List.drop_drop.symm

theorem remaining_eq (c : Cursor) : c.remaining = c.rest.length := List.length_drop.symm

/-- A byte. -/
def byte : Reading UInt8 := fun c =>
  match c.bytes[c.pos]? with
  | none => .error .short c
  | some b => .ok b (c.advance 1)

/-- A number of sixteen bits. -/
def word : Reading UInt16 := fun c =>
  match c.rest.take 2 with
  | [hi, lo] => .ok (ofBytes hi lo) (c.advance 2)
  | _ => .error .short c

/-- A text that ends with a zero byte. -/
def field : Reading String := fun c =>
  match c.rest.findIdx? (· = terminator) with
  | none => .error .short c
  | some n => .ok (Utf8.decode (c.rest.take n)) (c.advance (n + 1))

/-- The opcode with a given code. -/
def known (code : UInt16) : Reading Opcode :=
  match Opcode.ofCode? code with
  | none => throw (.fault (.unknownOpcode code))
  | some o => return o

/-- An opcode. -/
def opcode : Reading Opcode := do known (← word)

/-- What `r` reads, or nothing.  The next reading goes on from where the cursor is. -/
def attempt {α : Type} (r : Reading α) : Reading (Option α) := fun c =>
  match r c with
  | .ok a c => .ok (some a) c
  | .error _ c => .ok none c

/-- One entry of statistics. -/
def entry : Reading Stats := do
  let age ← word
  let posts ← word
  let followers ← word
  let following ← word
  let _ ← byte
  return { age, posts, followers, following }

/-- `n` entries of statistics, behind those in `read`. -/
def entriesFrom (read : List Stats) : Nat → Reading (List Stats)
  | 0 => return read
  | n + 1 => do
    let s ← entry
    entriesFrom (read ++ [s]) n

/-- `n` entries of statistics, once all of them are there. -/
def entries (n : Nat) : Reading (List Stats) := fun c =>
  if c.remaining < n * entrySize then .error .short c else entriesFrom [] n c

/-- What an acknowledgement of the command `o` tells besides. -/
def ackBody (o : Opcode) : Reading AckBody :=
  match o with
  | .follow => do
    let direction ← byte
    let _ ← byte
    let username ← field
    return .follow (direction = 0x30) username
  | .logStat | .stat => do
    let count ← word
    return .stats (← entries count.toNat)
  | _ => return .empty

/-- A notification, after its opcode. -/
def notification : Reading Notification := do
  let kind ← attempt byte
  let author ← attempt field
  let content ← attempt field
  match kind, author, content with
  | some kind, some author, some content =>
    return { kind := if kind = 0 then .pm else .post, author, content }
  | _, _, _ => throw .short

/-- A reply. -/
def reply : Reading Reply := do
  match ← opcode with
  | .error => return .error (← opcode)
  | .notification => return .notification (← notification)
  | .ack =>
    let o ← opcode
    return .ack ⟨o, ← ackBody o⟩
  | o => throw (.fault (.notAReply o))

/-- The reply at the front of `bs` and the number of bytes that it takes, or nothing if more
bytes are needed. -/
def decodeReply (bs : Bytes) : Except ProtocolFault (Option (Reply × Nat)) :=
  match reply { bytes := bs } with
  | .ok r c => .ok (some (r, c.pos))
  | .error .short _ => .ok none
  | .error (.fault why) _ => .error why

end Cursor

end Microblog.Wire
