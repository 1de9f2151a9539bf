import Microblog.Wire.Decoder

/-!
# Reading commands with registers

The reading of `Decoder` again, but out of a fixed set of registers that all kinds of
frame share: two buffers, a count of the separators that were read, one spare byte,
and the bytes of the code.  Which register holds what depends on the frame.  A
`REGISTER` has username and password in one buffer with a zero byte between them; the
spare byte is the direction of a `FOLLOW` and the captcha of a `LOGIN`.

Nothing but `Registers.reset` clears a register that the next frame might find in use.

## Main definitions

* `Registers` — the registers.
* `Registers.step` — what one byte does to them, and the command that it completes.
* `Registers.scan` — many bytes, with the places where commands end.
-/

namespace Microblog.Wire

open Text

/-- The registers that a reader of commands keeps from byte to byte. -/
structure Registers where
  /-- The bytes of the code, as far as they are in. -/
  code : UInt8 × UInt8 := (0, 0)
  /-- How many bytes of the code are in. -/
  codeLength : Nat := 0
  /-- What the frame is, once its code is in and is that of a command with a body. -/
  opcode : Option Opcode := none
  /-- The first buffer. -/
  first : Bytes := []
  /-- The second buffer. -/
  second : Bytes := []
  /-- How many separators, or bytes of fixed width, the body has had. -/
  separators : UInt8 := 0
  /-- The captcha of a `LOGIN`, or the direction of a `FOLLOW`. -/
  spare : UInt8 := 0
  deriving DecidableEq, Repr, Inhabited

namespace Registers

/-- No frame has begun. -/
def isIdle (s : Registers) : Bool := s.codeLength = 0

/-- All registers as they were at first. -/
def reset (_ : Registers) : Registers := {}

/-- One byte more in the first buffer. -/
def pushFirst (s : Registers) (b : UInt8) : Registers := { s with first := s.first ++ [b] }

/-- One byte more in the second buffer. -/
def pushSecond (s : Registers) (b : UInt8) : Registers := { s with second := s.second ++ [b] }

/-- A byte of the body of a `REGISTER`.  The zero byte behind the username goes into the
first buffer too, the one behind the password into none. -/
def register (s : Registers) (b : UInt8) : Registers × Option Command :=
  if s.separators < 2 then
    if b = terminator then
      let s := { s with separators := s.separators + 1 }
      if s.separators = 2 then (s, none) else (s.pushFirst b, none)
    else (s.pushFirst b, none)
  else if b ≠ terminator then (s.pushSecond b, none)
  else
    let username := s.first.takeWhile (· ≠ terminator)
    let password := (s.first.dropWhile (· ≠ terminator)).drop 1
    ({ s with first := [], second := [] },
      some (.register (Utf8.decode username) (Utf8.decode password) (.ofField s.second)))

/-- A byte of the body of a `LOGIN`. -/
def login (s : Registers) (b : UInt8) : Registers × Option Command :=
  if s.separators = 0 ∨ s.separators = 1 then
    if b = terminator then ({ s with separators := s.separators + 1 }, none)
    else if s.separators = 0 then (s.pushFirst b, none)
    else (s.pushSecond b, none)
  else if b = terminator then
    ({ s with first := [], second := [] },
      some (.login (Utf8.decode s.first) (Utf8.decode s.second) s.spare))
  else ({ s with spare := b }, none)

/-- A byte of the body of a `FOLLOW`. -/
def follow (s : Registers) (b : UInt8) : Registers × Option Command :=
  if s.separators = 0 then ({ s with spare := b, separators := 1 }, none)
  else if b ≠ terminator then (s.pushFirst b, none)
  else ({ s with first := [] }, some (.follow (s.spare = 0) (Utf8.decode s.first)))

/-- A byte of a body that is one field, given the command that the field makes. -/
def single (s : Registers) (b : UInt8) (command : String → Command) :
    Registers × Option Command :=
  if b = terminator then ({ s with first := [] }, some (command (Utf8.decode s.first)))
  else (s.pushFirst b, none)

/-- A byte of the body of a `PM`. -/
def pm (s : Registers) (b : UInt8) : Registers × Option Command :=
  if s.separators = 0 then
    if b = terminator then ({ s with separators := 1 }, none) else (s.pushFirst b, none)
  else if b = terminator then
    ({ s with first := [], second := [] },
      some (.pm (Utf8.decode s.first) (Utf8.decode s.second)))
  else (s.pushSecond b, none)

/-- A byte of a body. -/
def body (s : Registers) (b : UInt8) : Registers × Option Command :=
  match s.opcode with
  | some .register => s.register b
  | some .login => s.login b
  | some .follow => s.follow b
  | some .post => s.single b .post
  | some .pm => s.pm b
  | some .stat => s.single b fun list => .stat (usernames list)
  | some .block => s.single b .block
  | _ => (s, none)

/-- The code is in. -/
def begin (s : Registers) : Registers × Option Command :=
  match Opcode.ofCode? (ofBytes s.code.1 s.code.2) with
  | some .logout => (s.reset, some .logout)
  | some .logStat => (s.reset, some .logStat)
  | some o => if o.isServerOnly then (s.reset, none) else ({ s with opcode := some o }, none)
  | none => (s.reset, none)

/-- Behind a complete command the registers are cleared. -/
def clear : Registers × Option Command → Registers × Option Command
  | (s, some c) => (s.reset, some c)
  | (s, none) => (s, none)

/-- One byte: the registers after it, and the command that it completes. -/
def step (s : Registers) (b : UInt8) : Registers × Option Command :=
  match s.codeLength with
  | 0 =>
    if b ≠ separator then ({ s with code := (b, s.code.2), codeLength := 1 }, none) else (s, none)
  | 1 => begin { s with code := (s.code.1, b), codeLength := 2 }
  | _ => clear (s.body b)

/-- The registers after the bytes `bs`, the first of which is byte number `n` of the
stream, and the commands that they complete, each with the number of its last byte. -/
def scan (s : Registers) (n : Nat) : Bytes → Registers × List (Nat × Command)
  | [] => (s, [])
  | b :: bs =>
    (((s.step b).1.scan (n + 1) bs).1,
      ((s.step b).2.map fun c => (n, c)).toList ++ ((s.step b).1.scan (n + 1) bs).2)

end Registers

end Microblog.Wire
