import Microblog.Text.Pieces
import Microblog.Wire.Encode

/-!
# Reading commands byte by byte

A server reads commands from a stream that may break off anywhere.  The decoder
takes one byte at a time and gives a command with the byte that completes it.

Between two bytes it is in one of four situations: between frames, after the
first byte of a code, before the raw byte of a `FOLLOW`, or within a field.
`OpenFrame` says what field that is, and keeps the fields of the frame that have
been read.  A completed frame leaves nothing behind, so being between frames is
one state and not many.

Between frames any number of `;` is skipped.  A frame with a code that no
command has is dropped with its two bytes, and reading goes on behind them.

## Main definitions

* `OpenFrame` — a frame within a field, and `OpenFrame.close`, the end of the field.
* `Decoder`, `Decoder.step` — the decoder and what one byte does to it.
* `Decoder.scan`, `Decoder.feed` — many bytes, with or without the places where
  commands end.

## Main results

* `Decoder.scan_cons`, `Decoder.scan_append` — cutting the stream does not matter.
-/

namespace Microblog.Wire

open Text

/-- A frame within a field; the fields before it have been read. -/
inductive OpenFrame where
  /-- The username of a `REGISTER`. -/
  | registerName
  /-- The password of a `REGISTER`. -/
  | registerPassword (username : String)
  /-- The date of a `REGISTER`. -/
  | registerDate (username password : String)
  /-- The username of a `LOGIN`. -/
  | loginName
  /-- The password of a `LOGIN`. -/
  | loginPassword (username : String)
  /-- The captcha of a `LOGIN`. -/
  | loginCaptcha (username password : String)
  /-- The username of a `FOLLOW`. -/
  | followName (follow : Bool)
  /-- The content of a `POST`. -/
  | postContent
  /-- The recipient of a `PM`. -/
  | pmRecipient
  /-- The content of a `PM`. -/
  | pmContent (username : String)
  /-- The usernames of a `STAT`. -/
  | statNames
  /-- The username of a `BLOCK`. -/
  | blockName
  deriving DecidableEq, Repr, Inhabited

/-- The usernames of a `STAT` field: its non-empty parts between the bars. -/
def usernames (s : String) : List String :=
  ((pieces '|' s.toList).filter fun name => !name.isEmpty).map String.ofList

/-- The end of a field that holds the bytes `bs`: the next field of the frame, or
the command that is now complete.  A captcha is the last byte of its field, and
zero if the field is empty. -/
def OpenFrame.close (frame : OpenFrame) (bs : Bytes) : OpenFrame ⊕ Command :=
  match frame with
  | registerName => .inl (.registerPassword (Utf8.decode bs))
  | registerPassword username => .inl (.registerDate username (Utf8.decode bs))
  | registerDate username password => .inr (.register username password (.ofField bs))
  | loginName => .inl (.loginPassword (Utf8.decode bs))
  | loginPassword username => .inl (.loginCaptcha username (Utf8.decode bs))
  | loginCaptcha username password => .inr (.login username password (bs.getLast?.getD 0))
  | followName direction => .inr (.follow direction (Utf8.decode bs))
  | postContent => .inr (.post (Utf8.decode bs))
  | pmRecipient => .inl (.pmContent (Utf8.decode bs))
  | pmContent username => .inr (.pm username (Utf8.decode bs))
  | statNames => .inr (.stat (usernames (Utf8.decode bs)))
  | blockName => .inr (.block (Utf8.decode bs))

/-- The reader of a stream of commands, between two bytes. -/
inductive Decoder where
  /-- Between frames. -/
  | idle
  /-- After the first byte of a code. -/
  | code (hi : UInt8)
  /-- Before the raw byte of a `FOLLOW`, which says whether to follow. -/
  | direction
  /-- Within a field; the bytes read of it are kept last first. -/
  | field (frame : OpenFrame) (read : Bytes)
  deriving DecidableEq, Repr, Inhabited

namespace Decoder

/-- No frame has begun. -/
def isIdle : Decoder → Bool
  | idle => true
  | _ => false

/-- What follows the code of a frame: its first field, or the command itself where
there is nothing to follow.  A code that no command has is forgotten. -/
def begin : Option Opcode → Decoder × Option Command
  | some .register => (field .registerName [], none)
  | some .login => (field .loginName [], none)
  | some .logout => (idle, some .logout)
  | some .follow => (direction, none)
  | some .post => (field .postContent [], none)
  | some .pm => (field .pmRecipient [], none)
  | some .logStat => (idle, some .logStat)
  | some .stat => (field .statNames [], none)
  | some .block => (field .blockName [], none)
  | some .notification | some .ack | some .error | none => (idle, none)

/-- One byte: the decoder after it, and the command that it completes. -/
def step (d : Decoder) (b : UInt8) : Decoder × Option Command :=
  match d with
  | idle => if b = separator then (idle, none) else (code b, none)
  | code hi => begin (Opcode.ofCode? (ofBytes hi b))
  | direction => (field (.followName (b = 0)) [], none)
  | field frame read =>
    if b = terminator then
      match frame.close read.reverse with
      | .inl next => (field next [], none)
      | .inr c => (idle, some c)
    else (field frame (b :: read), none)

/-- The decoder after the bytes `bs`, the first of which is byte number `n` of the
stream, and the commands that they complete, each with the number of its last
byte.  `found` holds those found before, the last one first. -/
def scanFrom (d : Decoder) (n : Nat) (found : List (Nat × Command)) :
    Bytes → Decoder × List (Nat × Command)
  | [] => (d, found.reverse)
  | b :: bs =>
    scanFrom (d.step b).1 (n + 1)
      (match (d.step b).2 with
        | none => found
        | some c => (n, c) :: found)
      bs

/-- The decoder after the bytes `bs`, and the commands that they complete, each
with the place in `bs` of its last byte, counted from `n`. -/
def scan (d : Decoder) (n : Nat) (bs : Bytes) : Decoder × List (Nat × Command) :=
  scanFrom d n [] bs

/-- The decoder after the bytes `bs`, and the commands that they complete. -/
def feed (d : Decoder) (bs : Bytes) : Decoder × List Command :=
  ((d.scan 0 bs).1, (d.scan 0 bs).2.map Prod.snd)

/-! ### One byte, and then the others -/

theorem scanFrom_eq (d : Decoder) (n : Nat) (found : List (Nat × Command)) (bs : Bytes) :
    scanFrom d n found bs = ((d.scan n bs).1, found.reverse ++ (d.scan n bs).2) := by
  induction bs generalizing d n found with
  | nil => simp [scan, scanFrom]
  | cons b bs ih =>
    rw [scan, scanFrom, scanFrom, ih, ih (d.step b).1 (n + 1)]
    cases (d.step b).2 <;> simp

@[simp] theorem scan_nil (d : Decoder) (n : Nat) : d.scan n [] = (d, []) := rfl

/-- A command is found with its last byte. -/
theorem scan_cons (d : Decoder) (n : Nat) (b : UInt8) (bs : Bytes) :
    d.scan n (b :: bs) =
      (((d.step b).1.scan (n + 1) bs).1,
        ((d.step b).2.map fun c => (n, c)).toList ++ ((d.step b).1.scan (n + 1) bs).2) := by
  rw [scan, scanFrom, scanFrom_eq]
  cases (d.step b).2 <;> rfl

/-- Cutting the stream in two does not matter. -/
theorem scan_append (d : Decoder) (n : Nat) (as bs : Bytes) :
    d.scan n (as ++ bs) =
      (((d.scan n as).1.scan (n + as.length) bs).1,
        (d.scan n as).2 ++ ((d.scan n as).1.scan (n + as.length) bs).2) := by
  induction as generalizing d n with
  | nil => simp
  | cons a as ih =>
    rw [List.cons_append, scan_cons, scan_cons, ih, List.append_assoc, List.length_cons,
      Nat.add_right_comm, Nat.add_assoc n]

/-- Where a stream begins has no bearing on the commands in it. -/
theorem scan_eq_feed (d : Decoder) (n : Nat) (bs : Bytes) :
    (d.scan n bs).1 = (d.feed bs).1 ∧ (d.scan n bs).2.map Prod.snd = (d.feed bs).2 := by
  have h : ∀ (d : Decoder) (n m : Nat) (bs : Bytes), (d.scan n bs).1 = (d.scan m bs).1 ∧
      (d.scan n bs).2.map Prod.snd = (d.scan m bs).2.map Prod.snd := by
    intro d n m bs
    induction bs generalizing d n m with
    | nil => exact ⟨rfl, rfl⟩
    | cons b bs ih =>
      have ih := ih (d.step b).1 (n + 1) (m + 1)
      rw [scan_cons, scan_cons]
      refine ⟨ih.1, ?_⟩
      rw [List.map_append, List.map_append, ih.2]
      cases (d.step b).2 <;> rfl
  exact h d n 0 bs

@[simp] theorem feed_nil (d : Decoder) : d.feed [] = (d, []) := rfl

theorem feed_cons (d : Decoder) (b : UInt8) (bs : Bytes) :
    d.feed (b :: bs) =
      (((d.step b).1.feed bs).1, (d.step b).2.toList ++ ((d.step b).1.feed bs).2) := by
  have h := scan_eq_feed (d.step b).1 1 bs
  rw [feed, scan_cons, Nat.zero_add]
  simp only [List.map_append, h.1, h.2]
  cases (d.step b).2 <;> rfl

theorem feed_append (d : Decoder) (as bs : Bytes) :
    d.feed (as ++ bs) =
      (((d.feed as).1.feed bs).1, (d.feed as).2 ++ ((d.feed as).1.feed bs).2) := by
  induction as generalizing d with
  | nil => simp
  | cons a as ih => rw [List.cons_append, feed_cons, feed_cons, ih, List.append_assoc]

end Decoder

end Microblog.Wire
