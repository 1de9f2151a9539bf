import Microblog.Error
import Microblog.Wire.Encode

/-!
# Reading replies

A client reads replies from the front of the bytes received so far.  A reader
has one of three outcomes: a value with the bytes behind it, the news that more
bytes are needed, or a fault.  Readers are put together so that the first part
which lacks bytes, or is at fault, decides.

## Main definitions

* `Outcome`, `Reader` — the outcomes, and what reads from the front of bytes.
* `Reader.reply` — the reader of a reply.
* `decodeReply` — the reply at the front of bytes, and how many bytes it takes.
* `replies` — the replies that bytes consist of, one after another.
-/

namespace Microblog.Wire

/-- What comes of reading from the front of some bytes. -/
inductive Outcome (α : Type) where
  /-- A value, and the bytes behind it. -/
  | done (value : α) (rest : Bytes)
  /-- The bytes end too early. -/
  | more
  /-- The bytes are no reply, whatever follows. -/
  | fault (why : ProtocolFault)
  deriving Repr

/-- What reads a value from the front of bytes. -/
abbrev Reader (α : Type) := Bytes → Outcome α

namespace Reader

/-- Reads nothing. -/
def pure {α : Type} (a : α) : Reader α := fun bs => .done a bs

/-- One reader, and another behind it. -/
def andThen {α β : Type} (r : Reader α) (f : α → Reader β) : Reader β := fun bs =>
  match r bs with
  | .done a rest => f a rest
  | .more => .more
  | .fault why => .fault why

/-- One reader, with its value changed. -/
def map {α β : Type} (f : α → β) (r : Reader α) : Reader β := r.andThen fun a => pure (f a)

/-- A byte. -/
def byte : Reader UInt8
  | [] => .more
  | b :: rest => .done b rest

/-- A number of sixteen bits. -/
def word : Reader UInt16
  | hi :: lo :: rest => .done (ofBytes hi lo) rest
  | _ => .more

/-- A text that ends with a zero byte. -/
def field : Reader String := fun bs =>
  match bs.dropWhile (· ≠ terminator) with
  | [] => .more
  | _ :: rest => .done (Text.Utf8.decode (bs.takeWhile (· ≠ terminator))) rest

/-- The opcode with a given code. -/
def known (code : UInt16) : Reader Opcode := fun bs =>
  match Opcode.ofCode? code with
  | some o => .done o bs
  | none => .fault (.unknownOpcode code)

/-- An opcode. -/
def opcode : Reader Opcode := word.andThen known

/-- One entry of statistics.  The byte at its end is not looked at. -/
def entry : Reader Stats :=
  word.andThen fun age => word.andThen fun posts => word.andThen fun followers =>
    word.andThen fun following => byte.andThen fun _ =>
      pure { age, posts, followers, following }

/-- `n` entries of statistics; `read` holds those read before, the last one first. -/
def entriesFrom (read : List Stats) : Nat → Reader (List Stats)
  | 0, bs => .done read.reverse bs
  | n + 1, bs =>
    match entry bs with
    | .done s rest => entriesFrom (s :: read) n rest
    | .more => .more
    | .fault why => .fault why

/-- What an acknowledgement of the command `o` tells besides. -/
def ackBody (o : Opcode) : Reader AckBody :=
  match o with
  | .follow =>
    byte.andThen fun direction => byte.andThen fun _ => field.andThen fun username =>
      pure (.follow (direction = 0x30) username)
  | .logStat | .stat => word.andThen fun count => map .stats (entriesFrom [] count.toNat)
  | _ => pure .empty

/-- A notification, after its opcode. -/
def notification : Reader Notification :=
  byte.andThen fun kind => field.andThen fun author => field.andThen fun content =>
    pure { kind := if kind = 0 then .pm else .post, author, content }

/-- A reply. -/
def reply : Reader Reply :=
  opcode.andThen fun
    | .error => map .error opcode
    | .notification => map .notification notification
    | .ack => opcode.andThen fun o => map (fun body => .ack ⟨o, body⟩) (ackBody o)
    | o => fun _ => .fault (.notAReply o)

/-! ### Entries, one after another -/

theorem entriesFrom_eq (read : List Stats) (n : Nat) (bs : Bytes) :
    entriesFrom read n bs = map (read.reverse ++ ·) (entriesFrom [] n) bs := by
  induction n generalizing read bs with
  | zero => simp [entriesFrom, map, andThen, pure]
  | succ n ih =>
    simp only [entriesFrom, map, andThen]
    cases entry bs with
    | done s rest =>
      simp only
      rw [ih, ih [s]]
      simp only [map, andThen, pure]
      cases entriesFrom [] n rest <;> simp
    | more => rfl
    | fault why => rfl

/-- Entries are read one by one. -/
theorem entriesFrom_succ (n : Nat) :
    entriesFrom [] (n + 1) = entry.andThen fun s => map (s :: ·) (entriesFrom [] n) := by
  funext bs
  simp only [entriesFrom, andThen]
  cases entry bs with
  | done s rest => exact entriesFrom_eq [s] n rest
  | more => rfl
  | fault why => rfl

end Reader

/-- The reply at the front of `bs` and the number of bytes that it takes, or
nothing if more bytes are needed. -/
def decodeReply (bs : Bytes) : Except ProtocolFault (Option (Reply × Nat)) :=
  match Reader.reply bs with
  | .done r rest => .ok (some (r, bs.length - rest.length))
  | .more => .ok none
  | .fault why => .error why

/-- The replies at the front of `bs`, one after another, and the bytes behind the
last of them. -/
def replies (bs : Bytes) : List Reply × Bytes :=
  match Reader.reply bs with
  | .done r rest =>
    if rest.length < bs.length then (r :: (replies rest).1, (replies rest).2) else ([], bs)
  | _ => ([], bs)
termination_by bs.length

end Microblog.Wire
