import Microblog.Error
import Microblog.Wire.Encode

/-!
# Writing messages to a sink

A message is written as a whole and then flushed.  A sink need not take all
bytes at once, and it may stop taking any.

## Main definitions

* `Sink` — what takes bytes, and what it has taken.
* `Sink.writeAll` — bytes written until none is left.
* `Sink.send` — a message written and flushed.
-/

namespace Microblog.Wire

/-- What takes bytes. -/
structure Sink where
  /-- The most bytes that it takes at once. -/
  step : Nat
  /-- The most bytes that it takes in all. -/
  limit : Nat
  /-- What a write fails with that can take no byte; without it such a write takes
  none and says so. -/
  failure : Option String
  /-- What a flush fails with. -/
  flushFailure : Option String
  /-- The bytes taken. -/
  written : Bytes := []
  /-- How often it was flushed. -/
  flushes : Nat := 0
  deriving DecidableEq, Repr, Inhabited

namespace Sink

/-- How many of `n` bytes one write takes. -/
def taken (s : Sink) (n : Nat) : Nat := min (min s.step (s.limit - s.written.length)) n

/-- The sink after one write of `bs`. -/
def write (s : Sink) (bs : Bytes) : Sink :=
  { s with written := s.written ++ bs.take (s.taken bs.length) }

/-- The bytes `bs` written, one write after another, until none is left or a write
takes none. -/
def writeAll (s : Sink) (bs : Bytes) : Except Error Unit × Sink :=
  if bs.isEmpty then (.ok (), s)
  else if s.taken bs.length = 0 then
    (.error (.io (s.failure.getD "failed to write whole buffer")), s)
  else writeAll (s.write bs) (bs.drop (s.taken bs.length))
termination_by bs.length
decreasing_by
  simp only [List.isEmpty_iff, ← List.length_eq_zero_iff] at *
  simp only [List.length_drop]
  omega

/-- Everything handed on to where it belongs. -/
def flush (s : Sink) : Except Error Unit × Sink :=
  (match s.flushFailure with
    | some text => .error (.io text)
    | none => .ok (),
    { s with flushes := s.flushes + 1 })

/-- A message written and flushed. -/
def send (s : Sink) (m : Message) : Except Error Unit × Sink :=
  match s.writeAll m.encode with
  | (.ok (), s) => s.flush
  | (.error e, s) => (.error e, s)

end Sink

end Microblog.Wire
