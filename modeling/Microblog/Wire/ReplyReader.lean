import Microblog.Wire.Reply

/-!
# Replies from a stream

A stream gives its bytes piece by piece, and a read may fail.  The reader of
replies keeps the bytes that it has not used, and asks the stream only when they
hold no complete reply.  Whatever goes wrong, nothing that was received is lost.

## Main definitions

* `Read` — what one read of a stream brings.
* `ReplyReader` — the bytes not yet used, and what the stream still brings.
* `ReplyReader.next` — the next reply.
-/

namespace Microblog.Wire

/-- What one read of a stream brings. -/
inductive Read where
  /-- Some bytes; none at all mean that the stream has ended for now. -/
  | data (bs : Bytes)
  /-- A failure of the transport. -/
  | failure (text : String)
  deriving DecidableEq, Repr, Inhabited

/-- A reader of replies. -/
structure ReplyReader where
  /-- The bytes received and not used. -/
  buffer : Bytes
  /-- What the stream still brings.  After that every read finds it ended. -/
  stream : List Read
  deriving DecidableEq, Repr, Inhabited

namespace ReplyReader

/-- A reader of a stream from its beginning. -/
def ofStream (stream : List Read) : ReplyReader := ⟨[], stream⟩

/-- What the end of a stream means: nothing after a complete reply, and a fault
within one. -/
def atEnd (buffer : Bytes) : Except Error (Option Reply) :=
  if buffer.isEmpty then .ok none else .error (.protocol (.truncated buffer.length))

/-- The next reply out of `buffer` and what the stream brings. -/
def nextFrom (buffer : Bytes) (stream : List Read) : Except Error (Option Reply) × ReplyReader :=
  match Reader.reply buffer with
  | .done r rest => (.ok (some r), ⟨rest, stream⟩)
  | .fault why => (.error (.protocol why), ⟨buffer, stream⟩)
  | .more =>
    match stream with
    | [] => (atEnd buffer, ⟨buffer, []⟩)
    | .failure text :: stream => (.error (.io text), ⟨buffer, stream⟩)
    | .data [] :: stream => (atEnd buffer, ⟨buffer, stream⟩)
    | .data (b :: bs) :: stream => nextFrom (buffer ++ b :: bs) stream

/-- The next reply, or nothing where the stream has ended. -/
def next (r : ReplyReader) : Except Error (Option Reply) × ReplyReader :=
  nextFrom r.buffer r.stream

/-- What `n` calls of `next` give, one after another. -/
def take (r : ReplyReader) : Nat → List (Except Error (Option Reply))
  | 0 => []
  | n + 1 => r.next.1 :: r.next.2.take n

end ReplyReader

end Microblog.Wire
