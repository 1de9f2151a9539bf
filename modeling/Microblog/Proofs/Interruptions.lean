import Microblog.Proofs.Readers
import Microblog.Wire.ReplyReader

/-!
# Streams with interruptions

A stream of replies arrives in pieces, cut wherever it happens to be, and now and then a
read fails or brings nothing.  A reader of replies makes nothing of the cuts, and takes the
rest as it comes: what its calls answer can be read off the uncut bytes of the stream and the
places of its pauses, each pause being answered by one call and forgotten.

The reason is `ReplyReader.take_data`: a piece that is still to come may as well have arrived
before, since what a reader has once seen at the front of its buffer stays there when the
buffer grows.

## Main definitions

* `Pause` — a read that brings no bytes, and `Pause.answer`, what a call makes of it.
* `bytesOf`, `pausesFrom` — a stream without its cuts: its bytes, and the places of its pauses.
* `answersFrom`, `finalAnswer` — what the calls answer to a stream without cuts.
* `ReadAs` — bytes that consist of given replies.

## Main results

* `ReplyReader.take_eq_answers` — what the calls of a reader answer, wherever it has got to.
* `ReplyReader.take_pause` — a pause is answered once, and then it is as if it had not been.
* `replies_however_cut` — **how a stream is cut makes no difference, and nothing is lost.**
-/

namespace Microblog

namespace Wire

/-- What a call answers: a reply, nothing, or an error. -/
abbrev Answer := Except Error (Option Reply)

/-- The reply that an answer gives. -/
def replyOf? : Answer → Option Reply
  | .ok r => r
  | .error _ => none

/-- The answers that give some replies, one after another. -/
def giving (rs : List Reply) : List Answer := rs.map fun r => .ok (some r)

@[simp] theorem length_giving (rs : List Reply) : (giving rs).length = rs.length :=
  List.length_map _

@[simp] theorem filterMap_giving (rs : List Reply) : (giving rs).filterMap replyOf? = rs := by
  rw [giving, List.filterMap_map]
  exact List.filterMap_some

theorem filter_giving (rs : List Reply) :
    (giving rs).filter (fun a => (replyOf? a).isNone) = [] := by
  refine List.filter_eq_nil_iff.mpr fun a ha => ?_
  obtain ⟨r, -, rfl⟩ := List.mem_map.mp ha
  exact Bool.false_ne_true

/-! ### Streams without cuts -/

/-- A read that brings no bytes. -/
inductive Pause where
  /-- The stream has ended for now. -/
  | ended
  /-- A failure of the transport. -/
  | failed (text : String)
  deriving DecidableEq, Repr, Inhabited

namespace Pause

/-- The read. -/
def read : Pause → Read
  | ended => .data []
  | failed text => .failure text

/-- What a call makes of a pause, given the bytes that hold no complete reply yet. -/
def answer (undecoded : Bytes) : Pause → Answer
  | ended =>
    if undecoded = [] then .ok none else .error (.protocol (.truncated undecoded.length))
  | failed text => .error (.io text)

@[simp] theorem replyOf?_answer (undecoded : Bytes) (p : Pause) :
    replyOf? (p.answer undecoded) = none := by
  cases p with
  | ended =>
    simp only [answer]
    split <;> rfl
  | failed text => rfl

end Pause

/-- The bytes of a stream. -/
def bytesOf : List Read → Bytes
  | [] => []
  | .data bs :: stream => bs ++ bytesOf stream
  | .failure _ :: stream => bytesOf stream

/-- The pauses of a stream whose first byte is byte number `place`, each with the number of
bytes before it. -/
def pausesFrom (place : Nat) : List Read → List (Nat × Pause)
  | [] => []
  | .data [] :: stream => (place, .ended) :: pausesFrom place stream
  | .data (b :: bs) :: stream => pausesFrom (place + (b :: bs).length) stream
  | .failure text :: stream => (place, .failed text) :: pausesFrom place stream

@[simp] theorem bytesOf_pause (p : Pause) (stream : List Read) :
    bytesOf (p.read :: stream) = bytesOf stream := by
  cases p <;> rfl

@[simp] theorem pausesFrom_pause (place : Nat) (p : Pause) (stream : List Read) :
    pausesFrom place (p.read :: stream) = (place, p) :: pausesFrom place stream := by
  cases p <;> rfl

/-- A read brings some bytes or is a pause. -/
theorem Read.eq_data_or_pause (r : Read) :
    (∃ b bs, r = .data (b :: bs)) ∨ ∃ p : Pause, r = p.read := by
  match r with
  | .data [] => exact .inr ⟨.ended, rfl⟩
  | .data (b :: bs) => exact .inl ⟨b, bs, rfl⟩
  | .failure text => exact .inr ⟨.failed text, rfl⟩

/-- The bytes among the first `place` of a stream that hold no complete reply. -/
def heldBack (bs : Bytes) (place : Nat) : Bytes := (replies (bs.take place)).2

/-- What calls answer to the bytes `bs` with some pauses, after `told` replies: at each pause
the replies that are complete by then and have not been given, and what is made of the pause;
and in the end the replies that are left.  Nothing comes behind what is no reply. -/
def answersFrom (bs : Bytes) (told : Nat) : List (Nat × Pause) → List Answer
  | [] => giving ((replies bs).1.drop told)
  | (place, p) :: pauses =>
    let seen := (replies (bs.take place)).1
    giving (seen.drop told) ++
      match decodeReply (heldBack bs place) with
      | .error _ => []
      | .ok _ => p.answer (heldBack bs place) :: answersFrom bs seen.length pauses

/-- What all further calls answer. -/
def finalAnswer (bs : Bytes) : Answer :=
  match decodeReply (replies bs).2 with
  | .error why => .error (.protocol why)
  | .ok _ => Pause.ended.answer (replies bs).2

/-- The answers that give no reply are those to the pauses, up to what is no reply. -/
theorem filter_answersFrom (bs : Bytes) (told : Nat) (pauses : List (Nat × Pause)) :
    (answersFrom bs told pauses).filter (fun a => (replyOf? a).isNone) =
      (pauses.takeWhile fun p => (decodeReply (heldBack bs p.1)).isOk).map fun p =>
        p.2.answer (heldBack bs p.1) := by
  induction pauses generalizing told with
  | nil => exact filter_giving _
  | cons p pauses ih =>
    rw [answersFrom, List.filter_append, filter_giving, List.nil_append]
    cases hheld : decodeReply (heldBack bs p.1) with
    | error why =>
      rw [List.takeWhile_cons_of_neg (by rw [hheld]; exact Bool.false_ne_true)]
      rfl
    | ok found =>
      rw [List.takeWhile_cons_of_pos (by rw [hheld]; rfl)]
      dsimp only
      rw [List.filter_cons_of_pos (by rw [Pause.replyOf?_answer]; rfl), ih, List.map_cons]

/-! ### Bytes that have been read -/

/-- The bytes consist of the replies `told`, whatever follows them. -/
def ReadAs (past : Bytes) (told : List Reply) : Prop :=
  ∀ others, replies (past ++ others) = (told ++ (replies others).1, (replies others).2)

namespace ReadAs

theorem nil : ReadAs [] [] := fun _ => rfl

theorem append {past past' : Bytes} {told told' : List Reply} (h : ReadAs past told)
    (h' : ReadAs past' told') : ReadAs (past ++ past') (told ++ told') := by
  intro others
  rw [List.append_assoc, h, h', List.append_assoc]

end ReadAs

/-- The replies at the front of some bytes take the bytes before those that they leave. -/
theorem exists_readAs (bs : Bytes) :
    ∃ used, bs = used ++ (replies bs).2 ∧ ReadAs used (replies bs).1 := by
  induction bs using replies_induction with
  | done bs r rest h ih =>
    obtain ⟨first, -, hbs, hfirst⟩ := Reader.exists_used_of_reply h
    obtain ⟨used, hrest, hread⟩ := ih
    have hone : ReadAs first [r] := fun others => replies_of_done (hfirst others)
    rw [replies_of_done h]
    refine ⟨first ++ used, ?_, hone.append hread⟩
    rw [hbs, List.append_assoc, ← hrest]
  | more bs h =>
    rw [replies_of_more h]
    exact ⟨[], rfl, .nil⟩
  | fault bs why h =>
    rw [replies_of_fault h]
    exact ⟨[], rfl, .nil⟩

section

variable {past buffer others : Bytes} {told : List Reply}

/-- Behind bytes that have been read the replies of a buffer are read, and what these leave of
the buffer stays behind. -/
theorem ReadAs.exists_append (h : ReadAs past told) (buffer : Bytes) :
    ∃ past', ReadAs past' (told ++ (replies buffer).1) ∧
      past' ++ (replies buffer).2 = past ++ buffer := by
  obtain ⟨used, hbuffer, hused⟩ := exists_readAs buffer
  refine ⟨past ++ used, h.append hused, ?_⟩
  rw [List.append_assoc, ← hbuffer]

/-- What comes first of the answers behind bytes that have been read. -/
theorem answersFrom_pause (h : ReadAs past told) (p : Pause) (pauses : List (Nat × Pause)) :
    answersFrom (past ++ buffer ++ others) told.length (((past ++ buffer).length, p) :: pauses) =
      giving (replies buffer).1 ++
        match decodeReply (replies buffer).2 with
        | .error _ => []
        | .ok _ => p.answer (replies buffer).2 ::
          answersFrom (past ++ buffer ++ others) (told ++ (replies buffer).1).length pauses := by
  rw [answersFrom, heldBack, List.take_left, h, List.drop_left]

theorem answersFrom_nil (h : ReadAs past told) :
    answersFrom (past ++ buffer) told.length [] =
      giving (replies buffer).1 := by
  rw [answersFrom, h, List.drop_left]

theorem finalAnswer_append (h : ReadAs past told) :
    finalAnswer (past ++ buffer) = finalAnswer buffer := by
  rw [finalAnswer, h, finalAnswer]

/-- What is no reply stays none. -/
theorem finalAnswer_of_error {why : ProtocolFault}
    (h : decodeReply (replies buffer).2 = .error why) (others : Bytes) :
    finalAnswer (buffer ++ others) = .error (.protocol why) := by
  have hfault := Reader.steady_reply.fault (decodeReply_eq_error_iff.mp h) others
  rw [finalAnswer, replies_append, replies_of_fault hfault, decodeReply_eq_error_iff.mpr hfault]

end

namespace ReplyReader

/-! ### Calls -/

section

variable {buffer rest : Bytes} {r : Reply} (stream : List Read)

theorem take_of_done (h : Reader.reply buffer = .done r rest) (n : Nat) :
    take ⟨buffer, stream⟩ (n + 1) = .ok (some r) :: take ⟨rest, stream⟩ n := by
  have hnext : next ⟨buffer, stream⟩ = (.ok (some r), ⟨rest, stream⟩) := by
    rw [next]
    unfold nextFrom
    rw [h]
  rw [take, hnext]

/-- A fault is never got past. -/
theorem take_of_fault {why : ProtocolFault} (h : Reader.reply buffer = .fault why) (n : Nat) :
    take ⟨buffer, stream⟩ n = List.replicate n (.error (.protocol why)) := by
  have hnext : next ⟨buffer, stream⟩ = (.error (.protocol why), ⟨buffer, stream⟩) := by
    rw [next]
    unfold nextFrom
    rw [h]
  induction n with
  | zero => rfl
  | succ n ih => rw [take, hnext, ih, List.replicate_succ]

theorem take_of_pause (h : Reader.reply buffer = .more) (p : Pause) (n : Nat) :
    take ⟨buffer, p.read :: stream⟩ (n + 1) = p.answer buffer :: take ⟨buffer, stream⟩ n := by
  have hnext : next ⟨buffer, p.read :: stream⟩ = (p.answer buffer, ⟨buffer, stream⟩) := by
    rw [next]
    unfold nextFrom
    rw [h]
    cases p with
    | ended => simp [Pause.read, Pause.answer, atEnd]
    | failed text => rfl
  rw [take, hnext]

/-- Behind the end of the stream all calls find it ended. -/
theorem take_of_end (h : Reader.reply buffer = .more) (n : Nat) :
    take ⟨buffer, []⟩ n = List.replicate n (Pause.ended.answer buffer) := by
  have hnext : next ⟨buffer, []⟩ = (Pause.ended.answer buffer, ⟨buffer, []⟩) := by
    rw [next]
    unfold nextFrom
    rw [h]
    simp [Pause.answer, atEnd]
  induction n with
  | zero => rfl
  | succ n ih => rw [take, hnext, ih, List.replicate_succ]

end

/-- **A piece that is still to come may as well have arrived before.** -/
theorem take_data (buffer : Bytes) (b : UInt8) (bs : Bytes) (stream : List Read) (n : Nat) :
    take ⟨buffer, .data (b :: bs) :: stream⟩ n = take ⟨buffer ++ b :: bs, stream⟩ n := by
  induction n generalizing buffer with
  | zero => rfl
  | succ n ih =>
    cases h : Reader.reply buffer with
    | done r rest =>
      rw [take_of_done _ h, ih, take_of_done _ (Reader.steady_reply.append h _)]
    | fault why =>
      rw [take_of_fault _ h, take_of_fault _ (Reader.steady_reply.fault h _)]
    | more =>
      have hnext : next ⟨buffer, .data (b :: bs) :: stream⟩ = next ⟨buffer ++ b :: bs, stream⟩ := by
        rw [next]
        unfold nextFrom
        rw [h]
        rfl
      rw [take, take, hnext]

theorem take_add (r : ReplyReader) (n m : Nat) : (r.take (n + m)).take n = r.take n := by
  induction n generalizing r with
  | zero => rfl
  | succ n ih => rw [Nat.add_right_comm, take, take, List.take_succ_cons, ih]

/-- The replies that are complete in the buffer come first. -/
theorem take_replies (buffer : Bytes) (stream : List Read) (n : Nat) :
    take ⟨buffer, stream⟩ ((replies buffer).1.length + n) =
      giving (replies buffer).1 ++ take ⟨(replies buffer).2, stream⟩ n := by
  induction buffer using replies_induction with
  | done bs r rest h ih =>
    rw [replies_of_done h]
    dsimp only
    rw [List.length_cons, Nat.add_right_comm, take_of_done _ h, ih]
    rfl
  | more bs h =>
    rw [replies_of_more h, List.length_nil, Nat.zero_add]
    rfl
  | fault bs why h =>
    rw [replies_of_fault h, List.length_nil, Nat.zero_add]
    rfl

theorem take_eq_append_take (buffer : Bytes) (stream : List Read) (n : Nat) :
    take ⟨buffer, stream⟩ n =
      (giving (replies buffer).1 ++
        take ⟨(replies buffer).2, stream⟩ n).take n := by
  rw [← take_replies, Nat.add_comm, take_add]

/-! ### What they answer -/

/-- What is repeated in the end may be repeated oftener. -/
theorem take_append_replicate (answers : List Answer) (a : Answer) {n m : Nat} (h : n ≤ m) :
    (answers ++ List.replicate m a).take n = (answers ++ List.replicate n a).take n := by
  have hmin : ∀ k, min (n - k) m = min (n - k) n := by omega
  rw [List.take_append, List.take_append, List.take_replicate, List.take_replicate, hmin]

theorem take_append_take (answers others : List Answer) (n : Nat) :
    (answers ++ others.take n).take n = (answers ++ others).take n := by
  rw [List.take_append, List.take_append, List.take_take, Nat.min_eq_left (Nat.sub_le _ _)]

/-- **What the calls of a reader answer, wherever it has got to.** -/
theorem take_eq_answers {past : Bytes} {told : List Reply} (h : ReadAs past told) (buffer : Bytes)
    (stream : List Read) (n : Nat) :
    take ⟨buffer, stream⟩ n =
      (answersFrom (past ++ buffer ++ bytesOf stream) told.length
          (pausesFrom (past ++ buffer).length stream) ++
        List.replicate n (finalAnswer (past ++ buffer ++ bytesOf stream))).take n := by
  induction stream generalizing past told buffer n with
  | nil =>
    have hend : take ⟨(replies buffer).2, []⟩ n = List.replicate n (finalAnswer buffer) := by
      unfold finalAnswer
      rcases reply_replies_snd buffer with hmore | ⟨why, hfault⟩
      · rw [take_of_end hmore, decodeReply_eq_none_iff.mpr hmore]
      · rw [take_of_fault _ hfault, decodeReply_eq_error_iff.mpr hfault]
    rw [take_eq_append_take, hend, bytesOf, List.append_nil, pausesFrom, answersFrom_nil h,
      finalAnswer_append h]
  | cons read stream ih =>
    rcases read.eq_data_or_pause with ⟨b, bs, rfl⟩ | ⟨p, rfl⟩
    · rw [take_data, ih h]
      simp only [bytesOf, pausesFrom, List.append_assoc, List.length_append, Nat.add_assoc]
    · rw [take_eq_append_take, bytesOf_pause, pausesFrom_pause, answersFrom_pause h]
      rcases reply_replies_snd buffer with hmore | ⟨why, hfault⟩
      · -- the pause is answered, and the reader goes on behind what it has read
        obtain ⟨past', hread, hplace⟩ := h.exists_append buffer
        have hbehind : take ⟨(replies buffer).2, p.read :: stream⟩ n =
            (p.answer (replies buffer).2 ::
              answersFrom (past ++ buffer ++ bytesOf stream) (told ++ (replies buffer).1).length
                (pausesFrom (past ++ buffer).length stream) ++
              List.replicate n (finalAnswer (past ++ buffer ++ bytesOf stream))).take n := by
          cases n with
          | zero => rfl
          | succ n =>
            rw [take_of_pause _ hmore, ih hread, hplace, List.cons_append,
              List.take_succ_cons, take_append_replicate _ _ (Nat.le_succ n)]
        rw [hbehind, take_append_take, decodeReply_eq_none_iff.mpr hmore,
          List.append_assoc (giving _)]
      · -- all calls answer the same from here on
        have hfinal : finalAnswer (past ++ buffer ++ bytesOf stream) = .error (.protocol why) := by
          rw [List.append_assoc, finalAnswer_append h,
            finalAnswer_of_error (decodeReply_eq_error_iff.mpr hfault)]
        rw [take_of_fault _ hfault, decodeReply_eq_error_iff.mpr hfault, hfinal, List.append_nil]

/-- The replies that are given are those of the uncut stream. -/
theorem filterMap_answersFrom {past : Bytes} {told : List Reply} (h : ReadAs past told)
    (buffer : Bytes) (stream : List Read) :
    (answersFrom (past ++ buffer ++ bytesOf stream) told.length
        (pausesFrom (past ++ buffer).length stream)).filterMap replyOf? =
      (replies (buffer ++ bytesOf stream)).1 := by
  induction stream generalizing past told buffer with
  | nil =>
    rw [bytesOf, List.append_nil, List.append_nil, pausesFrom, answersFrom_nil h, filterMap_giving]
  | cons read stream ih =>
    rcases read.eq_data_or_pause with ⟨b, bs, rfl⟩ | ⟨p, rfl⟩
    · have hjoined := ih h (buffer ++ b :: bs)
      simpa only [bytesOf, pausesFrom, List.append_assoc, List.length_append, Nat.add_assoc]
        using hjoined
    · rw [bytesOf_pause, pausesFrom_pause, answersFrom_pause h, List.filterMap_append,
        filterMap_giving, replies_append]
      rcases reply_replies_snd buffer with hmore | ⟨why, hfault⟩
      · obtain ⟨past', hread, hplace⟩ := h.exists_append buffer
        have hothers := ih hread (replies buffer).2
        rw [hplace] at hothers
        rw [decodeReply_eq_none_iff.mpr hmore]
        dsimp only
        rw [List.filterMap_cons_none (p.replyOf?_answer _), hothers]
      · rw [decodeReply_eq_error_iff.mpr hfault,
          replies_of_fault (Reader.steady_reply.fault hfault _)]
        rfl

/-- **A pause is answered once, and then it is as if it had not been.**  Either no call gets
as far as the pause, and it makes no difference; or one call more is answered with it than
without it, and from then on the reader is the same. -/
theorem take_pause (buffer : Bytes) (front : List Read) (p : Pause) (back : List Read) :
    (∀ n, take ⟨buffer, front ++ p.read :: back⟩ n = take ⟨buffer, front ++ back⟩ n) ∨
      ∃ before undecoded, ∀ n,
        take ⟨buffer, front ++ p.read :: back⟩ (before.length + (n + 1))
            = before ++ p.answer undecoded :: take ⟨undecoded, back⟩ n ∧
          take ⟨buffer, front ++ back⟩ (before.length + n)
            = before ++ take ⟨undecoded, back⟩ n := by
  induction front generalizing buffer with
  | nil =>
    rcases reply_replies_snd buffer with hmore | ⟨why, hfault⟩
    · refine .inr ⟨giving (replies buffer).1, (replies buffer).2, fun n => ?_⟩
      rw [length_giving, List.nil_append, List.nil_append, take_replies, take_replies,
        take_of_pause _ hmore]
      exact ⟨rfl, rfl⟩
    · refine .inl fun n => ?_
      rw [take_eq_append_take, take_eq_append_take buffer, take_of_fault _ hfault,
        take_of_fault _ hfault]
  | cons read front ih =>
    rcases read.eq_data_or_pause with ⟨b, bs, rfl⟩ | ⟨p', rfl⟩
    · simpa only [List.cons_append, take_data] using ih (buffer ++ b :: bs)
    · simp only [List.cons_append]
      rcases reply_replies_snd buffer with hmore | ⟨why, hfault⟩
      · rcases ih (replies buffer).2 with hsame | ⟨before, undecoded, hothers⟩
        · refine .inl fun n => ?_
          rw [take_eq_append_take, take_eq_append_take buffer]
          cases n with
          | zero => rfl
          | succ n => rw [take_of_pause _ hmore, take_of_pause _ hmore, hsame]
        · refine .inr ⟨giving (replies buffer).1 ++ p'.answer (replies buffer).2 :: before,
            undecoded, fun n => ?_⟩
          have hlength : ∀ m, (giving (replies buffer).1 ++
              p'.answer (replies buffer).2 :: before).length + m
                = (replies buffer).1.length + (before.length + m + 1) := by
            intro m
            rw [List.length_append, length_giving, List.length_cons]
            omega
          rw [hlength, hlength, take_replies, take_replies, take_of_pause _ hmore,
            take_of_pause _ hmore, (hothers n).1, (hothers n).2, List.append_assoc,
            List.append_assoc]
          exact ⟨rfl, rfl⟩
      · refine .inl fun n => ?_
        rw [take_eq_append_take, take_eq_append_take buffer, take_of_fault _ hfault,
          take_of_fault _ hfault]

end ReplyReader

end Wire

open Wire

/-- **How a stream is cut makes no difference, and nothing is lost.**  Of a stream of any
pieces with any pauses between them:

* the replies of the uncut bytes are what is got by decoding one after another;
* `n` calls answer what the uncut bytes and the places of the pauses say;
* the replies among the answers are those of the uncut bytes, in their order;
* the other answers are those to the pauses, one to each, up to the first pause that comes
  behind what is no reply;
* without one of its pauses the stream is answered the same, but for the answer to the pause
  if a call gets that far; and
* once the bytes held begin with what is no reply, every call says so in the same words. -/
theorem replies_however_cut (stream : List Read) :
    let bs := bytesOf stream
    let pauses := pausesFrom 0 stream
    let answers := answersFrom bs 0 pauses
    (∀ bs, replies bs = match decodeReply bs with
        | .ok (some (r, n)) => (r :: (replies (bs.drop n)).1, (replies (bs.drop n)).2)
        | .ok none | .error _ => ([], bs)) ∧
      (∀ n, (ReplyReader.ofStream stream).take n =
        (answers ++ List.replicate n (finalAnswer bs)).take n) ∧
      answers.filterMap replyOf? = (replies bs).1 ∧
      answers.filter (fun a => (replyOf? a).isNone) =
        ((pauses.takeWhile fun p => (decodeReply (heldBack bs p.1)).isOk).map fun p =>
          p.2.answer (heldBack bs p.1)) ∧
      (∀ (front : List Read) (p : Pause) (back : List Read), stream = front ++ p.read :: back →
        (∀ n, (ReplyReader.ofStream stream).take n
            = (ReplyReader.ofStream (front ++ back)).take n) ∨
          ∃ (before : List Answer) (undecoded : Bytes), ∀ n,
            (ReplyReader.ofStream stream).take (before.length + (n + 1))
                = before ++ p.answer undecoded :: ReplyReader.take ⟨undecoded, back⟩ n ∧
              (ReplyReader.ofStream (front ++ back)).take (before.length + n)
                = before ++ ReplyReader.take ⟨undecoded, back⟩ n) ∧
      ∀ (r : ReplyReader) (why : ProtocolFault), decodeReply r.buffer = .error why →
        ∀ n, r.take n = List.replicate n (.error (.protocol why)) := by
  intro bs pauses answers
  refine ⟨replies_eq_decodeReply, ?_, ?_, filter_answersFrom bs 0 pauses, ?_, ?_⟩
  · exact ReplyReader.take_eq_answers .nil [] stream
  · exact ReplyReader.filterMap_answersFrom .nil [] stream
  · rintro front p back rfl
    exact ReplyReader.take_pause [] front p back
  · intro r why h
    exact ReplyReader.take_of_fault r.stream (decodeReply_eq_error_iff.mp h)

/-- A reply in three pieces, with a failure and an early end between them, and one more byte. -/
example :
    (ReplyReader.ofStream
        [.data [0], .failure "reset", .data [11, 0], .data [], .data [5, 0]]).take 4
      = [.error (.io "reset"), .error (.protocol (.truncated 3)), .ok (some (.error .post)),
          .error (.protocol (.truncated 1))] := by
  decide

end Microblog
