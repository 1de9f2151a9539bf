import Microblog.Proofs.NulFree
import Microblog.Proofs.WholeBuffer
import Microblog.Wire.Reply

/-!
# Streams of replies

Replies carry no length, so the reader finds the end of one by reading it, and one reply
that is read wrongly spoils all that follow.  Two things can go wrong: a text with U+0000
ends too early, and an acknowledgement whose body is not of the kind that its opcode calls
for is read as if it were.  A reply with neither is `Legible`.

A legible reply is read back, except that statistics are counted in sixteen bits, and only
as many entries as can be counted are written.

## Main definitions

* `Reply.Legible` — a reply that the reader finds the end of.
* `Reply.clipped` — a reply with no more entries than are written.
* `Splits` — what comes of reading one reply after another.

## Main results

* `Reader.reply_encode` — a legible reply is read back from the front of bytes.
* `splits_encode` — so are many, one after another, and nothing is left.
-/

namespace Microblog

open Text Wire

/-- No text of the notification has U+0000. -/
structure Notification.NulFree (n : Notification) : Prop where
  /-- The author's name has none. -/
  author : Text.NulFree n.author
  /-- The content has none. -/
  content : Text.NulFree n.content

/-- The body is of the kind that the opcode calls for, and its text has no U+0000. -/
def Ack.Legible (a : Ack) : Prop :=
  match a.opcode, a.body with
  | .follow, .follow _ username => NulFree username
  | .logStat, .stats _ | .stat, .stats _ => True
  | .follow, _ | .logStat, _ | .stat, _ => False
  | _, .empty => True
  | _, _ => False

/-- A reply that the reader finds the end of. -/
def Reply.Legible : Reply → Prop
  | notification n => n.NulFree
  | ack a => a.Legible
  | error _ => True

/-- A reply with no more entries than are written. -/
def Reply.clipped : Reply → Reply
  | ack ⟨opcode, .stats entries⟩ => ack ⟨opcode, .stats (entries.take maxEntries)⟩
  | r => r

namespace Wire

/-! ### One reply -/

namespace Reader

theorem andThen_of_done {α β : Type} {r : Reader α} {f : α → Reader β} {bs rest : Bytes} {a : α}
    (h : r bs = .done a rest) : (r.andThen f) bs = f a rest := by
  rw [andThen, h]

theorem map_of_done {α β : Type} {f : α → β} {r : Reader α} {bs rest : Bytes} {a : α}
    (h : r bs = .done a rest) : (map f r) bs = .done (f a) rest := andThen_of_done h

theorem word_append (n : UInt16) (rest : Bytes) : word (Wire.word n ++ rest) = .done n rest := by
  change Outcome.done (ofBytes (n >>> 8).toUInt8 n.toUInt8) rest = _
  rw [ofBytes_word]

theorem field_append {s : String} (h : NulFree s) (rest : Bytes) :
    field (Wire.field s ++ rest) = .done s rest := by
  have hbytes : terminator ∉ Utf8.encode s := Utf8.zero_notMem_encode h
  obtain ⟨htake, hdrop⟩ := Registers.takeWhile_append_terminator hbytes rest
  rw [Wire.field, List.append_assoc, List.singleton_append, field, hdrop, htake,
    Utf8.decode_encode]

theorem opcode_append (o : Opcode) (rest : Bytes) :
    opcode (Wire.word o.code ++ rest) = .done o rest := by
  rw [opcode, andThen_of_done (word_append _ _), known, Opcode.ofCode?_code]

theorem entry_append (s : Stats) (rest : Bytes) :
    entry (Wire.entry s ++ rest) = .done s rest := by
  simp only [Wire.entry, List.append_assoc]
  rw [entry, andThen_of_done (word_append _ _), andThen_of_done (word_append _ _),
    andThen_of_done (word_append _ _), andThen_of_done (word_append _ _)]
  rfl

/-- Entries are read back one by one. -/
theorem entries_append (entries : List Stats) (rest : Bytes) :
    entriesFrom [] entries.length (entries.flatMap Wire.entry ++ rest) = .done entries rest := by
  induction entries with
  | nil => rfl
  | cons s entries ih =>
    rw [List.length_cons, entriesFrom_succ, List.flatMap_cons, List.append_assoc,
      andThen_of_done (entry_append s _), map_of_done ih]

/-- Statistics are read back as far as they can be counted. -/
theorem stats_append (entries : List Stats) (rest : Bytes) :
    (word.andThen fun count => map AckBody.stats (entriesFrom [] count.toNat))
        ((AckBody.stats entries).encode ++ rest)
      = .done (.stats (entries.take maxEntries)) rest := by
  have hcount : (min entries.length maxEntries).toUInt16.toNat
      = (entries.take maxEntries).length := by
    have hlt : min entries.length maxEntries < 2 ^ 16 :=
      Nat.lt_of_le_of_lt (Nat.min_le_right _ _) (by decide)
    rw [List.length_take, Nat.min_comm maxEntries]
    exact UInt16.toNat_ofNat_of_lt hlt
  rw [AckBody.encode, List.append_assoc, andThen_of_done (word_append _ _), hcount,
    map_of_done (entries_append _ _)]

/-- What an acknowledgement tells is read back as its opcode has it. -/
theorem ackBody_append {a : Ack} (ha : a.Legible) (rest : Bytes) :
    map (fun body => Reply.ack ⟨a.opcode, body⟩) (ackBody a.opcode) (a.body.encode ++ rest)
      = .done (Reply.ack a).clipped rest := by
  obtain ⟨opcode, body⟩ := a
  cases body with
  | empty =>
    cases opcode with
    | follow => cases ha
    | logStat => cases ha
    | stat => cases ha
    | _ => rfl
  | follow direction username =>
    cases opcode with
    | follow =>
      have hdirection : decide (directionDigit direction = 0x30) = direction := by
        cases direction <;> rfl
      have hname : NulFree username := ha
      have hbody : ackBody .follow ((AckBody.follow direction username).encode ++ rest)
          = .done (.follow direction username) rest := by
        change (field.andThen fun _ => pure _) (Wire.field username ++ rest) = _
        rw [andThen_of_done (field_append hname rest), hdirection]
        rfl
      exact map_of_done hbody
    | _ => cases ha
  | stats entries =>
    cases opcode with
    | logStat => exact map_of_done (stats_append entries rest)
    | stat => exact map_of_done (stats_append entries rest)
    | _ => cases ha

theorem notification_append {n : Notification} (hn : n.NulFree) (rest : Bytes) :
    notification ((Reply.notification n).body ++ rest) = .done n rest := by
  obtain ⟨kind, author, content⟩ := n
  have hkind : (if kindByte kind = 0 then NotificationKind.pm else .post) = kind := by
    cases kind <;> rfl
  change (field.andThen fun _ => field.andThen fun _ => pure _)
    (Wire.field author ++ Wire.field content ++ rest) = _
  rw [List.append_assoc, andThen_of_done (field_append hn.author _),
    andThen_of_done (field_append hn.content _), hkind]
  rfl

/-- **A legible reply is read back from the front of bytes.** -/
theorem reply_encode {r : Reply} (hr : r.Legible) (rest : Bytes) :
    reply (r.encode ++ rest) = .done r.clipped rest := by
  rw [Reply.encode, List.append_assoc, reply, andThen_of_done (opcode_append _ _)]
  cases r with
  | notification n => exact map_of_done (notification_append hr rest)
  | ack a =>
    change (opcode.andThen fun _ => map _ (ackBody _))
      (Wire.word a.opcode.code ++ a.body.encode ++ rest) = _
    rw [List.append_assoc, andThen_of_done (opcode_append _ _)]
    exact ackBody_append hr rest
  | error o => exact map_of_done (opcode_append o rest)

end Reader

/-- A reply takes the bytes that were written for it. -/
theorem decodeReply_encode {r : Reply} (hr : r.Legible) (rest : Bytes) :
    decodeReply (r.encode ++ rest) = .ok (some (r.clipped, r.encode.length)) := by
  rw [decodeReply, Reader.reply_encode hr]
  dsimp only
  rw [List.length_append, Nat.add_sub_cancel]

/-! ### Many replies -/

/-- Bytes from which one reply after another is read, until none are left. -/
inductive Splits : Bytes → List Reply → Prop where
  /-- No bytes are left. -/
  | nil : Splits [] []
  /-- A reply is at the front, and the others behind the bytes that it takes. -/
  | cons {bs : Bytes} {r : Reply} {n : Nat} {rs : List Reply} :
    decodeReply bs = .ok (some (r, n)) → Splits (bs.drop n) rs → Splits bs (r :: rs)

/-- **Replies written one after another are read back one after another.** -/
theorem splits_encode {rs : List Reply} (h : ∀ r ∈ rs, r.Legible) :
    Splits (rs.flatMap Reply.encode) (rs.map Reply.clipped) := by
  induction rs with
  | nil => exact .nil
  | cons r rs ih =>
    have hr : r.Legible := h r List.mem_cons_self
    rw [List.flatMap_cons, List.map_cons]
    refine .cons (decodeReply_encode hr _) ?_
    rw [List.drop_left]
    exact ih fun r hr => h r (List.mem_cons_of_mem _ hr)

/-- And so does a client that reads as many replies as it can. -/
theorem replies_encode {rs : List Reply} (h : ∀ r ∈ rs, r.Legible) :
    replies (rs.flatMap Reply.encode) = (rs.map Reply.clipped, []) := by
  induction rs with
  | nil => rw [List.flatMap_nil, replies]; rfl
  | cons r rs ih =>
    have hr : r.Legible := h r List.mem_cons_self
    have hothers := ih fun r hr => h r (List.mem_cons_of_mem _ hr)
    have hlt : (rs.flatMap Reply.encode).length < (r.encode ++ rs.flatMap Reply.encode).length := by
      have hcode : r.encode.length = 2 + r.body.length := List.length_append
      rw [List.length_append]
      omega
    rw [List.flatMap_cons, replies, Reader.reply_encode hr]
    dsimp only
    rw [if_pos hlt, hothers, List.map_cons]

end Wire

end Microblog
