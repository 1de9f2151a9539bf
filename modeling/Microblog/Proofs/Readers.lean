import Mathlib.Data.List.TakeWhile
import Microblog.Proofs.ReplyStream

/-!
# Readers that stand by what they said

A client reads from the front of what has arrived so far, and more arrives later.  That this
can be done at all rests on one property of its readers: a value takes some bytes from the
front and depends on these alone, and a fault stays a fault, whatever follows.  Only the news
that bytes are lacking may be overtaken.

The property is kept by putting readers together, so it is looked at once for each part that
a reply has.

## Main definitions

* `Reader.Steady` — a reader that stands by its values and its faults.

## Main results

* `Reader.steady_reply` — the reader of a reply is steady.
* `replies_eq_decodeReply` — the replies of a stretch of bytes, decoded one by one.
* `replies_append` — **of two stretches of bytes the replies of the first come first, and the
  bytes that these leave are read with the second.**
-/

namespace Microblog.Wire

namespace Reader

/-- A reader that stands by its values and its faults. -/
structure Steady {α : Type} (r : Reader α) : Prop where
  /-- A value takes some bytes from the front and depends on these alone. -/
  done : ∀ {bs a rest}, r bs = .done a rest →
    ∃ used, bs = used ++ rest ∧ ∀ others, r (used ++ others) = .done a others
  /-- A fault stays, whatever follows. -/
  fault : ∀ {bs why}, r bs = .fault why → ∀ others, r (bs ++ others) = .fault why

namespace Steady

variable {α β : Type}

/-- A value is read again with more bytes behind, and these are left. -/
theorem append {r : Reader α} (hr : r.Steady) {bs rest : Bytes} {a : α}
    (h : r bs = .done a rest) (others : Bytes) : r (bs ++ others) = .done a (rest ++ others) := by
  obtain ⟨used, rfl, hused⟩ := hr.done h
  rw [List.append_assoc, hused]

/-- Where bytes are a value and nothing else, more of them are asked for until all are there. -/
theorem more_of_prefix {r : Reader α} (hr : r.Steady) {whole front : Bytes} {a : α}
    (h : r whole = .done a []) (hfront : front <+: whole) (hne : front ≠ whole) :
    r front = .more := by
  obtain ⟨others, rfl⟩ := hfront
  cases hread : r front with
  | more => rfl
  | done b rest =>
    -- a value that is read from the front leaves what is missing, so nothing is
    have hsame := (hr.append hread others).symm.trans h
    obtain ⟨-, hrest⟩ := Outcome.done.inj hsame
    obtain ⟨-, rfl⟩ := List.append_eq_nil_iff.mp hrest
    exact absurd (List.append_nil front).symm hne
  | fault why =>
    have hfault := hr.fault hread others
    rw [h] at hfault
    cases hfault

theorem pure (a : α) : Steady (Reader.pure a) where
  done := by
    rintro bs _ _ ⟨⟩
    exact ⟨[], rfl, fun _ => rfl⟩
  fault := nofun

theorem fail (why : ProtocolFault) : Steady fun _ => (.fault why : Outcome α) where
  done := nofun
  fault := by
    rintro _ _ ⟨⟩ others
    rfl

theorem andThen {r : Reader α} {f : α → Reader β} (hr : r.Steady) (hf : ∀ a, (f a).Steady) :
    (r.andThen f).Steady where
  done := by
    intro bs b rest h
    unfold Reader.andThen at h
    split at h
    · next a mid ha =>
      obtain ⟨first, rfl, hfirst⟩ := hr.done ha
      obtain ⟨second, rfl, hsecond⟩ := (hf a).done h
      refine ⟨first ++ second, (List.append_assoc ..).symm, fun others => ?_⟩
      rw [List.append_assoc, andThen_of_done (hfirst _), hsecond]
    · cases h
    · cases h
  fault := by
    intro bs why h others
    unfold Reader.andThen at h
    split at h
    · next a mid ha => rw [andThen_of_done (hr.append ha others), (hf a).fault h]
    · cases h
    · next why' ha =>
      cases h
      rw [Reader.andThen, hr.fault ha]

theorem map (f : α → β) {r : Reader α} (hr : r.Steady) : (Reader.map f r).Steady :=
  hr.andThen fun _ => pure _

end Steady

/-! ### The parts of a reply -/

theorem steady_byte : Steady byte where
  done := by
    intro bs b rest h
    cases bs with
    | nil => cases h
    | cons first bs =>
      cases h
      exact ⟨[_], rfl, fun _ => rfl⟩
  fault := by
    intro bs why h
    cases bs <;> cases h

theorem steady_word : Steady word where
  done := by
    intro bs n rest h
    match bs with
    | [] | [_] => cases h
    | hi :: lo :: bs =>
      cases h
      exact ⟨[hi, lo], rfl, fun _ => rfl⟩
  fault := by
    intro bs why h
    match bs with
    | [] | [_] | _ :: _ :: _ => cases h

/-- A text takes the bytes up to the first zero byte, and that with them. -/
theorem steady_field : Steady field where
  done := by
    intro bs s rest h
    unfold field at h
    split at h
    · cases h
    · next b tail hdrop =>
      cases h
      have hb : b = terminator := by
        have hhead := List.head?_dropWhile_not (· ≠ terminator) bs
        rw [hdrop] at hhead
        exact Classical.not_not.mp (of_decide_eq_false hhead)
      have htail : bs.dropWhile (· ≠ terminator) = terminator :: rest := by rw [hdrop, hb]
      have hfree : terminator ∉ bs.takeWhile (· ≠ terminator) := by
        intro hmem
        have hne := List.mem_takeWhile_imp (p := (· ≠ terminator)) hmem
        exact of_decide_eq_true hne rfl
      refine ⟨bs.takeWhile (· ≠ terminator) ++ [terminator], ?_, fun others => ?_⟩
      · rw [List.append_assoc, List.singleton_append, ← htail, List.takeWhile_append_dropWhile]
      · obtain ⟨htake, hrest⟩ := Registers.takeWhile_append_terminator hfree others
        rw [List.append_assoc, List.singleton_append, field, hrest, htake]
  fault := by
    intro bs why h
    unfold field at h
    split at h <;> cases h

theorem steady_known (code : UInt16) : Steady (known code) := by
  unfold known
  cases Opcode.ofCode? code with
  | some o => exact .pure o
  | none => exact .fail _

theorem steady_opcode : Steady opcode := steady_word.andThen steady_known

theorem steady_entry : Steady entry :=
  steady_word.andThen fun _ => steady_word.andThen fun _ => steady_word.andThen fun _ =>
    steady_word.andThen fun _ => steady_byte.andThen fun _ => .pure _

theorem steady_entriesFrom (n : Nat) : Steady (entriesFrom [] n) := by
  induction n with
  | zero => exact .pure []
  | succ n ih =>
    rw [entriesFrom_succ]
    exact steady_entry.andThen fun s => .map _ ih

theorem steady_ackBody (o : Opcode) : Steady (ackBody o) := by
  have hstats : Steady (word.andThen fun count => map AckBody.stats (entriesFrom [] count.toNat)) :=
    steady_word.andThen fun count => .map _ (steady_entriesFrom count.toNat)
  cases o with
  | follow =>
    exact steady_byte.andThen fun _ => steady_byte.andThen fun _ => steady_field.andThen fun _ =>
      .pure _
  | logStat | stat => exact hstats
  | _ => exact .pure _

theorem steady_notification : Steady notification :=
  steady_byte.andThen fun _ => steady_field.andThen fun _ => steady_field.andThen fun _ => .pure _

/-- **The reader of a reply stands by what it said.** -/
theorem steady_reply : Steady reply := by
  refine steady_opcode.andThen fun o => ?_
  cases o with
  | error => exact .map _ steady_opcode
  | notification => exact .map _ steady_notification
  | ack => exact steady_opcode.andThen fun o => .map _ (steady_ackBody o)
  | _ => exact .fail _

/-- A reply takes at least one byte, and depends only on those that it takes. -/
theorem exists_used_of_reply {bs rest : Bytes} {r : Reply} (h : reply bs = .done r rest) :
    ∃ used, used ≠ [] ∧ bs = used ++ rest ∧ ∀ others, reply (used ++ others) = .done r others := by
  obtain ⟨used, hbs, hused⟩ := steady_reply.done h
  refine ⟨used, ?_, hbs, hused⟩
  rintro rfl
  -- of no bytes at all nothing is read
  cases hused []

end Reader

/-! ### One reply -/

theorem decodeReply_eq_some_iff {bs : Bytes} {r : Reply} {n : Nat} :
    decodeReply bs = .ok (some (r, n)) ↔
      n ≤ bs.length ∧ Reader.reply bs = .done r (bs.drop n) := by
  unfold decodeReply
  constructor
  · intro h
    split at h
    · next r' rest hdone =>
      cases h
      obtain ⟨used, -, rfl, -⟩ := Reader.exists_used_of_reply hdone
      rw [List.length_append, Nat.add_sub_cancel, List.drop_left]
      exact ⟨Nat.le_add_right _ _, hdone⟩
    · cases h
    · cases h
  · rintro ⟨hn, hdone⟩
    rw [hdone]
    dsimp only
    rw [List.length_drop, Nat.sub_sub_self hn]

theorem decodeReply_eq_none_iff {bs : Bytes} :
    decodeReply bs = .ok none ↔ Reader.reply bs = .more := by
  unfold decodeReply
  cases Reader.reply bs <;> simp

theorem decodeReply_eq_error_iff {bs : Bytes} {why : ProtocolFault} :
    decodeReply bs = .error why ↔ Reader.reply bs = .fault why := by
  unfold decodeReply
  cases Reader.reply bs <;> simp

/-! ### Many replies -/

theorem replies_of_done {bs rest : Bytes} {r : Reply} (h : Reader.reply bs = .done r rest) :
    replies bs = (r :: (replies rest).1, (replies rest).2) := by
  obtain ⟨used, hne, rfl, -⟩ := Reader.exists_used_of_reply h
  have hlt : rest.length < (used ++ rest).length := by
    have hpos : 0 < used.length := List.length_pos_iff.mpr hne
    rw [List.length_append]
    omega
  rw [replies, h]
  dsimp only
  rw [if_pos hlt]

theorem replies_of_more {bs : Bytes} (h : Reader.reply bs = .more) : replies bs = ([], bs) := by
  rw [replies, h]

theorem replies_of_fault {bs : Bytes} {why : ProtocolFault} (h : Reader.reply bs = .fault why) :
    replies bs = ([], bs) := by
  rw [replies, h]

/-- Replies are decoded one after another, as long as that can be done. -/
theorem replies_eq_decodeReply (bs : Bytes) :
    replies bs = match decodeReply bs with
      | .ok (some (r, n)) => (r :: (replies (bs.drop n)).1, (replies (bs.drop n)).2)
      | .ok none | .error _ => ([], bs) := by
  cases h : Reader.reply bs with
  | done r rest =>
    obtain ⟨used, -, rfl, -⟩ := Reader.exists_used_of_reply h
    have hdecode : decodeReply (used ++ rest) = .ok (some (r, used.length)) :=
      decodeReply_eq_some_iff.mpr ⟨by simp, by rw [List.drop_left, h]⟩
    rw [hdecode, replies_of_done h]
    dsimp only
    rw [List.drop_left]
  | more => rw [decodeReply_eq_none_iff.mpr h, replies_of_more h]
  | fault why => rw [decodeReply_eq_error_iff.mpr h, replies_of_fault h]

/-- An induction along the replies at the front of some bytes. -/
theorem replies_induction {motive : Bytes → Prop}
    (done : ∀ bs r rest, Reader.reply bs = .done r rest → motive rest → motive bs)
    (more : ∀ bs, Reader.reply bs = .more → motive bs)
    (fault : ∀ bs why, Reader.reply bs = .fault why → motive bs) (bs : Bytes) : motive bs := by
  induction hlength : bs.length using Nat.strongRecOn generalizing bs with
  | ind length ih =>
    cases h : Reader.reply bs with
    | done r rest =>
      obtain ⟨used, hne, hbs, -⟩ := Reader.exists_used_of_reply h
      have hlt : rest.length < length := by
        have hpos : 0 < used.length := List.length_pos_iff.mpr hne
        rw [← hlength, hbs, List.length_append]
        omega
      exact done bs r rest h (ih rest.length hlt rest rfl)
    | more => exact more bs h
    | fault why => exact fault bs why h

/-- Behind the replies at the front there is no other. -/
theorem reply_replies_snd (bs : Bytes) :
    Reader.reply (replies bs).2 = .more ∨ ∃ why, Reader.reply (replies bs).2 = .fault why := by
  induction bs using replies_induction with
  | done bs r rest h ih => rwa [replies_of_done h]
  | more bs h => rw [replies_of_more h]; exact .inl h
  | fault bs why h => rw [replies_of_fault h]; exact .inr ⟨why, h⟩

/-- **Of two stretches of bytes the replies of the first come first, and the bytes that
these leave are read with the second.** -/
theorem replies_append (bs others : Bytes) :
    replies (bs ++ others) =
      ((replies bs).1 ++ (replies ((replies bs).2 ++ others)).1,
        (replies ((replies bs).2 ++ others)).2) := by
  induction bs using replies_induction with
  | done bs r rest h ih =>
    rw [replies_of_done (Reader.steady_reply.append h others), replies_of_done h, ih]
    rfl
  | more bs h =>
    rw [replies_of_more h]
    rfl
  | fault bs why h =>
    rw [replies_of_fault h]
    rfl

end Microblog.Wire
