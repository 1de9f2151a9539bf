import Microblog.Proofs.Readers
import Microblog.Wire.Cursor

/-!
# Verdicts that stand

A client decodes what has arrived, and if that is no reply yet it tries again when there is
more.  So what it finds must not depend on when it tries.  For readers that are put together
from steady ones this is known.  A cursor is not put together in this way: it counts the bytes
of statistics before it reads any, and it reads on where a part of a notification is lacking.
But in the end it reads what a reader does.

## Main definitions

* `Cursor.Same` — a reader and a reading come out the same at a cursor.
* `Cursor.Agrees` — they do so at every cursor.
* `Reader.Takes` — a reader of so many bytes, which finds no fault.

## Main results

* `Cursor.agrees_reply`, `Cursor.decodeReply_eq` — the cursor reads the replies of the reader.
* `verdict_stands` — **a reply that was decoded stands, and so does a fault.**
-/

namespace Microblog.Wire

/-! ### Readers of a fixed number of bytes -/

namespace Reader

/-- The reader takes `n` bytes and makes something of them, whatever they are, or else asks for
more. -/
def Takes {α : Type} (n : Nat) (r : Reader α) : Prop :=
  ∀ bs, r bs = .more ∨ ∃ a rest, r bs = .done a rest ∧ bs.length = n + rest.length

section

variable {α β : Type} {n m : Nat}

theorem takes_pure (a : α) : Takes 0 (pure a) := fun bs => .inr ⟨a, bs, rfl, (Nat.zero_add _).symm⟩

theorem Takes.andThen {r : Reader α} {f : α → Reader β} (hr : Takes n r) (hf : ∀ a, Takes m (f a)) :
    Takes (n + m) (r.andThen f) := by
  intro bs
  rcases hr bs with hmore | ⟨a, mid, hdone, hlength⟩
  · left
    rw [Reader.andThen, hmore]
  · rw [andThen_of_done hdone]
    refine (hf a mid).imp_right ?_
    rintro ⟨b, rest, hrest, hmid⟩
    exact ⟨b, rest, hrest, by omega⟩

/-- With fewer bytes than that there is no value. -/
theorem Takes.more_of_lt {r : Reader α} (hr : Takes n r) {bs : Bytes} (h : bs.length < n) :
    r bs = .more := by
  rcases hr bs with hmore | ⟨a, rest, -, hlength⟩
  · exact hmore
  · omega

end

theorem takes_byte : Takes 1 byte := by
  intro bs
  cases bs with
  | nil => exact .inl rfl
  | cons b bs => exact .inr ⟨b, bs, rfl, Nat.add_comm ..⟩

theorem takes_word : Takes 2 word := by
  intro bs
  match bs with
  | [] | [_] => exact .inl rfl
  | hi :: lo :: bs =>
    refine .inr ⟨ofBytes hi lo, bs, rfl, ?_⟩
    rw [List.length_cons, List.length_cons]
    omega

theorem takes_entry : Takes Cursor.entrySize entry :=
  takes_word.andThen fun _ => takes_word.andThen fun _ => takes_word.andThen fun _ =>
    takes_word.andThen fun _ => takes_byte.andThen fun _ => takes_pure _

theorem takes_entriesFrom (n : Nat) : Takes (n * Cursor.entrySize) (entriesFrom [] n) := by
  induction n with
  | zero =>
    rw [Nat.zero_mul]
    exact takes_pure []
  | succ n ih =>
    rw [entriesFrom_succ, Nat.succ_mul, Nat.add_comm]
    exact takes_entry.andThen fun s => ih.andThen fun _ => takes_pure _

/-- A text ends at the first zero byte, if there is one. -/
theorem field_eq (bs : Bytes) :
    field bs = match bs.findIdx? (· = terminator) with
      | none => .more
      | some n => .done (Text.Utf8.decode (bs.take n)) (bs.drop (n + 1)) := by
  have hnot : (fun b : UInt8 => !decide (b ≠ terminator)) = fun b => decide (b = terminator) := by
    funext b
    rw [decide_not, Bool.not_not]
  rw [field, List.takeWhile_eq_take_findIdx_not, List.dropWhile_eq_drop_findIdx_not, hnot]
  cases h : bs.findIdx? (· = terminator) with
  | none =>
    rw [List.findIdx?_eq_none_iff_findIdx_eq.mp h, List.drop_length]
  | some n =>
    obtain ⟨hlt, hn⟩ := List.findIdx?_eq_some_iff_findIdx_eq.mp h
    rw [hn, List.drop_eq_getElem_cons hlt]

end Reader

namespace Cursor

/-! ### A reader and a cursor -/

/-- What a reader makes of the bytes that are left is what came of a reading at the cursor. -/
inductive Same {α : Type} (c : Cursor) : Outcome α → EStateM.Result Halt Cursor α → Prop where
  /-- A value of `n` bytes, and the cursor is behind them. -/
  | done (a : α) (n : Nat) (hn : n ≤ c.rest.length) :
      Same c (.done a (c.rest.drop n)) (.ok a (c.advance n))
  /-- Too few bytes, wherever that was found out. -/
  | more (c' : Cursor) : Same c .more (.error .short c')
  /-- A fault. -/
  | fault (why : ProtocolFault) (c' : Cursor) : Same c (.fault why) (.error (.fault why) c')

/-- The reader and the reading come out the same at every cursor. -/
def Agrees {α : Type} (r : Reader α) (x : Reading α) : Prop := ∀ c, Same c (r c.rest) (x c)

section

variable {α β : Type} {r : Reader α} {x : Reading α}

theorem bind_apply (x : Reading α) (g : α → Reading β) (c : Cursor) :
    (x >>= g) c = match x c with
      | .ok a c' => g a c'
      | .error why c' => .error why c' := by
  change EStateM.bind x g c = _
  unfold EStateM.bind
  cases x c <;> rfl

theorem agrees_pure (a : α) : Agrees (Reader.pure a) (pure a) := fun _ =>
  .done a 0 (Nat.zero_le _)

theorem Agrees.bind {f : α → Reader β} {g : α → Reading β} (h : Agrees r x)
    (hf : ∀ a, Agrees (f a) (g a)) : Agrees (r.andThen f) (x >>= g) := by
  intro c
  have hc := h c
  rw [Reader.andThen, bind_apply]
  generalize r c.rest = outcome, x c = result at hc ⊢
  cases hc with
  | done a n hn =>
    have hnext := hf a (c.advance n)
    rw [rest_advance] at hnext
    show Same c (f a (c.rest.drop n)) (g a (c.advance n))
    generalize f a (c.rest.drop n) = outcome, g a (c.advance n) = result at hnext ⊢
    cases hnext with
    | done b m hm =>
      rw [rest_advance, List.length_drop] at hm
      rw [rest_advance, List.drop_drop, advance_advance]
      exact .done b (n + m) (by omega)
    | more c' => exact .more c'
    | fault why c' => exact .fault why c'
  | more c' => exact .more c'
  | fault why c' => exact .fault why c'

theorem Agrees.map (f : α → β) (h : Agrees r x) :
    Agrees (Reader.map f r) (x >>= fun a => pure (f a)) :=
  h.bind fun a => agrees_pure (f a)

end

theorem agrees_byte : Agrees Reader.byte byte := by
  intro c
  have hhead : c.bytes[c.pos]? = c.rest.head? := List.head?_drop.symm
  rw [byte, hhead]
  cases hrest : c.rest with
  | nil => exact .more c
  | cons b bs =>
    have hone : 1 ≤ c.rest.length := by
      rw [hrest]
      exact Nat.le_add_left ..
    have hdone := Same.done b 1 hone
    rwa [hrest] at hdone

theorem agrees_word : Agrees Reader.word word := by
  intro c
  rw [word]
  match hrest : c.rest with
  | [] | [_] => exact .more c
  | hi :: lo :: bs =>
    have htwo : 2 ≤ c.rest.length := by
      rw [hrest]
      exact Nat.le_add_left ..
    have hdone := Same.done (ofBytes hi lo) 2 htwo
    rwa [hrest] at hdone

theorem agrees_field : Agrees Reader.field field := by
  intro c
  rw [Reader.field_eq, field]
  cases h : c.rest.findIdx? (· = terminator) with
  | none => exact .more c
  | some n =>
    obtain ⟨hlt, -⟩ := List.findIdx?_eq_some_iff_findIdx_eq.mp h
    exact .done _ (n + 1) hlt

theorem agrees_known (code : UInt16) : Agrees (Reader.known code) (known code) := by
  intro c
  unfold Reader.known known
  cases Opcode.ofCode? code with
  | none => exact .fault _ c
  | some o => exact agrees_pure o c

theorem agrees_opcode : Agrees Reader.opcode opcode := agrees_word.bind agrees_known

/-! ### Statistics, counted first -/

theorem agrees_entry : Agrees Reader.entry entry :=
  agrees_word.bind fun _ => agrees_word.bind fun _ => agrees_word.bind fun _ =>
    agrees_word.bind fun _ => agrees_byte.bind fun _ => agrees_pure _

theorem agrees_entriesFrom (read : List Stats) (n : Nat) :
    Agrees (Reader.entriesFrom read n) (entriesFrom read.reverse n) := by
  induction n generalizing read with
  | zero => exact agrees_pure _
  | succ n ih =>
    have hreader : Reader.entriesFrom read (n + 1)
        = Reader.entry.andThen fun s => Reader.entriesFrom (s :: read) n := by
      funext bs
      rw [Reader.entriesFrom, Reader.andThen]
      cases Reader.entry bs <;> rfl
    have hcursor : entriesFrom read.reverse (n + 1)
        = entry >>= fun s => entriesFrom (s :: read).reverse n := by
      simp only [List.reverse_cons]
      rfl
    rw [hreader, hcursor]
    exact agrees_entry.bind fun s => ih (s :: read)

/-- To count the bytes first changes nothing: the reader, too, has no statistics without all of
them. -/
theorem agrees_entries (n : Nat) : Agrees (Reader.entriesFrom [] n) (entries n) := by
  intro c
  unfold entries
  split
  · next hshort =>
    rw [remaining_eq] at hshort
    rw [(Reader.takes_entriesFrom n).more_of_lt hshort]
    exact .more c
  · exact agrees_entriesFrom [] n c

theorem agrees_ackBody (o : Opcode) : Agrees (Reader.ackBody o) (ackBody o) := by
  cases o with
  | follow =>
    exact agrees_byte.bind fun _ => agrees_byte.bind fun _ => agrees_field.bind fun _ =>
      agrees_pure _
  | logStat | stat => exact agrees_word.bind fun _ => (agrees_entries _).map _
  | _ => exact agrees_pure _

/-! ### Notifications, whose parts are read in any case -/

section

variable {α β : Type} {r : Reader α} {x : Reading α} {g : Option α → Reading β}

/-- Nothing is read, for lack of bytes. -/
def Starves (x : Reading α) : Prop := ∀ c, ∃ c', x c = .error .short c'

theorem Starves.attempt (h : ∀ a, Starves (g a)) : Starves (attempt x >>= g) := by
  intro c
  rw [bind_apply, Cursor.attempt]
  cases x c with
  | ok a c' => exact h (some a) c'
  | error why c' => exact h none c'

/-- If what is behind a part starves without it, it may as well be tried. -/
theorem Agrees.attempt {f : α → Reader β} (h : Agrees r x) (hr : ∀ bs why, r bs ≠ .fault why)
    (hf : ∀ a, Agrees (f a) (g (some a))) (hnone : Starves (g none)) :
    Agrees (r.andThen f) (attempt x >>= g) := by
  intro c
  have hc := h c
  cases hx : x c with
  | ok a c' =>
    have hgo : (Cursor.attempt x >>= g) c = (x >>= fun a => g (some a)) c := by
      rw [bind_apply, bind_apply, Cursor.attempt, hx]
    rw [hgo]
    exact h.bind hf c
  | error why c' =>
    have hmore : r c.rest = .more := by
      rw [hx] at hc
      generalize houtcome : r c.rest = outcome at hc
      cases hc with
      | more => rfl
      | fault why => exact absurd houtcome (hr _ _)
    obtain ⟨c'', hstarved⟩ := hnone c'
    have hgo : (Cursor.attempt x >>= g) c = .error .short c'' := by
      rw [bind_apply, Cursor.attempt, hx]
      exact hstarved
    rw [Reader.andThen, hmore, hgo]
    exact .more c''

end

theorem agrees_notification : Agrees Reader.notification notification := by
  have hfield : ∀ bs why, Reader.field bs ≠ .fault why := by
    intro bs why h
    rw [Reader.field_eq] at h
    split at h <;> cases h
  have hbyte : ∀ bs why, Reader.byte bs ≠ .fault why := by
    intro bs why h
    cases bs <;> cases h
  have hshort : Starves (throw .short : Reading Notification) := fun c => ⟨c, rfl⟩
  refine agrees_byte.attempt hbyte (fun kind => ?_) ?_
  · refine agrees_field.attempt hfield (fun author => ?_) ?_
    · exact agrees_field.attempt hfield (fun content => agrees_pure _) hshort
    · exact .attempt fun content => hshort
  · exact .attempt fun author => .attempt fun content => hshort

/-! ### Replies -/

theorem agrees_reply : Agrees Reader.reply reply := by
  refine agrees_opcode.bind fun o => ?_
  cases o with
  | error => exact agrees_opcode.map _
  | notification => exact agrees_notification.map _
  | ack => exact agrees_opcode.bind fun o => (agrees_ackBody o).map _
  | _ => exact fun c => .fault _ c

/-- **The cursor reads the replies of the reader.** -/
theorem decodeReply_eq (bs : Bytes) : Cursor.decodeReply bs = Wire.decodeReply bs := by
  have h : Same { bytes := bs } (Reader.reply bs) (reply { bytes := bs }) :=
    agrees_reply { bytes := bs }
  rw [Cursor.decodeReply, Wire.decodeReply]
  generalize Reader.reply bs = outcome, reply { bytes := bs } = result at h ⊢
  cases h with
  | done r n hn =>
    have hn : n ≤ bs.length := hn
    have hlength : bs.length - (bs.drop n).length = n := by
      rw [List.length_drop]
      omega
    have hpos : 0 + n = n := Nat.zero_add n
    show Except.ok (some (r, 0 + n)) = .ok (some (r, bs.length - (bs.drop n).length))
    rw [hlength, hpos]
  | more c' => rfl
  | fault why c' => rfl

end Cursor

/-- A reply of `n` bytes is read from the first `n` bytes, whatever follows them. -/
theorem reply_take_of_decodeReply {bs : Bytes} {r : Reply} {n : Nat}
    (h : decodeReply bs = .ok (some (r, n))) :
    0 < n ∧ n ≤ bs.length ∧ ∀ others, Reader.reply (bs.take n ++ others) = .done r others := by
  obtain ⟨hn, hdone⟩ := decodeReply_eq_some_iff.mp h
  obtain ⟨used, hne, hbs, hused⟩ := Reader.exists_used_of_reply hdone
  have htake : bs.take n = used :=
    List.append_cancel_right ((List.take_append_drop n bs).trans hbs)
  have hpos : 0 < used.length := List.length_pos_iff.mpr hne
  rw [← htake, List.length_take] at hpos
  rw [htake]
  exact ⟨by omega, hn, hused⟩

end Microblog.Wire

namespace Microblog

open Wire

/-- **A reply that was decoded stands, and so does a fault.**  Take any bytes.  The cursor finds at
their front what the reader finds.  If that is a reply of `n` bytes, then `n` is positive and there
are `n` bytes; the same reply of `n` bytes is found whatever follows, and also in the first `n`
bytes alone; but in fewer of these nothing is found, and more bytes are asked for.  If it is a
fault, then the same fault is found whatever follows. -/
theorem verdict_stands (bs : Bytes) :
    Cursor.decodeReply bs = decodeReply bs ∧
    (∀ r n, decodeReply bs = .ok (some (r, n)) →
      0 < n ∧ n ≤ bs.length ∧
      (∀ others, decodeReply (bs ++ others) = .ok (some (r, n))) ∧
      decodeReply (bs.take n) = .ok (some (r, n)) ∧
      ∀ front, front <+: bs.take n → front ≠ bs.take n → decodeReply front = .ok none) ∧
    ∀ why, decodeReply bs = .error why → ∀ others, decodeReply (bs ++ others) = .error why := by
  refine ⟨Cursor.decodeReply_eq bs, fun r n h => ?_, fun why h others => ?_⟩
  · obtain ⟨hpos, hn, htake⟩ := reply_take_of_decodeReply h
    have hfound : ∀ others, decodeReply (bs.take n ++ others) = .ok (some (r, n)) := by
      intro others
      have hlength : (bs.take n).length = n := List.length_take_of_le hn
      refine decodeReply_eq_some_iff.mpr ⟨?_, ?_⟩
      · rw [List.length_append]
        omega
      · rw [htake, List.drop_append_of_le_length (Nat.le_of_eq hlength.symm),
          List.drop_of_length_le (Nat.le_of_eq hlength), List.nil_append]
    have hwhole : Reader.reply (bs.take n) = .done r [] := by
      rw [← List.append_nil (bs.take n), htake]
    refine ⟨hpos, hn, fun others => ?_, ?_, fun front hfront hne => ?_⟩
    · have hsame : bs ++ others = bs.take n ++ (bs.drop n ++ others) := by
        rw [← List.append_assoc, List.take_append_drop]
      rw [hsame, hfound]
    · rw [← List.append_nil (bs.take n), hfound]
    · exact decodeReply_eq_none_iff.mpr (Reader.steady_reply.more_of_prefix hwhole hfront hne)
  · have hfault := decodeReply_eq_error_iff.mp h
    exact decodeReply_eq_error_iff.mpr (Reader.steady_reply.fault hfault others)

/-- The statistics of two users, and what is no reply behind them. -/
def ledger : Bytes :=
  (Reply.ack ⟨.logStat, .stats [⟨24, 2, 1, 0⟩, ⟨35, 0, 0, 1⟩]⟩).encode ++ [0xFF, 0xFF]

/-- Two entries are announced, and nothing is found until the last byte of the second is there.
What is behind them does no harm to them, and is found to be at fault for good. -/
theorem verdict_stands_ledger :
    let found : Except ProtocolFault (Option (Reply × Nat)) :=
      .ok (some (.ack ⟨.logStat, .stats [⟨24, 2, 1, 0⟩, ⟨35, 0, 0, 1⟩]⟩, 24))
    let fault : Except ProtocolFault (Option (Reply × Nat)) := .error (.unknownOpcode 0xFFFF)
    decodeReply ledger = found ∧ decodeReply (ledger.take 24) = found ∧
      decodeReply (ledger.take 23) = .ok none ∧
      decodeReply (ledger.drop 24) = fault ∧ decodeReply (ledger.drop 24 ++ ledger) = fault := by
  have hfound : decodeReply ledger
      = .ok (some (.ack ⟨.logStat, .stats [⟨24, 2, 1, 0⟩, ⟨35, 0, 0, 1⟩]⟩, 24)) := by
    decide +kernel
  have hfault : decodeReply (ledger.drop 24) = .error (.unknownOpcode 0xFFFF) := by decide +kernel
  obtain ⟨-, -, -, hfirst, hfewer⟩ := (verdict_stands ledger).2.1 _ _ hfound
  exact ⟨hfound, hfirst, hfewer (ledger.take 23) (by decide +kernel) (by decide +kernel), hfault,
    (verdict_stands (ledger.drop 24)).2.2 _ hfault ledger⟩

end Microblog
