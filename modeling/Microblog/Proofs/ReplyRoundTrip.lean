import Microblog.Proofs.Readers

/-!
# Replies that come back

A reply is written by its own form and read by the opcodes in it, so not every reply that can
be written down comes back.  One that does is well formed: no text in it has U+0000, an
acknowledgement has the body that its opcode calls for, and there are no more statistics than
can be counted.

That well-formed replies come back is a matter of the writer.  That no others do is a matter of
the reader alone, which never reads a reply that is not well formed, whatever the bytes are.
There is then no need to look at the many ways in which an opcode and a body may fail to match.

## Main definitions

* `Reply.WellFormed` — a reply that a server can say.
* `Reader.Yields` — all that a reader reads has some property.

## Main results

* `Reader.yields_reply` — only well-formed replies are read.
* `decodeReply_eq_none_of_prefix` — of a reply that has not all arrived nothing is read yet.
* `reply_round_trip` — **a reply comes back if and only if it is well formed.**
-/

namespace Microblog

open Text Wire

/-! ### Well-formed replies -/

/-- The body is what the opcode calls for, its text has no U+0000, and its entries can be
counted. -/
def Ack.WellFormed (a : Ack) : Prop :=
  match a.opcode, a.body with
  | .follow, .follow _ username => NulFree username
  | .logStat, .stats entries | .stat, .stats entries => entries.length ≤ maxEntries
  | .follow, _ | .logStat, _ | .stat, _ => False
  | _, .empty => True
  | _, _ => False

/-- A reply that a server can say. -/
def Reply.WellFormed : Reply → Prop
  | notification n => n.NulFree
  | ack a => a.WellFormed
  | error _ => True

/-- A well-formed acknowledgement is legible, and short enough to be written as it is. -/
theorem Ack.WellFormed.legible_and_clipped {a : Ack} (h : a.WellFormed) :
    a.Legible ∧ (Reply.ack a).clipped = .ack a := by
  obtain ⟨opcode, body⟩ := a
  cases body with
  | empty =>
    cases opcode with
    | follow | logStat | stat => cases h
    | _ => exact ⟨trivial, rfl⟩
  | follow direction username =>
    cases opcode with
    | follow => exact ⟨h, rfl⟩
    | _ => cases h
  | stats entries =>
    have hshort : entries.length ≤ maxEntries →
        (Reply.ack ⟨opcode, .stats entries⟩).clipped = .ack ⟨opcode, .stats entries⟩ := by
      intro hle
      rw [Reply.clipped, List.take_of_length_le hle]
    cases opcode with
    | logStat => exact ⟨trivial, hshort h⟩
    | stat => exact ⟨trivial, hshort h⟩
    | _ => cases h

namespace Reply.WellFormed

variable {r : Reply}

theorem legible (h : r.WellFormed) : r.Legible := by
  cases r with
  | notification n => exact h
  | ack a => exact (Ack.WellFormed.legible_and_clipped h).1
  | error o => trivial

theorem clipped_eq (h : r.WellFormed) : r.clipped = r := by
  cases r with
  | notification n => rfl
  | ack a => exact (Ack.WellFormed.legible_and_clipped h).2
  | error o => rfl

end Reply.WellFormed

namespace Wire

/-! ### What is read is well formed -/

namespace Reader

/-- All that the reader reads has the property `P`, whatever the bytes are. -/
def Yields {α : Type} (P : α → Prop) (r : Reader α) : Prop :=
  ∀ bs a rest, r bs = .done a rest → P a

section

variable {α β : Type} {P : α → Prop} {Q : β → Prop}

theorem yields_pure {a : α} (ha : P a) : Yields P (pure a) := by
  rintro bs _ _ ⟨⟩
  exact ha

theorem yields_true (r : Reader α) : Yields (fun _ => True) r := fun _ _ _ _ => trivial

theorem Yields.andThen {r : Reader α} {f : α → Reader β} (hr : Yields P r)
    (hf : ∀ a, P a → Yields Q (f a)) : Yields Q (r.andThen f) := by
  intro bs b rest h
  unfold Reader.andThen at h
  split at h
  · next a mid ha => exact hf a (hr _ _ _ ha) _ _ _ h
  · cases h
  · cases h

theorem Yields.map {r : Reader α} {f : α → β} (hr : Yields P r) (hf : ∀ a, P a → Q (f a)) :
    Yields Q (Reader.map f r) :=
  hr.andThen fun a ha => yields_pure (hf a ha)

end

/-- A text ends at the first zero byte, so what is read has no U+0000. -/
theorem yields_field : Yields NulFree field := by
  intro bs s rest h
  unfold field at h
  split at h
  · cases h
  · cases h
    refine Utf8.nulFree_decode fun hmem => ?_
    have hne := List.mem_takeWhile_imp (p := (· ≠ terminator)) hmem
    exact of_decide_eq_true hne rfl

theorem yields_entriesFrom (n : Nat) :
    Yields (fun entries => entries.length = n) (entriesFrom [] n) := by
  induction n with
  | zero => exact yields_pure rfl
  | succ n ih =>
    rw [entriesFrom_succ]
    refine (yields_true entry).andThen fun s _ => ih.map fun entries hlength => ?_
    rw [List.length_cons, hlength]

/-- A count has sixteen bits, so there are no more entries than can be counted. -/
theorem yields_stats :
    Yields (fun body => ∃ entries, body = .stats entries ∧ entries.length ≤ maxEntries)
      (word.andThen fun count => map AckBody.stats (entriesFrom [] count.toNat)) := by
  refine (yields_true word).andThen fun count _ => ?_
  refine (yields_entriesFrom count.toNat).map fun entries hlength => ⟨entries, rfl, ?_⟩
  have hlt : count.toNat < 2 ^ 16 := count.toNat_lt
  rw [hlength, maxEntries]
  omega

theorem yields_ackBody (o : Opcode) :
    Yields (fun body => Ack.WellFormed ⟨o, body⟩) (ackBody o) := by
  cases o with
  | follow =>
    refine (yields_true byte).andThen fun direction _ => (yields_true byte).andThen fun _ _ => ?_
    exact yields_field.andThen fun username hname => yields_pure hname
  | logStat | stat =>
    intro bs body rest h
    obtain ⟨entries, rfl, hle⟩ := yields_stats _ _ _ h
    exact hle
  | _ => exact yields_pure trivial

theorem yields_notification : Yields Notification.NulFree notification := by
  refine (yields_true byte).andThen fun kind _ => yields_field.andThen fun author hauthor => ?_
  exact yields_field.andThen fun content hcontent => yields_pure ⟨hauthor, hcontent⟩

/-- **Only well-formed replies are read.** -/
theorem yields_reply : Yields Reply.WellFormed reply := by
  refine (yields_true opcode).andThen fun o _ => ?_
  cases o with
  | error => exact (yields_true opcode).map fun _ _ => trivial
  | notification => exact yields_notification.map fun _ hn => hn
  | ack =>
    refine (yields_true opcode).andThen fun o _ => ?_
    exact (yields_ackBody o).map fun _ hbody => hbody
  | _ => exact nofun

end Reader

theorem wellFormed_of_decodeReply {bs : Bytes} {r : Reply} {n : Nat}
    (h : decodeReply bs = .ok (some (r, n))) : r.WellFormed :=
  Reader.yields_reply _ _ _ (decodeReply_eq_some_iff.mp h).2

/-! ### What has not all arrived -/

/-- **Of a reply that has not all arrived nothing is read yet, and it is not at fault.** -/
theorem decodeReply_eq_none_of_prefix {r : Reply} (hr : r.Legible) {front : Bytes}
    (hfront : front <+: r.encode) (hne : front ≠ r.encode) : decodeReply front = .ok none := by
  have hwhole := Reader.reply_encode hr []
  rw [List.append_nil] at hwhole
  exact decodeReply_eq_none_iff.mpr (Reader.steady_reply.more_of_prefix hwhole hfront hne)

end Wire

/-- **A reply comes back if and only if it is well formed.**  A reply that is written is read
back as it was, and with all the bytes that it takes, exactly if it is well formed; then it is
whatever bytes follow, and as long as some of its bytes have not arrived the reader asks for
more and finds no fault.  Of statistics as many entries come back as can be counted, however
many there are, and all the bytes are taken. -/
theorem reply_round_trip (r : Reply) :
    (decodeReply r.encode = .ok (some (r, r.encode.length)) ↔ r.WellFormed) ∧
    (r.WellFormed →
      (∀ others, decodeReply (r.encode ++ others) = .ok (some (r, r.encode.length))) ∧
      ∀ front, front <+: r.encode → front ≠ r.encode → decodeReply front = .ok none) ∧
    (∀ opcode entries, r = .ack ⟨opcode, .stats entries⟩ → opcode = .logStat ∨ opcode = .stat →
      decodeReply r.encode
        = .ok (some (.ack ⟨opcode, .stats (entries.take maxEntries)⟩, r.encode.length))) := by
  have hread : r.WellFormed → ∀ others,
      decodeReply (r.encode ++ others) = .ok (some (r, r.encode.length)) := by
    intro hr others
    rw [decodeReply_encode hr.legible, hr.clipped_eq]
  refine ⟨⟨wellFormed_of_decodeReply, fun hr => ?_⟩, fun hr => ⟨hread hr, ?_⟩, ?_⟩
  · have hwhole := hread hr []
    rwa [List.append_nil] at hwhole
  · intro front hfront hne
    exact decodeReply_eq_none_of_prefix hr.legible hfront hne
  · rintro opcode entries rfl hopcode
    have hlegible : (Reply.ack ⟨opcode, .stats entries⟩).Legible := by
      rcases hopcode with rfl | rfl <;> trivial
    have hwhole := decodeReply_encode hlegible []
    rwa [List.append_nil] at hwhole

end Microblog
