import Microblog.Proofs.Channels
import Microblog.Proofs.Legibility

/-!
# What a hub says is what a client reads

Replies go out without lengths, so a client keeps in step with a hub only as long as every
reply is legible.  Whatever bytes come in on whatever connections, every one is: what a
command sends is legible if there is no U+0000 in the command and none in the hub, and
neither bytes nor the coming and going of connections bring any in.

What a channel takes in the course of a run is looked at event by event.  As long as the
channel has a receiving end it is what waits there.

## Main definitions

* `Switchboard.Gains` — what channels have taken meanwhile are certain replies.
* `Service.NulFree`, `Hub.NulFree` — no U+0000 in what is kept.
* `Event.isTransport` — the events that carry bytes, or open or close connections.
* `Hub.said` — the messages that a channel takes in the course of a run.

## Main results

* `Link.nulFree_receiveFrom` — bytes are answered legibly, whatever they are.
* `said_is_read` — **a client reads what is said to it.**
-/

namespace Microblog

open Text Wire

/-! ### What channels have taken -/

/-- Each channel has meanwhile taken some replies, all of them with the property `P`, and
no other messages. -/
def Switchboard.Gains (P : Reply → Prop) (s s' : Switchboard) : Prop :=
  ∀ c, ∃ rs : List Reply, s'.waiting c = s.waiting c ++ rs.map .reply ∧ ∀ r ∈ rs, P r

namespace Switchboard

variable {P : Reply → Prop} {s s' s'' : Switchboard}

theorem Gains.of_waiting_eq (h : ∀ c, s'.waiting c = s.waiting c) : s.Gains P s' :=
  fun c => ⟨[], by rw [h, List.map_nil, List.append_nil], nofun⟩

theorem Gains.refl (P : Reply → Prop) (s : Switchboard) : s.Gains P s := .of_waiting_eq fun _ => rfl

theorem Gains.trans (h : s.Gains P s') (h' : s'.Gains P s'') : s.Gains P s'' := by
  intro c
  obtain ⟨rs, hrs, hP⟩ := h c
  obtain ⟨rs', hrs', hP'⟩ := h' c
  refine ⟨rs ++ rs', ?_, fun r hr => (List.mem_append.mp hr).elim (hP r) (hP' r)⟩
  rw [hrs', hrs, List.append_assoc, List.map_append]

/-- A reply with the property, for whichever connection. -/
theorem gains_send {r : Reply} (hr : P r) (s : Switchboard) (c : ConnectionId) :
    s.Gains P (s.send c (.reply r)) := by
  intro other
  rw [waiting_send]
  split
  · exact ⟨[r], rfl, fun r' hr' => List.mem_singleton.mp hr' ▸ hr⟩
  · exact ⟨[], (List.append_nil _).symm, nofun⟩

end Switchboard

/-- What a command sends. -/
theorem Service.gains_apply {P : Reply → Prop} {e : Effect}
    (h : ∀ item ∈ e.outgoing, P item.2) (s : Service) (c : ConnectionId) :
    s.switchboard.Gains P (s.apply c e).switchboard := by
  intro other
  rw [waiting_apply]
  split
  · refine ⟨e.repliesTo other, rfl, fun r hr => ?_⟩
    obtain ⟨item, hitem, rfl⟩ := List.mem_map.mp hr
    exact h item (List.mem_filter.mp hitem).1
  · exact ⟨[], rfl, nofun⟩

/-! ### Bytes -/

/-- No text of the service has U+0000. -/
structure Service.NulFree (s : Service) : Prop where
  /-- Users are found where sessions lead. -/
  coherent : s.directory.Coherent
  /-- The directory has none. -/
  directory : s.directory.NulFree
  /-- The filter puts none in. -/
  placeholder : Text.NulFree s.filter.placeholder

/-- A command without U+0000 is answered legibly and brings none in. -/
theorem Session.nulFree_process {service : Service} (hs : service.NulFree) {command : Command}
    (hcommand : ∀ s ∈ command.texts, NulFree s) (session : Session) :
    (session.process service (.command command)).2.NulFree ∧
      service.switchboard.Gains Reply.Legible
        (session.process service (.command command)).2.switchboard := by
  unfold process
  split
  · next c command' _ heq =>
    cases heq
    split
    · next e he =>
      refine ⟨⟨hs.coherent.execute he, ?_, hs.placeholder⟩, ?_⟩
      · exact hs.directory.execute hs.coherent hs.placeholder hcommand he
      · exact service.gains_apply
          (legible_execute hs.directory hs.coherent hs.placeholder hcommand he) c
    · exact ⟨⟨hs.coherent, hs.directory, hs.placeholder⟩,
        Switchboard.gains_send trivial _ c⟩
  · exact ⟨hs, .refl _ _⟩

/-- **Whatever bytes come in, what goes out is legible, and no U+0000 comes in.** -/
theorem Link.nulFree_receiveFrom (bs : Bytes) {l : Link} {service : Service}
    (hl : l.decoder.NulFree) (hs : service.NulFree) (processed : Nat) :
    (l.receiveFrom service processed bs).link.decoder.NulFree ∧
      (l.receiveFrom service processed bs).service.NulFree ∧
      service.switchboard.Gains Reply.Legible
        (l.receiveFrom service processed bs).service.switchboard := by
  induction bs generalizing l service processed with
  | nil => exact ⟨hl, hs, .refl _ _⟩
  | cons b bs ih =>
    obtain ⟨hdecoder, htexts⟩ := hl.step b
    unfold receiveFrom
    split
    · next decoder heq =>
      rw [heq] at hdecoder
      exact ih (l := { l with decoder }) hdecoder hs processed
    · next decoder command heq =>
      rw [heq] at hdecoder htexts
      obtain ⟨hservice, hgains⟩ :=
        Session.nulFree_process hs (htexts command rfl) l.session
      dsimp only
      split
      · exact ⟨hdecoder, hservice, hgains⟩
      · obtain ⟨hl', hs', hgains'⟩ := ih (l := ⟨decoder, _⟩) hdecoder hservice (processed + 1)
        exact ⟨hl', hs', hgains.trans hgains'⟩

/-! ### Runs -/

/-- The event is not a message that was handed over without having been read, but opens
or closes a connection or carries bytes. -/
def Event.isTransport : Event → Bool
  | .message .. | .broadcast _ => false
  | _ => true

/-- No text of the hub has U+0000. -/
structure Hub.NulFree (h : Hub) : Prop where
  /-- The service has none. -/
  service : h.service.NulFree
  /-- The decoders have none. -/
  decoder : ∀ {c : ConnectionId} {l : Link}, h.links[c]? = some l → l.decoder.NulFree

namespace Hub

/-- The messages that the channel of `c` takes in the course of a run, the first one
first. -/
def said (h : Hub) (es : List Event) (c : ConnectionId) : List Message :=
  (h.moments es).flatMap fun m =>
    m.1.service.switchboard.added (m.1.step m.2).service.switchboard c

namespace NulFree

variable {h : Hub}

theorem start (today : Date) {filter : ContentFilter} (hfilter : Text.NulFree filter.placeholder) :
    (Hub.start today filter).NulFree where
  service := ⟨.empty today, .empty today, hfilter⟩
  decoder := by intro c l hl; simp [Hub.start, ofDirectory] at hl

/-- **What happens to a hub makes it say nothing but legible replies.**  They join those
that wait, unless nobody hears them any more. -/
theorem step (hh : h.NulFree) {e : Event} (he : e.isTransport) :
    (h.step e).NulFree ∧ ∀ c, ∃ rs : List Reply,
      h.service.switchboard.added (h.step e).service.switchboard c = rs.map .reply ∧
        (∀ r ∈ rs, r.Legible) ∧
        (e ≠ .hangUp c → (h.step e).service.switchboard.waiting c
          = h.service.switchboard.waiting c ++ rs.map .reply) := by
  have hgained : ∀ {s : Switchboard}, h.service.switchboard.Gains Reply.Legible s →
      ∀ c, ∃ rs : List Reply, h.service.switchboard.added s c = rs.map .reply ∧
        (∀ r ∈ rs, r.Legible) ∧
        (e ≠ .hangUp c → s.waiting c = h.service.switchboard.waiting c ++ rs.map .reply) := by
    intro s hs c
    obtain ⟨rs, hrs, hlegible⟩ := hs c
    exact ⟨rs, by rw [Switchboard.added, hrs, List.drop_left], hlegible, fun _ => hrs⟩
  cases e with
  | connect =>
    refine ⟨⟨⟨hh.service.coherent, hh.service.directory, hh.service.placeholder⟩, ?_⟩,
      hgained (.of_waiting_eq (Switchboard.waiting_connect _))⟩
    intro c l hl
    simp only [Hub.step, Hub.connect, Array.getElem?_push] at hl
    split at hl
    · rw [← Option.some.inj hl]
      trivial
    · exact hh.decoder hl
  | message c m => cases he
  | bytes c bs =>
    simp only [Hub.step, Hub.bytes]
    cases hl : h.links[c]? with
    | none => exact ⟨hh, hgained (.refl _ _)⟩
    | some l =>
      obtain ⟨hlink, hservice, hgains⟩ :=
        Link.nulFree_receiveFrom bs (hh.decoder hl) hh.service 0
      refine ⟨⟨hservice, ?_⟩, hgained hgains⟩
      intro c' l' hl'
      rw [Array.getElem?_modify] at hl'
      split at hl'
      · obtain ⟨_, _, rfl⟩ := Option.map_eq_some_iff.mp hl'
        exact hlink
      · exact hh.decoder hl'
  | disconnect c =>
    simp only [Hub.step, Hub.disconnect]
    cases hl : h.links[c]? with
    | none => exact ⟨hh, hgained (.refl _ _)⟩
    | some l =>
      refine ⟨⟨⟨hh.service.coherent.logout _, hh.service.directory.logout _,
        hh.service.placeholder⟩, hh.decoder⟩, hgained (.of_waiting_eq fun other => ?_)⟩
      dsimp only [Session.disconnect]
      split
      · exact Switchboard.waiting_release _ _ _
      · rfl
  | hangUp c =>
    refine ⟨⟨⟨hh.service.coherent, hh.service.directory, hh.service.placeholder⟩, hh.decoder⟩,
      fun other => ⟨[], ?_, List.forall_mem_nil _, fun hne => ?_⟩⟩
    · -- what waited may be lost, but nothing is added
      simp only [Hub.step, mapSwitchboard, Switchboard.added, Switchboard.waiting_hangUp]
      split
      · exact List.drop_nil
      · exact List.drop_length
    · have hother : c ≠ other := fun heq => hne (congrArg Event.hangUp heq)
      simp only [Hub.step, mapSwitchboard, Switchboard.waiting_hangUp, if_neg hother]
      exact (List.append_nil _).symm
  | release c =>
    exact ⟨⟨⟨hh.service.coherent, hh.service.directory, hh.service.placeholder⟩, hh.decoder⟩,
      hgained (.of_waiting_eq (Switchboard.waiting_release _ _))⟩
  | broadcast m => cases he

/-- In the course of a run a hub says nothing but legible replies. -/
theorem run (hh : h.NulFree) {es : List Event} (hes : ∀ e ∈ es, e.isTransport)
    (c : ConnectionId) : ∃ rs : List Reply, h.said es c = rs.map .reply ∧
      (∀ r ∈ rs, r.Legible) ∧
      ((∀ e ∈ es, e ≠ .hangUp c) → (h.run es).service.switchboard.waiting c
        = h.service.switchboard.waiting c ++ rs.map .reply) := by
  induction es generalizing h with
  | nil => exact ⟨[], rfl, nofun, fun _ => (List.append_nil _).symm⟩
  | cons e es ih =>
    obtain ⟨hnext, hadded⟩ := hh.step (hes e List.mem_cons_self)
    obtain ⟨rs, hrs, hlegible, hwaiting⟩ := hadded c
    obtain ⟨rs', hrs', hlegible', hwaiting'⟩ :=
      ih hnext fun e he => hes e (List.mem_cons_of_mem _ he)
    refine ⟨rs ++ rs', ?_, fun r hr => (List.mem_append.mp hr).elim (hlegible r) (hlegible' r),
      fun hne => ?_⟩
    · rw [said, moments_cons, List.flatMap_cons, hrs, List.map_append, ← hrs']
      rfl
    · rw [run_cons, hwaiting' fun e he => hne e (List.mem_cons_of_mem _ he),
        hwaiting (hne e List.mem_cons_self), List.append_assoc, List.map_append]

end NulFree

end Hub

/-- **What a hub says is what a client reads.**  Take a run from nothing in which any bytes
come in on any connections, cut and mixed in any way, connections come and go, and the
filter's placeholder has no U+0000.  What the channel of a connection takes in the course
of it are replies, and the bytes that are written for them are read back, one reply after
another, as these replies, up to the last byte; of statistics with more entries than can
be counted the first ones are read back.  As long as somebody hears the channel, all of
them wait there. -/
theorem said_is_read (today : Date) {filter : ContentFilter}
    (hfilter : NulFree filter.placeholder) {es : List Event} (hes : ∀ e ∈ es, e.isTransport)
    (c : ConnectionId) :
    let said := (Hub.start today filter).said es c
    ∃ rs : List Reply, said = rs.map .reply ∧
      Splits (said.flatMap Message.encode) (rs.map Reply.clipped) ∧
      replies (said.flatMap Message.encode) = (rs.map Reply.clipped, []) ∧
      ((∀ e ∈ es, e ≠ .hangUp c) →
        ((Hub.start today filter).run es).service.switchboard.waiting c = said) := by
  obtain ⟨rs, hsaid, hlegible, hwaiting⟩ := (Hub.NulFree.start today hfilter).run hes c
  have hbytes : (rs.map Message.reply).flatMap Message.encode = rs.flatMap Reply.encode := by
    rw [List.flatMap_map]
    rfl
  dsimp only
  rw [hsaid, hbytes]
  exact ⟨rs, rfl, splits_encode hlegible, replies_encode hlegible, hwaiting⟩

/-- Ada and Bob log in and write, among bytes that mean nothing.  The name that Bob gives
arrives in two parts, and what he posts is no UTF-8. -/
def babble : List Event :=
  [.connect, .connect,
    .bytes 0 ([0xFF, 0x00, separator] ++ (Command.register "ada" "pw" ⟨10, 12, 1815⟩).encode),
    .bytes 1 ((Command.register "bob" "pw" ⟨2, 11, 1815⟩).encode ++ [0x00, 0x02, 0x62]),
    .bytes 0 (Command.login "ada" "pw" 0x31).encode,
    .bytes 1 [0x6F, 0x62, 0x00, 0x70, 0x77, 0x00, 0x31, 0x00],
    .bytes 1 (Command.follow true "ada").encode,
    .bytes 0 ((Command.post "né @bob").encode ++ (Command.stat ["bob", "eve"]).encode),
    .bytes 1 [0x00, 0x05, 0xC0, 0x80, 0x00],
    .bytes 1 (Command.stat ["ada"]).encode]

/-- Everything that Bob's channel takes is read back. -/
theorem said_is_read_babble :
    let hub := Hub.start ⟨1843, 1, 1⟩ {}
    (∀ e ∈ babble, e.isTransport) ∧ NulFree ({} : ContentFilter).placeholder ∧
      hub.said babble 1 = [.reply (.ack ⟨.register, .empty⟩), .reply (.ack ⟨.login, .empty⟩),
        .reply (.ack ⟨.follow, .follow true "ada"⟩),
        .reply (.notification ⟨.post, "ada", "né @bob"⟩), .reply (.ack ⟨.post, .empty⟩),
        .reply (.ack ⟨.stat, .stats [⟨27, 1, 1, 0⟩]⟩)] ∧
      ∃ rs : List Reply, hub.said babble 1 = rs.map .reply ∧
        Splits ((hub.said babble 1).flatMap Message.encode) (rs.map Reply.clipped) := by
  have hes : ∀ e ∈ babble, e.isTransport := by decide
  have hfilter : NulFree ({} : ContentFilter).placeholder := by decide
  obtain ⟨rs, hsaid, hsplits, -, -⟩ := said_is_read ⟨1843, 1, 1⟩ hfilter hes 1
  exact ⟨hes, hfilter, by decide +kernel, rs, hsaid, hsplits⟩

end Microblog
