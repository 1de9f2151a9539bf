import Microblog.Proofs.Authentication
import Microblog.Proofs.Dispatch
import Microblog.Proofs.Unfolding

/-!
# Private messages

A private message is refused to a sender who has blocked the recipient.  It is the block of
the recipient by the sender that counts, so the list that is looked at is that of the
recipient; whom the recipient has blocked makes no difference.

What is accepted is redacted before anything is done with it.  Only the redacted text goes any
further, be it into the history, to what waits or into a channel.

## Main results

* `Hub.carriedOut_pm_iff`, `Hub.dispatches_pm` — when a PM is accepted, and what comes of it.
* `Hub.holds_run`, `Hub.waiting_run` — where the notifications come from that are kept after a
  run, and those in channels.
* `Hub.Writes.redacted` — a private message is what an accepted PM has become.
* `private_messages_redacted` — **the acceptance of private messages, and their redaction
  wherever they are found.**
-/

namespace Microblog

/-! ### Acceptance -/

section

variable {d : Directory} {filter : ContentFilter} {accepts : ConnectionId → Bool}
  {c : ConnectionId} {ack : Ack} {name content : String}

/-- A PM is accepted from whoever has not blocked its recipient. -/
theorem exists_executePm_iff :
    (∃ e, executePm d filter accepts c ack name content = .ok e) ↔
      ∃ author, d.userOn c = some author ∧ name ∈ d.members ∧ author ∉ d.blockedBy name := by
  constructor
  · rintro ⟨e, he⟩
    obtain ⟨id, author, recipient, hs, hr, hfree, -⟩ := executePm_eq_ok_iff.mp he
    refine ⟨author.name, Directory.userOn_of_sessionOn hs, Directory.mem_members_of_member? hr, ?_⟩
    rwa [Directory.blockedBy, Directory.listed_of_member? hr]
  · rintro ⟨user, huser, hname, hfree⟩
    obtain ⟨⟨id, author⟩, hs, rfl⟩ := Option.map_eq_some_iff.mp huser
    obtain ⟨recipient, hr⟩ := Directory.mem_members_iff.mp hname
    rw [Directory.blockedBy, Directory.listed_of_member? hr] at hfree
    exact ⟨_, executePm_eq_dispatch hs hr hfree content⟩

end

namespace Hub

variable {h : Hub} {c : ConnectionId} {name content : String}

theorem carriedOut_pm_iff (hh : h.Linked) :
    h.carriedOut (.message c (.command (.pm name content))) = some (c, .pm name content) ↔
      c < h.links.size ∧ ∃ author, h.service.directory.userOn c = some author ∧
        name ∈ h.service.directory.members ∧ author ∉ h.service.directory.blockedBy name :=
  (carriedOut_eq_some_iff hh).trans
    ((and_iff_right rfl).trans (and_congr_right fun _ => exists_executePm_iff))

/-- An accepted PM goes to its recipient and to nobody else, redacted. -/
theorem dispatches_pm (hh : h.Linked) (hd : h.service.directory.Coherent) {author : String}
    (hauthor : h.service.directory.userOn c = some author)
    (hx : h.carriedOut (.message c (.command (.pm name content))) = some (c, .pm name content)) :
    h.service.Dispatches (h.step (.message c (.command (.pm name content)))).service
      ⟨.pm, author, h.service.filter.apply content⟩ (fun user => if user = name then 1 else 0) c
      ⟨.pm, .empty⟩ := by
  obtain ⟨effect, hok, hstep⟩ := step_of_carriedOut hh hx
  obtain ⟨id, a, recipient, hs, hr, hfree, -⟩ := executePm_eq_ok_iff.mp hok
  obtain rfl : a.name = author :=
    Option.some.inj ((Directory.userOn_of_sessionOn hs).symm.trans hauthor)
  have hdispatch : executePm h.service.directory h.service.filter h.service.switchboard.accepts c
      ⟨.pm, .empty⟩ name content = _ := executePm_eq_dispatch hs hr hfree content
  obtain rfl := Except.ok.inj (hok.symm.trans hdispatch)
  have hcopies : [name].count = fun user => if user = name then 1 else 0 := by
    funext user
    rw [List.count_singleton]
    simp [eq_comm (a := user)]
  rw [hstep, ← hcopies]
  exact h.service.dispatches_apply c _ _ hd [name]

end Hub

/-! ### What the course of a run says -/

/-- Nothing that happens changes which words are unwanted. -/
theorem Service.Turn.filter_eq {s s' : Service} {e : Event} {x : Option (ConnectionId × Command)}
    (h : s.Turn e x s') : s'.filter = s.filter := by
  cases h <;> rfl

/-- What waits in a channel has waited there before or is new, if it is not all gone. -/
theorem Service.Turn.mem_waiting {s s' : Service} {e : Event}
    {x : Option (ConnectionId × Command)} (h : s.Turn e x s') {c : ConnectionId} {m : Message}
    (hm : m ∈ s'.switchboard.waiting c) :
    m ∈ s.switchboard.waiting c ∨ m ∈ s.switchboard.added s'.switchboard c := by
  have hcases : s.switchboard.waiting c <+: s'.switchboard.waiting c ∨
      s'.switchboard.waiting c = [] := by
    cases h with
    | opened => exact .inl (by rw [Switchboard.waiting_connect])
    | carriedOut hc hx =>
      rw [waiting_apply]
      exact .inl (List.prefix_append _ _)
    | refused hx =>
      rw [send, Switchboard.waiting_send]
      split
      · exact .inl (List.prefix_append _ _)
      · exact .inl List.prefix_rfl
    | ended other | released other => exact .inl (by rw [Switchboard.waiting_release])
    | hungUp other =>
      rw [Switchboard.waiting_hangUp]
      split
      · exact .inr rfl
      · exact .inl List.prefix_rfl
    | ignored e => exact .inl List.prefix_rfl
  rcases hcases with ⟨rest, hrest⟩ | hnone
  · rw [Switchboard.added, ← hrest, List.drop_left]
    rw [← hrest] at hm
    exact List.mem_append.mp hm
  · rw [hnone] at hm
    cases hm

namespace Hub

variable {h : Hub} {e : Event} {es : List Event} {n : Notification} {c : ConnectionId}

/-- The unwanted words are the same throughout a run. -/
theorem filter_run (hh : h.Linked) (hes : ∀ e ∈ es, ∀ c bs, e ≠ .bytes c bs) :
    (h.run es).service.filter = h.service.filter := by
  induction es generalizing h with
  | nil => rfl
  | cons e es ih =>
    rw [run_cons, ih (hh.step e) fun e' he' => hes e' (List.mem_cons_of_mem e he')]
    rcases isOperation_or_broadcast (hes e List.mem_cons_self) with he | ⟨m, rfl⟩
    · exact (h.turn hh he).filter_eq
    · rfl

/-- What is kept after an event was kept before, or is written in it. -/
theorem holds_of_holds_step (hh : h.Linked) (he : ∀ c bs, e ≠ .bytes c bs)
    (hn : (h.step e).service.directory.Holds n) :
    h.service.directory.Holds n ∨ h.Writes e n := by
  rcases isOperation_or_broadcast he with he | ⟨m, rfl⟩
  · exact holds_step hh he (.inl hn)
  · exact .inl hn

/-- A notification in a channel after an event was there before, or it was kept, or it is
written in the event or sent to everybody. -/
theorem waiting_of_waiting_step (hh : h.Linked) (he : ∀ c bs, e ≠ .bytes c bs)
    (hn : .reply (.notification n) ∈ (h.step e).service.switchboard.waiting c) :
    .reply (.notification n) ∈ h.service.switchboard.waiting c ∨
      (h.service.directory.Holds n ∨ h.Writes e n) ∨ e = .broadcast (.reply (.notification n)) := by
  rcases isOperation_or_broadcast he with he | ⟨m, rfl⟩
  · rcases (h.turn hh he).mem_waiting hn with hold | hnew
    · exact .inl hold
    · exact .inr (.inl (holds_step hh he (.inr ⟨c, hnew⟩)))
  · have hsent : .reply (.notification n) ∈ (h.service.switchboard.broadcast m).waiting c := hn
    rw [Switchboard.waiting_broadcast] at hsent
    split at hsent
    · rcases List.mem_append.mp hsent with hold | hnew
      · exact .inl hold
      · rw [List.mem_singleton.mp hnew]
        exact .inr (.inr rfl)
    · exact .inl hsent

/-- **Where the notifications come from that are kept after a run.** -/
theorem holds_run (hh : h.Linked) (hes : ∀ e ∈ es, ∀ c bs, e ≠ .bytes c bs)
    (hn : (h.run es).service.directory.Holds n) :
    h.service.directory.Holds n ∨ ∃ m ∈ h.moments es, m.1.Writes m.2 n := by
  induction es generalizing h with
  | nil => exact .inl hn
  | cons e es ih =>
    rcases ih (hh.step e) (fun e' he' => hes e' (List.mem_cons_of_mem e he')) hn with
      hheld | ⟨m, hm, hwrites⟩
    · rcases holds_of_holds_step hh (hes e List.mem_cons_self) hheld with hold | hwrites
      · exact .inl hold
      · exact .inr ⟨(h, e), List.mem_cons_self, hwrites⟩
    · exact .inr ⟨m, List.mem_cons_of_mem _ hm, hwrites⟩

/-- **Where the notifications come from that are in channels after a run.**  One that was kept
may have been sent on, to a user who has logged in meanwhile. -/
theorem waiting_run (hh : h.Linked) (hes : ∀ e ∈ es, ∀ c bs, e ≠ .bytes c bs)
    (hn : .reply (.notification n) ∈ (h.run es).service.switchboard.waiting c) :
    .reply (.notification n) ∈ h.service.switchboard.waiting c ∨
      (h.service.directory.Holds n ∨ ∃ m ∈ h.moments es, m.1.Writes m.2 n) ∨
      .broadcast (.reply (.notification n)) ∈ es := by
  induction es generalizing h with
  | nil => exact .inl hn
  | cons e es ih =>
    have he := hes e List.mem_cons_self
    have hhead : h.Writes e n → ∃ m ∈ h.moments (e :: es), m.1.Writes m.2 n :=
      fun hwrites => ⟨(h, e), List.mem_cons_self, hwrites⟩
    rcases ih (hh.step e) (fun e' he' => hes e' (List.mem_cons_of_mem e he')) hn with
      hwaits | (hheld | ⟨m, hm, hwrites⟩) | hsent
    · rcases waiting_of_waiting_step hh he hwaits with hold | hfrom | rfl
      · exact .inl hold
      · exact .inr (.inl (hfrom.imp_right hhead))
      · exact .inr (.inr List.mem_cons_self)
    · exact .inr (.inl ((holds_of_holds_step hh he hheld).imp_right hhead))
    · exact .inr (.inl (.inr ⟨m, List.mem_cons_of_mem _ hm, hwrites⟩))
    · exact .inr (.inr (List.mem_cons_of_mem e hsent))

/-- Only a PM writes a private message, and what it writes is redacted. -/
theorem Writes.redacted (hwrites : h.Writes e n) (hn : n.kind = .pm) :
    ∃ name content, h.Issues e n.author (.pm name content) ∧
      n.content = h.service.filter.apply content := by
  obtain ⟨c, command, hx, huser, hutterance⟩ := hwrites
  cases command with
  | pm name content =>
    refine ⟨name, content, ⟨c, hx, huser⟩, ?_⟩
    rw [← Option.some.inj hutterance]
  | post content =>
    rw [← Option.some.inj hutterance] at hn
    cases hn
  | _ => cases hutterance

/-- The words that are unwanted at a moment of a run are those of its start. -/
theorem filter_of_mem_moments (hh : h.Linked) (hes : ∀ e ∈ es, ∀ c bs, e ≠ .bytes c bs)
    {m : Hub × Event} (hm : m ∈ h.moments es) : m.1.service.filter = h.service.filter := by
  obtain ⟨before, after, rfl, hrun⟩ := exists_run_of_mem_moments hm
  rw [← hrun]
  exact filter_run hh fun e he => hes e (List.mem_append_left _ he)

end Hub

/-- **Private messages.**  Take any run.  A PM from `c` is accepted exactly if a user is logged
in there, its recipient is registered, and the user has not had a BLOCK of the recipient accepted
before.  One notification, from the user and with the text redacted, then goes to the recipient
and to nobody else, and the same enters the history.  So whatever private message is in the
history or waits in an account, or is in a channel without having been sent to everybody, it has
for content the redacted text of a PM of its author that was accepted. -/
theorem private_messages_redacted (today : Date) (filter : ContentFilter) (es : List Event) :
    let start := Hub.start today filter
    let h := start.run es
    let d := h.service.directory
    let moments := start.moments (start.unfold es)
    (∀ (c : ConnectionId) (name content : String),
      let e : Event := .message c (.command (.pm name content))
      (h.carriedOut e = some (c, .pm name content) ↔
        ∃ author, d.userOn c = some author ∧ name ∈ d.members ∧
          ¬ ∃ m ∈ moments, m.1.Issues m.2 author (.block name)) ∧
      ∀ author, d.userOn c = some author → h.carriedOut e = some (c, .pm name content) →
        h.service.Dispatches (h.step e).service ⟨.pm, author, filter.apply content⟩
          (fun user => if user = name then 1 else 0) c ⟨.pm, .empty⟩) ∧
    ∀ n : Notification, n.kind = .pm →
      (n ∈ d.history ∨ (∃ user, n ∈ d.pending (.member user)) ∨
        (∃ c, .reply (.notification n) ∈ h.service.switchboard.waiting c) ∧
          .broadcast (.reply (.notification n)) ∉ es) →
      ∃ m ∈ moments, ∃ name content, m.1.Issues m.2 n.author (.pm name content) ∧
        n.content = filter.apply content := by
  intro start h d moments
  have hstart : start.Linked := .start today filter
  have hh : h.Linked := hstart.run es
  have hread : ∀ e ∈ start.unfold es, ∀ c bs, e ≠ .bytes c bs := fun _ =>
    Hub.ne_bytes_of_mem_unfold
  have hservice : (start.run (start.unfold es)).service = h.service :=
    Hub.service_run_unfold start es
  refine ⟨fun c name content => ⟨?_, fun author hauthor hx => ?_⟩, fun n hkind hn => ?_⟩
  · have hblocked : ∀ author, author ∈ d.blockedBy name ↔
        ∃ m ∈ moments, m.1.Issues m.2 author (.block name) :=
      Hub.mem_blockedBy_unfold today filter es name
    simp only [← hblocked]
    refine (Hub.carriedOut_pm_iff hh).trans (and_iff_right_of_imp ?_)
    rintro ⟨author, hauthor, -, -⟩
    exact Hub.lt_size_of_userOn hauthor
  · have hd : d.Coherent := Directory.Coherent.invariant.run (Directory.Coherent.empty today) es
    have hfilter : h.service.filter = filter := by
      rw [← hservice]
      exact Hub.filter_run hstart hread
    rw [← hfilter]
    exact Hub.dispatches_pm hh hd hauthor hx
  · -- nothing is kept or in a channel at the start
    have hnone : ¬ start.service.directory.Holds n := by
      rintro (hn | ⟨user, hn⟩)
      · simp [start, Hub.start, Hub.ofDirectory] at hn
      · simp [start, Hub.start, Hub.ofDirectory, Directory.mem_pending, Directory.member?] at hn
    have hkept : d.Holds n → ∃ m ∈ moments, m.1.Writes m.2 n := fun hn =>
      (Hub.holds_run hstart hread (by rwa [hservice])).resolve_left hnone
    have hwritten : ∃ m ∈ moments, m.1.Writes m.2 n := by
      rcases hn with hn | hn | ⟨⟨c, hn⟩, hsent⟩
      · exact hkept (.inl hn)
      · exact hkept (.inr hn)
      · rcases Hub.waiting_run hstart hread (c := c) (by rwa [hservice]) with
          hwaits | hfrom | hsent'
        · simp [start, Hub.start, Hub.ofDirectory, Switchboard.waiting] at hwaits
        · exact hfrom.resolve_left hnone
        · exact absurd (Hub.broadcast_mem_of_mem_unfold hsent') hsent
    obtain ⟨m, hm, hwrites⟩ := hwritten
    obtain ⟨name, content, hissues, hcontent⟩ := hwrites.redacted hkind
    rw [Hub.filter_of_mem_moments hstart hread hm] at hcontent
    exact ⟨m, hm, name, content, hissues, hcontent⟩

/-- Alice and Bob are logged in.  Bob blocks Alice, who then writes to him. -/
def grudge : List Event :=
  [.connect, .connect,
    .message 0 (.command (.register "alice" "a" ⟨1, 1, 2000⟩)),
    .message 1 (.command (.register "bob" "b" ⟨1, 1, 2000⟩)),
    .message 0 (.command (.login "alice" "a" 0x31)),
    .message 1 (.command (.login "bob" "b" 0x31)),
    .bytes 1 (Command.block "alice").encode,
    .bytes 0 (Command.pm "bob" "dinner at eight?").encode]

/-- Alice has not blocked Bob, so what she writes to him is accepted, though he has blocked her,
and reaches him redacted.  Bob cannot write to Alice, because of his own BLOCK.  What the history
has is what Alice wrote before. -/
theorem private_messages_redacted_grudge :
    let start := Hub.start ⟨2024, 1, 1⟩ {}
    let h := start.run grudge
    let moments := start.moments (start.unfold grudge)
    let e : Event := .message 0 (.command (.pm "bob" "no dinner then"))
    h.carriedOut e = some (0, .pm "bob" "no dinner then") ∧
      (¬ ∃ m ∈ moments, m.1.Issues m.2 "alice" (.block "bob")) ∧
      h.service.switchboard.added (h.step e).service.switchboard 1
        = [.reply (.notification ⟨.pm, "alice", "no <filtered> then"⟩)] ∧
      (∃ m ∈ moments, m.1.Issues m.2 "bob" (.block "alice")) ∧
      ⟨.pm, "alice", "<filtered> at eight?"⟩ ∈ h.service.directory.history ∧
      ∃ m ∈ moments, ∃ name content, m.1.Issues m.2 "alice" (.pm name content) ∧
        "<filtered> at eight?" = ContentFilter.apply {} content := by
  obtain ⟨haccepted, hredacted⟩ := private_messages_redacted ⟨2024, 1, 1⟩ {} grudge
  have halice : ((Hub.start ⟨2024, 1, 1⟩ {}).run grudge).service.directory.userOn 0
      = some "alice" := by decide +kernel
  have hbob : ((Hub.start ⟨2024, 1, 1⟩ {}).run grudge).service.directory.userOn 1
      = some "bob" := by decide +kernel
  have hmember : "alice" ∈ ((Hub.start ⟨2024, 1, 1⟩ {}).run grudge).service.directory.members := by
    decide +kernel
  have hx : ((Hub.start ⟨2024, 1, 1⟩ {}).run grudge).carriedOut
        (.message 0 (.command (.pm "bob" "no dinner then")))
      = some (0, .pm "bob" "no dinner then") := by decide +kernel
  have hrefused : ((Hub.start ⟨2024, 1, 1⟩ {}).run grudge).carriedOut
        (.message 1 (.command (.pm "alice" "go away")))
      ≠ some (1, .pm "alice" "go away") := by decide +kernel
  obtain ⟨hiff, hdispatches⟩ := haccepted 0 "bob" "no dinner then"
  have hwritten := hredacted ⟨.pm, "alice", "<filtered> at eight?"⟩ rfl (.inl (by decide +kernel))
  refine ⟨hx, ?_, ?_, ?_, by decide +kernel, hwritten⟩
  · obtain ⟨author, hauthor, -, hfree⟩ := hiff.mp hx
    obtain rfl : author = "alice" := Option.some.inj (hauthor.symm.trans halice)
    exact hfree
  · exact ((hdispatches "alice" halice hx).added 1).trans (by decide +kernel)
  · by_contra hfree
    exact hrefused ((haccepted 1 "alice" "go away").1.mpr ⟨"bob", hbob, hmember, hfree⟩)

end Microblog
