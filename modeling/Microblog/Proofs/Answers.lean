import Microblog.Proofs.Intake

/-!
# One answer to each command

A client is not told which of its commands an answer belongs to; it can only count.  So what
comes on its connection must hold one answer for each command that it sent, in the order of
the commands, and nothing that could be taken for one.  Notifications come on the same
connection, also those that the command itself gives rise to: whoever writes to himself
finds what he wrote before the answer, and whoever logs in finds what has waited behind it.

Whether a command is carried out or refused, it has an effect (`Service.effect`), and what
there is to say is said of that effect: `Command.exists_emission` goes through the commands
once and finds the answer among what each of them sends.

## Main definitions

* `Service.effect` — what a command does, a refusal being an effect too.
* `Ack.Suits` — the form of an acknowledgement.
* `Emission` — what a command sends: notifications, the answer, notifications.
* `Emission.Suits` — an emission that a command may give rise to.

## Main results

* `Command.exists_emission` — what the commands that are carried out send.
* `one_answer_per_command` — **each command gets one answer, on its own connection.**
-/

namespace Microblog

/-! ### Answers -/

/-- The reply answers a command. -/
def Reply.isAnswer : Reply → Bool
  | .notification _ => false
  | .ack _ | .error _ => true

/-- The message answers a command. -/
def Message.isAnswer : Message → Bool
  | .command _ => false
  | .reply r => r.isAnswer

/-- The acknowledgement has the opcode of the command, and the form that goes with it: a
FOLLOW is repeated, LOGSTAT and STAT get a list of statistics, and there is nothing more to
tell about any other. -/
def Ack.Suits (a : Ack) (command : Command) : Prop :=
  a.opcode = command.opcode ∧
    match command with
    | .follow direction name => a.body = .follow direction name
    | .logStat | .stat _ => ∃ entries, a.body = .stats entries
    | _ => a.body = .empty

theorem Command.suits_ack (command : Command) : command.ack.Suits command := by
  cases command with
  | logStat | stat => exact ⟨rfl, [], rfl⟩
  | _ => exact ⟨rfl, rfl⟩

/-- A command that writes to others. -/
def Command.isWriting : Command → Bool
  | post _ | pm .. => true
  | _ => false

/-- A command that opens a session. -/
def Command.isLogin : Command → Bool
  | login .. => true
  | _ => false

/-! ### What a command sends -/

/-- What is sent in the course of a command. -/
structure Emission where
  /-- Notifications before the answer, each with the connection that it is for. -/
  before : List (ConnectionId × Notification) := []
  /-- The answer, for the connection that the command came from. -/
  answer : Reply
  /-- Notifications behind the answer, for the same connection. -/
  after : List Notification := []

namespace Emission

/-- All that is sent, in order. -/
def sequence (x : Emission) (c : ConnectionId) : List (ConnectionId × Reply) :=
  (x.before.map fun item => (item.1, .notification item.2)) ++
    (c, x.answer) :: x.after.map fun n => (c, .notification n)

/-- A command may send this, if it is accepted or else. -/
structure Suits (x : Emission) (command : Command) (accepted : Prop) : Prop where
  /-- What is accepted is acknowledged, in the form that goes with the command. -/
  ack : accepted → ∃ a, x.answer = .ack a ∧ a.Suits command
  /-- What is not is answered by an ERROR that has the opcode of the command. -/
  error : ¬ accepted → x.answer = .error command.opcode
  /-- Notifications before the answer come of a POST or a PM. -/
  before : x.before ≠ [] → accepted ∧ command.isWriting
  /-- Notifications behind the answer come of a LOGIN. -/
  after : x.after ≠ [] → accepted ∧ command.isLogin

namespace Suits

variable {x : Emission} {command : Command} {accepted : Prop}

/-- Nothing but an acknowledgement. -/
theorem of_ack {a : Ack} (ha : a.Suits command) : Suits { answer := .ack a } command True where
  ack := fun _ => ⟨a, rfl, ha⟩
  error := fun h => absurd trivial h
  before := fun h => absurd rfl h
  after := fun h => absurd rfl h

/-- What is written to others, and the acknowledgement. -/
theorem of_writing (hwriting : command.isWriting) (before : List (ConnectionId × Notification)) :
    Suits { before, answer := .ack command.ack } command True where
  ack := fun _ => ⟨_, rfl, command.suits_ack⟩
  error := fun h => absurd trivial h
  before := fun _ => ⟨trivial, hwriting⟩
  after := fun h => absurd rfl h

/-- The acknowledgement, and what has waited. -/
theorem of_login (hlogin : command.isLogin) (after : List Notification) :
    Suits { answer := .ack command.ack, after } command True where
  ack := fun _ => ⟨_, rfl, command.suits_ack⟩
  error := fun h => absurd trivial h
  before := fun h => absurd rfl h
  after := fun _ => ⟨trivial, hlogin⟩

/-- Nothing but a refusal. -/
theorem of_refused (h : ¬ accepted) :
    Suits { answer := .error command.opcode } command accepted where
  ack := fun ha => absurd ha h
  error := fun _ => rfl
  before := fun h => absurd rfl h
  after := fun h => absurd rfl h

theorem isAnswer (h : x.Suits command accepted) : x.answer.isAnswer := by
  by_cases ha : accepted
  · obtain ⟨a, heq, -⟩ := h.ack ha
    rw [heq]
    rfl
  · rw [h.error ha]
    rfl

/-- A command that neither writes to others nor logs in sends nothing but the answer. -/
theorem sequence_eq (h : x.Suits command accepted) (hwriting : command.isWriting = false)
    (hlogin : command.isLogin = false) (c : ConnectionId) : x.sequence c = [(c, x.answer)] := by
  have hbefore : x.before = [] := Classical.byContradiction fun hne =>
    Bool.eq_false_iff.mp hwriting (h.before hne).2
  have hafter : x.after = [] := Classical.byContradiction fun hne =>
    Bool.eq_false_iff.mp hlogin (h.after hne).2
  rw [sequence, hbefore, hafter]
  rfl

end Suits

/-- Of notifications nobody gets an answer. -/
theorem filter_isAnswer_eq_nil {items : List (ConnectionId × Reply)}
    (h : ∀ item ∈ items, ∃ n, item.2 = .notification n) (other : ConnectionId) :
    ((items.filter fun item => item.1 = other).map Prod.snd).filter Reply.isAnswer = [] := by
  refine List.filter_eq_nil_iff.mpr fun r hr => ?_
  obtain ⟨item, hitem, rfl⟩ := List.mem_map.mp hr
  obtain ⟨n, hn⟩ := h item (List.mem_filter.mp hitem).1
  rw [hn]
  exact Bool.false_ne_true

/-- Of an emission each connection gets one answer or none. -/
theorem filter_isAnswer (x : Emission) (hx : x.answer.isAnswer) (c other : ConnectionId) :
    ((((x.sequence c).filter fun item => item.1 = other).map Prod.snd).filter Reply.isAnswer)
      = if c = other then [x.answer] else [] := by
  have hbefore : ∀ item ∈ x.before.map fun item => (item.1, Reply.notification item.2),
      ∃ n, item.2 = .notification n := by
    intro item hitem
    obtain ⟨⟨_, n⟩, -, rfl⟩ := List.mem_map.mp hitem
    exact ⟨n, rfl⟩
  have hafter : ∀ item ∈ x.after.map fun n => (c, Reply.notification n),
      ∃ n, item.2 = .notification n := by
    intro item hitem
    obtain ⟨n, -, rfl⟩ := List.mem_map.mp hitem
    exact ⟨n, rfl⟩
  rw [sequence, List.filter_append, List.map_append, List.filter_append,
    filter_isAnswer_eq_nil hbefore, List.nil_append]
  by_cases hc : c = other
  · rw [List.filter_cons_of_pos (by simpa using hc), List.map_cons, List.filter_cons_of_pos hx,
      filter_isAnswer_eq_nil hafter, if_pos hc]
  · rw [List.filter_cons_of_neg (by simpa using hc), filter_isAnswer_eq_nil hafter, if_neg hc]

end Emission

section

variable {d : Directory} {filter : ContentFilter} {accepts : ConnectionId → Bool}
  {c : ConnectionId} {command : Command} {e : Effect}

/-- **What a command that is carried out sends.**  One case for each command. -/
theorem Command.exists_emission (h : command.execute d filter accepts c = .ok e) :
    ∃ x : Emission, x.Suits command True ∧ e.outgoing = x.sequence c := by
  have hack : ∀ {command : Command} {a : Ack}, a.Suits command →
      ∃ x : Emission, x.Suits command True ∧ [(c, Reply.ack a)] = x.sequence c :=
    fun ha => ⟨_, .of_ack ha, rfl⟩
  have hwritten : ∀ {command : Command} (readers : List ConnectionId) (n : Notification),
      command.isWriting → ∃ x : Emission, x.Suits command True ∧
        (readers.map fun reader => (reader, Reply.notification n)) ++ [(c, .ack command.ack)]
          = x.sequence c := by
    intro command readers n hwriting
    refine ⟨_, .of_writing hwriting (readers.map fun reader => (reader, n)), ?_⟩
    rw [Emission.sequence, List.map_map]
    rfl
  cases command with
  | register name password born =>
    obtain ⟨d', -, rfl⟩ := executeRegister_eq_ok_iff.mp h
    exact hack (suits_ack _)
  | login name password captcha =>
    obtain ⟨-, -, a, -, -, -, rfl⟩ := executeLogin_eq_ok_iff.mp h
    exact ⟨_, .of_login rfl a.pending, rfl⟩
  | logout =>
    obtain ⟨-, rfl⟩ := executeLogout_eq_ok_iff.mp h
    exact hack (suits_ack _)
  | follow direction name =>
    obtain ⟨id, a, d', -, -, rfl⟩ := executeFollow_eq_ok_iff.mp h
    exact hack (suits_ack _)
  | post content =>
    obtain ⟨id, author, -, rfl⟩ := executePost_eq_ok_iff.mp h
    exact hwritten _ _ rfl
  | pm name content =>
    obtain ⟨id, author, recipient, -, -, -, rfl⟩ := executePm_eq_ok_iff.mp h
    exact hwritten _ _ rfl
  | logStat =>
    obtain ⟨id, caller, -, rfl⟩ := executeLogStat_eq_ok_iff.mp h
    exact hack ⟨rfl, _, rfl⟩
  | stat names =>
    obtain ⟨id, caller, accounts, -, -, rfl⟩ := executeStat_eq_ok_iff.mp h
    exact hack ⟨rfl, _, rfl⟩
  | block name =>
    obtain ⟨id, blocker, target, -, -, rfl⟩ := executeBlock_eq_ok_iff.mp h
    exact hack (suits_ack _)

end

/-! ### A command, carried out or refused -/

namespace Service

/-- What a command does: if it is refused, it leaves the directory as it is and sends an
ERROR. -/
def effect (s : Service) (c : ConnectionId) (command : Command) : Effect :=
  match command.execute s.directory s.filter s.switchboard.accepts c with
  | .ok e => e
  | .error _ => { directory := s.directory, outgoing := [(c, .error command.opcode)] }

variable {s : Service} {c : ConnectionId} {command : Command}

theorem effect_of_ok {e : Effect}
    (h : command.execute s.directory s.filter s.switchboard.accepts c = .ok e) :
    s.effect c command = e := by
  rw [effect, h]

theorem effect_of_refused
    (h : ∀ e, command.execute s.directory s.filter s.switchboard.accepts c ≠ .ok e) :
    s.effect c command
      = { directory := s.directory, outgoing := [(c, .error command.opcode)] } := by
  rw [effect]
  split
  · next e he => exact absurd he (h e)
  · rfl

/-- A session does what its command does. -/
theorem process_eq_effect {session : Session} (hc : session.connection = some c) :
    session.process s (.command command) =
      ({ session with terminated := session.terminated || (s.effect c command).closes },
        s.apply c (s.effect c command)) := by
  obtain ⟨connection, terminated⟩ := session
  obtain rfl : connection = some c := hc
  cases hx : command.execute s.directory s.filter s.switchboard.accepts c with
  | ok e =>
    rw [effect_of_ok hx]
    simp only [Session.process, hx]
  | error why =>
    rw [effect_of_refused (by simp [hx]), Bool.or_false]
    simp only [Session.process, hx]
    rfl

/-- Whether it is carried out or refused, a command sends what suits it, and closes its
connection if it is a LOGOUT that is carried out. -/
theorem exists_emission (s : Service) (c : ConnectionId) (command : Command) :
    let accepted := ∃ e, command.execute s.directory s.filter s.switchboard.accepts c = .ok e
    ∃ x : Emission, x.Suits command accepted ∧ (s.effect c command).outgoing = x.sequence c ∧
      ((s.effect c command).closes ↔ accepted ∧ command = .logout) := by
  intro accepted
  by_cases ha : accepted
  · obtain ⟨e, he⟩ := ha
    obtain ⟨x, hx, hout⟩ := Command.exists_emission he
    have haccepted : accepted := ⟨e, he⟩
    rw [effect_of_ok he]
    refine ⟨x, ?_, hout, ?_⟩
    · rwa [eq_true haccepted]
    · rw [Command.closes_eq he, decide_eq_true_iff, and_iff_right haccepted]
  · rw [effect_of_refused (fun e he => ha ⟨e, he⟩)]
    exact ⟨_, .of_refused ha, rfl, iff_of_false Bool.false_ne_true fun h => ha h.1⟩

end Service

theorem Switchboard.lt_size_of_accepts {s : Switchboard} {c : ConnectionId} (h : s.accepts c) :
    c < s.channels.size := by
  refine Nat.lt_of_not_le fun hle => ?_
  rw [Switchboard.accepts, Array.getElem?_eq_none hle] at h
  cases h

namespace Hub

variable {h : Hub} {c : ConnectionId} {l : Link}

/-- A connection that takes messages has a link. -/
theorem Linked.exists_of_accepts (hh : h.Linked) (hc : h.service.switchboard.accepts c) :
    ∃ l, h.links[c]? = some l :=
  ⟨_, Array.getElem?_eq_getElem (hh.size_eq ▸ Switchboard.lt_size_of_accepts hc)⟩

/-- A command has its effect on the service, and closes the session if that is part of it. -/
theorem step_command (hh : h.Linked) (hl : h.links[c]? = some l) (command : Command) :
    h.step (.message c (.command command)) =
      { service := h.service.apply c (h.service.effect c command)
        links := h.links.modify c fun l' => { l' with session :=
          { l.session with
            terminated := l.session.terminated || (h.service.effect c command).closes } } } := by
  simp only [step, message, hl, Service.process_eq_effect (hh.connection_eq hl)]

theorem carriedOut_command_iff (hh : h.Linked) (hl : h.links[c]? = some l) (command : Command) :
    h.carriedOut (.message c (.command command)) = some (c, command) ↔
      ∃ e, command.execute h.service.directory h.service.filter h.service.switchboard.accepts c
        = .ok e := by
  rw [carriedOut_eq_some_iff hh, and_iff_right rfl,
    and_iff_right (Array.getElem?_eq_some_iff.mp hl).1]

/-- What channels take of a command. -/
theorem waiting_command (hh : h.Linked) (hl : h.links[c]? = some l) {command : Command}
    {x : Emission} (hout : (h.service.effect c command).outgoing = x.sequence c)
    (other : ConnectionId) :
    (h.step (.message c (.command command))).service.switchboard.waiting other
      = h.service.switchboard.waiting other ++
        if h.service.switchboard.accepts other then
          (((x.sequence c).filter fun item => item.1 = other).map Prod.snd).map .reply
        else [] := by
  rw [step_command hh hl, Service.waiting_apply, Effect.repliesTo, hout]

/-- A command that does not close its session leaves all sessions and connections as they
are. -/
theorem step_of_not_closes (hh : h.Linked) (hl : h.links[c]? = some l) {command : Command}
    (hopen : (h.service.effect c command).closes = false) :
    (h.step (.message c (.command command))).links = h.links ∧
      ∀ other, (h.step (.message c (.command command))).service.switchboard.holds other
        = h.service.switchboard.holds other := by
  rw [step_command hh hl, hopen, Bool.or_false]
  dsimp only
  refine ⟨modify_eq_self fun l' hl' => ?_, fun other => ?_⟩
  · rw [Option.some.inj (hl'.symm.trans hl)]
  · rw [Service.holds_apply, hopen]
    rfl

/-- A command that is only answered changes nothing else. -/
theorem step_of_answer (hh : h.Linked) (hl : h.links[c]? = some l) {command : Command}
    {answer : Reply} (he : h.service.effect c command =
      { directory := h.service.directory, outgoing := [(c, answer)] }) :
    h.step (.message c (.command command)) = { h with service := h.service.send c answer } := by
  have hlinks := (step_of_not_closes hh hl (congrArg Effect.closes he)).1
  rw [step_command hh hl, he] at hlinks ⊢
  exact congrArg (Hub.mk (h.service.send c answer)) hlinks

/-- A command that closes its session and sends nothing but an answer. -/
theorem step_of_closes (hh : h.Linked) (hl : h.links[c]? = some l) {command : Command}
    {answer : Reply} (hclosed : (h.service.effect c command).closes)
    (hout : (h.service.effect c command).outgoing = [(c, answer)]) :
    (h.step (.message c (.command command))).service.switchboard
        = (h.service.switchboard.send c (.reply answer)).release c ∧
      (h.step (.message c (.command command))).links = h.links.modify c fun l' =>
        { l' with session := { l'.session with terminated := true } } := by
  rw [step_command hh hl, Service.apply, hclosed, hout, Bool.or_true]
  refine ⟨rfl, Array.ext_getElem? fun i => ?_⟩
  dsimp only
  rw [Array.getElem?_modify, Array.getElem?_modify]
  split
  · next hi => rw [← hi, hl]; rfl
  · rfl

/-- Replies are ignored. -/
theorem step_reply (h : Hub) (c : ConnectionId) (r : Reply) :
    h.step (.message c (.reply r)) = h := by
  simp only [step, message]
  split
  · rfl
  · next l hl =>
    have hprocess : l.session.process h.service (.reply r) = (l.session, h.service) := by
      cases hc : l.session.connection <;> simp only [Session.process, hc]
    have hlinks : h.links.modify c (fun l' => { l' with session := l.session }) = h.links := by
      refine modify_eq_self fun l' hl' => ?_
      rw [Option.some.inj (hl'.symm.trans hl)]
    rw [hprocess]
    exact congrArg (Hub.mk h.service) hlinks

end Hub

/-- **Each command gets one answer, on its own connection.**  Take any run and any command
after it, from a connection that takes messages.  What is sent then is an emission that
suits the command: an ACK in the form that goes with it if it is accepted, and else an
ERROR, both with its opcode; notifications before it only of an accepted POST or PM, and
behind it, on the same connection, only of an accepted LOGIN.  Each channel that takes
messages takes those of them that are for it, in this order, so that the connection gets one
answer, and no other connection gets any.  An accepted LOGOUT closes the session and lets go
of the connection right after its ACK; no other command closes a session or lets go of a
connection.  A message that is no command does nothing at all. -/
theorem one_answer_per_command (today : Date) (filter : ContentFilter) (es : List Event)
    {c : ConnectionId}
    (haccepts : ((Hub.start today filter).run es).service.switchboard.accepts c)
    (command : Command) :
    let h := (Hub.start today filter).run es
    let e : Event := .message c (.command command)
    let after := h.step e
    let accepted := h.carriedOut e = some (c, command)
    let board := h.service.switchboard
    let board' := after.service.switchboard
    (∃ x : Emission, x.Suits command accepted ∧
      (h.service.effect c command).outgoing = x.sequence c ∧
      (∀ other, board'.waiting other = board.waiting other ++
        if board.accepts other then
          (((x.sequence c).filter fun item => item.1 = other).map Prod.snd).map .reply
        else []) ∧
      (∀ other, (board.added board' other).filter Message.isAnswer
        = if c = other then [.reply x.answer] else []) ∧
      (accepted ∧ command = .logout →
        board' = (board.send c (.reply x.answer)).release c ∧
        after.links = h.links.modify c fun l =>
          { l with session := { l.session with terminated := true } }) ∧
      (¬ (accepted ∧ command = .logout) →
        after.links = h.links ∧ ∀ other, board'.holds other = board.holds other)) ∧
    ∀ other r, h.step (.message other (.reply r)) = h := by
  intro h e after accepted board board'
  have hh : h.Linked := (Hub.Linked.start today filter).run es
  have haccepts : board.accepts c := haccepts
  obtain ⟨l, hl⟩ := hh.exists_of_accepts haccepts
  obtain ⟨x, hx, hout, hcloses⟩ := h.service.exists_emission c command
  rw [← Hub.carriedOut_command_iff hh hl] at hx hcloses
  have hwaiting := Hub.waiting_command hh hl hout
  refine ⟨⟨x, hx, hout, hwaiting, ?_, ?_, ?_⟩, Hub.step_reply h⟩
  · intro other
    rw [Switchboard.added, hwaiting, List.drop_left]
    by_cases hother : board.accepts other
    · rw [if_pos hother, List.filter_map]
      change (List.filter Reply.isAnswer _).map _ = _
      rw [x.filter_isAnswer hx.isAnswer]
      split <;> rfl
    · have hne : c ≠ other := fun hc => hother (hc ▸ haccepts)
      rw [if_neg hother, if_neg hne]
      rfl
  · rintro ⟨ha, rfl⟩
    refine Hub.step_of_closes hh hl (hcloses.mpr ⟨ha, rfl⟩) ?_
    rw [hout, hx.sequence_eq rfl rfl]
  · exact fun hnot => Hub.step_of_not_closes hh hl (Bool.eq_false_iff.mpr (mt hcloses.mp hnot))

/-- Alice and Bob are registered.  Alice is logged in, and Bob, who has a connection but is not,
has got a message from her. -/
def soliloquy : List Event :=
  [.connect, .connect,
    .message 0 (.command (.register "alice" "a" ⟨1, 1, 2000⟩)),
    .message 0 (.command (.register "bob" "b" ⟨1, 1, 2000⟩)),
    .message 0 (.command (.login "alice" "a" 0x31)),
    .message 0 (.command (.pm "bob" "hello"))]

/-- Alice mentions herself, and finds her post before the one answer to it.  Bob is logged in,
and finds the answer before what has waited. -/
theorem one_answer_per_command_soliloquy :
    let h := (Hub.start ⟨2024, 1, 1⟩ {}).run soliloquy
    let board := h.service.switchboard
    let posted := (h.step (.message 0 (.command (.post "me, @alice")))).service.switchboard
    let greeted := (h.step (.message 1 (.command (.login "bob" "b" 0x31)))).service.switchboard
    board.accepts 0 ∧ board.accepts 1 ∧
      board.added posted 0 =
        [.reply (.notification ⟨.post, "alice", "me, @alice"⟩), .reply (.ack ⟨.post, .empty⟩)] ∧
      board.added greeted 1 =
        [.reply (.ack ⟨.login, .empty⟩), .reply (.notification ⟨.pm, "alice", "hello"⟩)] ∧
      ∀ other, other ≠ 0 → (board.added posted other).filter Message.isAnswer = [] := by
  have h0 : ((Hub.start ⟨2024, 1, 1⟩ {}).run soliloquy).service.switchboard.accepts 0 := by
    decide +kernel
  have h1 : ((Hub.start ⟨2024, 1, 1⟩ {}).run soliloquy).service.switchboard.accepts 1 := by
    decide +kernel
  obtain ⟨⟨x, -, -, -, hanswers, -, -⟩, -⟩ :=
    one_answer_per_command ⟨2024, 1, 1⟩ {} soliloquy h0 (.post "me, @alice")
  refine ⟨h0, h1, by decide +kernel, by decide +kernel, fun other hne => ?_⟩
  rw [hanswers other, if_neg (Ne.symm hne)]

end Microblog
