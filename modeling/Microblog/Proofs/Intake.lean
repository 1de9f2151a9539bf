import Microblog.Proofs.Channels
import Microblog.Proofs.Sessions

/-!
# What comes in on a connection

Bytes that come in on a connection are taken for what they are worth: the commands that
they complete, which are processed one after another until one of them closes the session.
While they are, the service stays guarded: nobody has a session on a connection that is
not held.  The session is closed by nothing but a LOGOUT that is carried out, and with it
the connection is let go of; the other connections stay as they are.

## Main definitions

* `Session.processAll` — many commands, up to the one that closes the session.
* `Session.carriesOut`, `Session.carriedOut` — which of them are carried out.
* `Service.Guarded` — sessions are on connections that are held, and these are heard.
* `Session.Served` — what is so of a session while it is served, and of its service.
* `Service.Opened` — sessions are on connections that were opened.

## Main results

* `Link.receiveFrom_eq` — bytes are processed as the commands that they complete.
* `Session.Served.process`, `Session.Served.processAll` — serving a session.
* `Service.Opened.run` — nobody has a session on a connection that was never opened.
-/

namespace Microblog

/-! ### Bytes and commands -/

namespace Session

/-- The session carries out a command. -/
def carriesOut (s : Session) (service : Service) (command : Command) : Bool :=
  match s.connection with
  | none => false
  | some c =>
    (command.execute service.directory service.filter service.switchboard.accepts c).isOk

/-- Some commands for a session, one after another until one leaves it closed. -/
def processAll (s : Session) (service : Service) : List Command → Session × Service
  | [] => (s, service)
  | command :: commands =>
    let done := s.process service (.command command)
    if done.1.terminated then done else done.1.processAll done.2 commands

/-- Those of some commands for a session that are carried out. -/
def carriedOut (s : Session) (service : Service) : List Command → List Command
  | [] => []
  | command :: commands =>
    let done := s.process service (.command command)
    let rest := if done.1.terminated then [] else done.1.carriedOut done.2 commands
    if s.carriesOut service command then command :: rest else rest

end Session

namespace Link

variable {l : Link} {b : UInt8} {decoder : Wire.Decoder} {command : Command}

/-- A byte that completes no command is kept by the decoder. -/
theorem receiveFrom_cons_none (h : l.decoder.step b = (decoder, none)) (service : Service)
    (processed : Nat) (bs : Bytes) :
    l.receiveFrom service processed (b :: bs)
      = Link.receiveFrom { l with decoder } service processed bs := by
  rw [receiveFrom, h]

/-- A command is processed with its last byte. -/
theorem receiveFrom_cons_some (h : l.decoder.step b = (decoder, some command)) (service : Service)
    (processed : Nat) (bs : Bytes) :
    let done := l.session.process service (.command command)
    l.receiveFrom service processed (b :: bs)
      = if done.1.terminated then ⟨⟨decoder, done.1⟩, done.2, processed + 1⟩
        else Link.receiveFrom ⟨decoder, done.1⟩ done.2 (processed + 1) bs := by
  rw [receiveFrom, h]

/-- **Bytes are processed as the commands that they complete.** -/
theorem receiveFrom_eq (bs : Bytes) (l : Link) (service : Service) (processed : Nat) :
    ((l.receiveFrom service processed bs).link.session,
        (l.receiveFrom service processed bs).service)
      = l.session.processAll service (l.decoder.feed bs).2 := by
  induction bs generalizing l service processed with
  | nil => rfl
  | cons b bs ih =>
    rw [Wire.Decoder.feed_cons]
    rcases hstep : l.decoder.step b with ⟨decoder, completed⟩
    cases completed with
    | none =>
      rw [receiveFrom_cons_none hstep]
      exact ih _ service processed
    | some command =>
      rw [receiveFrom_cons_some hstep]
      simp only [Option.toList_some, List.singleton_append, Session.processAll]
      split
      · rfl
      · exact ih ⟨decoder, _⟩ _ _

end Link

/-! ### Serving a session -/

/-- Whoever has a session is on a connection that is held, and the clients of all
connections that are held hear what is said to them. -/
structure Service.Guarded (s : Service) : Prop where
  /-- Sessions and accounts agree. -/
  coherent : s.directory.Coherent
  /-- A connection that has a session is held. -/
  holds : ∀ {c : ConnectionId} {id : AccountId}, s.directory.sessions[c]? = some id →
    s.switchboard.holds c
  /-- A connection that is held is heard. -/
  accepts_eq : ∀ c, s.switchboard.accepts c = s.switchboard.holds c

theorem Service.holds_apply (s : Service) (c : ConnectionId) (e : Effect) (other : ConnectionId) :
    (s.apply c e).switchboard.holds other
      = (!(e.closes && decide (c = other)) && s.switchboard.holds other) := by
  unfold apply
  cases e.closes <;> simp [Switchboard.holds_release]

theorem Service.accepts_apply (s : Service) (c : ConnectionId) (e : Effect)
    (other : ConnectionId) :
    (s.apply c e).switchboard.accepts other
      = (!(e.closes && decide (c = other)) && s.switchboard.accepts other) := by
  unfold apply
  cases e.closes <;> simp [Switchboard.accepts_release]

section

variable {d : Directory} {filter : ContentFilter} {accepts : ConnectionId → Bool}
  {c : ConnectionId} {command : Command} {e : Effect}

/-- A command that is carried out closes its connection if it is a LOGOUT. -/
theorem Command.closes_eq (h : command.execute d filter accepts c = .ok e) :
    e.closes = decide (command = .logout) := by
  cases command with
  | register name password born =>
    obtain ⟨d', -, rfl⟩ := executeRegister_eq_ok_iff.mp h
    rfl
  | login name password captcha =>
    obtain ⟨-, -, a, -, -, -, rfl⟩ := executeLogin_eq_ok_iff.mp h
    rfl
  | logout =>
    obtain ⟨-, rfl⟩ := executeLogout_eq_ok_iff.mp h
    rfl
  | follow direction name =>
    obtain ⟨id, a, d', -, -, rfl⟩ := executeFollow_eq_ok_iff.mp h
    rfl
  | post content =>
    obtain ⟨id, author, -, rfl⟩ := executePost_eq_ok_iff.mp h
    rfl
  | pm name content =>
    obtain ⟨id, author, recipient, -, -, -, rfl⟩ := executePm_eq_ok_iff.mp h
    rfl
  | logStat =>
    obtain ⟨id, caller, -, rfl⟩ := executeLogStat_eq_ok_iff.mp h
    rfl
  | stat names =>
    obtain ⟨id, caller, accounts, -, -, rfl⟩ := executeStat_eq_ok_iff.mp h
    rfl
  | block name =>
    obtain ⟨id, blocker, target, -, -, rfl⟩ := executeBlock_eq_ok_iff.mp h
    rfl

/-- A connection that has a session after a command had one before, or it is the one that
the command came from; that one has none after a LOGOUT. -/
theorem Directory.session_execute (h : command.execute d filter accepts c = .ok e)
    {other : ConnectionId} {id : AccountId} (hid : e.directory.sessions[other]? = some id) :
    (d.sessions[other]? = some id ∨ c = other) ∧ (command = .logout → c ≠ other) := by
  cases command with
  | login name password captcha =>
    obtain ⟨-, -, a, -, -, -, rfl⟩ := executeLogin_eq_ok_iff.mp h
    refine ⟨?_, nofun⟩
    rw [sessions_login] at hid
    split at hid
    · next hc => exact .inr hc
    · exact .inl hid
  | logout =>
    obtain ⟨-, rfl⟩ := executeLogout_eq_ok_iff.mp h
    rw [sessions_logout] at hid
    split at hid
    · cases hid
    · next hc => exact ⟨.inl hid, fun _ => hc⟩
  | _ =>
    rw [sessions_execute h nofun nofun] at hid
    exact ⟨.inl hid, nofun⟩

end

namespace Service.Guarded

variable {s : Service}

/-- A command from a connection that is held. -/
theorem apply (hs : s.Guarded) {c : ConnectionId} (hc : s.switchboard.holds c)
    {command : Command} {e : Effect}
    (h : command.execute s.directory s.filter s.switchboard.accepts c = .ok e) :
    (s.apply c e).Guarded := by
  refine ⟨hs.coherent.execute h, ?_, ?_⟩
  · intro other id hid
    obtain ⟨hsession, hlogout⟩ := Directory.session_execute h hid
    have hheld : s.switchboard.holds other = true := by
      rcases hsession with hsession | rfl
      · exact hs.holds hsession
      · exact hc
    rw [holds_apply, hheld, Command.closes_eq h]
    simpa [Decidable.imp_iff_not_or] using hlogout
  · intro other
    rw [accepts_apply, holds_apply, hs.accepts_eq]

theorem send (hs : s.Guarded) (c : ConnectionId) (r : Reply) : (s.send c r).Guarded := by
  refine ⟨hs.coherent, ?_, ?_⟩
  · intro other id hid
    exact (Switchboard.holds_send _ c other _).trans (hs.holds hid)
  · intro other
    exact (Switchboard.accepts_send _ c other _).trans
      ((hs.accepts_eq other).trans (Switchboard.holds_send _ c other _).symm)

/-- A connection is given up, and the session on it ends. -/
theorem ended (hs : s.Guarded) (c : ConnectionId) :
    Guarded { s with
      directory := s.directory.logout c
      switchboard := s.switchboard.release c } := by
  refine ⟨hs.coherent.logout c, ?_, ?_⟩
  · intro other id hid
    dsimp only at hid ⊢
    rw [Directory.sessions_logout] at hid
    split at hid
    · cases hid
    · next hne => rw [Switchboard.holds_release, hs.holds hid, decide_eq_true hne, Bool.and_self]
  · intro other
    dsimp only
    rw [Switchboard.accepts_release, Switchboard.holds_release, hs.accepts_eq]

theorem opened (hs : s.Guarded) : Guarded { s with switchboard := s.switchboard.connect.2 } := by
  refine ⟨hs.coherent, ?_, ?_⟩
  · intro c id hid
    dsimp only
    rw [Switchboard.holds_connect, hs.holds hid, Bool.or_true]
  · intro c
    dsimp only
    rw [Switchboard.accepts_connect, Switchboard.holds_connect, hs.accepts_eq]

end Service.Guarded

/-- A session on `c` that is being served, after it was so with the service `before`. -/
structure Session.Served (before : Service) (c : ConnectionId) (s : Session)
    (service : Service) : Prop where
  /-- The session is that of the connection. -/
  connection_eq : s.connection = some c
  /-- The service is guarded. -/
  guarded : service.Guarded
  /-- The session is closed if its connection is no longer held. -/
  terminated_eq : s.terminated = !service.switchboard.holds c
  /-- No connection was opened. -/
  size_eq : service.switchboard.channels.size = before.switchboard.channels.size
  /-- The other connections are held as before. -/
  holds_eq : ∀ {other : ConnectionId}, c ≠ other →
    service.switchboard.holds other = before.switchboard.holds other

namespace Session.Served

variable {before service : Service} {c : ConnectionId} {s : Session}

/-- **A command for a session.**  It closes the session if it is a LOGOUT that is carried
out. -/
theorem process (hs : s.Served before c service) (hlive : s.terminated = false)
    (command : Command) :
    (s.process service (.command command)).1.Served before c
        (s.process service (.command command)).2 ∧
      (s.process service (.command command)).1.terminated
        = (s.carriesOut service command && decide (command = .logout)) := by
  have hheld : service.switchboard.holds c = true := by
    simpa [hlive] using hs.terminated_eq
  cases hx : command.execute service.directory service.filter service.switchboard.accepts c with
  | ok e =>
    simp only [Session.process, carriesOut, hs.connection_eq, hx, hlive, Bool.false_or]
    refine ⟨⟨rfl, hs.guarded.apply hheld hx, ?_, ?_, ?_⟩, Command.closes_eq hx⟩
    · -- the connection is let go of together with the session
      simp [Service.holds_apply, hheld]
    · rw [← hs.size_eq]
      exact service.size_channels_apply c e
    · intro other hother
      rw [← hs.holds_eq hother]
      simp [Service.holds_apply, hother]
  | error why =>
    simp only [Session.process, carriesOut, hs.connection_eq, hx]
    have hsend : ∀ other, (service.send c (Message.refusal (.command command))).switchboard.holds
        other = service.switchboard.holds other :=
      fun other => Switchboard.holds_send _ c other _
    refine ⟨⟨hs.connection_eq, hs.guarded.send c _, ?_, ?_, ?_⟩, hlive⟩
    · rw [hsend]
      exact hs.terminated_eq
    · rw [← hs.size_eq]
      exact Switchboard.size_channels_send _ c _
    · intro other hother
      rw [hsend, hs.holds_eq hother]

/-- **Many commands for a session.** -/
theorem processAll (hs : s.Served before c service) (hlive : s.terminated = false)
    (commands : List Command) :
    (s.processAll service commands).1.Served before c (s.processAll service commands).2 ∧
      ((s.processAll service commands).1.terminated
        ↔ .logout ∈ s.carriedOut service commands) := by
  induction commands generalizing s service with
  | nil => exact ⟨hs, by simp [Session.processAll, Session.carriedOut, hlive]⟩
  | cons command commands ih =>
    obtain ⟨hdone, hterminated⟩ := hs.process hlive command
    unfold Session.processAll Session.carriedOut
    dsimp only
    cases hclosed : (s.process service (.command command)).1.terminated with
    | true =>
      rw [hclosed] at hterminated
      obtain ⟨hcarried, rfl⟩ : s.carriesOut service command = true ∧ command = .logout := by
        simpa using hterminated.symm
      simp [hcarried, hdone, hclosed]
    | false =>
      obtain ⟨hrest, hlogout⟩ := ih hdone hclosed
      refine ⟨hrest, hlogout.trans ?_⟩
      -- a LOGOUT that is carried out would have closed the session
      rw [hclosed] at hterminated
      simp only [Bool.false_eq_true, if_false]
      split
      · next hcarried =>
        have hne : command ≠ .logout := by simpa [hcarried] using hterminated.symm
        rw [List.mem_cons, or_iff_right (Ne.symm hne)]
      · rfl

end Session.Served

/-! ### Sessions are on connections that were opened -/

/-- Whoever has a session is on a connection that was opened. -/
def Service.Opened (s : Service) : Prop :=
  ∀ c id, s.directory.sessions[c]? = some id → c < s.switchboard.channels.size

namespace Service.Opened

variable {service : Service} {c : ConnectionId}

theorem process (hs : service.Opened) {s : Session} (hconnection : s.connection = some c)
    (hc : c < service.switchboard.channels.size) (m : Message) :
    (s.process service m).2.Opened := by
  intro other id hid
  rw [s.size_channels_process]
  simp only [Session.process, hconnection] at hid
  cases m with
  | reply r => exact hs _ _ hid
  | command command =>
    cases hx : command.execute service.directory service.filter service.switchboard.accepts c with
    | error why =>
      simp only [hx] at hid
      exact hs _ _ hid
    | ok e =>
      simp only [hx] at hid
      rcases (Directory.session_execute hx hid).1 with hold | rfl
      · exact hs _ _ hold
      · exact hc

theorem receiveFrom (hs : service.Opened) (bs : Bytes) {l : Link}
    (hconnection : l.session.connection = some c) (hc : c < service.switchboard.channels.size)
    (processed : Nat) : (l.receiveFrom service processed bs).service.Opened := by
  induction bs generalizing l service processed with
  | nil => exact hs
  | cons b bs ih =>
    unfold Link.receiveFrom
    split
    · next decoder _ => exact ih (l := ⟨decoder, l.session⟩) hs hconnection hc processed
    · next decoder command _ =>
      have hprocess := hs.process hconnection hc (.command command)
      dsimp only
      split
      · exact hprocess
      · refine ih hprocess ?_ ?_ (processed + 1)
        · rw [l.session.connection_process]
          exact hconnection
        · rwa [l.session.size_channels_process]

/-- An event opens connections, or serves one that was opened. -/
theorem step {h : Hub} (hs : h.service.Opened) (hh : h.Linked) (e : Event) :
    (h.step e).service.Opened := by
  cases e with
  | connect =>
    intro c id hid
    simp only [Hub.step, Hub.connect, Switchboard.connect, Array.size_push]
    exact Nat.lt_succ_of_lt (hs _ _ hid)
  | message c m =>
    simp only [Hub.step, Hub.message]
    split
    · exact hs
    · next l hl => exact hs.process (hh.connection_eq hl) (hh.lt_of_getElem? hl) m
  | bytes c bs =>
    simp only [Hub.step, Hub.bytes]
    split
    · exact hs
    · next l hl => exact hs.receiveFrom bs (hh.connection_eq hl) (hh.lt_of_getElem? hl) 0
  | disconnect c =>
    simp only [Hub.step, Hub.disconnect]
    split
    · exact hs
    · next l hl =>
      intro other id hid
      simp only [Session.disconnect, hh.connection_eq hl, Directory.sessions_logout] at hid ⊢
      rw [Switchboard.size_channels_release]
      split at hid
      · cases hid
      · exact hs _ _ hid
  | hangUp c =>
    intro other id hid
    exact Nat.lt_of_lt_of_eq (hs _ _ hid) Array.size_modify.symm
  | release c =>
    intro other id hid
    exact Nat.lt_of_lt_of_eq (hs _ _ hid) Array.size_modify.symm
  | broadcast m =>
    intro other id hid
    exact Nat.lt_of_lt_of_eq (hs _ _ hid) Array.size_map.symm

theorem run {h : Hub} (hs : h.service.Opened) (hh : h.Linked) (es : List Event) :
    (h.run es).service.Opened := by
  induction es generalizing h with
  | nil => exact hs
  | cons e es ih => exact ih (hs.step hh e) (hh.step e)

end Service.Opened

/-- Whoever is logged in after a run is logged in on a connection that has a link. -/
theorem Hub.lt_size_of_userOn {today : Date} {filter : ContentFilter} {es : List Event}
    {c : ConnectionId} {user : String}
    (huser : ((Hub.start today filter).run es).service.directory.userOn c = some user) :
    c < ((Hub.start today filter).run es).links.size := by
  have hstart : (Hub.start today filter).service.Opened := by
    intro other id hid
    simp [Hub.start, ofDirectory] at hid
  have hopened := hstart.run (.start today filter) es
  obtain ⟨⟨id, a⟩, hs, -⟩ := Option.map_eq_some_iff.mp huser
  rw [((Linked.start today filter).run es).size_eq]
  exact hopened c id (Directory.sessionOn_eq_some_iff.mp hs).1

end Microblog
