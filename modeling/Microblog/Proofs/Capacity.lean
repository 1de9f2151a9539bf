import Mathlib.Data.List.Induction
import Microblog.Proofs.Intake
import Microblog.Server

/-!
# No connection too many, and no ghosts

A server lets go of a connection in two places: when a LOGOUT is carried out, and when the
connection is given up, which happens after every LOGOUT as well.  Whatever order things
come in, a connection that has ended is neither held nor does anybody have a session on
it.  So nobody can be locked out by a session that is left over, and no place is lost for
a connection that nobody has.

All of this comes from one property of servers, which every step keeps: sessions are on
connections that are open, and sessions of connections that are open have not been closed.
From the second of these follows that giving a connection up once more changes nothing.

## Main definitions

* `Server.Ends` — a step that ends an open connection.
* `Server.handedOut` — the numbers of the connections that are opened.
* `Server.Sound` — what every step keeps.

## Main results

* `Server.Sound.receive`, `Server.Sound.step` — what bytes do, and any other step.
* `Server.Sound.disconnect_eq_self` — what has ended cannot be ended again.
* `Server.Sound.login` — whoever is nowhere logged in can log in.
* `no_ghost_sessions` — **connections are counted, and sessions end with them.**
-/

namespace Microblog

/-! ### Counting connections -/

namespace Switchboard

theorem size_eq_countP (s : Switchboard) :
    s.size = (List.range s.channels.size).countP s.holds := by
  have hlist : ∀ channels : List Channel, channels.countP Channel.held
      = (List.range channels.length).countP fun c => channels[c]?.any Channel.held := by
    intro channels
    induction channels using List.reverseRecOn with
    | nil => rfl
    | append_singleton channels ch ih =>
      have hold : (List.range channels.length).countP
            (fun c => (channels ++ [ch])[c]?.any Channel.held)
          = (List.range channels.length).countP fun c => channels[c]?.any Channel.held := by
        refine List.countP_congr fun c hc => ?_
        rw [List.getElem?_append_left (List.mem_range.mp hc)]
      rw [List.countP_append, List.length_append, List.length_singleton, List.range_succ,
        List.countP_append, hold, ih]
      simp
  rw [size, ← Array.countP_toList, hlist, Array.length_toList]
  exact List.countP_congr fun c _ => by rw [holds, Array.getElem?_toList]

/-- Letting go of connections leaves no more of them. -/
theorem size_le_of_holds {s s' : Switchboard} (hsize : s'.channels.size = s.channels.size)
    (h : ∀ c, s'.holds c → s.holds c) : s'.size ≤ s.size := by
  rw [size_eq_countP, size_eq_countP, hsize]
  exact List.countP_mono_left fun c _ => h c

theorem size_connect (s : Switchboard) : s.connect.2.size = s.size + 1 := by
  simp [connect, size]

/-- A connection that is not held cannot be let go of. -/
theorem release_eq_self {s : Switchboard} {c : ConnectionId} (h : s.holds c = false) :
    s.release c = s := by
  refine congrArg Switchboard.mk (modify_eq_self fun ch hch => ?_)
  have hheld : ch.held = false := by simpa [holds, hch] using h
  simp [Channel.release, ← hheld]

end Switchboard

/-- A user who has no session can log in on a connection that has none. -/
theorem executeLogin_of_away {d : Directory} (hd : d.Coherent) {c : ConnectionId}
    (hfree : d.sessions[c]? = none) {user : String} {a : Account} (ha : d.member? user = some a)
    (haway : ∀ c' : ConnectionId, d.sessions[c']? ≠ some (.member user)) {captcha : UInt8}
    (hcaptcha : captcha ≠ refusedCaptcha) (ack : Ack) :
    executeLogin d c ack user a.password captcha
      = .ok { directory := d.login (.member user) c
              outgoing := (c, .ack ack) :: a.pending.map fun n => (c, .notification n) } := by
  have hconnection : a.connection = none :=
    Option.eq_none_iff_forall_ne_some.mpr fun c' hc' => haway c' (hd.session ha hc')
  have hflag : a.isConnected = false := by
    rw [hd.flag ha, hconnection]
    rfl
  have hnew : c ∉ d.sessions := by
    rw [Std.ExtTreeMap.mem_iff_isSome_getElem?, hfree]
    exact Bool.false_ne_true
  exact executeLogin_eq_ok_iff.mpr ⟨hnew, hcaptcha, a, ha, rfl, hflag, rfl⟩

/-! ### The server -/

namespace Server

/-- The commands that are carried out while some bytes arrive on `c`. -/
def carriedOut (s : Server) (c : ConnectionId) (bs : Bytes) : List Command :=
  match s.hub.links[c]? with
  | none => []
  | some l => l.session.carriedOut s.hub.service (l.decoder.feed bs).2

/-- The step ends the connection `c`, which is open: its client closes it, or a LOGOUT from
there is carried out. -/
def Ends (s : Server) (c : ConnectionId) (x : Step) : Prop :=
  s.isOpen c ∧ (x = .close c ∨ ∃ bs, x = .receive c bs ∧ .logout ∈ s.carriedOut c bs)

/-- The number of the connection that a step opens. -/
def opened (s : Server) : Step → Option ConnectionId
  | .connect => s.connect.1.toOption
  | .receive .. | .close _ => none

/-- The numbers of the connections that are opened, in order. -/
def handedOut (s : Server) : List Step → List ConnectionId
  | [] => []
  | x :: xs => (s.opened x).toList ++ (s.step x).handedOut xs

/-- No more connections are open than may be, sessions are on connections that are open,
and the sessions of open connections have not been closed. -/
structure Sound (s : Server) : Prop where
  /-- Every link is started with its own number. -/
  linked : s.hub.Linked
  /-- Sessions are on connections that are open. -/
  guarded : s.hub.service.Guarded
  /-- There is room for the connections that are open. -/
  openCount_le : s.openCount ≤ s.capacity
  /-- The session of an open connection has not been closed. -/
  live : ∀ {c : ConnectionId} {l : Link}, s.hub.links[c]? = some l → s.isOpen c →
    l.session.terminated = false

/-- What may have happened meanwhile: connections were opened and ended, but none is open
again. -/
structure Follows (s s' : Server) : Prop where
  /-- There is as much room. -/
  capacity_eq : s'.capacity = s.capacity
  /-- Every link is still there. -/
  size_le : s.hub.links.size ≤ s'.hub.links.size
  /-- A connection that is open was so before, or is new. -/
  isOpen : ∀ {c : ConnectionId}, c < s.hub.links.size → s'.isOpen c → s.isOpen c

theorem capacity_step (s : Server) (x : Step) : (s.step x).capacity = s.capacity := by
  cases x with
  | connect =>
    simp only [step, connect]
    split <;> rfl
  | receive c bs =>
    simp only [step, receive]
    split
    · split <;> rfl
    · rfl
  | close c =>
    simp only [step, close]
    split <;> rfl

theorem Follows.refl (s : Server) : s.Follows s := ⟨rfl, Nat.le_refl _, fun _ hc => hc⟩

theorem Follows.trans {s s' s'' : Server} (h : s.Follows s') (h' : s'.Follows s'') :
    s.Follows s'' where
  capacity_eq := h'.capacity_eq.trans h.capacity_eq
  size_le := Nat.le_trans h.size_le h'.size_le
  isOpen := fun hlt hc => h.isOpen hlt (h'.isOpen (Nat.lt_of_lt_of_le hlt h.size_le) hc)

namespace Sound

variable {s : Server} {c : ConnectionId}

theorem start (config : Config) (today : Date) : (Server.start config { today }).Sound where
  linked := .start today config.filter
  guarded :=
    { coherent := .empty today
      holds := by intro c id hid; simp [Server.start, Hub.ofDirectory] at hid
      accepts_eq := fun _ => rfl }
  openCount_le := Nat.zero_le _
  live := by intro c l hl; simp [Server.start, Hub.ofDirectory] at hl

/-- Nobody has a session on a connection that is not open. -/
theorem sessions_eq_none (hs : s.Sound) (hc : s.isOpen c = false) :
    s.hub.service.directory.sessions[c]? = none := by
  refine Option.eq_none_iff_forall_ne_some.mpr fun id hid => ?_
  rw [isOpen, hs.guarded.holds hid] at hc
  cases hc

/-- **What has ended cannot be ended again.** -/
theorem disconnect_eq_self (hs : s.Sound) (hc : s.isOpen c = false) :
    s.hub.disconnect c = s.hub := by
  unfold Hub.disconnect
  cases hl : s.hub.links[c]? with
  | none => rfl
  | some l =>
    have hconnection : l.session.connection = some c := hs.linked.connection_eq hl
    have hdirectory : s.hub.service.directory.logout c = s.hub.service.directory :=
      Directory.logout_of_none (hs.sessions_eq_none hc)
    have hswitchboard : s.hub.service.switchboard.release c = s.hub.service.switchboard :=
      Switchboard.release_eq_self hc
    simp only [Session.disconnect, Session.id, hconnection, Option.getD_some, hdirectory,
      hswitchboard]

/-- An open connection has a link. -/
theorem exists_link (hs : s.Sound) (hc : s.isOpen c) : ∃ l, s.hub.links[c]? = some l := by
  have hlt : c < s.hub.service.switchboard.channels.size := by
    by_contra hge
    rw [isOpen, Switchboard.holds, Array.getElem?_eq_none (Nat.le_of_not_lt hge)] at hc
    cases hc
  rw [← hs.linked.size_eq] at hlt
  exact ⟨_, Array.getElem?_eq_getElem hlt⟩

/-- Where connections are at most let go of, a server stays sound. -/
theorem of_isOpen (hs : s.Sound) {hub : Hub} (hlinked : hub.Linked)
    (hguarded : hub.service.Guarded) (hsize : hub.links.size = s.hub.links.size)
    (hopen : ∀ c, isOpen { s with hub } c → s.isOpen c)
    (hlive : ∀ {c l}, hub.links[c]? = some l → isOpen { s with hub } c →
      l.session.terminated = false) : Sound { s with hub } where
  linked := hlinked
  guarded := hguarded
  openCount_le := by
    have hchannels : hub.service.switchboard.channels.size
        = s.hub.service.switchboard.channels.size := by
      rw [← hlinked.size_eq, hsize, hs.linked.size_eq]
    exact Nat.le_trans (Switchboard.size_le_of_holds hchannels hopen) hs.openCount_le
  live := hlive

/-- Bytes on an open connection leave the other connections as they are, and this one open
unless a LOGOUT is carried out. -/
theorem bytes (hs : s.Sound) (hc : s.isOpen c) (bs : Bytes) :
    let s' : Server := { s with hub := (s.hub.bytes c bs).2 }
    s'.Sound ∧ s'.hub.links.size = s.hub.links.size ∧
      (∀ {other}, c ≠ other → s'.isOpen other = s.isOpen other) ∧
      s'.hasTerminated c = !s'.isOpen c ∧
      (s'.isOpen c = false ↔ .logout ∈ s.carriedOut c bs) := by
  obtain ⟨l, hl⟩ := hs.exists_link hc
  have hlive := hs.live hl hc
  have hserved : l.session.Served s.hub.service c s.hub.service :=
    ⟨hs.linked.connection_eq hl, hs.guarded, by rw [hlive]; exact (congrArg Bool.not hc).symm,
      rfl, fun _ => rfl⟩
  obtain ⟨hafter, hlogout⟩ := hserved.processAll hlive (l.decoder.feed bs).2
  rw [← Link.receiveFrom_eq bs l s.hub.service 0] at hafter hlogout
  intro s'
  have hbytes : s'.hub = { service := (l.receive s.hub.service bs).service
                           links := s.hub.links.modify c fun _ =>
                             (l.receive s.hub.service bs).link } := by
    simp only [s', Hub.bytes, hl]
  have hopen : ∀ other, s'.isOpen other
      = (l.receive s.hub.service bs).service.switchboard.holds other := by
    intro other
    rw [isOpen, hbytes]
  have hother : ∀ {other}, c ≠ other → s'.isOpen other = s.isOpen other := by
    intro other hne
    rw [hopen]
    exact hafter.holds_eq hne
  have hlink : s'.hub.links[c]? = some (l.receive s.hub.service bs).link := by
    rw [hbytes, Array.getElem?_modify, if_pos rfl, hl]
    rfl
  have hterminated : (l.receive s.hub.service bs).link.session.terminated = !s'.isOpen c := by
    rw [hopen]
    exact hafter.terminated_eq
  have hsize : s'.hub.links.size = s.hub.links.size := by
    rw [hbytes]
    exact Array.size_modify
  have hguarded : s'.hub.service.Guarded := by
    rw [hbytes]
    exact hafter.guarded
  refine ⟨hs.of_isOpen (hs.linked.step (.bytes c bs)) hguarded hsize ?_ ?_, hsize, hother, ?_, ?_⟩
  · intro other hheld
    rcases Nat.decEq c other with hne | rfl
    · exact (hother hne).symm.trans hheld
    · exact hc
  · intro other l' hl' hheld
    rcases Nat.decEq c other with hne | rfl
    · have hl' : s'.hub.links[other]? = some l' := hl'
      rw [hbytes, Array.getElem?_modify, if_neg hne] at hl'
      exact hs.live hl' ((hother hne).symm.trans hheld)
    · -- its session would have been closed with the connection
      rw [← Option.some.inj (hlink.symm.trans hl'), hterminated]
      exact congrArg Bool.not hheld
  · rw [hasTerminated, hlink]
    exact hterminated
  · have hcarried : s.carriedOut c bs
        = l.session.carriedOut s.hub.service (l.decoder.feed bs).2 := by
      rw [carriedOut, hl]
    rw [hcarried, ← hlogout]
    change _ ↔ (l.receive s.hub.service bs).link.session.terminated = true
    rw [hterminated]
    cases s'.isOpen c <;> simp

/-- **Giving a connection up after a LOGOUT changes nothing.** -/
theorem receive_eq (hs : s.Sound) (hc : s.isOpen c) (bs : Bytes) :
    s.receive c bs = { s with hub := (s.hub.bytes c bs).2 } := by
  obtain ⟨hs', -, -, hterminated, -⟩ := hs.bytes hc bs
  unfold Server.receive
  rw [if_pos hc]
  dsimp only
  rw [hterminated]
  split
  · next hclosed =>
    rw [hs'.disconnect_eq_self (by simpa using hclosed)]
  · rfl

/-- **The client of an open connection closes it.** -/
theorem close (hs : s.Sound) (hc : s.isOpen c) :
    (s.close c).Sound ∧ (s.close c).hub.links = s.hub.links ∧
      ∀ other, (s.close c).isOpen other = (decide (c ≠ other) && s.isOpen other) := by
  obtain ⟨l, hl⟩ := hs.exists_link hc
  have hconnection : l.session.connection = some c := hs.linked.connection_eq hl
  have hclose : s.close c = { s with hub := s.hub.disconnect c } := if_pos hc
  have hhub : s.hub.disconnect c = { s.hub with service := { s.hub.service with
      directory := s.hub.service.directory.logout c
      switchboard := s.hub.service.switchboard.release c } } := by
    simp only [Hub.disconnect, hl, Session.disconnect, Session.id, hconnection, Option.getD_some]
  have hlinks : (s.hub.disconnect c).links = s.hub.links := by rw [hhub]
  have hopen : ∀ other, isOpen { s with hub := s.hub.disconnect c } other
      = (decide (c ≠ other) && s.isOpen other) := by
    intro other
    rw [isOpen, hhub]
    exact Switchboard.holds_release _ c other
  have hfewer : ∀ other, isOpen { s with hub := s.hub.disconnect c } other → s.isOpen other := by
    intro other hheld
    rw [hopen, Bool.and_eq_true] at hheld
    exact hheld.2
  have hguarded : (s.hub.disconnect c).service.Guarded := by
    rw [hhub]
    exact hs.guarded.ended c
  rw [hclose]
  refine ⟨hs.of_isOpen (hs.linked.step (.disconnect c)) hguarded (congrArg Array.size hlinks)
    hfewer fun hl' hheld => ?_, hlinks, hopen⟩
  rw [hlinks] at hl'
  exact hs.live hl' (hfewer _ hheld)

/-- **A client connects**, if there is room. -/
theorem connect (hs : s.Sound) (hroom : s.openCount < s.capacity) :
    s.connect.1 = .ok s.hub.links.size ∧ s.connect.2.Sound ∧
      s.connect.2.hub.links.size = s.hub.links.size + 1 ∧
      ∀ c, s.connect.2.isOpen c = (decide (c = s.hub.links.size) || s.isOpen c) := by
  have hconnect : s.connect = (.ok s.hub.connect.1, { s with hub := s.hub.connect.2 }) :=
    if_neg (Nat.not_le_of_lt hroom)
  have hsize := hs.linked.size_eq
  have hopen : ∀ c, isOpen { s with hub := s.hub.connect.2 } c
      = (decide (c = s.hub.links.size) || s.isOpen c) := by
    intro c
    rw [hsize]
    exact Switchboard.holds_connect _ c
  rw [hconnect]
  refine ⟨congrArg Except.ok hsize.symm, ⟨hs.linked.step .connect, hs.guarded.opened, ?_, ?_⟩,
    Array.size_push _, hopen⟩
  · exact Nat.le_trans (Nat.le_of_eq (Switchboard.size_connect _)) hroom
  · intro c l hl hheld
    simp only [Hub.connect, Array.getElem?_push] at hl
    split at hl
    · -- the new one has not been closed yet
      rw [← Option.some.inj hl]
    · next hne =>
      rw [hopen, decide_eq_false hne, Bool.false_or] at hheld
      exact hs.live hl hheld

/-- **Every step keeps a server sound**, opens no connection again, and gives out the next
number if it opens a new one. -/
theorem step (hs : s.Sound) (x : Step) :
    (s.step x).Sound ∧ s.Follows (s.step x) ∧
      List.range s.hub.links.size ++ (s.opened x).toList
        = List.range (s.step x).hub.links.size := by
  have hignored : ∀ {x}, s.step x = s → s.opened x = none →
      (s.step x).Sound ∧ s.Follows (s.step x) ∧
        List.range s.hub.links.size ++ (s.opened x).toList
          = List.range (s.step x).hub.links.size := by
    intro x hx hopened
    rw [hx, hopened]
    exact ⟨hs, .refl s, List.append_nil _⟩
  have hcapacity := s.capacity_step x
  cases x with
  | connect =>
    by_cases hroom : s.openCount < s.capacity
    · obtain ⟨hnumber, hs', hsize, hopen⟩ := hs.connect hroom
      refine ⟨hs', ⟨hcapacity, ?_, fun {c} hlt hc => ?_⟩, ?_⟩
      · exact Nat.le_of_lt (Nat.lt_of_lt_of_eq (Nat.lt_succ_self _) hsize.symm)
      · have hc : s.connect.2.isOpen c = true := hc
        rwa [hopen, decide_eq_false (Nat.ne_of_lt hlt), Bool.false_or] at hc
      · rw [opened, hnumber]
        exact (List.range_succ.symm).trans (congrArg List.range hsize.symm)
    · have hrefused : s.connect = (.error (.connectionLimit s.openCount), s) :=
        if_pos (Nat.le_of_not_lt hroom)
      exact hignored (congrArg Prod.snd hrefused) (by rw [opened, hrefused]; rfl)
  | receive c bs =>
    by_cases hc : s.isOpen c
    · obtain ⟨hs', hsize, hother, -, -⟩ := hs.bytes hc bs
      have hstep : s.step (.receive c bs) = { s with hub := (s.hub.bytes c bs).2 } :=
        hs.receive_eq hc bs
      rw [hstep]
      refine ⟨hs', ⟨rfl, Nat.le_of_eq hsize.symm, fun {other} _ hheld => ?_⟩, ?_⟩
      · rcases Nat.decEq c other with hne | rfl
        · rwa [hother hne] at hheld
        · exact hc
      · exact (List.append_nil _).trans (congrArg List.range hsize.symm)
    · exact hignored (if_neg hc) rfl
  | close c =>
    by_cases hc : s.isOpen c
    · obtain ⟨hs', hlinks, hopen⟩ := hs.close hc
      have hsize : (s.close c).hub.links.size = s.hub.links.size := congrArg Array.size hlinks
      refine ⟨hs', ⟨hcapacity, Nat.le_of_eq hsize.symm, fun {other} _ hheld => ?_⟩, ?_⟩
      · have hheld := (hopen other).symm.trans hheld
        simp only [Bool.and_eq_true] at hheld
        exact hheld.2
      · exact (List.append_nil _).trans (congrArg List.range hsize.symm)
    · exact hignored (if_neg hc) rfl

theorem run (hs : s.Sound) (xs : List Step) :
    (s.run xs).Sound ∧ s.Follows (s.run xs) ∧
      List.range s.hub.links.size ++ s.handedOut xs = List.range (s.run xs).hub.links.size := by
  induction xs generalizing s with
  | nil => exact ⟨hs, .refl s, List.append_nil _⟩
  | cons x xs ih =>
    obtain ⟨hstep, hfollows, hopened⟩ := hs.step x
    obtain ⟨hrun, hfollows', hhanded⟩ := ih hstep
    refine ⟨hrun, hfollows.trans hfollows', ?_⟩
    rw [handedOut, ← List.append_assoc, hopened, hhanded]
    rfl

/-- A step that ends a connection leaves it ended. -/
theorem isOpen_step_of_ends (hs : s.Sound) {x : Step} (hx : s.Ends c x) :
    (s.step x).isOpen c = false := by
  obtain ⟨hc, rfl | ⟨bs, rfl, hlogout⟩⟩ := hx
  · refine ((hs.close hc).2.2 c).trans ?_
    simp
  · obtain ⟨-, -, -, -, hended⟩ := hs.bytes hc bs
    rw [Server.step, hs.receive_eq hc]
    exact hended.mpr hlogout

/-- Bytes that complete one command do what the command does. -/
theorem service_receive (hs : s.Sound) {l : Link} (hl : s.hub.links[c]? = some l) (hc : s.isOpen c)
    {bs : Bytes} {command : Command} {e : Effect} (hbs : (l.decoder.feed bs).2 = [command])
    (hx : command.execute s.hub.service.directory s.hub.service.filter
      s.hub.service.switchboard.accepts c = .ok e) :
    (s.receive c bs).hub.service = s.hub.service.apply c e := by
  have hprocess : (l.session.process s.hub.service (.command command)).2
      = s.hub.service.apply c e := by
    simp only [Session.process, hs.linked.connection_eq hl, hx]
  have hreceived := congrArg Prod.snd (Link.receiveFrom_eq bs l s.hub.service 0)
  rw [hbs] at hreceived
  simp only [Session.processAll, ite_self] at hreceived
  rw [hs.receive_eq hc]
  simp only [Hub.bytes, hl]
  exact hreceived.trans hprocess

/-- **Whoever is nowhere logged in can log in**, on any open connection that has no session,
with the password of the account and a captcha that is not refused. -/
theorem login (hs : s.Sound) {l : Link} (hl : s.hub.links[c]? = some l) (hc : s.isOpen c)
    (hfree : s.hub.service.directory.sessions[c]? = none) {user : String} {a : Account}
    (ha : s.hub.service.directory.member? user = some a)
    (haway : ∀ c', s.isOpen c' → s.hub.service.directory.sessions[c']? ≠ some (.member user))
    {captcha : UInt8} (hcaptcha : captcha ≠ refusedCaptcha) {bs : Bytes}
    (hbs : (l.decoder.feed bs).2 = [.login user a.password captcha]) :
    (s.receive c bs).isOpen c ∧
      (s.receive c bs).hub.service.directory.sessions[c]? = some (.member user) ∧
      s.hub.service.switchboard.added (s.receive c bs).hub.service.switchboard c
        = .reply (.ack ⟨.login, .empty⟩) :: a.pending.map fun n => .reply (.notification n) := by
  -- if the user were logged in, it would be on an open connection
  have hoff : ∀ c' : ConnectionId, s.hub.service.directory.sessions[c']? ≠ some (.member user) :=
    fun c' hsession => haway c' (hs.guarded.holds hsession) hsession
  have hx := executeLogin_of_away hs.guarded.coherent hfree ha hoff hcaptcha ⟨.login, .empty⟩
  have hservice := hs.service_receive hl hc hbs hx
  refine ⟨?_, ?_, ?_⟩
  · rw [Server.isOpen, hservice, Service.holds_apply]
    exact hc
  · rw [hservice, Service.apply]
    simp
  · have haccepts : s.hub.service.switchboard.accepts c = true :=
      (hs.guarded.accepts_eq c).trans hc
    rw [hservice, Service.added_apply, if_pos haccepts, Effect.repliesTo, List.filter_eq_self.mpr]
    · simp
    · simp

end Sound

end Server

/-- **Connections are counted, and sessions end with them.**  Whatever clients do to a
server, one step after another: never are more connections open than may be.  The
connections that are opened get the numbers 0, 1, 2 and so on, and a client that connects
to a full server is refused, gets no number and changes nothing.  Sessions are on
connections that are open.  A connection that has ended, be it that its client closed it or
that a LOGOUT from there was carried out, is not open, nobody has a session on it, and to
give it up once more changes nothing.  And a member who is not logged in on any open
connection can log in on every one that has no session, and gets what has waited. -/
theorem no_ghost_sessions (config : Config) (today : Date) (xs : List Server.Step) :
    let start := Server.start config { today }
    let s := start.run xs
    let d := s.hub.service.directory
    s.openCount ≤ config.maxConnections ∧
      start.handedOut xs = List.range s.hub.links.size ∧
      (if s.openCount < config.maxConnections then s.connect.1 = .ok s.hub.links.size
        else s.connect = (.error (.connectionLimit s.openCount), s)) ∧
      (∀ c id, d.sessions[c]? = some id → s.isOpen c) ∧
      (∀ before x after c, xs = before ++ x :: after → (start.run before).Ends c x →
        s.isOpen c = false ∧ d.sessions[c]? = none ∧ s.hub.disconnect c = s.hub) ∧
      ∀ c l user a captcha bs, s.hub.links[c]? = some l → s.isOpen c → d.sessions[c]? = none →
        d.member? user = some a → (∀ c', s.isOpen c' → d.sessions[c']? ≠ some (.member user)) →
        captcha ≠ refusedCaptcha → (l.decoder.feed bs).2 = [.login user a.password captcha] →
        (s.receive c bs).isOpen c ∧
          (s.receive c bs).hub.service.directory.sessions[c]? = some (.member user) ∧
          s.hub.service.switchboard.added (s.receive c bs).hub.service.switchboard c
            = .reply (.ack ⟨.login, .empty⟩) ::
              a.pending.map fun n => .reply (.notification n) := by
  intro start s d
  obtain ⟨hs, hfollows, hhanded⟩ := (Server.Sound.start config today).run xs
  have hs : s.Sound := hs
  have hcapacity : s.capacity = config.maxConnections := hfollows.capacity_eq
  refine ⟨?_, hhanded, ?_, fun c id => hs.guarded.holds, ?_, ?_⟩
  · rw [← hcapacity]
    exact hs.openCount_le
  · rw [← hcapacity]
    split
    · next hroom => exact (hs.connect hroom).1
    · next hfull => exact if_pos (Nat.le_of_not_lt hfull)
  · rintro before x after c rfl hx
    obtain ⟨hbefore, -, -⟩ := (Server.Sound.start config today).run before
    obtain ⟨hstep, hfollows, -⟩ := hbefore.step x
    have hrun : s = ((start.run before).step x).run after := by
      simp only [s, Server.run, List.foldl_append, List.foldl_cons]
    obtain ⟨-, hafter, -⟩ := hstep.run after
    have hclosed : s.isOpen c = false := by
      refine Bool.eq_false_iff.mpr fun hopen => ?_
      obtain ⟨l, hl⟩ := hbefore.exists_link hx.1
      have hlt : c < ((start.run before).step x).hub.links.size :=
        Nat.lt_of_lt_of_le (Array.getElem?_eq_some_iff.mp hl).1 hfollows.size_le
      rw [hrun] at hopen
      have hended := hbefore.isOpen_step_of_ends hx
      rw [hafter.isOpen hlt hopen] at hended
      cases hended
    exact ⟨hclosed, hs.sessions_eq_none hclosed, hs.disconnect_eq_self hclosed⟩
  · intro c l user a captcha bs hl hc hfree ha haway hcaptcha hbs
    exact hs.login hl hc hfree ha haway hcaptcha hbs

/-- Bob logs out, and what he sends after that is not heard. -/
def farewell : Bytes :=
  (Command.register "bob" "b" ⟨1, 1, 2000⟩).encode ++ (Command.login "bob" "b" 0x31).encode ++
    Command.logout.encode ++ (Command.login "bob" "b" 0x31).encode

/-- There is room for two clients, and a third comes too early.  When Bob has left he closes
his connection as well, and somebody takes his place. -/
def turnstile : List Server.Step :=
  [.connect, .connect, .connect, .receive 0 farewell, .close 0, .connect]

/-- Bob's connection is gone, and he can log in on the one that took its place. -/
theorem no_ghost_sessions_turnstile :
    let start := Server.start { maxConnections := 2 } { today := ⟨2024, 1, 1⟩ }
    let s := start.run turnstile
    let login := (Command.login "bob" "b" 0x31).encode
    s.openCount ≤ 2 ∧ start.handedOut turnstile = [0, 1, 2] ∧
      s.connect = (.error (.connectionLimit 2), s) ∧
      s.isOpen 0 = false ∧ s.hub.service.directory.sessions[0]? = none ∧
      (s.receive 2 login).hub.service.directory.sessions[2]? = some (.member "bob") := by
  obtain ⟨hcount, hhanded, hconnect, -, hended, hlogin⟩ :=
    no_ghost_sessions { maxConnections := 2 } ⟨2024, 1, 1⟩ turnstile
  have hlinks : ((Server.start { maxConnections := 2 } { today := ⟨2024, 1, 1⟩ }).run
      turnstile).hub.links.size = 3 := by decide +kernel
  have hfull : ((Server.start { maxConnections := 2 } { today := ⟨2024, 1, 1⟩ }).run
      turnstile).openCount = 2 := by decide +kernel
  have hends : ((Server.start { maxConnections := 2 } { today := ⟨2024, 1, 1⟩ }).run
      [.connect, .connect, .connect]).Ends 0 (.receive 0 farewell) :=
    ⟨by decide +kernel, .inr ⟨farewell, rfl, by decide +kernel⟩⟩
  obtain ⟨hclosed, hnone, -⟩ :=
    hended [.connect, .connect, .connect] (.receive 0 farewell) [.close 0, .connect] 0 rfl hends
  have hbob : (((Server.start { maxConnections := 2 } { today := ⟨2024, 1, 1⟩ }).run
      turnstile).hub.service.directory.member? "bob").map Account.password = some "b" := by
    decide +kernel
  obtain ⟨a, ha, hpassword⟩ := Option.map_eq_some_iff.mp hbob
  have hsessions : ((Server.start { maxConnections := 2 } { today := ⟨2024, 1, 1⟩ }).run
      turnstile).hub.service.directory.sessions = ∅ :=
    Std.ExtTreeMap.isEmpty_iff.mp (by decide +kernel)
  have hlink : ((Server.start { maxConnections := 2 } { today := ⟨2024, 1, 1⟩ }).run
      turnstile).hub.links[2]? = some { session := { connection := some 2 } } := by decide +kernel
  have hfed : (Wire.Decoder.idle.feed (Command.login "bob" "b" 0x31).encode).2
      = [.login "bob" a.password 0x31] := by
    rw [hpassword]
    decide +kernel
  obtain ⟨-, hsession, -⟩ := hlogin 2 _ "bob" a 0x31 _ hlink (by decide +kernel)
    (by rw [hsessions]; exact Std.ExtTreeMap.getElem?_empty) ha
    (fun c' _ => by rw [hsessions, Std.ExtTreeMap.getElem?_empty]; exact nofun) (by decide) hfed
  refine ⟨hcount, ?_, ?_, hclosed, hnone, hsession⟩
  · rw [hhanded, hlinks]
    rfl
  · rw [hfull] at hconnect
    exact hconnect

end Microblog
