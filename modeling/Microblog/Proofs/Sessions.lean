import Microblog.Proofs.Runs

/-!
# Sessions and accounts agree

Who is logged in where is written down three times: in the sessions of the
directory, in the connection of the account, and in the flag of the account.  The
operations of a directory do not compare them.  That they always agree comes from
the order in which a login makes its checks: the connection has no session and the
flag of the account is down.

## Main definitions

* `Directory.SessionsAgree` — the three say the same.
* `Directory.Coherent` — they do, and accounts are filed.

## Main results

* `Directory.Coherent.invariant` — every command keeps the agreement.
* `Directory.Coherent.of_sessionOn` — the user of a connection is a registered one.
* `sessions_bijective` — **sessions and accounts of members correspond one to one**
  after every run, and nobody logs in twice.
-/

namespace Microblog

namespace Directory

/-- The sessions are those of members, the accounts name the same connections, and
the flags are up where there is a connection. -/
structure SessionsAgree (d : Directory) : Prop where
  /-- A session belongs to a member whose account names its connection. -/
  member : ∀ {c : ConnectionId} {id : AccountId}, d.sessions[c]? = some id →
    ∃ user a, id = .member user ∧ d.member? user = some a ∧ a.connection = some c
  /-- A connection that an account names has the session. -/
  session : ∀ {user : String} {a : Account} {c : ConnectionId}, d.member? user = some a →
    a.connection = some c → d.sessions[c]? = some (.member user)
  /-- The flag says whether the account names a connection. -/
  flag : ∀ {user : String} {a : Account}, d.member? user = some a →
    a.isConnected = a.connection.isSome

/-! ### The beginning and the end of a session -/

@[simp] theorem sessions_login (d : Directory) (id : AccountId) (c other : ConnectionId) :
    (d.login id c).sessions[other]? = if c = other then some id else d.sessions[other]? := by
  simp [login, Std.ExtTreeMap.getElem?_insert]

@[simp] theorem member?_login (d : Directory) (id : AccountId) (c : ConnectionId)
    (user : String) :
    (d.login id c).member? user
      = if id = .member user then (d.member? user).map (Account.connect c) else d.member? user :=
  member?_update d id (Account.connect c) user

theorem logout_of_none {d : Directory} {c : ConnectionId} (h : d.sessions[c]? = none) :
    d.logout c = d := by
  rw [logout, h]

theorem logout_of_some {d : Directory} {c : ConnectionId} {id : AccountId}
    (h : d.sessions[c]? = some id) :
    d.logout c = { d.update id Account.disconnect with sessions := d.sessions.erase c } := by
  rw [logout, h]
  simp

theorem member?_logout_of_some {d : Directory} {c : ConnectionId} {id : AccountId}
    (h : d.sessions[c]? = some id) (user : String) :
    (d.logout c).member? user
      = if id = .member user then (d.member? user).map Account.disconnect else d.member? user := by
  rw [logout_of_some h]
  exact member?_update d id Account.disconnect user

theorem sessions_logout (d : Directory) (c other : ConnectionId) :
    (d.logout c).sessions[other]? = if c = other then none else d.sessions[other]? := by
  cases h : d.sessions[c]? with
  | none =>
    rw [logout_of_none h]
    split
    · next hc => rw [← hc, h]
    · rfl
  | some id =>
    rw [logout_of_some h]
    simp [Std.ExtTreeMap.getElem?_erase]

namespace SessionsAgree

variable {d d' : Directory}

theorem empty (today : Date) : SessionsAgree { today } := by
  constructor <;> simp [member?]

theorem of_keeps (hd : d.SessionsAgree) (h : Keeps Account.binding d d')
    (hs : d'.sessions = d.sessions) : d'.SessionsAgree := by
  -- what the accounts of `d'` show is what those of `d` show, and the other way round
  constructor
  · intro c id hid
    rw [hs] at hid
    obtain ⟨user, a, rfl, ha, hc⟩ := hd.member hid
    obtain ⟨a', ha', heq⟩ := h.exists_member? ha
    exact ⟨user, a', rfl, ha', (congrArg Prod.fst heq).trans hc⟩
  · intro user a' c ha' hc
    obtain ⟨a, ha, heq⟩ := h.member? ha'
    rw [hs]
    exact hd.session ha ((congrArg Prod.fst heq).trans hc)
  · intro user a' ha'
    obtain ⟨a, ha, heq⟩ := h.member? ha'
    have hc : a.connection = a'.connection := congrArg Prod.fst heq
    have hflag : a.isConnected = a'.isConnected := congrArg Prod.snd heq
    rw [← hc, ← hflag]
    exact hd.flag ha

/-- A user whose flag is down has no session anywhere. -/
theorem connection_eq_none (hd : d.SessionsAgree) {user : String} {a : Account}
    (ha : d.member? user = some a) (hi : a.isConnected = false) : a.connection = none := by
  have hflag := hd.flag ha
  rw [hi] at hflag
  exact Option.not_isSome_iff_eq_none.mp (by rw [← hflag]; exact Bool.false_ne_true)

theorem register (hd : d.SessionsAgree) {user password : String} {born : BirthDate}
    (h : d.register user password born = .ok d') : d'.SessionsAgree := by
  have hnew : user ∉ d.members := (register_eq_ok_iff.mp h).1
  have hs : d'.sessions = d.sessions := by
    obtain ⟨-, rfl⟩ := register_eq_ok_iff.mp h
    rfl
  have hm := member?_register h
  constructor
  · intro c id hid
    rw [hs] at hid
    obtain ⟨other, a, rfl, ha, hc⟩ := hd.member hid
    have hne : other ≠ user := by
      rintro rfl
      exact hnew (mem_members_of_member? ha)
    exact ⟨other, a, rfl, by rw [hm, if_neg hne, ha], hc⟩
  · intro other a c ha hc
    rw [hm] at ha
    split at ha
    · rw [← Option.some.inj ha] at hc
      cases hc
    · rw [hs]
      exact hd.session ha hc
  · intro other a ha
    rw [hm] at ha
    split at ha
    · rw [← Option.some.inj ha]
      rfl
    · exact hd.flag ha

theorem login (hd : d.SessionsAgree) {user : String} {a : Account} {c : ConnectionId}
    (hc : c ∉ d.sessions) (ha : d.member? user = some a) (hi : a.isConnected = false) :
    (d.login (.member user) c).SessionsAgree := by
  -- neither the user nor the connection takes part in any session before
  have hnone := hd.connection_eq_none ha hi
  have hfree : d.sessions[c]? = none := Std.ExtTreeMap.getElem?_eq_none hc
  constructor
  · intro c' id hid
    rw [sessions_login] at hid
    split at hid
    · next hcc =>
      subst hcc
      exact ⟨user, a.connect c, (Option.some.inj hid).symm, by simp [ha], rfl⟩
    · obtain ⟨other, b, rfl, hb, hbc⟩ := hd.member hid
      have hne : user ≠ other := by
        rintro rfl
        rw [Option.some.inj (ha.symm.trans hb), hbc] at hnone
        cases hnone
      exact ⟨other, b, rfl, by simp [hne, hb], hbc⟩
  · intro other b c' hb hbc
    rw [member?_login] at hb
    split at hb
    · next hu =>
      obtain ⟨b', -, rfl⟩ := Option.map_eq_some_iff.mp hb
      rw [sessions_login, if_pos (Option.some.inj hbc), hu]
    · have hs := hd.session hb hbc
      have hne : c ≠ c' := by
        rintro rfl
        rw [hfree] at hs
        cases hs
      rw [sessions_login, if_neg hne, hs]
  · intro other b hb
    rw [member?_login] at hb
    split at hb
    · obtain ⟨b', -, rfl⟩ := Option.map_eq_some_iff.mp hb
      rfl
    · exact hd.flag hb

theorem logout (hd : d.SessionsAgree) (c : ConnectionId) : (d.logout c).SessionsAgree := by
  cases hc : d.sessions[c]? with
  | none =>
    rw [logout_of_none hc]
    exact hd
  | some id =>
    obtain ⟨user, a, rfl, ha, hac⟩ := hd.member hc
    have hm := member?_logout_of_some hc
    constructor
    · intro c' id hid
      rw [sessions_logout] at hid
      split at hid
      · cases hid
      · next hne =>
        obtain ⟨other, b, rfl, hb, hbc⟩ := hd.member hid
        have hu : user ≠ other := by
          rintro rfl
          rw [Option.some.inj (hb.symm.trans ha), hac] at hbc
          exact hne (Option.some.inj hbc)
        exact ⟨other, b, rfl, by simp [hm, hu, hb], hbc⟩
    · intro other b c' hb hbc
      rw [hm] at hb
      split at hb
      · obtain ⟨b', -, rfl⟩ := Option.map_eq_some_iff.mp hb
        cases hbc
      · next hu =>
        have hs := hd.session hb hbc
        have hne : c ≠ c' := by
          rintro rfl
          rw [hc] at hs
          exact hu (Option.some.inj hs)
        rw [sessions_logout, if_neg hne, hs]
    · intro other b hb
      rw [hm] at hb
      split at hb
      · obtain ⟨b', -, rfl⟩ := Option.map_eq_some_iff.mp hb
        rfl
      · exact hd.flag hb

theorem execute (hd : d.SessionsAgree) {filter : ContentFilter}
    {accepts : ConnectionId → Bool} {c : ConnectionId} {command : Command} {e : Effect}
    (h : command.execute d filter accepts c = .ok e) : e.directory.SessionsAgree := by
  cases command with
  | register name password born =>
    obtain ⟨d', hd', rfl⟩ := executeRegister_eq_ok_iff.mp h
    exact hd.register hd'
  | login name password captcha =>
    obtain ⟨hc, -, a, ha, -, hi, rfl⟩ := executeLogin_eq_ok_iff.mp h
    exact hd.login hc ha hi
  | logout =>
    obtain ⟨-, rfl⟩ := executeLogout_eq_ok_iff.mp h
    exact hd.logout c
  | _ =>
    refine hd.of_keeps (keeps_execute h nofun fun _ hf _ => ?_) (sessions_execute h nofun nofun)
    cases hf <;> rfl

end SessionsAgree

/-- Accounts are filed, and sessions agree with them: what can be counted on when a
command looks for the user of its connection. -/
structure Coherent (d : Directory) : Prop extends Filed d, SessionsAgree d

namespace Coherent

variable {d : Directory}

theorem empty (today : Date) : Coherent { today } := ⟨.empty today, .empty today⟩

theorem execute (hd : d.Coherent) {filter : ContentFilter} {accepts : ConnectionId → Bool}
    {c : ConnectionId} {command : Command} {e : Effect}
    (h : command.execute d filter accepts c = .ok e) : e.directory.Coherent :=
  ⟨hd.toFiled.execute h, hd.toSessionsAgree.execute h⟩

theorem logout (hd : d.Coherent) (c : ConnectionId) : (d.logout c).Coherent :=
  ⟨hd.toFiled.logout c, hd.toSessionsAgree.logout c⟩

theorem invariant : Directory.Invariant Coherent where
  execute := fun hd h => hd.execute h
  logout := fun hd c => hd.logout c

/-- The user of a connection is a registered one, and is logged in there. -/
theorem of_sessionOn (hd : d.Coherent) {c : ConnectionId} {id : AccountId} {a : Account}
    (h : d.sessionOn c = some (id, a)) :
    id = .member a.name ∧ d.member? a.name = some a ∧ a.connection = some c := by
  obtain ⟨hs, ha⟩ := sessionOn_eq_some_iff.mp h
  obtain ⟨user, b, rfl, hb, hbc⟩ := hd.member hs
  obtain rfl : b = a := Option.some.inj (hb.symm.trans ha)
  rw [hd.name_eq hb]
  exact ⟨rfl, hb, hbc⟩

theorem userOn_eq_some_iff (hd : d.Coherent) {c : ConnectionId} {user : String} :
    d.userOn c = some user ↔ d.sessions[c]? = some (.member user) := by
  constructor
  · intro h
    obtain ⟨⟨id, a⟩, hs, rfl⟩ := Option.map_eq_some_iff.mp h
    obtain ⟨rfl, -, -⟩ := hd.of_sessionOn hs
    exact (sessionOn_eq_some_iff.mp hs).1
  · intro hs
    obtain ⟨_, a, heq, ha, -⟩ := hd.member hs
    cases heq
    rw [userOn, sessionOn_eq_some_iff.mpr ⟨hs, ha⟩, Option.map_some, hd.name_eq ha]

end Coherent

end Directory

/-! ### One user, one connection -/

/-- A command that is not carried out is answered by an ERROR and does nothing else. -/
theorem Session.process_of_refused {s : Session} {service : Service} {c : ConnectionId}
    {command : Command} (hc : s.connection = some c)
    (h : ∀ e, command.execute service.directory service.filter service.switchboard.accepts c
      ≠ .ok e) :
    s.process service (.command command) = (s, service.send c (.error command.opcode)) := by
  simp only [process, hc]
  cases hx : command.execute service.directory service.filter service.switchboard.accepts c with
  | ok e => exact absurd hx (h e)
  | error why => rfl

/-- **Sessions and accounts of members correspond one to one.**  After every run a
session on `c` is that of a member exactly if the member's account names `c`, the
flags say which accounts name a connection, and sessions lead to registered users.  So
a connection has one user at most and a user one connection, and whoever asks to log
in a user that has a session is refused. -/
theorem sessions_bijective (today : Date) (filter : ContentFilter) (es : List Event) :
    let service := ((Hub.start today filter).run es).service
    let d := service.directory
    (∀ (c : ConnectionId) (user : String) (a : Account), d.member? user = some a →
      (d.sessions[c]? = some (.member user) ↔ a.connection = some c)) ∧
    (∀ (user : String) (a : Account), d.member? user = some a →
      (a.isConnected = true ↔ ∃ c, a.connection = some c)) ∧
    (∀ (c : ConnectionId) (id : AccountId), d.sessions[c]? = some id →
      ∃ user a, id = .member user ∧ d.member? user = some a ∧ a.name = user) ∧
    (∀ (c : ConnectionId) (x y : String) (a b : Account), d.member? x = some a →
      d.member? y = some b → a.connection = some c → b.connection = some c → x = y) ∧
    (∀ (c c' : ConnectionId) (id : AccountId),
      d.sessions[c]? = some id → d.sessions[c']? = some id → c = c') ∧
    (∀ (s : Session) (c c' : ConnectionId) (user password : String) (captcha : UInt8),
      d.sessions[c]? = some (.member user) → s.connection = some c' →
        s.process service (.command (.login user password captcha))
          = (s, service.send c' (.error .login))) := by
  intro service d
  have hd : d.Coherent := Directory.Coherent.invariant.run (Directory.Coherent.empty today) es
  refine ⟨?_, ?_, ?_, ?_, ?_, ?_⟩
  · intro c user a ha
    refine ⟨fun hs => ?_, hd.session ha⟩
    obtain ⟨_, b, heq, hb, hbc⟩ := hd.member hs
    cases heq
    rwa [← Option.some.inj (ha.symm.trans hb)] at hbc
  · intro user a ha
    rw [hd.flag ha, Option.isSome_iff_exists]
  · intro c id hs
    obtain ⟨user, a, hid, ha, -⟩ := hd.member hs
    exact ⟨user, a, hid, ha, hd.name_eq ha⟩
  · intro c x y a b ha hb hac hbc
    have hsame := (hd.session ha hac).symm.trans (hd.session hb hbc)
    exact AccountId.member.inj (Option.some.inj hsame)
  · intro c c' id hs hs'
    obtain ⟨user, a, rfl, ha, hac⟩ := hd.member hs
    obtain ⟨_, b, heq, hb, hbc⟩ := hd.member hs'
    cases heq
    rw [Option.some.inj (ha.symm.trans hb), hbc] at hac
    exact (Option.some.inj hac).symm
  · intro s c c' user password captcha hs hc'
    refine Session.process_of_refused hc' fun e he => ?_
    -- the user's flag is up, which is the last thing that a login looks at
    obtain ⟨_, a, heq, ha, hac⟩ := hd.member hs
    cases heq
    obtain ⟨-, -, b, hb, -, hi, -⟩ := executeLogin_eq_ok_iff.mp he
    rw [Option.some.inj (hb.symm.trans ha), hd.flag ha, hac] at hi
    cases hi

end Microblog
