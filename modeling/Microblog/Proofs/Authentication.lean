import Microblog.Proofs.Delivery
import Microblog.Proofs.Transcripts

/-!
# Whoever acts has logged in

The server does not ask for a password again once somebody is logged in.  It goes by the
session of the connection, so all depends on where sessions come from.  They are traced
back over a run: a session on a connection goes back to a LOGIN from that very connection,
with nothing in between that would have ended it, and the password of that LOGIN goes back
to the first REGISTER of the name.  A later REGISTER of the same name is refused and
cannot replace it.

What is traced is the past of a hub, that is the moments that led to it.

## Main definitions

* `Command.isPersonal` — the command is carried out for the user of its connection.
* `Command.utterance` — the notification that a command writes.
* `Hub.EndsSession` — the event ends the session of a connection.
* `FirstRegistered`, `LoggedIn`, `Written` — what a past has to say of a password, a
  session and a notification.
* `Directory.Traced` — everything in a directory goes back to its past.

## Main results

* `Hub.session_step`, `Hub.member_step`, `Hub.holds_step` — where sessions, passwords and
  notifications come from in one step.
* `Directory.Traced.run` — after every run of operations everything goes back to its past.
* `commands_authenticated` — **whoever acts has logged in**, and so has whoever wrote.
-/

namespace Microblog

/-! ### Commands that are carried out for somebody -/

namespace Command

/-- The command is carried out for the user of its connection. -/
def isPersonal : Command → Bool
  | follow .. | post _ | pm .. | logStat | stat _ | block _ => true
  | register .. | login .. | logout => false

/-- The notification that a command writes, if its user goes by the name `author`. -/
def utterance (filter : ContentFilter) (author : String) : Command → Option Notification
  | post content => some ⟨.post, author, content⟩
  | pm _ content => some ⟨.pm, author, filter.apply content⟩
  | _ => none

theorem author_of_utterance {filter : ContentFilter} {author : String} {command : Command}
    {n : Notification} (h : command.utterance filter author = some n) : n.author = author := by
  cases command <;> cases h <;> rfl

end Command

section

variable {d : Directory} {filter : ContentFilter} {accepts : ConnectionId → Bool}
  {c : ConnectionId} {command : Command} {e : Effect}

/-- A personal command that is carried out has a user. -/
theorem Command.exists_userOn (hpersonal : command.isPersonal)
    (h : command.execute d filter accepts c = .ok e) : ∃ user, d.userOn c = some user := by
  have huser : ∀ {id : AccountId} {a : Account}, d.sessionOn c = some (id, a) →
      ∃ user, d.userOn c = some user :=
    fun hs => ⟨_, Directory.userOn_of_sessionOn hs⟩
  cases command with
  | register | login | logout => cases hpersonal
  | follow direction name =>
    obtain ⟨id, a, d', hs, -, -⟩ := executeFollow_eq_ok_iff.mp h
    exact huser hs
  | post content =>
    obtain ⟨id, author, hs, -⟩ := executePost_eq_ok_iff.mp h
    exact huser hs
  | pm name content =>
    obtain ⟨id, author, recipient, hs, -, -, -⟩ := executePm_eq_ok_iff.mp h
    exact huser hs
  | logStat =>
    obtain ⟨id, caller, hs, -⟩ := executeLogStat_eq_ok_iff.mp h
    exact huser hs
  | stat names =>
    obtain ⟨id, caller, accounts, hs, -, -⟩ := executeStat_eq_ok_iff.mp h
    exact huser hs
  | block name =>
    obtain ⟨id, blocker, target, hs, -, -⟩ := executeBlock_eq_ok_iff.mp h
    exact huser hs

/-! ### Notifications that are kept -/

namespace Directory

/-- The notification is in the history, or waits for some member. -/
def Holds (d : Directory) (n : Notification) : Prop :=
  n ∈ d.history ∨ ∃ user, n ∈ d.pending (.member user)

theorem mem_pending {user : String} {n : Notification} :
    n ∈ d.pending (.member user) ↔ ∃ a, d.member? user = some a ∧ n ∈ a.pending := by
  rw [pending, account?_member]
  cases d.member? user <;> simp

theorem holds_of_keeps {d' : Directory} (hk : Keeps Account.pending d d')
    (hhistory : d'.history = d.history) {n : Notification} (h : d'.Holds n) : d.Holds n := by
  rcases h with h | ⟨user, h⟩
  · exact .inl (hhistory ▸ h)
  · exact .inr ⟨user, by rwa [← hk.pending]⟩

/-- Delivering a notification adds none but that one. -/
theorem holds_deliver {n m : Notification} {id : AccountId}
    (h : (d.deliver accepts n id).2.Holds m) : d.Holds m ∨ m = n := by
  unfold deliver at h
  split at h
  · exact .inl h
  · rcases h with h | ⟨user, h⟩
    · exact .inl (.inl (by rwa [history_update] at h))
    · obtain ⟨a', ha', hm⟩ := mem_pending.mp h
      rw [member?_update] at ha'
      split at ha'
      · obtain ⟨a, ha, rfl⟩ := Option.map_eq_some_iff.mp ha'
        rcases List.mem_append.mp hm with hm | hm
        · exact .inl (.inr ⟨user, mem_pending.mpr ⟨a, ha, hm⟩⟩)
        · exact .inr (List.mem_singleton.mp hm)
      · exact .inl (.inr ⟨user, mem_pending.mpr ⟨a', ha', hm⟩⟩)

theorem holds_deliverAll {n m : Notification} {names : List String}
    (h : (d.deliverAll accepts n names).2.Holds m) : d.Holds m ∨ m = n := by
  induction names generalizing d with
  | nil => exact .inl h
  | cons name names ih =>
    rcases ih h with h | rfl
    · exact holds_deliver h
    · exact .inr rfl

theorem holds_record {n m : Notification} (h : (d.record n).Holds m) : d.Holds m ∨ m = n := by
  rcases h with h | h
  · rcases Array.mem_push.mp h with h | rfl
    · exact .inl (.inl h)
    · exact .inr rfl
  · exact .inl (.inr h)

/-- **A notification that is kept after a command was kept before, or the user of the
connection has just written it.** -/
theorem holds_execute {n : Notification} (h : command.execute d filter accepts c = .ok e)
    (hn : e.directory.Holds n) :
    d.Holds n ∨ ∃ author, d.userOn c = some author ∧ command.utterance filter author = some n := by
  cases command with
  | register name password born =>
    obtain ⟨d', hd', rfl⟩ := executeRegister_eq_ok_iff.mp h
    rcases hn with hn | ⟨user, hn⟩
    · obtain ⟨-, rfl⟩ := register_eq_ok_iff.mp hd'
      exact .inl (.inl hn)
    · exact .inl (.inr ⟨user, by rwa [pending_register hd'] at hn⟩)
  | login name password captcha =>
    obtain ⟨-, -, a, -, -, -, rfl⟩ := executeLogin_eq_ok_iff.mp h
    rcases hn with hn | ⟨user, hn⟩
    · exact .inl (.inl (by simpa [login] using hn))
    · rw [pending_login] at hn
      split at hn
      · cases hn
      · exact .inl (.inr ⟨user, hn⟩)
  | post content =>
    obtain ⟨id, author, hs, rfl⟩ := executePost_eq_ok_iff.mp h
    rcases holds_record hn with hn | rfl
    · rcases holds_deliverAll hn with hn | rfl
      · exact .inl hn
      · exact .inr ⟨author.name, userOn_of_sessionOn hs, rfl⟩
    · exact .inr ⟨author.name, userOn_of_sessionOn hs, rfl⟩
  | pm name content =>
    obtain ⟨id, author, recipient, hs, -, -, rfl⟩ := executePm_eq_ok_iff.mp h
    rcases holds_record hn with hn | rfl
    · rcases holds_deliver hn with hn | rfl
      · exact .inl hn
      · exact .inr ⟨author.name, userOn_of_sessionOn hs, rfl⟩
    · exact .inr ⟨author.name, userOn_of_sessionOn hs, rfl⟩
  | _ =>
    refine .inl (holds_of_keeps (keeps_execute h (by simp) fun _ hf _ => ?_)
      (history_execute h (by simp) (by simp)) hn)
    cases hf <;> rfl

/-- A notification that a command sends was kept before, or the user of the connection has
just written it. -/
theorem holds_of_mem_outgoing {n : Notification} {reader : ConnectionId}
    (h : command.execute d filter accepts c = .ok e)
    (hn : (reader, .notification n) ∈ e.outgoing) :
    d.Holds n ∨ ∃ author, d.userOn c = some author ∧ command.utterance filter author = some n := by
  cases Command.sends_of_mem_outgoing h hn with
  | waiting ha hn => exact .inl (.inr ⟨_, mem_pending.mpr ⟨_, ha, hn⟩⟩)
  | post reader hs => exact .inr ⟨_, userOn_of_sessionOn hs, rfl⟩
  | pm reader hs => exact .inr ⟨_, userOn_of_sessionOn hs, rfl⟩

end Directory

end

/-! ### The past -/

/-- The event ends the session on `c`, if there is one: it carries out a LOGOUT from there,
or the connection is gone. -/
def Hub.EndsSession (h : Hub) (c : ConnectionId) (e : Event) : Prop :=
  h.carriedOut e = some (c, .logout) ∨ e = .disconnect c

section

variable (past : List (Hub × Event))

/-- The first REGISTER of the name `user` that was carried out gave it this password. -/
def FirstRegistered (user password : String) : Prop :=
  ∃ before m after c born, past = before ++ m :: after ∧
    m.1.carriedOut m.2 = some (c, .register user password born) ∧
    ∀ x ∈ before, ∀ c password born,
      x.1.carriedOut x.2 ≠ some (c, .register user password born)

/-- A LOGIN as `user` was carried out from `c`, with the password of the first REGISTER of
that name before it and a captcha that is not refused, and since then nothing has ended the
session on `c`. -/
def LoggedIn (c : ConnectionId) (user : String) : Prop :=
  ∃ before m after password captcha, past = before ++ m :: after ∧
    m.1.carriedOut m.2 = some (c, .login user password captcha) ∧ captcha ≠ refusedCaptcha ∧
    FirstRegistered before user password ∧ ∀ x ∈ after, ¬ x.1.EndsSession c x.2

/-- A command that writes `n` was carried out for its author, who had logged in on the
connection that it came from. -/
def Written (n : Notification) : Prop :=
  ∃ before m after c command, past = before ++ m :: after ∧
    m.1.carriedOut m.2 = some (c, command) ∧ m.1.service.directory.userOn c = some n.author ∧
    command.utterance m.1.service.filter n.author = some n ∧ LoggedIn before c n.author

end

section

variable {past : List (Hub × Event)} {user password : String} {c : ConnectionId}
  {n : Notification}

theorem FirstRegistered.append (h : FirstRegistered past user password)
    (more : List (Hub × Event)) : FirstRegistered (past ++ more) user password := by
  obtain ⟨before, m, after, c, born, rfl, hm, hfirst⟩ := h
  exact ⟨before, m, after ++ more, c, born, by simp, hm, hfirst⟩

theorem LoggedIn.append_singleton (h : LoggedIn past c user) {m : Hub × Event}
    (hm : ¬ m.1.EndsSession c m.2) : LoggedIn (past ++ [m]) c user := by
  obtain ⟨before, x, after, password, captcha, rfl, hx, hcaptcha, hfirst, hafter⟩ := h
  refine ⟨before, x, after ++ [m], password, captcha, by simp, hx, hcaptcha, hfirst, ?_⟩
  intro y hy
  rcases List.mem_append.mp hy with hy | hy
  · exact hafter y hy
  · rwa [List.mem_singleton.mp hy]

theorem Written.append (h : Written past n) (more : List (Hub × Event)) :
    Written (past ++ more) n := by
  obtain ⟨before, m, after, c, command, rfl, hm, huser, hwrites, hlogin⟩ := h
  exact ⟨before, m, after ++ more, c, command, by simp, hm, huser, hwrites, hlogin⟩

end

/-! ### One step -/

namespace Hub

variable {h : Hub} {e : Event}

/-- Nobody has a session on a connection that is gone. -/
theorem sessions_disconnect (hh : h.Linked) (hd : h.service.directory.Coherent)
    (hs : h.service.directory.Settled h.service.switchboard) (c : ConnectionId) :
    (h.step (.disconnect c)).service.directory.sessions[c]? = none := by
  simp only [step, disconnect]
  cases hl : h.links[c]? with
  | none =>
    -- a session would be on a connection that was opened
    refine Option.eq_none_iff_forall_ne_some.mpr fun id hid => ?_
    obtain ⟨user, a, rfl, ha, hc⟩ := hd.member hid
    have hlt := hs.lt_size ((Directory.connectionOf_of_member? ha).trans hc)
    rw [← hh.size_eq] at hlt
    exact absurd (Array.getElem?_eq_none_iff.mp hl) (Nat.not_le_of_lt hlt)
  | some l =>
    have hid : l.session.id = c := by rw [Session.id, hh.connection_eq hl, Option.getD_some]
    simp only [Session.disconnect, hid]
    rw [Directory.sessions_logout, if_pos rfl]

/-- **Where sessions come from.**  A session was there before, and the event does not end
it, or the event is the LOGIN that begins it. -/
theorem session_step (hh : h.Linked) (hd : h.service.directory.Coherent)
    (hs : h.service.directory.Settled h.service.switchboard) (he : e.isOperation)
    {c : ConnectionId} {user : String}
    (hsession : (h.step e).service.directory.sessions[c]? = some (.member user)) :
    (h.service.directory.sessions[c]? = some (.member user) ∧ ¬ h.EndsSession c e) ∨
      ∃ password captcha a, h.carriedOut e = some (c, .login user password captcha) ∧
        captcha ≠ refusedCaptcha ∧ h.service.directory.member? user = some a ∧
        a.password = password := by
  have hgone : e ≠ .disconnect c := by
    rintro rfl
    rw [sessions_disconnect hh hd hs] at hsession
    cases hsession
  have hturn := h.turn hh he
  unfold EndsSession
  rw [or_iff_left hgone]
  generalize h.carriedOut e = x at hturn ⊢
  generalize (h.step e).service = s at hturn hsession
  cases hturn with
  | @carriedOut c' command effect hc' hx =>
    cases command with
    | login name password captcha =>
      obtain ⟨-, hcaptcha, a, ha, hpassword, -, rfl⟩ := executeLogin_eq_ok_iff.mp hx
      rcases Nat.decEq c' c with hne | rfl
      · refine .inl ⟨?_, nofun⟩
        have hother := Directory.sessions_login h.service.directory (.member name) c' c
        rw [if_neg hne] at hother
        exact hother.symm.trans hsession
      · have hnew := Directory.sessions_login h.service.directory (.member name) c' c'
        rw [if_pos rfl] at hnew
        cases hnew.symm.trans hsession
        exact .inr ⟨password, captcha, a, rfl, hcaptcha, ha, hpassword⟩
    | logout =>
      obtain ⟨-, rfl⟩ := executeLogout_eq_ok_iff.mp hx
      have hother := Directory.sessions_logout h.service.directory c' c
      rcases Nat.decEq c' c with hne | rfl
      · rw [if_neg hne] at hother
        refine .inl ⟨hother.symm.trans hsession, fun heq => hne ?_⟩
        exact congrArg Prod.fst (Option.some.inj heq)
      · rw [if_pos rfl] at hother
        cases hother.symm.trans hsession
    | _ =>
      refine .inl ⟨?_, nofun⟩
      rw [← Directory.sessions_execute hx nofun nofun]
      exact hsession
  | ended c' =>
    refine .inl ⟨?_, nofun⟩
    rw [Directory.sessions_logout] at hsession
    split at hsession
    · cases hsession
    · exact hsession
  | _ => exact .inl ⟨hsession, nofun⟩

/-- **Where passwords come from.**  A member was one before, with the same password, or the
event is the REGISTER that gives it. -/
theorem member_step (hh : h.Linked) (he : e.isOperation) {user : String} {a' : Account}
    (ha' : (h.step e).service.directory.member? user = some a') :
    (∃ a, h.service.directory.member? user = some a ∧ a.password = a'.password) ∨
      (user ∉ h.service.directory.members ∧
        ∃ c born, h.carriedOut e = some (c, .register user a'.password born)) := by
  have hkept : ∀ {d' : Directory}, d'.member? user = some a' →
      Directory.Keeps Account.identity h.service.directory d' →
      ∃ a, h.service.directory.member? user = some a ∧ a.password = a'.password := by
    intro d' ha' hk
    obtain ⟨a, ha, heq⟩ := hk.member? ha'
    exact ⟨a, ha, congrArg (fun k => k.2.1) heq⟩
  have hturn := h.turn hh he
  generalize h.carriedOut e = x at hturn ⊢
  generalize (h.step e).service = s at hturn ha'
  cases hturn with
  | @carriedOut c command effect hc hx =>
    cases command with
    | register name password born =>
      obtain ⟨d', hd', rfl⟩ := executeRegister_eq_ok_iff.mp hx
      have hm := (Directory.member?_register hd' user).symm.trans ha'
      split at hm
      · next hu =>
        cases hm
        subst hu
        exact .inr ⟨(Directory.register_eq_ok_iff.mp hd').1, c, born, rfl⟩
      · exact .inl ⟨a', hm, rfl⟩
    | _ =>
      refine .inl (hkept ha' (Directory.keeps_execute hx nofun fun _ hf _ => ?_))
      cases hf <;> rfl
  | ended c => exact .inl (hkept ha' (Directory.keeps_logout (fun _ => rfl) _ c))
  | _ => exact .inl ⟨a', ha', rfl⟩

/-- Members stay members, and whoever registers is one. -/
theorem mem_members_step (hh : h.Linked) (he : e.isOperation) {user : String}
    (hu : user ∈ h.service.directory.members ∨
      ∃ c password born, h.carriedOut e = some (c, .register user password born)) :
    user ∈ (h.step e).service.directory.members := by
  have hturn := h.turn hh he
  generalize h.carriedOut e = x at hturn hu
  generalize (h.step e).service = s at hturn ⊢
  cases hturn with
  | @carriedOut c command effect hc hx =>
    cases command with
    | register name password born =>
      obtain ⟨d', hd', rfl⟩ := executeRegister_eq_ok_iff.mp hx
      obtain ⟨-, rfl⟩ := Directory.register_eq_ok_iff.mp hd'
      refine Std.ExtTreeMap.mem_insert.mpr ?_
      rcases hu with hu | ⟨_, _, _, heq⟩
      · exact .inr hu
      · cases heq
        exact .inl Std.ReflCmp.compare_self
    | _ =>
      have hk : Directory.Keeps Account.identity h.service.directory effect.directory :=
        Directory.keeps_execute hx nofun fun _ hf _ => by cases hf <;> rfl
      refine hk.mem_members_iff.mpr (hu.resolve_right ?_)
      rintro ⟨_, _, _, heq⟩
      cases heq
  | ended c =>
    have hk : Directory.Keeps Account.identity h.service.directory
        (h.service.directory.logout c) := Directory.keeps_logout (fun _ => rfl) _ c
    refine hk.mem_members_iff.mpr (hu.resolve_right ?_)
    rintro ⟨_, _, _, heq⟩
    cases heq
  | _ =>
    refine hu.resolve_right ?_
    rintro ⟨_, _, _, heq⟩
    cases heq

/-- The event has a user write `n`. -/
def Writes (h : Hub) (e : Event) (n : Notification) : Prop :=
  ∃ c command, h.carriedOut e = some (c, command) ∧
    h.service.directory.userOn c = some n.author ∧
    command.utterance h.service.filter n.author = some n

/-- **Where notifications come from.**  One that is kept after an event, or that a channel
takes of it, was kept before, or the event has a user write it. -/
theorem holds_step (hh : h.Linked) (he : e.isOperation) {n : Notification}
    (hn : (h.step e).service.directory.Holds n ∨
      ∃ c, .reply (.notification n)
        ∈ h.service.switchboard.added (h.step e).service.switchboard c) :
    h.service.directory.Holds n ∨ h.Writes e n := by
  cases hx : h.carriedOut e with
  | none =>
    have hturn := h.turn hh he
    rw [hx] at hturn
    rcases hn with (hn | ⟨user, hn⟩) | ⟨c, hn⟩
    · refine .inl (.inl ?_)
      generalize (h.step e).service = s at hturn hn
      cases hturn with
      | ended c => rwa [Directory.history_logout] at hn
      | _ => exact hn
    · exact .inl (.inr ⟨user, by rwa [hturn.pending_eq] at hn⟩)
    · have hmem := Message.mem_filterMap_notification?.mpr hn
      rw [hturn.notifications_eq_nil] at hmem
      cases hmem
  | some x =>
    obtain ⟨c, command⟩ := x
    obtain ⟨effect, hok, hstep⟩ := step_of_carriedOut hh hx
    have hnew : h.service.directory.Holds n ∨
        ∃ author, h.service.directory.userOn c = some author ∧
          command.utterance h.service.filter author = some n := by
      rw [hstep] at hn
      rcases hn with hn | ⟨reader, hn⟩
      · exact Directory.holds_execute hok hn
      · rw [Service.added_apply] at hn
        split at hn
        · obtain ⟨r, hr, heq⟩ := List.mem_map.mp hn
          obtain ⟨⟨reader, r'⟩, hitem, rfl⟩ := List.mem_map.mp hr
          cases heq
          exact Directory.holds_of_mem_outgoing hok (List.mem_filter.mp hitem).1
        · cases hn
    rcases hnew with hold | ⟨author, huser, hwrites⟩
    · exact .inl hold
    · obtain rfl := Command.author_of_utterance hwrites
      exact .inr ⟨c, command, hx, huser, hwrites⟩

end Hub

/-! ### A run -/

/-- Everything in a directory goes back to its past. -/
structure Directory.Traced (past : List (Hub × Event)) (d : Directory) : Prop where
  /-- The password of a member is that of the first registration. -/
  password : ∀ {user : String} {a : Account}, d.member? user = some a →
    FirstRegistered past user a.password
  /-- Whoever has registered is a member. -/
  registered : ∀ m ∈ past, ∀ c user password born,
    m.1.carriedOut m.2 = some (c, .register user password born) → user ∈ d.members
  /-- Whoever has a session has logged in. -/
  session : ∀ {c : ConnectionId} {user : String}, d.sessions[c]? = some (.member user) →
    LoggedIn past c user
  /-- Whoever wrote what is kept had logged in. -/
  written : ∀ {n : Notification}, d.Holds n → Written past n

namespace Directory.Traced

theorem empty (today : Date) : Traced [] { today } := by
  constructor
  · intro user a ha
    simp [member?] at ha
  · intro m hm
    cases hm
  · intro c user hc
    simp at hc
  · rintro n (hn | ⟨user, hn⟩)
    · simp at hn
    · simp [mem_pending, member?] at hn

variable {past : List (Hub × Event)} {h : Hub}

/-- What an event has a user write was written by somebody who had logged in. -/
theorem written_of_writes (ht : h.service.directory.Traced past)
    (hd : h.service.directory.Coherent) {e : Event} {n : Notification} (hw : h.Writes e n) :
    Written (past ++ [(h, e)]) n := by
  obtain ⟨c, command, hx, huser, hwrites⟩ := hw
  exact ⟨past, (h, e), [], c, command, rfl, hx, huser, hwrites,
    ht.session (hd.userOn_eq_some_iff.mp huser)⟩

/-- **One event more.** -/
theorem step (ht : h.service.directory.Traced past) (hh : h.Linked)
    (hd : h.service.directory.Coherent)
    (hs : h.service.directory.Settled h.service.switchboard) {e : Event} (he : e.isOperation) :
    (h.step e).service.directory.Traced (past ++ [(h, e)]) := by
  constructor
  · intro user a' ha'
    rcases h.member_step hh he ha' with ⟨a, ha, hpassword⟩ | ⟨hnew, c, born, hx⟩
    · rw [← hpassword]
      exact (ht.password ha).append _
    · -- a REGISTER that is carried out is the first of its name
      refine ⟨past, (h, e), [], c, born, rfl, hx, fun x hx c' password' born' hbefore => ?_⟩
      exact hnew (ht.registered x hx c' user password' born' hbefore)
  · intro m hm c user password born hx
    refine h.mem_members_step hh he ?_
    rcases List.mem_append.mp hm with hm | hm
    · exact .inl (ht.registered m hm c user password born hx)
    · rw [List.mem_singleton.mp hm] at hx
      exact .inr ⟨c, password, born, hx⟩
  · intro c user hsession
    rcases h.session_step hh hd hs he hsession with
      ⟨hold, hlasts⟩ | ⟨password, captcha, a, hx, hcaptcha, ha, rfl⟩
    · exact (ht.session hold).append_singleton hlasts
    · refine ⟨past, (h, e), [], a.password, captcha, rfl, hx, hcaptcha, ht.password ha, ?_⟩
      intro x hx
      cases hx
  · intro n hn
    rcases h.holds_step hh he (.inl hn) with hold | hwrites
    · exact (ht.written hold).append _
    · exact ht.written_of_writes hd hwrites

end Directory.Traced

namespace Hub

variable {h : Hub}

/-- Mailboxes are settled after every run of operations. -/
theorem settled_run (hh : h.Linked)
    (hs : h.service.directory.Settled h.service.switchboard) {es : List Event}
    (hes : ∀ e ∈ es, e.isOperation) :
    (h.run es).service.directory.Settled (h.run es).service.switchboard := by
  induction es generalizing h with
  | nil => exact hs
  | cons e es ih =>
    exact ih (hh.step e) (hs.turn (h.turn hh (hes e List.mem_cons_self)))
      fun e' he' => hes e' (List.mem_cons_of_mem _ he')

end Hub

/-- **After a run of operations everything goes back to its past**, and so does every
notification that a channel has taken. -/
theorem Directory.Traced.run (today : Date) (filter : ContentFilter) {es : List Event}
    (hes : ∀ e ∈ es, e.isOperation) :
    let start := Hub.start today filter
    (start.run es).service.directory.Traced (start.moments es) ∧
      ∀ (n : Notification) (c : ConnectionId), .reply (.notification n) ∈ start.said es c →
        Written (start.moments es) n := by
  intro start
  -- the induction is on the end of the run, where the next event is
  induction es using List.reverseRecOn with
  | nil => exact ⟨.empty today, nofun⟩
  | append_singleton es e ih =>
    have hes' : ∀ e ∈ es, e.isOperation := fun e' he' => hes e' (List.mem_append_left _ he')
    have he : e.isOperation := hes e (List.mem_append_right _ List.mem_cons_self)
    obtain ⟨htraced, hsaid⟩ := ih hes'
    have hh : (start.run es).Linked := (Hub.Linked.start today filter).run es
    have hd : (start.run es).service.directory.Coherent :=
      Directory.Coherent.invariant.run (Directory.Coherent.empty today) es
    have hs := Hub.settled_run (.start today filter) (Directory.Settled.empty today _) hes'
    rw [Hub.moments_append, Hub.run_append]
    refine ⟨htraced.step hh hd hs he, fun n c hn => ?_⟩
    rw [Hub.said, Hub.moments_append, List.flatMap_append] at hn
    rcases List.mem_append.mp hn with hn | hn
    · exact (hsaid n c hn).append _
    · rw [Hub.moments_cons, List.flatMap_cons, Hub.moments_nil, List.flatMap_nil,
        List.append_nil] at hn
      rcases Hub.holds_step hh he (.inr ⟨c, hn⟩) with hold | hwrites
      · exact (htraced.written hold).append _
      · exact htraced.written_of_writes hd hwrites

/-- **Whoever acts has logged in.**  Take any run of operations.  If an event after it
carries out a command other than REGISTER, LOGIN and LOGOUT, the connection that it comes
from has a user, and the user has logged in on that very connection: a LOGIN from there that
gives this name was carried out before, its captcha is not the one that is refused, its
password is that of the first REGISTER of the name that was carried out, and since that
LOGIN no LOGOUT from there was carried out and the connection was not gone.  So every
notification in the history, with those that wait or taken by a channel was written by a
command of its author, who had logged in like this. -/
theorem commands_authenticated (today : Date) (filter : ContentFilter) (es : List Event)
    (hes : ∀ e ∈ es, e.isOperation) :
    let start := Hub.start today filter
    let h := start.run es
    (∀ (e : Event) (c : ConnectionId) (command : Command),
      h.carriedOut e = some (c, command) → command.isPersonal →
        ∃ user, h.service.directory.userOn c = some user ∧
          LoggedIn (start.moments es) c user) ∧
    ∀ n : Notification,
      (n ∈ h.service.directory.history ∨ (∃ user, n ∈ h.service.directory.pending (.member user)) ∨
        ∃ c, .reply (.notification n) ∈ start.said es c) →
      Written (start.moments es) n := by
  intro start h
  obtain ⟨htraced, hsaid⟩ := Directory.Traced.run today filter hes
  have hh : h.Linked := (Hub.Linked.start today filter).run es
  have hd : h.service.directory.Coherent :=
    Directory.Coherent.invariant.run (Directory.Coherent.empty today) es
  refine ⟨fun e c command hx hpersonal => ?_, ?_⟩
  · obtain ⟨effect, hok, -⟩ := Hub.step_of_carriedOut hh hx
    obtain ⟨user, huser⟩ := Command.exists_userOn hpersonal hok
    exact ⟨user, huser, htraced.session (hd.userOn_eq_some_iff.mp huser)⟩
  · rintro n (hn | ⟨user, hn⟩ | ⟨c, hn⟩)
    · exact htraced.written (.inl hn)
    · exact htraced.written (.inr ⟨user, hn⟩)
    · exact hsaid n c hn

/-- Somebody tries to register Alice's name again and to log in with a password of his own.
Then Alice logs in on the same connection and writes to Bob, whose line is dead. -/
def masquerade : List Event :=
  [.connect, .connect,
    .message 0 (.command (.register "alice" "a" ⟨1, 1, 2000⟩)),
    .message 0 (.command (.register "bob" "b" ⟨1, 1, 2000⟩)),
    .message 0 (.command (.login "bob" "b" 0x31)),
    .message 1 (.command (.register "alice" "x" ⟨1, 1, 2000⟩)),
    .message 1 (.command (.login "alice" "x" 0x31)),
    .message 1 (.command (.login "alice" "a" 0x31)),
    .hangUp 0,
    .message 1 (.command (.pm "bob" "hello"))]

/-- The message that waits for Bob is from Alice, and so will be the next post. -/
theorem commands_authenticated_masquerade :
    let start := Hub.start ⟨2024, 1, 1⟩ {}
    let h := start.run masquerade
    let moments := start.moments masquerade
    (∀ e ∈ masquerade, e.isOperation) ∧
      h.carriedOut (.message 1 (.command (.post "hi"))) = some (1, .post "hi") ∧
      h.service.directory.userOn 1 = some "alice" ∧ LoggedIn moments 1 "alice" ∧
      h.service.directory.pending (.member "bob") = [⟨.pm, "alice", "hello"⟩] ∧
      Written moments ⟨.pm, "alice", "hello"⟩ := by
  have hes : ∀ e ∈ masquerade, e.isOperation := by decide
  have hx : ((Hub.start ⟨2024, 1, 1⟩ {}).run masquerade).carriedOut
      (.message 1 (.command (.post "hi"))) = some (1, .post "hi") := by decide +kernel
  have huser : ((Hub.start ⟨2024, 1, 1⟩ {}).run masquerade).service.directory.userOn 1
      = some "alice" := by decide +kernel
  have hwaits : ((Hub.start ⟨2024, 1, 1⟩ {}).run masquerade).service.directory.pending
      (.member "bob") = [⟨.pm, "alice", "hello"⟩] := by decide +kernel
  obtain ⟨hcommand, hwritten⟩ := commands_authenticated ⟨2024, 1, 1⟩ {} masquerade hes
  obtain ⟨user, huser', hlogin⟩ := hcommand _ _ _ hx rfl
  obtain rfl : "alice" = user := Option.some.inj (huser.symm.trans huser')
  have hmem : ⟨.pm, "alice", "hello"⟩
      ∈ ((Hub.start ⟨2024, 1, 1⟩ {}).run masquerade).service.directory.pending
        (.member "bob") := by
    rw [hwaits]
    exact List.mem_cons_self
  exact ⟨hes, hx, huser, hlogin, hwaits, hwritten _ (.inr (.inl ⟨"bob", hmem⟩))⟩

end Microblog
