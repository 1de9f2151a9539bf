import Microblog.Proofs.Channels
import Microblog.Proofs.FollowGraph

/-!
# Mailboxes

A notification for a user goes to the connection that the user is logged in on, or
waits in the account if there is none or if that connection takes nothing.  The two
never mix: while a connection takes anything, nothing waits for its user.  This is
what keeps notifications in order, and it lasts because a connection that has stopped
taking messages does not start again.

## Main definitions

* `Directory.connectionOf`, `Directory.liveOn` — where a user is logged in, and where a
  notification for the user can be sent at once.
* `Account.offered` — an account after some copies of a notification for it.
* `Directory.Settled` — nothing waits for a user who can be reached.
* `Effect.IsQuiet` — a command concerns nobody's mailbox.

## Main results

* `Directory.deliverAll_fst`, `Directory.member?_deliverAll` — who gets a notification
  at once, and what becomes of each account.
* `Directory.count_audience` — whom a post reaches, and that it does so once.
* `Directory.isQuiet_execute` — only LOGIN, POST and PM concern mailboxes.
* `Directory.Settled.execute`, `Directory.Settled.turn` — settled mailboxes stay so.
-/

namespace Microblog

/-- Where the notifications for a user go and where they wait. -/
def Account.mailbox (a : Account) : Option ConnectionId × List Notification :=
  (a.connection, a.pending)

namespace Account

/-- The account after `copies` copies of a notification for it.  They wait if no connection
takes them at once. -/
def offered (accepts : ConnectionId → Bool) (n : Notification) (copies : Nat) (a : Account) :
    Account :=
  if a.liveOn accepts = none then
    { a with pending := a.pending ++ List.replicate copies n }
  else a

variable (accepts : ConnectionId → Bool) (n : Notification) (a : Account)

@[simp] theorem offered_zero : offered accepts n 0 = id := by
  funext a
  simp [offered]

/-- What has been queued changes nothing about where the user can be reached. -/
theorem offered_offered (k copies : Nat) :
    (a.offered accepts n k).offered accepts n copies = a.offered accepts n (k + copies) := by
  by_cases hlive : a.liveOn accepts = none
  · have hqueued : ({ a with pending := a.pending ++ List.replicate k n } : Account).liveOn accepts
        = none := hlive
    simp [offered, hlive, hqueued]
  · simp [offered, hlive]

end Account

/-- A post mentions nobody twice. -/
theorem nodup_mentions (content : String) : (mentions content).Nodup := by
  have hnodup (k : Nat) : ∀ names : List String, names.length ≤ k → names.eraseDups.Nodup := by
    -- the names after the first one are fewer once the first one is taken out of them
    induction k with
    | zero =>
      intro names hk
      rw [List.length_eq_zero_iff.mp (Nat.le_zero.mp hk), List.eraseDups_nil]
      exact List.nodup_nil
    | succ k ih =>
      intro names hk
      cases names with
      | nil => exact List.nodup_nil
      | cons name names =>
        rw [List.eraseDups_cons, List.nodup_cons, List.mem_eraseDups]
        refine ⟨by simp, ih _ ?_⟩
        exact (List.length_filter_le _ _).trans (Nat.le_of_succ_le_succ hk)
  exact hnodup _ _ (Nat.le_refl _)

namespace Directory

/-- The connection that a member is logged in on. -/
def connectionOf (d : Directory) (user : String) : Option ConnectionId :=
  (d.member? user).bind Account.connection

/-- The connection that takes a notification for a member at once, given which
connections take anything. -/
def liveOn (d : Directory) (accepts : ConnectionId → Bool) (user : String) :
    Option ConnectionId :=
  (d.connectionOf user).filter accepts

section

variable {d d' : Directory} {user : String}

theorem connectionOf_of_member? {a : Account} (ha : d.member? user = some a) :
    d.connectionOf user = a.connection := by
  rw [connectionOf, ha, Option.bind_some]

theorem pending_of_member? {a : Account} (ha : d.member? user = some a) :
    d.pending (.member user) = a.pending := by
  rw [pending, account?_member, ha]
  rfl

theorem connectionOf_eq_none (hu : user ∉ d.members) : d.connectionOf user = none := by
  rw [connectionOf, member?_eq_none hu, Option.bind_none]

theorem pending_eq_nil (hu : user ∉ d.members) : d.pending (.member user) = [] := by
  rw [pending, account?_member, member?_eq_none hu]
  rfl

theorem Keeps.connectionOf (h : Keeps Account.connection d d') (user : String) :
    d'.connectionOf user = d.connectionOf user := by
  have hm := congrArg (Option.bind · id) (h.map_key user)
  rwa [Option.bind_map, Option.bind_map] at hm

theorem Keeps.pending (h : Keeps Account.pending d d') (user : String) :
    d'.pending (.member user) = d.pending (.member user) :=
  congrArg (Option.getD · []) (h.map_key user)

/-- A connection is that of one member at most. -/
theorem Coherent.connectionOf_eq_some_iff (hd : d.Coherent) {c : ConnectionId} :
    d.connectionOf user = some c ↔ d.sessions[c]? = some (.member user) := by
  constructor
  · intro h
    obtain ⟨a, ha, hc⟩ := Option.bind_eq_some_iff.mp h
    exact hd.session ha hc
  · intro h
    obtain ⟨_, a, heq, ha, hc⟩ := hd.member h
    cases heq
    rwa [connectionOf_of_member? ha]

end

/-! ### Registration, login, logout -/

section

variable {d d' : Directory}

theorem connectionOf_register {name password : String} {born : BirthDate}
    (h : d.register name password born = .ok d') (user : String) :
    d'.connectionOf user = d.connectionOf user := by
  rw [connectionOf, member?_register h]
  split
  · next hu =>
    rw [hu, connectionOf_eq_none (register_eq_ok_iff.mp h).1]
    rfl
  · rfl

theorem pending_register {name password : String} {born : BirthDate}
    (h : d.register name password born = .ok d') (user : String) :
    d'.pending (.member user) = d.pending (.member user) := by
  rw [pending, account?_member, member?_register h]
  split
  · next hu =>
    rw [hu, pending_eq_nil (register_eq_ok_iff.mp h).1]
    rfl
  · rfl

theorem connectionOf_login {name : String} (hname : name ∈ d.members) (c : ConnectionId)
    (user : String) :
    (d.login (.member name) c).connectionOf user
      = if name = user then some c else d.connectionOf user := by
  rw [connectionOf, member?_login]
  by_cases hu : name = user
  · subst hu
    obtain ⟨a, ha⟩ := mem_members_iff.mp hname
    simp [ha, Account.connect]
  · simp [hu, connectionOf]

theorem pending_login (d : Directory) (name : String) (c : ConnectionId) (user : String) :
    (d.login (.member name) c).pending (.member user)
      = if name = user then [] else d.pending (.member user) := by
  rw [pending, account?_member, member?_login]
  by_cases hu : name = user
  · subst hu
    cases ha : d.member? name <;> simp [Account.connect]
  · simp [hu, pending]

theorem connectionOf_logout {c c' : ConnectionId} {user : String}
    (h : (d.logout c).connectionOf user = some c') : d.connectionOf user = some c' := by
  cases hs : d.sessions[c]? with
  | none => rwa [logout_of_none hs] at h
  | some id =>
    rw [connectionOf, member?_logout_of_some hs] at h
    split at h
    · obtain ⟨a, ha, hc⟩ := Option.bind_eq_some_iff.mp h
      obtain ⟨b, -, rfl⟩ := Option.map_eq_some_iff.mp ha
      cases hc
    · exact h

theorem pending_logout (d : Directory) (c : ConnectionId) (user : String) :
    (d.logout c).pending (.member user) = d.pending (.member user) :=
  Keeps.pending (keeps_logout (fun _ => rfl) d c) user

end

/-! ### Delivery -/

section

variable (d : Directory) (accepts : ConnectionId → Bool) (n : Notification)

theorem connectionOf_deliverAll (names : List String) (user : String) :
    (d.deliverAll accepts n names).2.connectionOf user = d.connectionOf user :=
  Keeps.connectionOf (keeps_deliverAll (fun _ => rfl) d accepts names) user

theorem bind_liveOn (name : String) :
    (d.member? name).bind (fun a => a.liveOn accepts) = d.liveOn accepts name := by
  rw [liveOn, connectionOf]
  cases d.member? name <;> rfl

theorem deliver_of_live {name : String} {c : ConnectionId} (h : d.liveOn accepts name = some c) :
    d.deliver accepts n (.member name) = (some c, d) := by
  simp only [deliver, account?_member, bind_liveOn, h]

theorem deliver_of_not_live {name : String} (h : d.liveOn accepts name = none) :
    d.deliver accepts n (.member name) = (none, d.update (.member name) (Account.queue n)) := by
  simp only [deliver, account?_member, bind_liveOn, h]

theorem deliver_fst (name : String) :
    (d.deliver accepts n (.member name)).1 = d.liveOn accepts name := by
  cases h : d.liveOn accepts name with
  | some c => rw [deliver_of_live d accepts n h]
  | none => rw [deliver_of_not_live d accepts n h]

theorem member?_deliver (name user : String) :
    (d.deliver accepts n (.member name)).2.member? user
      = (d.member? user).map (Account.offered accepts n (if name = user then 1 else 0)) := by
  have hbind := d.bind_liveOn accepts name
  cases hlive : d.liveOn accepts name with
  | some reader =>
    rw [deliver_of_live d accepts n hlive]
    by_cases hu : name = user
    · subst hu
      obtain ⟨a, ha, hreader⟩ := Option.bind_eq_some_iff.mp (hbind.trans hlive)
      rw [ha, Option.map_some, Account.offered, hreader, if_neg (Option.some_ne_none reader)]
    · simp [hu]
  | none =>
    rw [deliver_of_not_live d accepts n hlive, member?_update]
    by_cases hu : name = user
    · subst hu
      rw [if_pos rfl, if_pos rfl]
      cases ha : d.member? name with
      | none => rfl
      | some a =>
        rw [ha, Option.bind_some, hlive] at hbind
        rw [Option.map_some, Option.map_some, Account.offered, if_pos hbind]
        rfl
    · simp [hu]

/-- A copy waits for a member for each time that it is named, if nothing takes notifications
for it at once, and nothing else happens to its account. -/
theorem member?_deliverAll (names : List String) (user : String) :
    (d.deliverAll accepts n names).2.member? user
      = (d.member? user).map (Account.offered accepts n (names.count user)) := by
  induction names generalizing d with
  | nil => simp [deliverAll]
  | cons name names ih =>
    rw [deliverAll, ih, member?_deliver, Option.map_map]
    refine congrArg (Option.map · (d.member? user)) (funext fun a => ?_)
    rw [Function.comp_apply, Account.offered_offered, List.count_cons]
    simp [Nat.add_comm]

theorem deliverAll_fst (names : List String) :
    (d.deliverAll accepts n names).1 = names.filterMap (d.liveOn accepts) := by
  induction names generalizing d with
  | nil => rfl
  | cons name names ih =>
    have hsame : (d.deliver accepts n (.member name)).2.liveOn accepts = d.liveOn accepts := by
      funext user
      rw [liveOn, Keeps.connectionOf (keeps_deliver (fun _ => rfl) d accepts _), liveOn]
    rw [deliverAll, deliver_fst, ih, hsame, List.filterMap_cons]
    cases d.liveOn accepts name <;> rfl

/-- A connection is sent a notification as often as its user is named, and not for
anybody else, since it has one user. -/
theorem Coherent.count_deliverAll_fst {d : Directory} (hd : d.Coherent)
    {accepts : ConnectionId → Bool} (n : Notification) (names : List String) {user : String}
    {reader : ConnectionId} (h : d.liveOn accepts user = some reader) :
    (d.deliverAll accepts n names).1.count reader = names.count user := by
  have hreader : d.connectionOf user = some reader := (Option.filter_eq_some_iff.mp h).1
  rw [d.deliverAll_fst, List.count_filterMap, List.count]
  refine List.countP_congr fun name _ => ?_
  rw [beq_iff_eq, beq_iff_eq]
  constructor
  · intro hlive
    have hname : d.connectionOf name = some reader := (Option.filter_eq_some_iff.mp hlive).1
    rw [hd.connectionOf_eq_some_iff] at hname hreader
    exact AccountId.member.inj (Option.some.inj (hname.symm.trans hreader))
  · rintro rfl
    exact h

/-- A notification waits for those of its readers that nothing takes it for at once,
and for each as often as the reader is named. -/
theorem pending_deliverAll (names : List String) {user : String} (hu : user ∈ d.members) :
    (d.deliverAll accepts n names).2.pending (.member user)
      = d.pending (.member user) ++
        if d.liveOn accepts user = none then List.replicate (names.count user) n else [] := by
  obtain ⟨a, ha⟩ := mem_members_iff.mp hu
  have hlive : a.liveOn accepts = d.liveOn accepts user := by
    rw [← bind_liveOn, ha, Option.bind_some]
  have hoffered : (d.deliverAll accepts n names).2.member? user
      = some (a.offered accepts n (names.count user)) := by
    rw [member?_deliverAll, ha, Option.map_some]
  rw [pending_of_member? hoffered, pending_of_member? ha, Account.offered, hlive]
  split
  · rfl
  · exact (List.append_nil _).symm

theorem deliverAll_singleton (name : String) :
    d.deliverAll accepts n [name]
      = ((d.deliver accepts n (.member name)).1.toList,
        (d.deliver accepts n (.member name)).2) := by
  simp [deliverAll]

end

/-! ### Whom a post reaches -/

section

variable {d : Directory} {author : Account}

theorem mem_audience (hm : d.Mirrored) (ha : d.member? author.name = some author)
    {content user : String} :
    user ∈ d.audience author content ↔
      author.name ∈ d.following user ∨ (user ∈ mentions content ∧ user ∈ d.members) := by
  have hfollower : user ∈ author.followers ↔ author.name ∈ d.following user := by
    rw [hm.mirror, followers, listed_of_member? ha]
  rw [audience, List.mem_append, List.mem_filter, Std.ExtTreeSet.mem_toList, decide_eq_true_iff,
    hfollower]
  -- a reader who is mentioned and follows the author is there as a follower
  by_cases hf : author.name ∈ d.following user <;> simp [hf]

theorem nodup_audience (content : String) : (d.audience author content).Nodup := by
  refine List.nodup_append.mpr
    ⟨nodup_toList_names _, (nodup_mentions content).filter _, ?_⟩
  -- the members added for being mentioned are none of the followers
  rintro follower hfollower other hother rfl
  have hnot := of_decide_eq_true (List.mem_filter.mp hother).2
  exact hnot.1 (Std.ExtTreeSet.mem_toList.mp hfollower)

/-- **A post reaches the followers of its author and the members that it mentions, each
once.** -/
theorem count_audience (hm : d.Mirrored) (ha : d.member? author.name = some author)
    (content user : String) :
    (d.audience author content).count user
      = if author.name ∈ d.following user ∨ (user ∈ mentions content ∧ user ∈ d.members) then 1
        else 0 := by
  rw [(nodup_audience content).count]
  simp only [mem_audience hm ha]

end

end Directory

/-! ### Commands that concern nobody's mailbox -/

/-- A command that leaves it as it was where notifications go and which ones wait, and
that sends none. -/
structure Effect.IsQuiet (e : Effect) (d : Directory) : Prop where
  /-- Nobody is logged in anywhere who was not logged in there before. -/
  connectionOf : ∀ {user : String} {c : ConnectionId}, e.directory.connectionOf user = some c →
    d.connectionOf user = some c
  /-- The same notifications wait. -/
  pending : ∀ user : String, e.directory.pending (.member user) = d.pending (.member user)
  /-- No notification is sent. -/
  notification? : ∀ item ∈ e.outgoing, item.2.notification? = none

namespace Effect

variable {d : Directory} {e : Effect}

theorem IsQuiet.of_keeps (h : Directory.Keeps Account.mailbox d e.directory)
    {c : ConnectionId} {ack : Ack} (hack : e.outgoing = [(c, .ack ack)]) : e.IsQuiet d where
  connectionOf := by
    intro user c' hc
    rwa [Directory.Keeps.connectionOf (h.comp Prod.fst)] at hc
  pending := Directory.Keeps.pending (h.comp Prod.snd)
  notification? := by
    intro item hitem
    rw [hack, List.mem_singleton] at hitem
    rw [hitem]
    rfl

/-- Only LOGIN, POST and PM concern mailboxes. -/
theorem isQuiet_execute {filter : ContentFilter} {accepts : ConnectionId → Bool}
    {c : ConnectionId} {command : Command} (h : command.execute d filter accepts c = .ok e)
    (hlogin : ∀ name password captcha, command ≠ .login name password captcha)
    (hpost : ∀ content, command ≠ .post content)
    (hpm : ∀ name content, command ≠ .pm name content) : e.IsQuiet d := by
  cases command with
  | register name password born =>
    obtain ⟨d', hd', rfl⟩ := executeRegister_eq_ok_iff.mp h
    refine ⟨fun hc => ?_, Directory.pending_register hd', ?_⟩
    · rwa [Directory.connectionOf_register hd'] at hc
    · rintro _ (_ | ⟨_, ⟨⟩⟩)
      rfl
  | login name password captcha => exact absurd rfl (hlogin name password captcha)
  | logout =>
    obtain ⟨-, rfl⟩ := executeLogout_eq_ok_iff.mp h
    refine ⟨Directory.connectionOf_logout, Directory.pending_logout d c, ?_⟩
    rintro _ (_ | ⟨_, ⟨⟩⟩)
    rfl
  | follow direction name =>
    obtain ⟨id, a, d', -, hd', rfl⟩ := executeFollow_eq_ok_iff.mp h
    exact .of_keeps (Directory.keeps_execute h nofun fun _ hf _ => by cases hf <;> rfl) rfl
  | post content => exact absurd rfl (hpost content)
  | pm name content => exact absurd rfl (hpm name content)
  | logStat =>
    obtain ⟨id, caller, -, rfl⟩ := executeLogStat_eq_ok_iff.mp h
    exact .of_keeps (.refl _ d) rfl
  | stat names =>
    obtain ⟨id, caller, accounts, -, -, rfl⟩ := executeStat_eq_ok_iff.mp h
    exact .of_keeps (.refl _ d) rfl
  | block name =>
    obtain ⟨id, blocker, target, -, -, rfl⟩ := executeBlock_eq_ok_iff.mp h
    exact .of_keeps (Directory.keeps_execute h nofun fun _ hf _ => by cases hf <;> rfl) rfl

end Effect

/-! ### Nothing waits for a user who can be reached -/

namespace Directory

/-- Users are logged in on connections that were opened, and nothing waits for a user
whose connection takes messages. -/
structure Settled (d : Directory) (s : Switchboard) : Prop where
  /-- The connection of a user was opened. -/
  lt_size : ∀ {user : String} {c : ConnectionId}, d.connectionOf user = some c →
    c < s.channels.size
  /-- Nothing waits for a user who can be reached. -/
  pending_eq_nil : ∀ {user : String} {c : ConnectionId}, d.connectionOf user = some c →
    s.accepts c → d.pending (.member user) = []

namespace Settled

variable {d d' : Directory} {s s' : Switchboard}

theorem empty (today : Date) (s : Switchboard) : Settled { today } s := by
  constructor <;> simp [connectionOf, member?]

theorem pending_of_live (hd : d.Settled s) {user : String} {c : ConnectionId}
    (h : d.liveOn s.accepts user = some c) : d.pending (.member user) = [] := by
  obtain ⟨hc, ha⟩ := Option.filter_eq_some_iff.mp h
  exact hd.pending_eq_nil hc ha

theorem wanes (hd : d.Settled s) (h : s.Wanes s') : d.Settled s' where
  lt_size := fun hc => Nat.lt_of_lt_of_le (hd.lt_size hc) h.size_le
  pending_eq_nil := fun hc ha => hd.pending_eq_nil hc (h.accepts (hd.lt_size hc) ha)

theorem of_isQuiet (hd : d.Settled s) {e : Effect} (h : e.IsQuiet d) : e.directory.Settled s where
  lt_size := fun hc => hd.lt_size (h.connectionOf hc)
  pending_eq_nil := by
    intro user c hc ha
    rw [h.pending]
    exact hd.pending_eq_nil (h.connectionOf hc) ha

theorem login (hd : d.Settled s) {name : String} {c : ConnectionId} (hname : name ∈ d.members)
    (hc : c < s.channels.size) : (d.login (.member name) c).Settled s := by
  constructor
  · intro user c' hc'
    rw [connectionOf_login hname] at hc'
    split at hc'
    · rwa [← Option.some.inj hc']
    · exact hd.lt_size hc'
  · intro user c' hc' ha
    rw [connectionOf_login hname] at hc'
    rw [pending_login]
    split at hc'
    · next hu => rw [if_pos hu]
    · next hu =>
      rw [if_neg hu]
      exact hd.pending_eq_nil hc' ha

/-- What is added to what waits is for users who cannot be reached. -/
theorem deliverAll (hd : d.Settled s) (n : Notification) (names : List String) :
    (d.deliverAll s.accepts n names).2.Settled s := by
  constructor
  · intro user c hc
    rw [connectionOf_deliverAll] at hc
    exact hd.lt_size hc
  · intro user c hc ha
    rw [connectionOf_deliverAll] at hc
    have hlive : d.liveOn s.accepts user = some c := by
      rw [liveOn, hc, Option.filter_some_pos ha]
    obtain ⟨a, hmember, -⟩ := Option.bind_eq_some_iff.mp hc
    rw [pending_deliverAll d s.accepts n names (mem_members_of_member? hmember), hlive,
      hd.pending_eq_nil hc ha]
    rfl

theorem record (hd : d.Settled s) (n : Notification) : (d.record n).Settled s :=
  ⟨hd.lt_size, hd.pending_eq_nil⟩

theorem execute (hd : d.Settled s) {filter : ContentFilter} {c : ConnectionId}
    {command : Command} {e : Effect} (hc : c < s.channels.size)
    (h : command.execute d filter s.accepts c = .ok e) : e.directory.Settled s := by
  cases command with
  | login name password captcha =>
    obtain ⟨-, -, a, ha, -, -, rfl⟩ := executeLogin_eq_ok_iff.mp h
    exact hd.login (mem_members_of_member? ha) hc
  | post content =>
    obtain ⟨id, author, -, rfl⟩ := executePost_eq_ok_iff.mp h
    exact (hd.deliverAll _ _).record _
  | pm name content =>
    obtain ⟨id, author, recipient, -, -, -, rfl⟩ := executePm_eq_ok_iff.mp h
    have hone := hd.deliverAll ⟨.pm, author.name, filter.apply content⟩ [name]
    rw [deliverAll_singleton] at hone
    exact hone.record _
  | _ => exact hd.of_isQuiet (Effect.isQuiet_execute h nofun nofun nofun)

/-- **Settled mailboxes stay so.** -/
theorem turn {s s' : Service} {e : Event} {x : Option (ConnectionId × Command)}
    (hs : s.directory.Settled s.switchboard) (h : s.Turn e x s') :
    s'.directory.Settled s'.switchboard := by
  -- the directory is settled under the channels as they were, which only wane
  refine Settled.wanes ?_ h.wanes
  cases h with
  | carriedOut hc hx => exact hs.execute hc hx
  | ended c =>
    refine ⟨fun hc => hs.lt_size (connectionOf_logout hc), fun hc ha => ?_⟩
    rw [pending_logout]
    exact hs.pending_eq_nil (connectionOf_logout hc) ha
  | _ => exact hs

end Settled

end Directory

end Microblog
