import Microblog.Handlers
import Microblog.Proofs.Channels

/-!
# Handlers do what their commands do

A handler that carries out its command leaves the service as `Command.execute` says, and
one that refuses its command leaves it untouched, although it works in place and takes
nothing back.  Two things make this true.  The checks come before the changes; and where a
change tells whether the command is to be refused, that of a set of names, it is one that
has had no effect if it is.

Each handler is run step by step on an arbitrary desk.  Where it has got to is always
`Desk.after`: the desk with some directory, and with some replies sent.

## Main definitions

* `Desk.after` — a desk on which something has been done.
* `Desk.outcome` — what `Command.execute` makes of a desk.

## Main results

* `Handler.register_eq`, …, `Handler.block_eq` — one for each handler.
* `Command.handle_eq` — **a handler does what its command does, or nothing.**
-/

namespace Microblog

namespace Directory

theorem map_name_update {f : Account → Account} (hf : ∀ a, (f a).name = a.name) (d : Directory)
    (id other : AccountId) :
    ((d.update id f).account? other).map Account.name = (d.account? other).map Account.name := by
  rw [account?_update]
  split
  · rw [Option.map_map]
    exact congrArg (Option.map · (d.account? other)) (funext hf)
  · rfl

theorem map_name_getD_unlink? (d : Directory) (follower followed other : AccountId) :
    (((d.unlink? follower followed).getD d).account? other).map Account.name
      = (d.account? other).map Account.name := by
  cases h : d.unlink? follower followed with
  | none => rfl
  | some d' =>
    obtain ⟨a, b, -, -, -, rfl⟩ := unlink?_eq_some_iff.mp h
    rw [Option.getD_some, map_name_update (f := Account.loseFollower a.name) (fun _ => rfl),
      map_name_update (f := Account.stopFollowing b.name) (fun _ => rfl)]

end Directory

namespace Switchboard

/-- A message that is not taken changes nothing. -/
theorem send_eq_self {s : Switchboard} {c : ConnectionId} (h : s.accepts c = false) (m : Message) :
    s.send c m = s := by
  have hchannels : s.channels.modify c (Channel.push m) = s.channels := by
    refine Array.ext_getElem? fun i => ?_
    rw [Array.getElem?_modify]
    split
    · next hi =>
      subst hi
      cases hch : s.channels[c]? with
      | none => rfl
      | some ch =>
        have hpush : ch.accepts = false := by simpa [accepts, hch] using h
        rw [Option.map_some, Channel.push, hpush]
        rfl
    · rfl
  rw [send, hchannels]

end Switchboard

namespace Desk

/-- The desk after the directory has become `d` and the replies `items` were sent. -/
def after (s : Desk) (d : Directory) (items : List (ConnectionId × Reply)) : Desk :=
  { s with
    service := { s.service with
      directory := d
      switchboard :=
        items.foldl (fun board item => board.send item.1 (.reply item.2)) s.service.switchboard } }

variable (s : Desk) (d : Directory) (items : List (ConnectionId × Reply))

theorem after_self : s.after s.service.directory [] = s := rfl

theorem change_after (f : Directory → Directory) :
    (s.after d items).change f = s.after (f d) items := rfl

theorem send_after (c : ConnectionId) (r : Reply) :
    (s.after d items).send c r = s.after d (items ++ [(c, r)]) := by
  simp only [after, send, Service.send, List.foldl_append]
  rfl

/-- One time after another is one time. -/
theorem after_after (d' : Directory) (items' : List (ConnectionId × Reply)) :
    (s.after d items).after d' items' = s.after d' (items ++ items') := by
  simp only [after, List.foldl_append]

/-- What a handler leaves when it has carried out a command, or refused it. -/
def outcome (s : Desk) (c : ConnectionId) :
    Except Rejection Effect → EStateM.Result Rejection Desk Unit
  | .ok e => .ok ()
      { service := s.service.apply c e, terminated := s.terminated || e.closes }
  | .error why => .error why s

theorem outcome_after (c : ConnectionId) :
    s.outcome c (.ok { directory := d, outgoing := items }) = .ok () (s.after d items) := by
  simp [outcome, after, Service.apply]

end Desk

namespace Handler

/-! ### Steps -/

section

variable {α β : Type} (s : Desk)

@[simp] theorem bind_apply (x : Handler α) (f : α → Handler β) :
    (x >>= f) s = match x s with
      | .ok a s' => f a s'
      | .error why s' => .error why s' := by
  change EStateM.bind x f s = _
  unfold EStateM.bind
  cases x s <;> rfl

@[simp] theorem map_apply (f : α → β) (x : Handler α) :
    (f <$> x) s = match x s with
      | .ok a s' => .ok (f a) s'
      | .error why s' => .error why s' := by
  change EStateM.map f x s = _
  unfold EStateM.map
  cases x s <;> rfl

@[simp] theorem pure_apply (a : α) : (pure a : Handler α) s = .ok a s := rfl

@[simp] theorem get_apply : (get : Handler Desk) s = .ok s s := rfl

@[simp] theorem modify_apply (f : Desk → Desk) : (modify f : Handler Unit) s = .ok () (f s) := rfl

@[simp] theorem directory_apply : directory s = .ok s.service.directory s := rfl

@[simp] theorem change_apply (f : Directory → Directory) :
    change f s = .ok () (s.change f) := rfl

@[simp] theorem send_apply (c : ConnectionId) (r : Reply) :
    send c r s = .ok (s.service.switchboard.accepts c) (s.send c r) := rfl

@[simp] theorem discard_send_apply (c : ConnectionId) (r : Reply) :
    (discard (send c r) : Handler Unit) s = .ok () (s.send c r) := rfl

@[simp] theorem refuseIf_apply (p : Prop) [Decidable p] (why : Rejection) :
    refuseIf p why s = if p then .error why s else .ok () s := by
  unfold refuseIf
  split <;> rfl

@[simp] theorem currentUser_apply (c : ConnectionId) :
    currentUser c s = match s.service.directory.sessionOn c with
      | none => .error .notLoggedIn s
      | some user => .ok user s := by
  simp only [currentUser, bind_apply, directory_apply]
  cases s.service.directory.sessionOn c <;> rfl

@[simp] theorem member_apply (name : String) :
    member name s = match s.service.directory.member? name with
      | none => .error (.unknownUser name) s
      | some account => .ok account s := by
  simp only [member, bind_apply, directory_apply]
  cases s.service.directory.member? name <;> rfl

end

variable (s : Desk) (c : ConnectionId) (ack : Ack)

/-! ### Handlers -/

theorem register_eq (name password : String) (born : BirthDate) :
    register c ack name password born s
      = s.outcome c (executeRegister s.service.directory c ack name password born) := by
  by_cases hname : name ∈ s.service.directory.members
  · simp [register, executeRegister, Directory.register, hname, Desk.outcome]
  · simp only [register, takeNumber, executeRegister, Directory.register, hname, if_false,
      bind_apply, directory_apply, refuseIf_apply, change_apply, pure_apply, discard_send_apply]
    exact (s.outcome_after _ [(c, .ack ack)] c).symm

theorem logStat_eq :
    logStat c ack s = s.outcome c (executeLogStat s.service.directory c ack) := by
  cases hs : s.service.directory.sessionOn c with
  | none => simp [logStat, executeLogStat, hs, Desk.outcome]
  | some user =>
    simp only [logStat, executeLogStat, bind_apply, currentUser_apply, directory_apply,
      discard_send_apply, hs]
    exact (s.outcome_after _ [(c, .ack _)] c).symm

/-- All members are found, or the first that is not decides. -/
theorem members_apply (names : List String) :
    members names s = match s.service.directory.lookup names with
      | .error why => .error why s
      | .ok accounts => .ok accounts s := by
  induction names with
  | nil => rfl
  | cons name names ih =>
    rw [Directory.lookup_cons]
    cases hm : s.service.directory.member? name with
    | none => simp [members, hm]
    | some account =>
      cases hl : s.service.directory.lookup names with
      | error why => simp only [members, bind_apply, member_apply, hm, ih, hl, Except.map]
      | ok accounts =>
        simp only [members, bind_apply, member_apply, pure_apply, hm, ih, hl, Except.map]

theorem stat_eq (names : List String) :
    stat c ack names s = s.outcome c (executeStat s.service.directory c ack names) := by
  cases hs : s.service.directory.sessionOn c with
  | none => simp [stat, executeStat, hs, Desk.outcome]
  | some user =>
    cases hl : s.service.directory.lookup names with
    | error why => simp [stat, executeStat, members_apply, hs, hl, Desk.outcome]
    | ok accounts =>
      simp only [stat, executeStat, bind_apply, currentUser_apply, directory_apply,
        members_apply, discard_send_apply, hs, hl]
      exact (s.outcome_after _ [(c, .ack _)] c).symm

/-- A notification for a member is sent, or waits. -/
theorem deliver_apply (n : Notification) (name : String) :
    deliver n name s =
      let delivered := s.service.directory.deliver s.service.switchboard.accepts n (.member name)
      .ok () (s.after delivered.2
        (delivered.1.toList.map fun reader => (reader, .notification n))) := by
  have hwaits : s.change (fun d => d.update (.member name) (Account.queue n))
      = s.after (s.service.directory.update (.member name) (Account.queue n)) [] := rfl
  cases hm : s.service.directory.member? name with
  | none =>
    -- there is no account for it to wait in
    have hsame : s.service.directory.update (.member name) (Account.queue n)
        = s.service.directory :=
      Directory.update_eq_self fun a ha => by cases hm.symm.trans ha
    have hdeliver : s.service.directory.deliver s.service.switchboard.accepts n (.member name)
        = (none, s.service.directory) := by
      simp [Directory.deliver, hm, hsame]
    have hrun : deliver n name s = .ok () s := by simp [deliver, hm]
    rw [hrun, hdeliver]
    rfl
  | some account =>
    cases hc : account.connection with
    | none =>
      have hdeliver : s.service.directory.deliver s.service.switchboard.accepts n (.member name)
          = (none, s.service.directory.update (.member name) (Account.queue n)) := by
        simp [Directory.deliver, Account.liveOn, hm, hc]
      have hrun : deliver n name s
          = .ok () (s.change fun d => d.update (.member name) (Account.queue n)) := by
        simp [deliver, hm, hc]
      rw [hrun, hdeliver, hwaits]
      rfl
    | some reader =>
      cases ha : s.service.switchboard.accepts reader with
      | true =>
        have hdeliver : s.service.directory.deliver s.service.switchboard.accepts n
            (.member name) = (some reader, s.service.directory) := by
          simp [Directory.deliver, Account.liveOn, hm, hc, ha, Option.filter]
        have hrun : deliver n name s = .ok () (s.send reader (.notification n)) := by
          simp [deliver, hm, hc, ha]
        rw [hrun, hdeliver]
        rfl
      | false =>
        have hdeliver : s.service.directory.deliver s.service.switchboard.accepts n
            (.member name)
              = (none, s.service.directory.update (.member name) (Account.queue n)) := by
          simp [Directory.deliver, Account.liveOn, hm, hc, ha, Option.filter]
        have hsend : s.send reader (.notification n) = s := by
          rw [Desk.send, Service.send, Switchboard.send_eq_self ha]
        have hrun : deliver n name s
            = .ok () (s.change fun d => d.update (.member name) (Account.queue n)) := by
          simp [deliver, hm, hc, ha, hsend]
        rw [hrun, hdeliver, hwaits]
        rfl

/-- A notification for some members. -/
theorem deliverAll_apply (n : Notification) (names : List String) :
    deliverAll n names s =
      let delivered := s.service.directory.deliverAll s.service.switchboard.accepts n names
      .ok () (s.after delivered.2 (delivered.1.map fun reader => (reader, .notification n))) := by
  induction names generalizing s with
  | nil => rfl
  | cons name names ih =>
    simp only [deliverAll, bind_apply, deliver_apply, ih, Directory.deliverAll, List.map_append]
    -- what is sent changes nothing about who is reached
    have haccepts : ∀ d items, (s.after d items).service.switchboard.accepts
        = s.service.switchboard.accepts :=
      fun d items => funext fun c => Switchboard.accepts_foldl_send items _ c
    rw [haccepts, Desk.after_after]
    rfl

theorem post_eq (content : String) :
    post c ack content s = s.outcome c (executePost s.service.directory
      s.service.switchboard.accepts c ack content) := by
  cases hs : s.service.directory.sessionOn c with
  | none => simp [post, executePost, hs, Desk.outcome]
  | some user =>
    simp only [post, executePost, bind_apply, currentUser_apply, directory_apply,
      deliverAll_apply, change_apply, discard_send_apply, hs]
    rw [Desk.outcome_after, Desk.change_after, Desk.send_after]

theorem pm_eq (name content : String) :
    pm c ack name content s = s.outcome c (executePm s.service.directory s.service.filter
      s.service.switchboard.accepts c ack name content) := by
  cases hs : s.service.directory.sessionOn c with
  | none => simp [pm, executePm, hs, Desk.outcome]
  | some user =>
    cases hm : s.service.directory.member? name with
    | none => simp [pm, executePm, hs, hm, Desk.outcome]
    | some recipient =>
      by_cases hb : user.2.name ∈ recipient.blockedBy
      · simp [pm, executePm, hs, hm, hb, Desk.outcome]
      · simp only [pm, executePm, bind_apply, currentUser_apply, member_apply, refuseIf_apply,
          get_apply, deliver_apply, change_apply, discard_send_apply, hs, hm, hb, if_false]
        rw [Desk.outcome_after, Desk.change_after, Desk.send_after]

theorem drain_apply (name : String) (pending : List Notification)
    (h : ∀ a, s.service.directory.member? name = some a → a.pending = pending) :
    drain c name pending s = .ok ()
      (s.after (s.service.directory.update (.member name) fun a => { a with pending := [] })
        (pending.map fun n => (c, .notification n))) := by
  induction pending generalizing s with
  | nil =>
    have hsame : (s.service.directory.update (.member name) fun a => { a with pending := [] })
        = s.service.directory := by
      refine Directory.update_eq_self fun a ha => ?_
      rw [← h a ha]
    rw [hsame]
    rfl
  | cons n rest ih =>
    let d := s.service.directory.update (.member name) fun a => { a with pending := rest }
    have hstep : drain c name (n :: rest) s
        = drain c name rest (s.after d [(c, .notification n)]) := by
      simp only [drain, bind_apply, change_apply, discard_send_apply]
      rfl
    have hrest : ∀ a, d.member? name = some a → a.pending = rest := by
      intro a ha
      rw [Directory.member?_update, if_pos rfl] at ha
      obtain ⟨_, _, rfl⟩ := Option.map_eq_some_iff.mp ha
      rfl
    rw [hstep, ih _ hrest, Desk.after_after]
    change EStateM.Result.ok () (s.after (d.update (.member name) _) _) = _
    rw [Directory.update_update]
    rfl

theorem login_eq (name password : String) (captcha : UInt8) :
    login c ack name password captcha s
      = s.outcome c (executeLogin s.service.directory c ack name password captcha) := by
  by_cases hc : c ∈ s.service.directory.sessions
  · simp [login, executeLogin, hc, Desk.outcome]
  by_cases hcaptcha : captcha = refusedCaptcha
  · simp [login, executeLogin, hc, hcaptcha, Desk.outcome]
  cases hm : s.service.directory.member? name with
  | none => simp [login, executeLogin, hc, hcaptcha, hm, Desk.outcome]
  | some account =>
    by_cases hpassword : account.password = password
    · cases hconnected : account.isConnected with
      | true =>
        simp [login, executeLogin, hc, hcaptcha, hm, hpassword, hconnected, Desk.outcome]
      | false =>
        have hpending : ∀ a, s.service.directory.member? name = some a →
            a.pending = account.pending := by
          intro a ha
          cases hm.symm.trans ha
          rfl
        have hdrain := drain_apply (s.send c (.ack ack)) c name account.pending hpending
        -- queue, connection and flag, one after another, are the beginning of a session
        have hlogin : s.service.directory.login (.member name) c =
            let d := ((s.service.directory.update (.member name)
              fun a => { a with pending := [] }).update (.member name)
              fun a => { a with connection := some c }).update (.member name)
              fun a => { a with isConnected := true }
            { d with sessions := d.sessions.insert c (.member name) } := by
          rw [Directory.update_update, Directory.update_update]
          rfl
        have hexecute : executeLogin s.service.directory c ack name password captcha = .ok
            { directory := s.service.directory.login (.member name) c
              outgoing :=
                (c, .ack ack) :: account.pending.map fun n => (c, .notification n) } := by
          simp [executeLogin, hc, hcaptcha, hm, hpassword, hconnected]
        rw [hexecute, Desk.outcome_after, hlogin]
        simp only [login, bind_apply, directory_apply, refuseIf_apply, member_apply,
          discard_send_apply, change_apply, hc, hcaptcha, hm, hpassword, hconnected, hdrain,
          ne_eq, not_true, if_false, Bool.false_eq_true]
        rfl
    · simp [login, executeLogin, hc, hcaptcha, hm, hpassword, Desk.outcome]

theorem logout_eq : logout c ack s = s.outcome c (executeLogout s.service.directory c ack) := by
  cases hempty : s.service.directory.sessions.isEmpty with
  | true => simp [logout, executeLogout, hempty, Desk.outcome]
  | false =>
    have hexecute : executeLogout s.service.directory c ack = .ok
        { directory := s.service.directory.logout c
          outgoing := [(c, .ack ack)]
          closes := true } :=
      if_neg (by rw [hempty]; exact Bool.false_ne_true)
    have houtcome : s.outcome c (executeLogout s.service.directory c ack)
        = .ok () (((s.change fun d => d.logout c).send c (.ack ack)).close c) := by
      simp only [hexecute, Desk.outcome, Bool.or_true]
      rfl
    rw [houtcome]
    cases hs : s.service.directory.sessions[c]? with
    | none =>
      have hlogout : s.change (fun d => d.logout c) = s := by
        have hsame : s.service.directory.logout c = s.service.directory := by
          rw [Directory.logout, hs]
        rw [Desk.change, hsame]
      rw [hlogout]
      simp [logout, hempty, hs]
    | some id =>
      have hlogout : s.service.directory.logout c =
          (({ s.service.directory with
              sessions := s.service.directory.sessions.erase c : Directory }.update id
            fun a => { a with connection := none }).update id
            fun a => { a with isConnected := false }) := by
        rw [Directory.update_update, Directory.logout, hs]
        cases id <;> rfl
      rw [Desk.change, hlogout]
      simp only [logout, bind_apply, directory_apply, refuseIf_apply, change_apply,
        discard_send_apply, modify_apply, hempty, hs, Bool.false_eq_true, if_false]
      rfl

section

variable {s : Desk} {id : AccountId} {a : Account}

/-- A name that is there already is put in without effect. -/
theorem addFollowed_apply (ha : s.service.directory.account? id = some a) (followed : String) :
    addFollowed id followed s =
      if followed ∈ a.following then .ok false s
      else .ok true
        (s.after (s.service.directory.update id (Account.startFollowing followed)) []) := by
  simp only [addFollowed, bind_apply, directory_apply, change_apply, pure_apply, ha,
    Option.all_some]
  by_cases hf : followed ∈ a.following
  · have hsame : s.service.directory.update id (Account.startFollowing followed)
        = s.service.directory := by
      refine Directory.update_eq_self fun b hb => ?_
      obtain rfl : a = b := Option.some.inj (ha.symm.trans hb)
      rw [Account.startFollowing, Names.insert_eq_self hf]
    rw [if_pos hf, Desk.change, hsame, decide_eq_false (not_not_intro hf)]
  · rw [if_neg hf, decide_eq_true hf]
    rfl

/-- A name that is not there is taken out without effect. -/
theorem removeFollowed_apply (ha : s.service.directory.account? id = some a) (followed : String) :
    removeFollowed id followed s =
      if followed ∈ a.following then
        .ok true (s.after (s.service.directory.update id (Account.stopFollowing followed)) [])
      else .ok false s := by
  simp only [removeFollowed, bind_apply, directory_apply, change_apply, pure_apply, ha,
    Option.any_some]
  by_cases hf : followed ∈ a.following
  · rw [if_pos hf, decide_eq_true hf]
    rfl
  · have hsame : s.service.directory.update id (Account.stopFollowing followed)
        = s.service.directory := by
      refine Directory.update_eq_self fun b hb => ?_
      obtain rfl : a = b := Option.some.inj (ha.symm.trans hb)
      rw [Account.stopFollowing, Names.erase_eq_self hf]
    rw [if_neg hf, Desk.change, hsame, decide_eq_false hf]

/-- An edge is put in on both sides, or on none. -/
theorem follow_apply (ha : s.service.directory.account? id = some a) (name : String) :
    followOrUnfollow id a name true s =
      match s.service.directory.follow? id name with
      | none => .ok false s
      | some d => .ok true (s.after d []) := by
  cases hm : s.service.directory.member? name with
  | none =>
    have hfollow : s.service.directory.follow? id name = none := by
      simp [Directory.follow?, ha, hm]
    simp [followOrUnfollow, hm, hfollow]
  | some target =>
    by_cases hrefused : target.name ∈ a.blockedBy ∨ a.number = target.number ∨
        target.name ∈ a.following
    · have hfollow : s.service.directory.follow? id name = none := by
        simp [Directory.follow?, ha, hm, hrefused]
      rw [hfollow]
      -- the last of the three is noticed only when the name is put in
      by_cases hblocked : target.name ∈ a.blockedBy
      · simp [followOrUnfollow, hm, hblocked]
      by_cases hnumber : a.number = target.number
      · simp [followOrUnfollow, hm, hblocked, hnumber]
      have hfollowing : target.name ∈ a.following :=
        (hrefused.resolve_left hblocked).resolve_left hnumber
      simp [followOrUnfollow, addFollowed_apply ha, hm, hblocked, hnumber, hfollowing]
    · have hfollow : s.service.directory.follow? id name =
          some ((s.service.directory.update id (Account.startFollowing target.name)).update
            (.member name) (Account.gainFollower a.name)) := by
        simp [Directory.follow?, ha, hm, hrefused]
      rw [not_or, not_or] at hrefused
      obtain ⟨hblocked, hnumber, hfollowing⟩ := hrefused
      have hrun : followOrUnfollow id a name true s =
          .ok true ((s.after (s.service.directory.update id
            (Account.startFollowing target.name)) []).change
              fun d => d.update (.member name) (Account.gainFollower a.name)) := by
        simp [followOrUnfollow, addFollowed_apply ha, hm, hblocked, hnumber, hfollowing]
      rw [hrun, hfollow, Desk.change_after]

/-- An edge is taken out on both sides, or on none. -/
theorem unfollow_apply (ha : s.service.directory.account? id = some a) (name : String) :
    followOrUnfollow id a name false s =
      match s.service.directory.unfollow? id name with
      | none => .ok false s
      | some d => .ok true (s.after d []) := by
  cases hm : s.service.directory.member? name with
  | none =>
    have hunfollow : s.service.directory.unfollow? id name = none := by
      simp [Directory.unfollow?, ha, hm]
    simp [followOrUnfollow, hm, hunfollow]
  | some target =>
    by_cases hnumber : a.number = target.number
    · have hunfollow : s.service.directory.unfollow? id name = none := by
        simp [Directory.unfollow?, ha, hm, hnumber]
      simp [followOrUnfollow, hm, hnumber, hunfollow]
    by_cases hfollowing : target.name ∈ a.following
    · have hunfollow : s.service.directory.unfollow? id name =
          some ((s.service.directory.update id (Account.stopFollowing target.name)).update
            (.member name) (Account.loseFollower a.name)) := by
        simp [Directory.unfollow?, Directory.unlink?, ha, hm, hnumber, hfollowing]
      have hrun : followOrUnfollow id a name false s =
          .ok true ((s.after (s.service.directory.update id
            (Account.stopFollowing target.name)) []).change
              fun d => d.update (.member name) (Account.loseFollower a.name)) := by
        simp [followOrUnfollow, removeFollowed_apply ha, hm, hnumber, hfollowing]
      rw [hrun, hunfollow, Desk.change_after]
    · have hunfollow : s.service.directory.unfollow? id name = none := by
        simp [Directory.unfollow?, Directory.unlink?, ha, hm, hfollowing]
      simp [followOrUnfollow, removeFollowed_apply ha, hm, hnumber, hfollowing, hunfollow]

/-- An edge is taken out, if it is there.  Of the accounts only the names matter, which
may have been looked up before. -/
theorem sever_apply {followed : AccountId} {b : Account}
    (ha : (s.service.directory.account? id).map Account.name = some a.name)
    (hb : (s.service.directory.account? followed).map Account.name = some b.name) :
    sever id a followed b s =
      .ok () (s.after ((s.service.directory.unlink? id followed).getD s.service.directory) []) := by
  obtain ⟨a', ha', hna⟩ := Option.map_eq_some_iff.mp ha
  obtain ⟨b', hb', hnb⟩ := Option.map_eq_some_iff.mp hb
  by_cases hf : b'.name ∈ a'.following
  · have hunlink : s.service.directory.unlink? id followed =
        some ((s.service.directory.update id (Account.stopFollowing b'.name)).update followed
          (Account.loseFollower a'.name)) := by
      simp [Directory.unlink?, ha', hb', hf]
    have hrun : sever id a followed b s =
        .ok () ((s.after (s.service.directory.update id (Account.stopFollowing b'.name)) []).change
          fun d => d.update followed (Account.loseFollower a'.name)) := by
      simp [sever, removeFollowed_apply ha', ← hna, ← hnb, hf]
    rw [hrun, hunlink, Option.getD_some, Desk.change_after]
  · have hunlink : s.service.directory.unlink? id followed = none := by
      simp [Directory.unlink?, ha', hb', hf]
    have hrun : sever id a followed b s = .ok () s := by
      simp [sever, removeFollowed_apply ha', ← hnb, hf]
    rw [hrun, hunlink, Option.getD_none, Desk.after_self]

end

theorem follow_eq (direction : Bool) (name : String) :
    follow c ack direction name s
      = s.outcome c (executeFollow s.service.directory c ack direction name) := by
  cases hs : s.service.directory.sessionOn c with
  | none => simp [follow, executeFollow, hs, Desk.outcome]
  | some user =>
    obtain ⟨id, a⟩ := user
    obtain ⟨-, ha⟩ := Directory.sessionOn_eq_some_iff.mp hs
    have hedge : followOrUnfollow id a name direction s =
        match if direction then s.service.directory.follow? id name
          else s.service.directory.unfollow? id name with
        | none => .ok false s
        | some d => .ok true (s.after d []) := by
      cases direction with
      | true => exact follow_apply ha name
      | false => exact unfollow_apply ha name
    cases hf : if direction then s.service.directory.follow? id name
      else s.service.directory.unfollow? id name with
    | none => simp [follow, executeFollow, hedge, hs, hf, Desk.outcome]
    | some d =>
      simp only [follow, executeFollow, bind_apply, currentUser_apply, refuseIf_apply,
        discard_send_apply, hedge, hs, hf, Bool.true_eq_false, if_false]
      exact (s.outcome_after d [(c, .ack ack)] c).symm

theorem block_eq (name : String) :
    block c ack name s = s.outcome c (executeBlock s.service.directory c ack name) := by
  cases hs : s.service.directory.sessionOn c with
  | none => simp [block, executeBlock, hs, Desk.outcome]
  | some user =>
    obtain ⟨id, a⟩ := user
    obtain ⟨-, ha⟩ := Directory.sessionOn_eq_some_iff.mp hs
    cases hm : s.service.directory.member? name with
    | none => simp [block, executeBlock, hs, hm, Desk.outcome]
    | some target =>
      by_cases hnumber : a.number = target.number
      · have hblock : s.service.directory.block id (.member name)
            = s.service.directory.update (.member name) (Account.addBlock a.name) := by
          simp [Directory.block, ha, hm, hnumber]
        simp only [block, executeBlock, bind_apply, currentUser_apply, member_apply,
          change_apply, discard_send_apply, hs, hm, hnumber, if_true, hblock,
          Desk.outcome_after]
        rfl
      · let d₁ := s.service.directory.update (.member name) (Account.addBlock a.name)
        let d₂ := (d₁.unlink? id (.member name)).getD d₁
        -- nothing that happens meanwhile changes a name
        have hid₁ : (d₁.account? id).map Account.name = some a.name := by
          rw [Directory.map_name_update (f := Account.addBlock a.name) (fun _ => rfl), ha,
            Option.map_some]
        have hmember₁ : (d₁.account? (.member name)).map Account.name = some target.name := by
          rw [Directory.map_name_update (f := Account.addBlock a.name) (fun _ => rfl),
            Directory.account?_member, hm, Option.map_some]
        have hid₂ : (d₂.account? id).map Account.name = some a.name := by
          rw [Directory.map_name_getD_unlink?, hid₁]
        have hmember₂ : (d₂.account? (.member name)).map Account.name = some target.name := by
          rw [Directory.map_name_getD_unlink?, hmember₁]
        have hblock : s.service.directory.block id (.member name)
            = (d₂.unlink? (.member name) id).getD d₂ := by
          simp [Directory.block, ha, hm, hnumber, d₁, d₂]
        have hfirst : sever id a (.member name) target (s.after d₁ [])
            = .ok () (s.after d₂ []) := sever_apply hid₁ hmember₁
        have hsecond : sever (.member name) target id a (s.after d₂ [])
            = .ok () (s.after (s.service.directory.block id (.member name)) []) := by
          rw [hblock]
          exact sever_apply hmember₂ hid₂
        have hchange : s.change (fun d => d.update (.member name) (Account.addBlock a.name))
            = s.after d₁ [] := rfl
        simp only [block, executeBlock, bind_apply, currentUser_apply, member_apply,
          change_apply, discard_send_apply, hs, hm, hnumber, if_false, hchange, hfirst, hsecond,
          Desk.outcome_after]
        rfl

end Handler

/-- **A handler does what its command does as a whole, and if it refuses the command,
nothing.** -/
theorem Command.handle_eq (command : Command) (c : ConnectionId) (s : Desk) :
    command.handle c s = s.outcome c (command.execute s.service.directory s.service.filter
      s.service.switchboard.accepts c) := by
  cases command with
  | register name password born => exact Handler.register_eq s c _ name password born
  | login name password captcha => exact Handler.login_eq s c _ name password captcha
  | logout => exact Handler.logout_eq s c _
  | follow direction name => exact Handler.follow_eq s c _ direction name
  | post content => exact Handler.post_eq s c _ content
  | pm name content => exact Handler.pm_eq s c _ name content
  | logStat => exact Handler.logStat_eq s c _
  | stat names => exact Handler.stat_eq s c _ names
  | block name => exact Handler.block_eq s c _ name

end Microblog
