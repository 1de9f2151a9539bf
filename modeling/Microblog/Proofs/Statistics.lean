import Microblog.Proofs.PrivateMessages
import Microblog.Proofs.Registration

/-!
# The figures of a run

No counter is kept of what users do.  The number of a user's posts is counted in the history
when it is asked for, and the history has private messages as well.  The number of a user's
followers is the size of a list in the user's own account, while the followers have the same
in theirs.  Here the figures are shown to be those that an observer of the run would have
noted down, as far as sixteen bits go.

The observer notes each command that is carried out, with the user of the connection that it
came from.  What the history has is what these commands write, one entry for each POST and
each PM, and from that all else about posts is counting.

## Main definitions

* `Hub.accepted` — the commands that a run carries out, each with its user.
* `Command.writing` — the notification that such a command writes.

## Main results

* `Hub.toList_history_run` — the history is what the commands of the run write.
* `Directory.postCount_eq`, `Directory.size_history_eq` — counting in it.
* `Directory.Mirrored.size_followers`, `Directory.Mirrored.size_following` — counting from the
  other side.
* `Directory.Enrolls.exists_registration` — the only registration of a member.
* `statistics_of_run` — **the figures that are published are those of the run.**
-/

namespace Microblog

/-! ### The commands that are carried out -/

namespace Hub

/-- The command that an event carries out, with the user of its connection, if that has one. -/
def accepted? (h : Hub) (e : Event) : Option (Option String × Command) :=
  (h.carriedOut e).map fun x => (h.service.directory.userOn x.1, x.2)

/-- The commands that a run carries out, in order. -/
def accepted (h : Hub) (es : List Event) : List (Option String × Command) :=
  (h.moments es).filterMap fun m => m.1.accepted? m.2

theorem accepted_cons (h : Hub) (e : Event) (es : List Event) :
    h.accepted (e :: es) = (h.accepted? e).toList ++ (h.step e).accepted es := by
  rw [accepted, moments_cons, List.filterMap_cons]
  cases h.accepted? e <;> rfl

/-- Whoever posts, follows and so on is logged in. -/
theorem exists_user_of_mem_accepted {h : Hub} (hh : h.Linked) {es : List Event}
    {x : Option String × Command} (hx : x ∈ h.accepted es) (hpersonal : x.2.isPersonal) :
    ∃ user, x.1 = some user := by
  obtain ⟨m, hm, hm'⟩ := List.mem_filterMap.mp hx
  obtain ⟨⟨c, command⟩, hcarried, rfl⟩ := Option.map_eq_some_iff.mp hm'
  obtain ⟨before, after, -, hrun⟩ := exists_run_of_mem_moments hm
  have hlinked : m.1.Linked := hrun ▸ hh.run before
  obtain ⟨effect, hok, -⟩ := step_of_carriedOut hlinked hcarried
  exact Command.exists_userOn hpersonal hok

end Hub

/-! ### The history -/

/-- The notification that a command writes in the name of a user, if there is one. -/
def Command.writing (filter : ContentFilter) (x : Option String × Command) : Option Notification :=
  x.1.bind fun author => x.2.utterance filter author

/-- What is sent out enters the history once. -/
theorem Directory.toList_history_dispatch (d : Directory) (accepts : ConnectionId → Bool)
    (c : ConnectionId) (ack : Ack) (n : Notification) (names : List String) :
    (d.dispatch accepts c ack n names).directory.history.toList = d.history.toList ++ [n] := by
  have hdelivered : (d.deliverAll accepts n names).2.history = d.history := by
    rw [rest_deliverAll]
  rw [dispatch, record, hdelivered, Array.toList_push]

/-- **What a command adds to the history is what it writes.** -/
theorem Directory.toList_history_execute {d : Directory} {filter : ContentFilter}
    {accepts : ConnectionId → Bool} {c : ConnectionId} {command : Command} {e : Effect}
    (h : command.execute d filter accepts c = .ok e) :
    e.directory.history.toList
      = d.history.toList ++ (Command.writing filter (d.userOn c, command)).toList := by
  cases command with
  | post content =>
    obtain ⟨id, author, hs, -⟩ := executePost_eq_ok_iff.mp h
    obtain rfl := Except.ok.inj (h.symm.trans (executePost_eq_dispatch hs content))
    rw [toList_history_dispatch, Command.writing, userOn_of_sessionOn hs]
    rfl
  | pm name content =>
    obtain ⟨id, author, recipient, hs, hr, hfree, -⟩ := executePm_eq_ok_iff.mp h
    obtain rfl := Except.ok.inj (h.symm.trans (executePm_eq_dispatch hs hr hfree content))
    rw [toList_history_dispatch, Command.writing, userOn_of_sessionOn hs]
    rfl
  | _ =>
    rw [history_execute h nofun nofun]
    cases d.userOn c <;> simp [Command.writing, Command.utterance]

/-- An operation that carries out no command leaves the history as it is. -/
theorem Service.Turn.history_eq {s s' : Service} {e : Event} (h : s.Turn e none s') :
    s'.directory.history = s.directory.history := by
  cases h with
  | ended c => exact Directory.history_logout s.directory c
  | _ => rfl

namespace Hub

variable {h : Hub} {e : Event} {es : List Event}

theorem toList_history_step (hh : h.Linked) (he : ∀ c bs, e ≠ .bytes c bs) :
    (h.step e).service.directory.history.toList
      = h.service.directory.history.toList ++
        ((h.accepted? e).bind (Command.writing h.service.filter)).toList := by
  rcases isOperation_or_broadcast he with hop | ⟨m, rfl⟩
  · rw [accepted?]
    cases hx : h.carriedOut e with
    | none =>
      have hturn := h.turn hh hop
      rw [hx] at hturn
      rw [hturn.history_eq, Option.map_none, Option.bind_none, Option.toList_none, List.append_nil]
    | some x =>
      obtain ⟨c, command⟩ := x
      obtain ⟨effect, hok, hstep⟩ := step_of_carriedOut hh hx
      rw [hstep]
      exact Directory.toList_history_execute hok
  · exact (List.append_nil _).symm

/-- **The history is what the commands of the run write**, behind what it was before. -/
theorem toList_history_run (hh : h.Linked) (hes : ∀ e ∈ es, ∀ c bs, e ≠ .bytes c bs) :
    (h.run es).service.directory.history.toList
      = h.service.directory.history.toList ++
        (h.accepted es).filterMap (Command.writing h.service.filter) := by
  induction es generalizing h with
  | nil => exact (List.append_nil _).symm
  | cons e es ih =>
    have he := hes e List.mem_cons_self
    have hone : ∀ e' ∈ [e], ∀ c bs, e' ≠ .bytes c bs := by
      intro e' he'
      rwa [List.mem_singleton.mp he']
    have hfilter : (h.step e).service.filter = h.service.filter := filter_run hh hone
    rw [run_cons, ih (hh.step e) fun e' he' => hes e' (List.mem_cons_of_mem e he'),
      toList_history_step hh he, hfilter, accepted_cons, List.filterMap_append, List.append_assoc]
    cases h.accepted? e with
    | none => rfl
    | some x =>
      rw [Option.toList_some, List.filterMap_cons, List.filterMap_nil, Option.bind_some]
      cases Command.writing h.service.filter x <;> rfl

end Hub

/-! ### Counting posts and private messages -/

namespace Command

variable {filter : ContentFilter}

/-- Only a POST of a user writes a post in the user's name. -/
theorem getD_writing_post (x : Option String × Command) (user : String) :
    ((writing filter x).map fun n => decide (n.kind = .post ∧ n.author = user)).getD false
      = decide (x.1 = some user ∧ x.2.opcode = .post) := by
  obtain ⟨author, command⟩ := x
  cases author with
  | none => simp [writing]
  | some author => cases command <;> simp [writing, utterance, opcode]

/-- A POST and a PM that have a user write something, and nothing else does. -/
theorem isSome_writing {x : Option String × Command}
    (hx : x.2.isPersonal → ∃ user, x.1 = some user) :
    (writing filter x).isSome = (decide (x.2.opcode = .post) || decide (x.2.opcode = .pm)) := by
  obtain ⟨author, command⟩ := x
  cases command with
  | post content | pm name content =>
    obtain ⟨user, rfl⟩ := hx rfl
    rfl
  | _ => cases author <;> rfl

theorem length_filterMap_writing {xs : List (Option String × Command)}
    (hxs : ∀ x ∈ xs, x.2.isPersonal → ∃ user, x.1 = some user) :
    (xs.filterMap (writing filter)).length
      = xs.countP (fun x => x.2.opcode = .post) + xs.countP (fun x => x.2.opcode = .pm) := by
  rw [List.length_filterMap_eq_countP]
  induction xs with
  | nil => rfl
  | cons x xs ih =>
    have ih := ih fun y hy => hxs y (List.mem_cons_of_mem x hy)
    rw [List.countP_cons, List.countP_cons, List.countP_cons, ih,
      isSome_writing (hxs x List.mem_cons_self)]
    -- no command is both
    by_cases hpost : x.2.opcode = .post <;> simp [hpost] <;> omega

end Command

namespace Directory

/-- A count is published as it is, if sixteen bits suffice. -/
theorem toNat_published (n : Nat) : (published n).toNat = min 65535 n := by
  have hlt : min n 0xFFFF < 2 ^ 16 := by omega
  rw [published, UInt16.toNat_ofNat_of_lt' hlt, Nat.min_comm]

variable {d : Directory} {filter : ContentFilter} {xs : List (Option String × Command)}

/-- The posts of a user in the history are the POSTs of the user. -/
theorem postCount_eq (h : d.history.toList = xs.filterMap (Command.writing filter))
    (user : String) :
    d.postCount user = xs.countP fun x => x.1 = some user ∧ x.2.opcode = .post := by
  rw [postCount, ← Array.countP_toList, h, List.countP_filterMap]
  exact List.countP_congr fun x _ => by rw [Command.getD_writing_post]

/-- The history has an entry for each POST and each PM. -/
theorem size_history_eq (h : d.history.toList = xs.filterMap (Command.writing filter))
    (hxs : ∀ x ∈ xs, x.2.isPersonal → ∃ user, x.1 = some user) :
    d.history.size
      = xs.countP (fun x => x.2.opcode = .post) + xs.countP (fun x => x.2.opcode = .pm) := by
  rw [← Array.length_toList, h, Command.length_filterMap_writing hxs]

end Directory

/-! ### Counting followers from the other side -/

namespace Directory

variable {d : Directory}

/-- The members on a list are as many as the list is long. -/
theorem countP_keys_mem {names : Names} (h : ∀ name ∈ names, name ∈ d.members) :
    d.members.keys.countP (fun name => name ∈ names) = names.size := by
  have hperm : (d.members.keys.filter fun name => name ∈ names).Perm names.toList := by
    refine (List.perm_ext_iff_of_nodup (Std.ExtTreeMap.nodup_keys.filter _)
      (nodup_toList_names names)).mpr fun name => ?_
    rw [List.mem_filter, Std.ExtTreeMap.mem_keys, Std.ExtTreeSet.mem_toList, decide_eq_true_iff]
    exact ⟨And.right, fun hname => ⟨h name hname, hname⟩⟩
  rw [List.countP_eq_length_filter, hperm.length_eq, Std.ExtTreeSet.length_toList]

/-- A user has as many followers as there are members who say that they follow the user. -/
theorem Mirrored.size_followers (hm : d.Mirrored) (user : String) :
    (d.followers user).size = d.members.keys.countP fun v => user ∈ d.following v := by
  rw [← countP_keys_mem fun v hv => hm.mem_members (.inr hv)]
  exact List.countP_congr fun v _ => by simp [hm.mirror]

/-- A user follows as many users as there are members who say that the user follows them. -/
theorem Mirrored.size_following (hm : d.Mirrored) (user : String) :
    (d.following user).size = d.members.keys.countP fun v => user ∈ d.followers v := by
  rw [← countP_keys_mem fun v hv => hm.mem_members (.inl hv)]
  exact List.countP_congr fun v _ => by simp [hm.mirror]

end Directory

/-! ### Registrations -/

namespace Directory.Enrolls

variable {today : Date} {registrations : List Registration} {d : Directory}

/-- Nobody registers twice. -/
theorem eq_of_name_eq (h : d.Enrolls today registrations) {r r' : Registration}
    (hr : r ∈ registrations) (hr' : r' ∈ registrations) (hname : r'.name = r.name) : r' = r := by
  obtain ⟨k, hk⟩ := List.getElem?_of_mem hr
  obtain ⟨k', hk'⟩ := List.getElem?_of_mem hr'
  obtain ⟨a, ha, hidentity⟩ := h.member hk
  obtain ⟨a', ha', hidentity'⟩ := h.member hk'
  -- both lead to one account, and that has one number
  rw [hname, ha] at ha'
  obtain rfl := Option.some.inj ha'
  have hnumber : k = k' := congrArg (fun key => key.2.2.1) (hidentity.symm.trans hidentity')
  rw [← hnumber, hk] at hk'
  exact (Option.some.inj hk').symm

/-- A member has registered once, and has been as old ever since. -/
theorem exists_registration (h : d.Enrolls today registrations) (hf : d.Filed) {user : String}
    {a : Account} (ha : d.member? user = some a) :
    ∃ r ∈ registrations, r.name = user ∧
      (∀ r' ∈ registrations, r'.name = user → r' = r) ∧ a.age = ageOn today r.born := by
  obtain ⟨r, hr, rfl⟩ := (h.mem_members_iff hf).mp (Directory.mem_members_of_member? ha)
  obtain ⟨k, hk⟩ := List.getElem?_of_mem hr
  obtain ⟨b, hb, hidentity⟩ := h.member hk
  obtain rfl := Option.some.inj (ha.symm.trans hb)
  have hage : a.age = ageOn today r.born := congrArg (fun key => key.2.2.2) hidentity
  exact ⟨r, hr, rfl, fun r' hr' => h.eq_of_name_eq hr hr', hage⟩

end Directory.Enrolls

/-- **The figures that are published are those of the run.**  Take any run, and note the commands
that are carried out, those that arrive as bytes included.  The day on which ages are taken stays
what it was.  The history has as many entries as POSTs and PMs were accepted.  Of each member the
statistics say: the age on that day of whoever was born when the only REGISTER of that name that
was accepted says; how many POSTs were accepted from the member; how many members list the member
among those whom they follow; and how many members list the member as a follower.  The last three
say 65535 where it is more than that. -/
theorem statistics_of_run (today : Date) (filter : ContentFilter) (es : List Event) :
    let start := Hub.start today filter
    let d := (start.run es).service.directory
    let accepted := start.accepted (start.unfold es)
    let registered := start.registrations (start.unfold es)
    d.today = today ∧
    d.history.size = accepted.countP (fun x => x.2.opcode = .post) +
      accepted.countP (fun x => x.2.opcode = .pm) ∧
    ∀ user a, d.member? user = some a →
      (∃ r ∈ registered, r.name = user ∧ (∀ r' ∈ registered, r'.name = user → r' = r) ∧
        (d.statsOf a).age = ageOn today r.born) ∧
      (d.statsOf a).posts.toNat
        = min 65535 (accepted.countP fun x => x.1 = some user ∧ x.2.opcode = .post) ∧
      (d.statsOf a).followers.toNat
        = min 65535 (d.members.keys.countP fun v => user ∈ d.following v) ∧
      (d.statsOf a).following.toNat
        = min 65535 (d.members.keys.countP fun v => user ∈ d.followers v) := by
  intro start d accepted registered
  have hstart : start.Linked := .start today filter
  have hread : ∀ e ∈ start.unfold es, ∀ c bs, e ≠ .bytes c bs := fun _ =>
    Hub.ne_bytes_of_mem_unfold
  have hservice : (start.run (start.unfold es)).service.directory = d :=
    congrArg Service.directory (Hub.service_run_unfold start es)
  have hempty : start.service.directory.Coherent ∧ start.service.directory.Mirrored :=
    ⟨.empty today, .empty today⟩
  obtain ⟨hd, hm⟩ : d.Coherent ∧ d.Mirrored := Directory.Mirrored.invariant.run hempty es
  have henrolls : d.Enrolls today registered := by
    rw [← hservice]
    exact Directory.Enrolls.run_of_ne_bytes today filter hread
  have hhistory : d.history.toList = accepted.filterMap (Command.writing filter) := by
    rw [← hservice]
    exact Hub.toList_history_run hstart hread
  refine ⟨henrolls.today_eq, Directory.size_history_eq hhistory fun x =>
    Hub.exists_user_of_mem_accepted hstart, fun user a ha => ?_⟩
  have hname : a.name = user := hd.name_eq ha
  refine ⟨henrolls.exists_registration hd.toFiled ha, ?_, ?_, ?_⟩
  · rw [Directory.statsOf, Directory.toNat_published, hname, Directory.postCount_eq hhistory]
  · rw [Directory.statsOf, Directory.toNat_published, ← hm.size_followers, Directory.followers,
      Directory.listed_of_member? ha]
  · rw [Directory.statsOf, Directory.toNat_published, ← hm.size_following, Directory.following,
      Directory.listed_of_member? ha]

/-- Alice registers, and nobody can do so in her name again.  Bob says something too soon and then
follows her.  She posts twice, once as bytes, and writes to Bob, and the server speaks in
between. -/
def turnout : List Event :=
  [.connect, .connect,
    .message 0 (.command (.register "alice" "a" ⟨2, 1, 2000⟩)),
    .message 1 (.command (.register "alice" "b" ⟨1, 1, 1990⟩)),
    .message 1 (.command (.register "bob" "b" ⟨1, 1, 2000⟩)),
    .message 0 (.command (.login "alice" "a" 0x31)),
    .message 1 (.command (.post "too soon")),
    .message 1 (.command (.login "bob" "b" 0x31)),
    .message 1 (.command (.follow true "alice")),
    .message 1 (.command (.follow true "alice")),
    .message 0 (.command (.post "hello")),
    .bytes 0 (Command.post "hello again").encode,
    .broadcast (.reply (.error .post)),
    .message 0 (.command (.pm "bob" "hello"))]

/-- Alice is 23 for one more day.  She has posted twice and has one follower, and there is a private
message in the history that does not count. -/
theorem statistics_of_run_turnout :
    let start := Hub.start ⟨2024, 1, 1⟩ {}
    let d := (start.run turnout).service.directory
    d.today = ⟨2024, 1, 1⟩ ∧ d.history.size = 3 ∧
      ∃ a, d.member? "alice" = some a ∧ (d.statsOf a).age = 23 ∧
        (d.statsOf a).posts.toNat = 2 ∧ (d.statsOf a).followers.toNat = 1 ∧
        (d.statsOf a).following.toNat = 0 := by
  obtain ⟨htoday, hsize, hmembers⟩ := statistics_of_run ⟨2024, 1, 1⟩ {} turnout
  obtain ⟨a, ha⟩ : ∃ a, ((Hub.start ⟨2024, 1, 1⟩ {}).run turnout).service.directory.member? "alice"
      = some a := Option.isSome_iff_exists.mp (by decide +kernel)
  obtain ⟨⟨r, -, -, honly, hage⟩, hposts, hfollowers, hfollowing⟩ := hmembers "alice" a ha
  have halice := honly ⟨"alice", "a", ⟨2, 1, 2000⟩⟩ (by decide +kernel) rfl
  refine ⟨htoday, hsize.trans (by decide +kernel), a, ha, ?_, hposts.trans (by decide +kernel),
    hfollowers.trans (by decide +kernel), hfollowing.trans (by decide +kernel)⟩
  rw [hage, ← halice]
  decide

end Microblog
