import Microblog.Proofs.Mailboxes

/-!
# Notifications are delivered exactly once and in order

For each user two sequences are taken down during a run.  One has the notifications
that accepted commands address to the user.  The other has those that the channel of
the user's connection takes, be it at once or when the user logs in.  The second,
followed by what still waits in the account, is the first.

A login hands over what waits and forgets it, whether the channel takes it or not.  So
it is asked of a run that nobody logs in on a connection that takes nothing.

## Main definitions

* `Command.addressed`, `Hub.addressed` — the notifications for a user.
* `Service.handed` — the notifications that a user's channel takes.
* `Hub.loginIsHeard` — a login comes from a connection that takes messages.

## Main results

* `Effect.handed_append_pending` — one command adds as much to the two sequences.
* `Hub.handed_append_pending_step` — so does every operation.
* `notifications_exactly_once` — **over a run the two are the same**.
-/

namespace Microblog

/-! ### The two sequences -/

/-- The notifications that a command from `c` addresses to a user, once it is carried
out.  A POST is for those who follow its author or are mentioned, a PM for the one
that it names. -/
def Command.addressed (command : Command) (d : Directory) (filter : ContentFilter)
    (c : ConnectionId) (user : String) : List Notification :=
  match d.userOn c, command with
  | some author, .post content =>
    if author ∈ d.following user ∨ (user ∈ mentions content ∧ user ∈ d.members) then
      [⟨.post, author, content⟩]
    else []
  | some author, .pm name content =>
    if name = user then [⟨.pm, author, filter.apply content⟩] else []
  | _, _ => []

/-- The notifications that an event addresses to a user. -/
def Hub.addressed (h : Hub) (e : Event) (user : String) : List Notification :=
  match h.carriedOut e with
  | some (c, command) => command.addressed h.service.directory h.service.filter c user
  | none => []

/-- The notifications that the channel of a user takes between `s` and `s'`.  The
channel is that of the connection that the user has in `s'`, or else had in `s`. -/
def Service.handed (s s' : Service) (user : String) : List Notification :=
  match (s'.directory.connectionOf user).or (s.directory.connectionOf user) with
  | some c => (s.switchboard.added s'.switchboard c).filterMap Message.notification?
  | none => []

/-- If the event carries out a LOGIN, its connection takes messages. -/
def Hub.loginIsHeard (h : Hub) (e : Event) : Bool :=
  match h.carriedOut e with
  | some (c, .login ..) => h.service.switchboard.accepts c
  | _ => true

/-! ### One command -/

namespace Effect

/-- The notifications of a command that the channel of a user takes. -/
def handed (e : Effect) (d : Directory) (accepts : ConnectionId → Bool) (user : String) :
    List Notification :=
  match ((e.directory.connectionOf user).or (d.connectionOf user)).filter accepts with
  | some c => e.notificationsTo c
  | none => []

/-- A login hands over all that waits to its own connection. -/
theorem notificationsTo_login {e : Effect} {c : ConnectionId} {ack : Ack}
    {ns : List Notification}
    (h : e.outgoing = (c, .ack ack) :: ns.map fun n => (c, .notification n))
    (other : ConnectionId) : e.notificationsTo other = if c = other then ns else [] := by
  rw [notificationsTo, repliesTo, h]
  by_cases hc : c = other
  · subst hc
    simp only [List.filter_cons, List.filter_map, Function.comp_def, decide_true, if_true,
      List.filter_true, List.map_cons, List.map_map]
    rw [List.filterMap_cons_none rfl, List.filterMap_map]
    exact List.filterMap_some
  · simp [hc, List.filter_map, Function.comp_def]

variable {d : Directory} {s : Switchboard} {e : Effect} {c : ConnectionId}

/-- A notification for some readers is taken at once or waits, and for each as often as
the reader is named. -/
theorem handed_deliverAll (hd : d.Coherent) (hs : d.Settled s) {n : Notification}
    {names : List String} {ack : Ack}
    (hdirectory : e.directory = (d.deliverAll s.accepts n names).2.record n)
    (houtgoing : e.outgoing =
      ((d.deliverAll s.accepts n names).1.map fun reader => (reader, .notification n)) ++
        [(c, .ack ack)])
    {user : String} (hnames : user ∈ names → user ∈ d.members) :
    e.handed d s.accepts user ++ e.directory.pending (.member user)
      = d.pending (.member user) ++ List.replicate (names.count user) n := by
  have hconnection : e.directory.connectionOf user = d.connectionOf user := by
    rw [hdirectory]
    exact d.connectionOf_deliverAll s.accepts n names user
  have hpending : e.directory.pending (.member user)
      = (d.deliverAll s.accepts n names).2.pending (.member user) := by
    rw [hdirectory]
    rfl
  have hhanded : e.handed d s.accepts user =
      match d.liveOn s.accepts user with
      | some c => e.notificationsTo c
      | none => [] := by
    rw [handed, hconnection, Option.or_self, Directory.liveOn]
  rw [hhanded, hpending]
  cases hlive : d.liveOn s.accepts user with
  | some reader =>
    -- the user can be reached, so nothing waits before or afterwards
    dsimp only
    have hreader : d.connectionOf user = some reader := (Option.filter_eq_some_iff.mp hlive).1
    obtain ⟨a, ha, -⟩ := Option.bind_eq_some_iff.mp hreader
    rw [d.pending_deliverAll s.accepts n names (Directory.mem_members_of_member? ha), hlive,
      hs.pending_of_live hlive, notificationsTo_readers houtgoing,
      hd.count_deliverAll_fst n names hlive]
    simp
  | none =>
    by_cases hu : user ∈ d.members
    · rw [d.pending_deliverAll s.accepts n names hu, if_pos hlive, List.nil_append]
    · have hk : Directory.Keeps Account.connection d (d.deliverAll s.accepts n names).2 :=
        Directory.keeps_deliverAll (fun _ => rfl) d s.accepts names
      rw [Directory.pending_eq_nil (mt hk.mem_members_iff.mp hu), Directory.pending_eq_nil hu,
        List.count_eq_zero.mpr (mt hnames hu)]
      rfl

/-- A login hands over nothing to anybody else. -/
theorem handed_login_of_ne (hd : d.Coherent) {ack : Ack} {name : String}
    {ns : List Notification} (hc : c ∉ d.sessions) (hname : name ∈ d.members)
    (he : e = { directory := d.login (.member name) c
                outgoing := (c, .ack ack) :: ns.map fun n => (c, .notification n) })
    (accepts : ConnectionId → Bool) {user : String} (hu : name ≠ user) :
    e.handed d accepts user = [] := by
  have hconnection : e.directory.connectionOf user = d.connectionOf user := by
    rw [he]
    exact (Directory.connectionOf_login hname c user).trans (if_neg hu)
  rw [handed, hconnection, Option.or_self]
  split
  · next other hother =>
    -- somebody else's connection is not the one that had no session
    have hne : c ≠ other := by
      rintro rfl
      have hs := hd.connectionOf_eq_some_iff.mp (Option.filter_eq_some_iff.mp hother).1
      rw [Std.ExtTreeMap.getElem?_eq_none hc] at hs
      cases hs
    rw [notificationsTo_login (by rw [he]), if_neg hne]
  · rfl

/-- A login hands over what waits for its user, and concerns nobody else. -/
theorem handed_login (hd : d.Coherent) {ack : Ack} {name : String} {a : Account}
    (hc : c ∉ d.sessions) (hheard : s.accepts c) (ha : d.member? name = some a)
    (he : e = { directory := d.login (.member name) c
                outgoing := (c, .ack ack) :: a.pending.map fun n => (c, .notification n) })
    (user : String) :
    e.handed d s.accepts user ++ e.directory.pending (.member user) = d.pending (.member user) := by
  have hname : name ∈ d.members := Directory.mem_members_of_member? ha
  have hpending : e.directory.pending (.member user)
      = if name = user then [] else d.pending (.member user) := by
    rw [he]
    exact Directory.pending_login d name c user
  by_cases hu : name = user
  · subst hu
    have hconnection : e.directory.connectionOf name = some c := by
      rw [he]
      exact (Directory.connectionOf_login hname c name).trans (if_pos rfl)
    rw [if_pos rfl] at hpending
    rw [handed, hconnection, hpending, Option.some_or, Option.filter_some_pos hheard]
    dsimp only
    rw [notificationsTo_login (by rw [he]), if_pos rfl, List.append_nil,
      Directory.pending_of_member? ha]
  · rw [handed_login_of_ne hd hc hname he s.accepts hu, hpending, if_neg hu, List.nil_append]

/-- A quiet command hands over nothing. -/
theorem IsQuiet.handed (h : e.IsQuiet d) (accepts : ConnectionId → Bool) (user : String) :
    e.handed d accepts user = [] := by
  rw [Effect.handed]
  split
  · exact notificationsTo_eq_nil h.notification? _
  · rfl

/-- **One command adds as much to what is handed over or waits as it addresses.** -/
theorem handed_append_pending (hd : d.Coherent) (hm : d.Mirrored) (hs : d.Settled s)
    {filter : ContentFilter} {command : Command}
    (h : command.execute d filter s.accepts c = .ok e)
    (hheard : ∀ name password captcha, command = .login name password captcha → s.accepts c)
    (user : String) :
    e.handed d s.accepts user ++ e.directory.pending (.member user)
      = d.pending (.member user) ++ command.addressed d filter c user := by
  cases command with
  | login name password captcha =>
    obtain ⟨hc, -, a, ha, -, -, he⟩ := executeLogin_eq_ok_iff.mp h
    have haddressed : Command.addressed (.login name password captcha) d filter c user = [] := by
      cases hc : d.userOn c <;> simp [Command.addressed, hc]
    rw [handed_login hd hc (hheard _ _ _ rfl) ha he, haddressed, List.append_nil]
  | post content =>
    obtain ⟨id, author, hsession, he⟩ := executePost_eq_ok_iff.mp h
    obtain ⟨-, ha, -⟩ := hd.of_sessionOn hsession
    have hauthor : d.userOn c = some author.name := Directory.userOn_of_sessionOn hsession
    have hnames : user ∈ d.audience author content → user ∈ d.members := by
      rw [Directory.mem_audience hm ha]
      rintro (hf | ⟨-, hu⟩)
      · exact Directory.mem_members_iff.mpr (Directory.exists_member?_of_mem_listed hf)
      · exact hu
    rw [handed_deliverAll hd hs (by rw [he]) (by rw [he]) hnames,
      Directory.count_audience hm ha]
    simp only [Command.addressed, hauthor]
    split <;> rfl
  | pm name content =>
    obtain ⟨id, author, recipient, hsession, hr, -, he⟩ := executePm_eq_ok_iff.mp h
    have hauthor : d.userOn c = some author.name := Directory.userOn_of_sessionOn hsession
    have hnames : user ∈ [name] → user ∈ d.members := by
      rw [List.mem_singleton]
      rintro rfl
      exact Directory.mem_members_of_member? hr
    rw [handed_deliverAll hd hs (by rw [he, Directory.deliverAll_singleton])
      (by rw [he, Directory.deliverAll_singleton]) hnames, List.count_singleton]
    simp only [Command.addressed, hauthor, beq_iff_eq]
    split <;> rfl
  | _ =>
    have hq : e.IsQuiet d := isQuiet_execute h nofun nofun nofun
    rw [hq.handed, hq.pending]
    cases hc : d.userOn c <;> simp [Command.addressed, hc]

end Effect

/-! ### One operation -/

namespace Service

variable {s s' : Service}

theorem handed_apply (s : Service) (c : ConnectionId) (e : Effect) (user : String) :
    s.handed (s.apply c e) user = e.handed s.directory s.switchboard.accepts user := by
  have hdirectory : (s.apply c e).directory = e.directory := rfl
  rw [handed, Effect.handed, hdirectory]
  cases (e.directory.connectionOf user).or (s.directory.connectionOf user) with
  | none => rfl
  | some other =>
    dsimp only
    rw [added_apply]
    by_cases ha : s.switchboard.accepts other
    · rw [if_pos ha, Option.filter_some_pos ha, List.filterMap_map]
      rfl
    · rw [if_neg ha, Option.filter_some_neg (Bool.eq_false_iff.mpr ha)]
      rfl

theorem handed_eq_nil
    (h : ∀ c, (s.switchboard.added s'.switchboard c).filterMap Message.notification? = [])
    (user : String) : s.handed s' user = [] := by
  rw [handed]
  split
  · exact h _
  · rfl

/-- An operation that carries out no command hands over nothing. -/
theorem Turn.notifications_eq_nil {e : Event} (h : s.Turn e none s') (c : ConnectionId) :
    (s.switchboard.added s'.switchboard c).filterMap Message.notification? = [] := by
  cases h with
  | opened =>
    rw [Switchboard.added_eq_nil (s.switchboard.waiting_connect c)]
    rfl
  | refused hx =>
    -- the channel takes the ERROR, which is no notification
    rw [Switchboard.added, send, Switchboard.waiting_send]
    split
    · rw [List.drop_left]
      rfl
    · rw [List.drop_length]
      rfl
  | ended other | released other =>
    rw [Switchboard.added_eq_nil (s.switchboard.waiting_release other c)]
    rfl
  | hungUp other =>
    rw [Switchboard.added, Switchboard.waiting_hangUp]
    split
    · rw [List.drop_nil]
      rfl
    · rw [List.drop_length]
      rfl
  | ignored e =>
    rw [Switchboard.added_eq_nil rfl]
    rfl

/-- An operation that carries out no command leaves the same notifications waiting. -/
theorem Turn.pending_eq {e : Event} (h : s.Turn e none s') (user : String) :
    s'.directory.pending (.member user) = s.directory.pending (.member user) := by
  cases h with
  | ended c => exact Directory.pending_logout s.directory c user
  | _ => rfl

end Service

/-! ### A run -/

namespace Hub

/-- **An operation adds as much to what is handed over or waits as it addresses.** -/
theorem handed_append_pending_step {h : Hub} (hh : h.Linked)
    (hd : h.service.directory.Coherent) (hm : h.service.directory.Mirrored)
    (hs : h.service.directory.Settled h.service.switchboard) {e : Event} (he : e.isOperation)
    (hheard : h.loginIsHeard e) (user : String) :
    h.service.handed (h.step e).service user ++
        (h.step e).service.directory.pending (.member user)
      = h.service.directory.pending (.member user) ++ h.addressed e user := by
  rw [addressed]
  rw [loginIsHeard] at hheard
  cases hx : h.carriedOut e with
  | none =>
    have hturn := h.turn hh he
    rw [hx] at hturn
    rw [Service.handed_eq_nil hturn.notifications_eq_nil, hturn.pending_eq, List.nil_append,
      List.append_nil]
  | some x =>
    obtain ⟨c, command⟩ := x
    obtain ⟨effect, hok, hstep⟩ := step_of_carriedOut hh hx
    rw [hstep, Service.handed_apply]
    refine Effect.handed_append_pending hd hm hs hok ?_ user
    rintro name password captcha rfl
    rwa [hx] at hheard

/-- What a run hands over, and what waits afterwards, is what waited before and what
the run addresses. -/
theorem handed_append_pending_run {h : Hub} (hh : h.Linked)
    (hdm : h.service.directory.Coherent ∧ h.service.directory.Mirrored)
    (hs : h.service.directory.Settled h.service.switchboard) {es : List Event}
    (hes : ∀ e ∈ es, e.isOperation) (hheard : ∀ m ∈ h.moments es, m.1.loginIsHeard m.2)
    (user : String) :
    ((h.moments es).flatMap fun m => m.1.service.handed (m.1.step m.2).service user) ++
        (h.run es).service.directory.pending (.member user)
      = h.service.directory.pending (.member user) ++
        (h.moments es).flatMap fun m => m.1.addressed m.2 user := by
  induction es generalizing h with
  | nil => simp
  | cons e es ih =>
    have he : e.isOperation := hes e List.mem_cons_self
    have hone := handed_append_pending_step hh hdm.1 hdm.2 hs he
      (hheard (h, e) List.mem_cons_self) user
    have hrest := ih (hh.step e) (Directory.Mirrored.invariant.step hdm e)
      (hs.turn (h.turn hh he)) (fun e' he' => hes e' (List.mem_cons_of_mem _ he'))
      (fun m hm => hheard m (List.mem_cons_of_mem _ hm))
    rw [moments_cons, List.flatMap_cons, List.flatMap_cons, run_cons, List.append_assoc, hrest,
      ← List.append_assoc, hone, List.append_assoc]

end Hub

/-- **Notifications are delivered exactly once and in order.**  Let nobody log in, in a
run of operations, on a connection that takes no messages.  Then for each user the
notifications that the channels of the user's connections take, one event after
another, and after them those that wait in the account, the oldest first, are the
notifications that the accepted POSTs and PMs of the run address to the user, in the
order in which they were accepted. -/
theorem notifications_exactly_once (today : Date) (filter : ContentFilter) (es : List Event)
    (hes : ∀ e ∈ es, e.isOperation)
    (hheard : ∀ m ∈ (Hub.start today filter).moments es, m.1.loginIsHeard m.2) (user : String) :
    let moments := (Hub.start today filter).moments es
    (moments.flatMap fun m => m.1.service.handed (m.1.step m.2).service user) ++
        ((Hub.start today filter).run es).service.directory.pending (.member user)
      = moments.flatMap fun m => m.1.addressed m.2 user := by
  have hnone : (Hub.start today filter).service.directory.pending (.member user) = [] :=
    Directory.pending_eq_nil (by simp [Hub.start, Hub.ofDirectory])
  have hrun := Hub.handed_append_pending_run (.start today filter)
    ⟨Directory.Coherent.empty today, Directory.Mirrored.empty today⟩
    (Directory.Settled.empty today _) hes hheard user
  rwa [hnone, List.nil_append] at hrun

/-- Bob follows Alice, is no longer heard while she writes, and comes back. -/
def reconnection : List Event :=
  [.connect, .connect,
    .message 0 (.command (.register "alice" "a" ⟨1, 1, 2000⟩)),
    .message 0 (.command (.register "bob" "b" ⟨1, 1, 2000⟩)),
    .message 0 (.command (.login "alice" "a" 0x31)),
    .message 1 (.command (.login "bob" "b" 0x31)),
    .message 1 (.command (.follow true "alice")),
    .message 0 (.command (.post "one")),
    .hangUp 1,
    .message 0 (.command (.post "two")),
    .disconnect 1,
    .message 0 (.command (.pm "bob" "three")),
    .connect,
    .message 2 (.command (.login "bob" "b" 0x31)),
    .message 0 (.command (.post "four @bob"))]

/-- What Bob gets is what Alice wrote: the first at once, the next two with the login,
the last at once again. -/
theorem notifications_exactly_once_reconnection :
    let moments := (Hub.start ⟨2024, 1, 1⟩ {}).moments reconnection
    (∀ e ∈ reconnection, e.isOperation) ∧ (∀ m ∈ moments, m.1.loginIsHeard m.2) ∧
      (moments.flatMap fun m => m.1.addressed m.2 "bob")
        = [⟨.post, "alice", "one"⟩, ⟨.post, "alice", "two"⟩, ⟨.pm, "alice", "three"⟩,
          ⟨.post, "alice", "four @bob"⟩] ∧
      (moments.flatMap fun m => m.1.service.handed (m.1.step m.2).service "bob") ++
          ((Hub.start ⟨2024, 1, 1⟩ {}).run reconnection).service.directory.pending (.member "bob")
        = moments.flatMap fun m => m.1.addressed m.2 "bob" := by
  have hes : ∀ e ∈ reconnection, e.isOperation := by decide
  have hheard : ∀ m ∈ (Hub.start ⟨2024, 1, 1⟩ {}).moments reconnection, m.1.loginIsHeard m.2 := by
    decide +kernel
  exact ⟨hes, hheard, by decide +kernel, notifications_exactly_once _ {} _ hes hheard "bob"⟩

end Microblog
