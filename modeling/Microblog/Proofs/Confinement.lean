import Microblog.Proofs.Answers
import Microblog.Proofs.Mailboxes

/-!
# What a command is about

A command may change what it is about, and nothing else.  What that is, is told here in two
ways.  Of the directory it is told for each command: which accounts change, which part of them,
and what changes besides the accounts (`Command.Scope`).  Of the hub it is told once for all
commands and for the end of a session: other connections are spared (`Hub.Spares`).

The accounts of two directories are compared by `Directory.Alters`, with a relation for each
user.  Most users are related by equality.

## Main definitions

* `Account.SameButFollows`, `Account.SameButTies` — accounts that differ in one part.
* `Directory.Alters` — no account changes but as it is allowed to.
* `Command.Scope` — what each command may change.
* `Hub.Spares` — a connection is left alone.

## Main results

* `Command.scope_execute` — commands that are carried out keep to their scope.
* `Hub.spares_message`, `Hub.spares_disconnect` — other connections are left alone.
* `operations_confined` — **both, after every run.**
-/

namespace Microblog

namespace Account

/-- The accounts differ at most in who is followed and who follows. -/
def SameButFollows (a a' : Account) : Prop :=
  a' = { a with following := a'.following, followers := a'.followers }

/-- The accounts differ at most in this and in who has blocked the user. -/
def SameButTies (a a' : Account) : Prop :=
  a' = { a with
    following := a'.following, followers := a'.followers, blockedBy := a'.blockedBy }

theorem SameButFollows.trans {a b c : Account} (h : a.SameButFollows b) (h' : b.SameButFollows c) :
    a.SameButFollows c := by
  refine Eq.trans h' ?_
  rw [h]

theorem SameButTies.trans {a b c : Account} (h : a.SameButTies b) (h' : b.SameButTies c) :
    a.SameButTies c := by
  refine Eq.trans h' ?_
  rw [h]

/-- What a FOLLOW, in either direction, may change of the account of `user`. -/
def AlteredByFollow (caller name user : String) (a a' : Account) : Prop :=
  if user = caller ∨ user = name then a.SameButFollows a' else a' = a

/-- What a BLOCK may change of the account of `user`; it is more if `user` is the one blocked. -/
def AlteredByBlock (caller name user : String) (a a' : Account) : Prop :=
  if user = name then a.SameButTies a'
  else if user = caller then a.SameButFollows a' else a' = a

theorem AlteredByFollow.refl {caller name : String} (user : String) (a : Account) :
    AlteredByFollow caller name user a a := by
  unfold AlteredByFollow
  split <;> rfl

theorem AlteredByFollow.intro {caller name user : String} (hu : user = caller ∨ user = name)
    {a a' : Account} (h : a.SameButFollows a') : AlteredByFollow caller name user a a' := by
  unfold AlteredByFollow
  rwa [if_pos hu]

theorem AlteredByFollow.trans {caller name : String} (user : String) (a b c : Account)
    (h : AlteredByFollow caller name user a b) (h' : AlteredByFollow caller name user b c) :
    AlteredByFollow caller name user a c := by
  unfold AlteredByFollow at h h' ⊢
  split at h
  · next hu =>
    rw [if_pos hu] at h' ⊢
    exact h.trans h'
  · next hu =>
    rw [if_neg hu] at h' ⊢
    exact h'.trans h

theorem AlteredByBlock.refl {caller name : String} (user : String) (a : Account) :
    AlteredByBlock caller name user a a := by
  unfold AlteredByBlock
  split
  · rfl
  · split <;> rfl

theorem AlteredByBlock.of_name {caller name : String} {a a' : Account} (h : a.SameButTies a') :
    AlteredByBlock caller name name a a' := by
  unfold AlteredByBlock
  rwa [if_pos rfl]

theorem AlteredByBlock.of_caller {caller name : String} {a a' : Account}
    (hties : a.SameButTies a') (hfollows : a.SameButFollows a') :
    AlteredByBlock caller name caller a a' := by
  unfold AlteredByBlock
  split
  · exact hties
  · rwa [if_pos rfl]

theorem AlteredByBlock.trans {caller name : String} (user : String) (a b c : Account)
    (h : AlteredByBlock caller name user a b) (h' : AlteredByBlock caller name user b c) :
    AlteredByBlock caller name user a c := by
  unfold AlteredByBlock at h h' ⊢
  split at h
  · next hu =>
    rw [if_pos hu] at h' ⊢
    exact h.trans h'
  · next hu =>
    rw [if_neg hu] at h' ⊢
    split at h
    · next hcaller =>
      rw [if_pos hcaller] at h' ⊢
      exact h.trans h'
    · next hcaller =>
      rw [if_neg hcaller] at h' ⊢
      exact h'.trans h

end Account

namespace Directory

/-- The directories differ in nothing but the accounts of members.  The members are the same,
and the account of each has changed as `R` allows. -/
structure Alters (R : String → Account → Account → Prop) (d d' : Directory) : Prop where
  /-- Nothing but the accounts differs. -/
  rest : d' = { d with members := d'.members }
  /-- The accounts differ as they may. -/
  member : ∀ user, Option.Rel (R user) (d.member? user) (d'.member? user)

/-! ### Changes, one after another -/

section

variable {R : String → Account → Account → Prop} {d d' d'' : Directory}

theorem Alters.refl (hR : ∀ user a, R user a a) (d : Directory) : d.Alters R d := by
  refine ⟨rfl, fun user => ?_⟩
  cases d.member? user with
  | none => exact .none
  | some a => exact .some (hR user a)

theorem Alters.trans (hR : ∀ user a b c, R user a b → R user b c → R user a c)
    (h : d.Alters R d') (h' : d'.Alters R d'') : d.Alters R d'' := by
  refine ⟨?_, fun user => ?_⟩
  · refine Eq.trans h'.rest ?_
    rw [h.rest]
  · have hfirst := h.member user
    have hthen := h'.member user
    generalize d.member? user = o, d'.member? user = o', d''.member? user = o'' at hfirst hthen ⊢
    cases hfirst with
    | none => exact hthen
    | some hab =>
      cases hthen with
      | some hbc => exact .some (hR user _ _ _ hab hbc)

theorem Alters.today_eq (h : d.Alters R d') : d'.today = d.today := by
  rw [h.rest]

theorem alters_update {name : String} {f : Account → Account} (d : Directory)
    (hname : ∀ a, d.member? name = some a → R name a (f a))
    (hothers : ∀ user, user ≠ name → ∀ a, R user a a) :
    d.Alters R (d.update (.member name) f) := by
  refine ⟨rfl, fun user => ?_⟩
  rw [member?_update]
  split
  · next hid =>
    cases hid
    cases ha : d.member? name with
    | none => exact .none
    | some a => exact .some (hname a ha)
  · next hid =>
    have hne : user ≠ name := fun heq => hid (congrArg AccountId.member heq.symm)
    cases d.member? user with
    | none => exact .none
    | some a => exact .some (hothers user hne a)

/-- Two accounts change, one after the other. -/
theorem alters_update_update (hrefl : ∀ user a, R user a a)
    (htrans : ∀ user a b c, R user a b → R user b c → R user a c) {x y : String}
    {f g : Account → Account} (hx : ∀ a, R x a (f a)) (hy : ∀ a, R y a (g a)) (d : Directory) :
    d.Alters R ((d.update (.member x) f).update (.member y) g) :=
  (alters_update d (fun a _ => hx a) fun user _ => hrefl user).trans htrans
    (alters_update _ (fun a _ => hy a) fun user _ => hrefl user)

theorem alters_getD_unlink? (hrefl : ∀ user a, R user a a)
    (htrans : ∀ user a b c, R user a b → R user b c → R user a c) {x y : String}
    (hx : ∀ name a, R x a (a.stopFollowing name)) (hy : ∀ name a, R y a (a.loseFollower name))
    (d : Directory) : d.Alters R ((d.unlink? (.member x) (.member y)).getD d) := by
  cases h : d.unlink? (.member x) (.member y) with
  | none => exact .refl hrefl d
  | some d' =>
    obtain ⟨a, b, -, -, -, rfl⟩ := unlink?_eq_some_iff.mp h
    exact alters_update_update hrefl htrans (hx b.name) (hy a.name) d

theorem Alters.record (h : d.Alters R d') (n : Notification) :
    (d.record n).Alters R (d'.record n) := by
  refine ⟨?_, h.member⟩
  rw [Directory.record, Directory.record, h.rest]

end

/-! ### Operations -/

section

variable {d d' : Directory}

theorem alters_follow? {caller name : String} (h : d.follow? (.member caller) name = some d') :
    d.Alters (Account.AlteredByFollow caller name) d' := by
  obtain ⟨a, b, -, -, -, -, -, rfl⟩ := follow?_eq_some_iff.mp h
  refine alters_update_update Account.AlteredByFollow.refl Account.AlteredByFollow.trans
    (fun a => ?_) (fun b => ?_) d
  · exact .intro (.inl rfl) rfl
  · exact .intro (.inr rfl) rfl

theorem alters_unfollow? {caller name : String}
    (h : d.unfollow? (.member caller) name = some d') :
    d.Alters (Account.AlteredByFollow caller name) d' := by
  obtain ⟨a, b, -, -, -, -, rfl⟩ := unfollow?_eq_some_iff.mp h
  refine alters_update_update Account.AlteredByFollow.refl Account.AlteredByFollow.trans
    (fun a => ?_) (fun b => ?_) d
  · exact .intro (.inl rfl) rfl
  · exact .intro (.inr rfl) rfl

/-- The block is recorded, and then each of the two stops following the other. -/
theorem alters_block (d : Directory) (caller name : String) :
    d.Alters (Account.AlteredByBlock caller name) (d.block (.member caller) (.member name)) := by
  have hrefl : ∀ user a, Account.AlteredByBlock caller name user a a := .refl
  have htrans : ∀ user a b c, Account.AlteredByBlock caller name user a b →
      Account.AlteredByBlock caller name user b c → Account.AlteredByBlock caller name user a c :=
    .trans
  unfold block
  split
  · next a b ha hb =>
    let d₀ := d.update (.member name) (Account.addBlock a.name)
    let d₁ := (d₀.unlink? (.member caller) (.member name)).getD d₀
    have hblock : d.Alters (Account.AlteredByBlock caller name) d₀ :=
      alters_update d (fun _ _ => .of_name rfl) fun user _ => hrefl user
    have hcaller : d₀.Alters (Account.AlteredByBlock caller name) d₁ :=
      alters_getD_unlink? hrefl htrans (fun _ _ => .of_caller rfl rfl) (fun _ _ => .of_name rfl) d₀
    have hname : d₁.Alters (Account.AlteredByBlock caller name)
        ((d₁.unlink? (.member name) (.member caller)).getD d₁) :=
      alters_getD_unlink? hrefl htrans (fun _ _ => .of_name rfl) (fun _ _ => .of_caller rfl rfl) d₁
    dsimp only
    split
    · exact hblock
    · exact (hblock.trans htrans hcaller).trans htrans hname
  · exact .refl hrefl d

/-- A login puts a session into the directory, and changes the account that it is for. -/
theorem alters_login (d : Directory) (name : String) (c : ConnectionId) :
    ({ d with sessions := d.sessions.insert c (.member name) } : Directory).Alters
      (fun user a a' => if user = name then a' = a.connect c else a' = a)
      (d.login (.member name) c) :=
  alters_update (f := Account.connect c) { d with sessions := d.sessions.insert c (.member name) }
    (fun _ _ => (if_pos rfl).mpr rfl) fun _ hne _ => (if_neg hne).mpr rfl

/-- The user of `c`, if there is one, is not logged in any more, and this is all. -/
def Releases (d : Directory) (c : ConnectionId) (d' : Directory) : Prop :=
  ({ d with sessions := d.sessions.erase c } : Directory).Alters
    (fun user a a' => if d.userOn c = some user then a' = a.disconnect else a' = a) d'

theorem Releases.today_eq {c : ConnectionId} (h : d.Releases c d') : d'.today = d.today := by
  unfold Releases at h
  exact h.today_eq

theorem releases_logout (hd : d.Coherent) (c : ConnectionId) : d.Releases c (d.logout c) := by
  cases hc : d.sessions[c]? with
  | none =>
    have herase : d.sessions.erase c = d.sessions := by
      refine Std.ExtTreeMap.ext_getElem? fun other => ?_
      rw [Std.ExtTreeMap.getElem?_erase]
      split
      · next heq => rw [← Std.LawfulEqCmp.compare_eq_iff_eq.mp heq, hc]
      · rfl
    have hnobody : d.userOn c = none := by
      rw [userOn, sessionOn, hc]
      rfl
    rw [logout_of_none hc, Releases, herase]
    refine .refl (fun user a => ?_) d
    rw [hnobody]
    exact (if_neg (Option.some_ne_none user).symm).mpr rfl
  | some id =>
    obtain ⟨user, a, rfl, ha, -⟩ := hd.member hc
    have huser : d.userOn c = some user := hd.userOn_eq_some_iff.mpr hc
    rw [logout_of_some hc, Releases, huser]
    refine alters_update (f := Account.disconnect) { d with sessions := d.sessions.erase c }
      (fun _ _ => (if_pos rfl).mpr rfl) fun other hne _ => (if_neg ?_).mpr rfl
    exact fun heq => hne (Option.some.inj heq).symm

/-- A delivery leaves the notification with those it is for, or changes nothing. -/
theorem rest_deliverAll (d : Directory) (accepts : ConnectionId → Bool) (n : Notification)
    (names : List String) :
    (d.deliverAll accepts n names).2
      = { d with members := (d.deliverAll accepts n names).2.members } := by
  induction names generalizing d with
  | nil => rfl
  | cons name names ih =>
    rw [deliverAll]
    dsimp only
    rw [ih]
    have hfirst : (d.deliver accepts n (.member name)).2
        = { d with members := (d.deliver accepts n (.member name)).2.members } := by
      unfold deliver
      split <;> rfl
    rw [hfirst]

theorem alters_deliverAll (d : Directory) (accepts : ConnectionId → Bool) (n : Notification)
    {names : List String} (hnames : names.Nodup) :
    d.Alters (fun user a a' => a' = a ∨ (user ∈ names ∧ a' = a.queue n))
      (d.deliverAll accepts n names).2 := by
  refine ⟨rest_deliverAll d accepts n names, fun user => ?_⟩
  rw [member?_deliverAll, hnames.count]
  cases d.member? user with
  | none => exact .none
  | some a =>
    refine .some ?_
    by_cases huser : user ∈ names
    · rw [if_pos huser, Account.offered]
      split
      · exact .inr ⟨huser, rfl⟩
      · exact .inl rfl
    · rw [if_neg huser, Account.offered_zero]
      exact .inl rfl

end

end Directory

/-! ### Commands -/

/-- What a command from `c` that is carried out may change of a directory. -/
def Command.Scope (filter : ContentFilter) (c : ConnectionId) (d d' : Directory) : Command → Prop
  | register name password born =>
    -- there is one member more, who stands to nobody in any way and for whom nothing waits
    d.member? name = none ∧
      (∀ user, d'.member? user = if user = name then
        some { name, password, number := d.roll.size, age := ageOn d.today born, following := ∅,
               followers := ∅, blockedBy := ∅, connection := none, isConnected := false,
               pending := [] }
        else d.member? user) ∧
      (∀ user, name ∉ d'.following user ∧ name ∉ d'.followers user) ∧
      d' = { d with members := d'.members, roll := d.roll.push name }
  | login name _ _ =>
    ({ d with sessions := d.sessions.insert c (.member name) } : Directory).Alters
      (fun user a a' => if user = name then a' = a.connect c else a' = a) d'
  | logout => d.Releases c d'
  | follow _ name =>
    ∃ caller, d.userOn c = some caller ∧ d.Alters (Account.AlteredByFollow caller name) d'
  | block name =>
    ∃ caller, d.userOn c = some caller ∧ d.Alters (Account.AlteredByBlock caller name) d'
  | post content =>
    ∃ id author, d.sessionOn c = some (id, author) ∧
      let n : Notification := ⟨.post, author.name, content⟩
      (d.record n).Alters
        (fun user a a' => a' = a ∨ (user ∈ d.audience author content ∧ a' = a.queue n)) d'
  | pm name content =>
    ∃ author, d.userOn c = some author ∧
      let n : Notification := ⟨.pm, author, filter.apply content⟩
      (d.record n).Alters (fun user a a' => a' = a ∨ (user = name ∧ a' = a.queue n)) d'
  | logStat | stat _ => d' = d

/-- **Commands that are carried out keep to their scope.**  One case for each command. -/
theorem Command.scope_execute {d : Directory} {filter : ContentFilter}
    {accepts : ConnectionId → Bool} {c : ConnectionId} {command : Command} {e : Effect}
    (hd : d.Coherent) (hm : d.Mirrored) (h : command.execute d filter accepts c = .ok e) :
    command.Scope filter c d e.directory := by
  cases command with
  | register name password born =>
    have hm' : e.directory.Mirrored := hm.execute hd h
    obtain ⟨d', hd', rfl⟩ := executeRegister_eq_ok_iff.mp h
    have hmember := Directory.member?_register hd'
    obtain ⟨hnew, heq⟩ := Directory.register_eq_ok_iff.mp hd'
    refine ⟨Directory.member?_eq_none hnew, hmember, fun user => ?_, ?_⟩
    · have hnobody : user ∉ d'.following name ∧ user ∉ d'.followers name := by
        have hname := hmember name
        rw [if_pos rfl] at hname
        rw [Directory.following, Directory.followers, Directory.listed_of_member? hname,
          Directory.listed_of_member? hname]
        exact ⟨Std.ExtTreeSet.not_mem_empty, Std.ExtTreeSet.not_mem_empty⟩
      exact ⟨fun hf => hnobody.2 ((hm'.mirror user name).mp hf),
        fun hf => hnobody.1 ((hm'.mirror name user).mpr hf)⟩
    · rw [heq]
  | login name password captcha =>
    obtain ⟨-, -, a, -, -, -, rfl⟩ := executeLogin_eq_ok_iff.mp h
    exact d.alters_login name c
  | logout =>
    obtain ⟨-, rfl⟩ := executeLogout_eq_ok_iff.mp h
    exact Directory.releases_logout hd c
  | follow direction name =>
    obtain ⟨id, a, d', hcaller, hd', rfl⟩ := executeFollow_eq_ok_iff.mp h
    obtain ⟨rfl, -, -⟩ := hd.of_sessionOn hcaller
    refine ⟨a.name, Directory.userOn_of_sessionOn hcaller, ?_⟩
    cases direction with
    | true => exact Directory.alters_follow? hd'
    | false => exact Directory.alters_unfollow? hd'
  | post content =>
    obtain ⟨id, author, hauthor, rfl⟩ := executePost_eq_ok_iff.mp h
    have hreaders : (d.audience author content).Nodup := Directory.nodup_audience content
    have haltered := d.alters_deliverAll accepts ⟨.post, author.name, content⟩ hreaders
    exact ⟨id, author, hauthor, haltered.record _⟩
  | pm name content =>
    obtain ⟨id, author, recipient, hauthor, -, -, rfl⟩ := executePm_eq_ok_iff.mp h
    refine ⟨author.name, Directory.userOn_of_sessionOn hauthor, ?_⟩
    have haltered := d.alters_deliverAll accepts ⟨.pm, author.name, filter.apply content⟩
      (List.nodup_singleton name)
    rw [Directory.deliverAll_singleton] at haltered
    simp only [List.mem_singleton] at haltered
    exact haltered.record _
  | logStat =>
    obtain ⟨id, caller, -, rfl⟩ := executeLogStat_eq_ok_iff.mp h
    rfl
  | stat names =>
    obtain ⟨id, caller, accounts, -, -, rfl⟩ := executeStat_eq_ok_iff.mp h
    rfl
  | block name =>
    obtain ⟨id, caller, target, hcaller, -, rfl⟩ := executeBlock_eq_ok_iff.mp h
    obtain ⟨rfl, -, -⟩ := hd.of_sessionOn hcaller
    exact ⟨caller.name, Directory.userOn_of_sessionOn hcaller, d.alters_block caller.name name⟩

/-- Sessions on other connections are neither begun nor ended. -/
theorem Directory.sessions_execute_of_ne {d : Directory} {filter : ContentFilter}
    {accepts : ConnectionId → Bool} {c other : ConnectionId} {command : Command} {e : Effect}
    (h : command.execute d filter accepts c = .ok e) (hne : other ≠ c) :
    e.directory.sessions[other]? = d.sessions[other]? := by
  cases command with
  | login name password captcha =>
    obtain ⟨-, -, a, -, -, -, rfl⟩ := executeLogin_eq_ok_iff.mp h
    rw [sessions_login, if_neg hne.symm]
  | logout =>
    obtain ⟨-, rfl⟩ := executeLogout_eq_ok_iff.mp h
    rw [sessions_logout, if_neg hne.symm]
  | _ => rw [sessions_execute h nofun nofun]

namespace Hub

/-- Of a connection nothing has changed: whose it is, whether the switchboard holds it and it
takes messages, and the server's end of it. -/
structure Spares (other : ConnectionId) (h h' : Hub) : Prop where
  /-- It has the session that it had. -/
  session : h'.service.directory.sessions[other]? = h.service.directory.sessions[other]?
  /-- Whoever was logged in there still is, and nobody else. -/
  connectionOf : ∀ user, h'.service.directory.connectionOf user = some other ↔
    h.service.directory.connectionOf user = some other
  /-- The switchboard holds it or does not, as before. -/
  holds : h'.service.switchboard.holds other = h.service.switchboard.holds other
  /-- It takes messages or does not, as before. -/
  accepts : h'.service.switchboard.accepts other = h.service.switchboard.accepts other
  /-- What was on its way there still is, in front of what is sent there now. -/
  waiting : h.service.switchboard.waiting other <+: h'.service.switchboard.waiting other
  /-- Its link is the same, and whether its session was closed. -/
  link : h'.links[other]? = h.links[other]?

variable {h : Hub} {c other : ConnectionId}

theorem Spares.refl (other : ConnectionId) (h : Hub) : h.Spares other h :=
  ⟨rfl, fun _ => Iff.rfl, rfl, rfl, List.prefix_rfl, rfl⟩

/-- Where sessions and accounts agree, it is enough to look at the session. -/
theorem Spares.of_coherent {h' : Hub} (hd : h.service.directory.Coherent)
    (hd' : h'.service.directory.Coherent)
    (hsession : h'.service.directory.sessions[other]? = h.service.directory.sessions[other]?)
    (hholds : h'.service.switchboard.holds other = h.service.switchboard.holds other)
    (haccepts : h'.service.switchboard.accepts other = h.service.switchboard.accepts other)
    (hwaiting : h.service.switchboard.waiting other <+: h'.service.switchboard.waiting other)
    (hlink : h'.links[other]? = h.links[other]?) : h.Spares other h' where
  session := hsession
  connectionOf := by
    intro user
    rw [hd'.connectionOf_eq_some_iff, hd.connectionOf_eq_some_iff, hsession]
  holds := hholds
  accepts := haccepts
  waiting := hwaiting
  link := hlink

/-- **A message leaves all connections alone but the one that it comes from.** -/
theorem spares_message (hh : h.Linked) (hd : h.service.directory.Coherent) (m : Message)
    (hne : other ≠ c) : h.Spares other (h.step (.message c m)) := by
  have hd' : (h.step (.message c m)).service.directory.Coherent :=
    Directory.Coherent.invariant.step hd _
  cases hl : h.links[c]? with
  | none =>
    have hstep : h.step (.message c m) = h := by simp only [step, message, hl]
    rw [hstep]
    exact .refl other h
  | some l =>
    cases m with
    | reply r =>
      rw [step_reply]
      exact .refl other h
    | command command =>
      rw [step_command hh hl] at hd' ⊢
      refine .of_coherent hd hd' ?_ ?_ ?_ ?_ ?_
      · cases hx : command.execute h.service.directory h.service.filter
            h.service.switchboard.accepts c with
        | ok e =>
          rw [Service.effect_of_ok hx]
          exact Directory.sessions_execute_of_ne hx hne
        | error why =>
          rw [Service.effect_of_refused (by simp [hx])]
          rfl
      · rw [Service.holds_apply, decide_eq_false hne.symm, Bool.and_false]
        rfl
      · rw [Service.accepts_apply, decide_eq_false hne.symm, Bool.and_false]
        rfl
      · rw [Service.waiting_apply]
        exact List.prefix_append _ _
      · rw [Array.getElem?_modify, if_neg hne.symm]

theorem step_disconnect (hh : h.Linked) {l : Link} (hl : h.links[c]? = some l) :
    h.step (.disconnect c) = { h with service := { h.service with
      directory := h.service.directory.logout c
      switchboard := h.service.switchboard.release c } } := by
  simp only [step, disconnect, hl, Session.disconnect, Session.id, hh.connection_eq hl,
    Option.getD_some]

/-- The end of a session leaves all connections alone but its own. -/
theorem spares_disconnect (hh : h.Linked) (hd : h.service.directory.Coherent)
    (hne : other ≠ c) : h.Spares other (h.step (.disconnect c)) := by
  have hd' : (h.step (.disconnect c)).service.directory.Coherent :=
    Directory.Coherent.invariant.step hd _
  cases hl : h.links[c]? with
  | none =>
    have hstep : h.step (.disconnect c) = h := by simp only [step, disconnect, hl]
    rw [hstep]
    exact .refl other h
  | some l =>
    rw [step_disconnect hh hl] at hd' ⊢
    refine .of_coherent hd hd' ?_ ?_ ?_ ?_ rfl
    · rw [Directory.sessions_logout, if_neg hne.symm]
    · rw [Switchboard.holds_release, decide_eq_true hne.symm, Bool.true_and]
    · rw [Switchboard.accepts_release, decide_eq_true hne.symm, Bool.true_and]
    · rw [Switchboard.waiting_release]

end Hub

/-- **Operations are confined to what they are about.**  Take any run, and any message on a
connection or the end of the connection after it.  Other connections are spared: they have the
sessions and users that they had, the switchboard holds them or not as before, and their own
sessions are as they were.  Of the directory a command that is carried out changes only what is
in its scope: nothing for LOGSTAT and STAT; who follows and is followed of the two users for
FOLLOW and BLOCK, and who has blocked the one who is blocked; what waits for those who are
addressed, by one notification at most, and the history, by one, for POST and PM; where the
user named is logged in and what waits for that user for LOGIN; nothing but that the user of
the connection is logged out, if it has one, for LOGOUT and for its end; and one user more,
whom nothing concerns yet, for REGISTER.  A command that is refused changes nothing, and nor
does a message that is no command. -/
theorem operations_confined (today : Date) (filter : ContentFilter) (es : List Event)
    (c : ConnectionId) :
    let h := (Hub.start today filter).run es
    let d := h.service.directory
    (∀ m other, other ≠ c → h.Spares other (h.step (.message c m))) ∧
    (∀ other, other ≠ c → h.Spares other (h.step (.disconnect c))) ∧
    (∀ command : Command,
      let e : Event := .message c (.command command)
      let d' := (h.step e).service.directory
      if h.carriedOut e = some (c, command) then command.Scope h.service.filter c d d'
      else d' = d) ∧
    (∀ r, h.step (.message c (.reply r)) = h) ∧
    if c < h.links.size then d.Releases c (h.step (.disconnect c)).service.directory
    else h.step (.disconnect c) = h := by
  intro h d
  have hh : h.Linked := (Hub.Linked.start today filter).run es
  have hboth : d.Coherent ∧ d.Mirrored :=
    Directory.Mirrored.invariant.run ⟨.empty today, .empty today⟩ es
  obtain ⟨hd, hm⟩ := hboth
  refine ⟨fun m other hne => Hub.spares_message hh hd m hne,
    fun other hne => Hub.spares_disconnect hh hd hne, fun command => ?_, h.step_reply c, ?_⟩
  · intro e d'
    split
    · next hx =>
      obtain ⟨effect, hok, hstep⟩ := Hub.step_of_carriedOut hh hx
      have hd' : d' = effect.directory := congrArg Service.directory hstep
      rw [hd']
      exact command.scope_execute hd hm hok
    · next hx =>
      show (h.step e).service.directory = d
      cases hl : h.links[c]? with
      | none => simp only [e, d, Hub.step, Hub.message, hl]
      | some l =>
        have hrefused := fun effect hok =>
          hx ((Hub.carriedOut_command_iff hh hl command).mpr ⟨effect, hok⟩)
        rw [Hub.step_command hh hl, Service.effect_of_refused hrefused]
        rfl
  · split
    · next hc =>
      obtain ⟨l, hl⟩ : ∃ l, h.links[c]? = some l := ⟨_, Array.getElem?_eq_getElem hc⟩
      rw [Hub.step_disconnect hh hl]
      exact Directory.releases_logout hd c
    · next hc =>
      have hl : h.links[c]? = none := Array.getElem?_eq_none (Nat.le_of_not_lt hc)
      simp only [Hub.step, Hub.disconnect, hl]

end Microblog
