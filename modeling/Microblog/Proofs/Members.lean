import Microblog.Proofs.Execution

/-!
# The members, one by one

What the operations of a directory do to the account of a member.  An account has
three parts that change on different occasions: who the user is, where the user is
logged in, and how the user stands to others.  Most operations leave two of the
three alone, and `Directory.Keeps` says which.

Accounts are compared by their numbers, not by their names, wherever two of them
are taken together.  That this is the same is `Directory.Filed.number_eq_iff`.

## Main definitions

* `Account.identity`, `Account.binding`, `Account.ties` — the parts of an account.
* `Directory.Keeps` — no member's account changes in some part.
* `Command.Changes` — the ways in which a command changes accounts.
* `Directory.Filed` — accounts are filed under their names and numbers.

## Main results

* `Directory.member?_update`, `Directory.keeps_update` and their kin — what operations
  do, and what they do not.
* `Directory.keeps_execute`, `Directory.sessions_execute` — what commands leave alone.
* `Directory.Filed.execute`, `Directory.Filed.logout` — filing is kept.
-/

namespace Microblog

/-- A name that is in a set is in it already. -/
theorem Names.insert_eq_self {names : Names} {name : String} (h : name ∈ names) :
    names.insert name = names := by
  refine Std.ExtTreeSet.ext_mem fun other => ?_
  rw [Std.ExtTreeSet.mem_insert, Std.LawfulEqCmp.compare_eq_iff_eq]
  refine ⟨?_, Or.inr⟩
  rintro (rfl | hother)
  · exact h
  · exact hother

/-- A name that is not in a set cannot be taken out. -/
theorem Names.erase_eq_self {names : Names} {name : String} (h : name ∉ names) :
    names.erase name = names := by
  refine Std.ExtTreeSet.ext_mem fun other => ?_
  rw [Std.ExtTreeSet.mem_erase, ne_eq, Std.LawfulEqCmp.compare_eq_iff_eq]
  refine ⟨And.right, fun hother => ⟨?_, hother⟩⟩
  rintro rfl
  exact h hother

namespace Account

/-- Who the user is. -/
def identity (a : Account) : String × String × Nat × UInt16 := (a.name, a.password, a.number, a.age)

/-- Where the user is logged in, with the flag that a login looks at. -/
def binding (a : Account) : Option ConnectionId × Bool := (a.connection, a.isConnected)

/-- How the user stands to others. -/
def ties (a : Account) : Names × Names × Names := (a.following, a.followers, a.blockedBy)

end Account

namespace Directory

/-! ### What an operation changes -/

@[simp] theorem member?_update (d : Directory) (id : AccountId) (f : Account → Account)
    (name : String) :
    (d.update id f).member? name
      = if id = .member name then (d.member? name).map f else d.member? name :=
  account?_update d id (.member name) f

theorem mem_members_iff {d : Directory} {name : String} :
    name ∈ d.members ↔ ∃ a, d.member? name = some a := by
  rw [Std.ExtTreeMap.mem_iff_isSome_getElem?, Option.isSome_iff_exists]
  rfl

theorem mem_members_of_member? {d : Directory} {name : String} {a : Account}
    (ha : d.member? name = some a) : name ∈ d.members :=
  mem_members_iff.mpr ⟨a, ha⟩

theorem member?_eq_none {d : Directory} {name : String} (h : name ∉ d.members) :
    d.member? name = none :=
  Std.ExtTreeMap.getElem?_eq_none h

@[simp] theorem mem_members_update {d : Directory} {id : AccountId} {f : Account → Account}
    {name : String} : name ∈ (d.update id f).members ↔ name ∈ d.members := by
  cases id with
  | member other => exact Std.ExtTreeMap.mem_modify
  | guest index => exact Iff.rfl

/-- Registering adds one account and leaves the others alone. -/
theorem member?_register {d d' : Directory} {user password : String} {born : BirthDate}
    (h : d.register user password born = .ok d') (name : String) :
    d'.member? name =
      if name = user then
        some { name := user, password, number := d.roll.size, age := ageOn d.today born }
      else d.member? name := by
  obtain ⟨-, rfl⟩ := register_eq_ok_iff.mp h
  simp only [member?, Std.ExtTreeMap.getElem?_insert, Std.LawfulEqCmp.compare_eq_iff_eq]
  by_cases hn : name = user
  · simp [hn]
  · simp [hn, Ne.symm hn]

/-- A directory is its accounts, and what it keeps besides them. -/
theorem ext_account? {d d' : Directory} (h : ∀ id, d.account? id = d'.account? id)
    (htoday : d.today = d'.today) (hroll : d.roll = d'.roll) (hsessions : d.sessions = d'.sessions)
    (hhistory : d.history = d'.history) : d = d' := by
  have hmembers : d.members = d'.members :=
    Std.ExtTreeMap.ext_getElem? fun name => h (.member name)
  have hguests : d.guests = d'.guests := Array.ext_getElem? fun index => h (.guest index)
  cases d
  cases d'
  simp only [mk.injEq]
  exact ⟨htoday, hmembers, hroll, hguests, hsessions, hhistory⟩

/-- A change after another is one change. -/
theorem update_update (d : Directory) (id : AccountId) (f g : Account → Account) :
    (d.update id f).update id g = d.update id (g ∘ f) := by
  refine ext_account? (fun other => ?_) (by simp) (by simp) (by simp) (by simp)
  rw [account?_update, account?_update, account?_update]
  split
  · rw [Option.map_map]
  · rfl

/-- A change that does nothing to the account addressed does nothing at all. -/
theorem update_eq_self {d : Directory} {id : AccountId} {f : Account → Account}
    (h : ∀ a, d.account? id = some a → f a = a) : d.update id f = d := by
  refine ext_account? (fun other => ?_) (by simp) (by simp) (by simp) (by simp)
  rw [account?_update]
  split
  · next hid =>
    subst hid
    cases ha : d.account? id with
    | none => rfl
    | some a => rw [Option.map_some, h a ha]
  · rfl

/-! ### What an operation leaves alone -/

/-- The members are the same, in the same order, and what `key` shows of them is too. -/
structure Keeps {κ : Type} (key : Account → κ) (d d' : Directory) : Prop where
  /-- Each member shows the same. -/
  map_key : ∀ name, (d'.member? name).map key = (d.member? name).map key
  /-- Nobody registered. -/
  roll_eq : d'.roll = d.roll

section Keeps

variable {κ : Type} {key : Account → κ} {d d' d'' : Directory}

theorem Keeps.refl (key : Account → κ) (d : Directory) : Keeps key d d := ⟨fun _ => rfl, rfl⟩

theorem Keeps.trans (h : Keeps key d d') (h' : Keeps key d' d'') : Keeps key d d'' :=
  ⟨fun name => (h'.map_key name).trans (h.map_key name), h'.roll_eq.trans h.roll_eq⟩

/-- What can be told from what is kept is kept. -/
theorem Keeps.comp {ι : Type} (h : Keeps key d d') (g : κ → ι) : Keeps (g ∘ key) d d' where
  map_key := by
    intro name
    rw [← Option.map_map, h.map_key, Option.map_map]
  roll_eq := h.roll_eq

/-- A member afterwards was one before, and showed the same. -/
theorem Keeps.member? (h : Keeps key d d') {name : String} {a' : Account}
    (ha' : d'.member? name = some a') : ∃ a, d.member? name = some a ∧ key a = key a' := by
  have hm := h.map_key name
  rw [ha', Option.map_some] at hm
  exact Option.map_eq_some_iff.mp hm.symm

/-- A member before is one afterwards, and shows the same. -/
theorem Keeps.exists_member? (h : Keeps key d d') {name : String} {a : Account}
    (ha : d.member? name = some a) : ∃ a', d'.member? name = some a' ∧ key a' = key a := by
  have hm := h.map_key name
  rw [ha, Option.map_some] at hm
  exact Option.map_eq_some_iff.mp hm

theorem Keeps.mem_members_iff (h : Keeps key d d') {name : String} :
    name ∈ d'.members ↔ name ∈ d.members := by
  have hm := congrArg Option.isSome (h.map_key name)
  rw [Option.isSome_map, Option.isSome_map] at hm
  rw [Std.ExtTreeMap.mem_iff_isSome_getElem?, Std.ExtTreeMap.mem_iff_isSome_getElem?]
  exact iff_of_eq (congrArg (· = true) hm)

theorem keeps_update {f : Account → Account} (hf : ∀ a, key (f a) = key a) (d : Directory)
    (id : AccountId) : Keeps key d (d.update id f) where
  map_key := by
    intro name
    rw [member?_update]
    split
    · rw [Option.map_map]
      exact congrArg (Option.map · (d.member? name)) (funext hf)
    · rfl
  roll_eq := roll_update d id f

theorem keeps_login {c : ConnectionId} (hf : ∀ a, key (Account.connect c a) = key a)
    (d : Directory) (id : AccountId) : Keeps key d (d.login id c) where
  map_key := (keeps_update hf d id).map_key
  roll_eq := (keeps_update hf d id).roll_eq

theorem keeps_logout (hf : ∀ a, key (Account.disconnect a) = key a) (d : Directory)
    (c : ConnectionId) : Keeps key d (d.logout c) := by
  unfold logout
  cases d.sessions[c]? with
  | none => exact .refl key d
  | some id => exact ⟨(keeps_update hf d id).map_key, (keeps_update hf d id).roll_eq⟩

theorem keeps_deliver {n : Notification} (hf : ∀ a, key (Account.queue n a) = key a)
    (d : Directory) (accepts : ConnectionId → Bool) (id : AccountId) :
    Keeps key d (d.deliver accepts n id).2 := by
  unfold deliver
  split
  · exact .refl key d
  · exact keeps_update hf d id

theorem keeps_deliverAll {n : Notification} (hf : ∀ a, key (Account.queue n a) = key a)
    (d : Directory) (accepts : ConnectionId → Bool) (names : List String) :
    Keeps key d (d.deliverAll accepts n names).2 := by
  induction names generalizing d with
  | nil => exact .refl key d
  | cons name names ih => exact (keeps_deliver hf d accepts _).trans (ih _)

theorem keeps_unlink? {follower followed : AccountId}
    (hs : ∀ name a, key (Account.stopFollowing name a) = key a)
    (hl : ∀ name a, key (Account.loseFollower name a) = key a)
    (h : d.unlink? follower followed = some d') : Keeps key d d' := by
  obtain ⟨a, b, -, -, -, rfl⟩ := unlink?_eq_some_iff.mp h
  exact (keeps_update (hs b.name) d follower).trans (keeps_update (hl a.name) _ followed)

theorem keeps_follow? {actor : AccountId} {target : String}
    (hs : ∀ name a, key (Account.startFollowing name a) = key a)
    (hg : ∀ name a, key (Account.gainFollower name a) = key a)
    (h : d.follow? actor target = some d') : Keeps key d d' := by
  obtain ⟨a, b, -, -, -, -, -, rfl⟩ := follow?_eq_some_iff.mp h
  exact (keeps_update (hs b.name) d actor).trans (keeps_update (hg a.name) _ (.member target))

theorem keeps_unfollow? {actor : AccountId} {target : String}
    (hs : ∀ name a, key (Account.stopFollowing name a) = key a)
    (hl : ∀ name a, key (Account.loseFollower name a) = key a)
    (h : d.unfollow? actor target = some d') : Keeps key d d' := by
  obtain ⟨a, b, -, -, -, -, rfl⟩ := unfollow?_eq_some_iff.mp h
  exact (keeps_update (hs b.name) d actor).trans (keeps_update (hl a.name) _ (.member target))

theorem keeps_getD_unlink? {follower followed : AccountId}
    (hs : ∀ name a, key (Account.stopFollowing name a) = key a)
    (hl : ∀ name a, key (Account.loseFollower name a) = key a) :
    Keeps key d ((d.unlink? follower followed).getD d) := by
  cases h : d.unlink? follower followed with
  | none => exact .refl key d
  | some d' => exact keeps_unlink? hs hl h

theorem keeps_block (hb : ∀ name a, key (Account.addBlock name a) = key a)
    (hs : ∀ name a, key (Account.stopFollowing name a) = key a)
    (hl : ∀ name a, key (Account.loseFollower name a) = key a) (d : Directory)
    (blocker target : AccountId) : Keeps key d (d.block blocker target) := by
  unfold block
  split
  · next a b _ _ =>
    split
    · exact keeps_update (hb a.name) d target
    · exact ((keeps_update (hb a.name) d target).trans (keeps_getD_unlink? hs hl)).trans
        (keeps_getD_unlink? hs hl)
  · exact .refl key d

theorem keeps_record (key : Account → κ) (d : Directory) (n : Notification) :
    Keeps key d (d.record n) := ⟨fun _ => rfl, rfl⟩

end Keeps

/-! ### Sessions are left alone -/

@[simp] theorem sessions_deliver (d : Directory) (accepts : ConnectionId → Bool)
    (n : Notification) (id : AccountId) : (d.deliver accepts n id).2.sessions = d.sessions := by
  unfold deliver
  split
  · rfl
  · exact sessions_update d id _

@[simp] theorem sessions_deliverAll (d : Directory) (accepts : ConnectionId → Bool)
    (n : Notification) (names : List String) :
    (d.deliverAll accepts n names).2.sessions = d.sessions := by
  induction names generalizing d with
  | nil => rfl
  | cons name names ih => rw [deliverAll, ih, sessions_deliver]

theorem sessions_getD_unlink? (d : Directory) (follower followed : AccountId) :
    ((d.unlink? follower followed).getD d).sessions = d.sessions := by
  cases h : d.unlink? follower followed with
  | none => rfl
  | some d' =>
    obtain ⟨a, b, -, -, -, rfl⟩ := unlink?_eq_some_iff.mp h
    simp

@[simp] theorem sessions_block (d : Directory) (blocker target : AccountId) :
    (d.block blocker target).sessions = d.sessions := by
  unfold block
  split
  · split
    · exact sessions_update d target _
    · rw [sessions_getD_unlink?, sessions_getD_unlink?, sessions_update]
  · rfl

theorem sessions_follow? {d d' : Directory} {actor : AccountId} {target : String}
    (h : d.follow? actor target = some d') : d'.sessions = d.sessions := by
  obtain ⟨a, b, -, -, -, -, -, rfl⟩ := follow?_eq_some_iff.mp h
  rw [sessions_update, sessions_update]

theorem sessions_unfollow? {d d' : Directory} {actor : AccountId} {target : String}
    (h : d.unfollow? actor target = some d') : d'.sessions = d.sessions := by
  obtain ⟨a, b, -, -, -, -, rfl⟩ := unfollow?_eq_some_iff.mp h
  rw [sessions_update, sessions_update]

/-! ### So is the history -/

@[simp] theorem history_logout (d : Directory) (c : ConnectionId) :
    (d.logout c).history = d.history := by
  unfold logout
  split
  · rfl
  · exact history_update d _ _

theorem history_getD_unlink? (d : Directory) (follower followed : AccountId) :
    ((d.unlink? follower followed).getD d).history = d.history := by
  cases h : d.unlink? follower followed with
  | none => rfl
  | some d' =>
    obtain ⟨a, b, -, -, -, rfl⟩ := unlink?_eq_some_iff.mp h
    simp

@[simp] theorem history_block (d : Directory) (blocker target : AccountId) :
    (d.block blocker target).history = d.history := by
  unfold block
  split
  · split
    · exact history_update d target _
    · rw [history_getD_unlink?, history_getD_unlink?, history_update]
  · rfl

theorem history_follow? {d d' : Directory} {actor : AccountId} {target : String}
    (h : d.follow? actor target = some d') : d'.history = d.history := by
  obtain ⟨a, b, -, -, -, -, -, rfl⟩ := follow?_eq_some_iff.mp h
  rw [history_update, history_update]

theorem history_unfollow? {d d' : Directory} {actor : AccountId} {target : String}
    (h : d.unfollow? actor target = some d') : d'.history = d.history := by
  obtain ⟨a, b, -, -, -, -, rfl⟩ := unfollow?_eq_some_iff.mp h
  rw [history_update, history_update]

end Directory

/-! ### What commands leave alone -/

/-- The ways in which a command changes accounts.  REGISTER changes none: it adds one. -/
inductive Command.Changes : Command → (Account → Account) → Prop where
  /-- LOGIN begins a session. -/
  | connect {name password : String} {captcha : UInt8} (c : ConnectionId) :
      Changes (.login name password captcha) (Account.connect c)
  /-- LOGOUT ends one. -/
  | disconnect : Changes .logout Account.disconnect
  /-- FOLLOW puts a name on the list of those followed. -/
  | startFollowing {name : String} (followed : String) :
      Changes (.follow true name) (Account.startFollowing followed)
  /-- FOLLOW puts a name on the list of followers. -/
  | gainFollower {name : String} (follower : String) :
      Changes (.follow true name) (Account.gainFollower follower)
  /-- The other direction of FOLLOW takes a name off the list of those followed. -/
  | stopFollowing {name : String} (followed : String) :
      Changes (.follow false name) (Account.stopFollowing followed)
  /-- The other direction of FOLLOW takes a name off the list of followers. -/
  | loseFollower {name : String} (follower : String) :
      Changes (.follow false name) (Account.loseFollower follower)
  /-- POST leaves a notification with those whom it cannot reach. -/
  | queuePost {content : String} (n : Notification) : Changes (.post content) (Account.queue n)
  /-- PM leaves a notification with the one whom it cannot reach. -/
  | queuePm {name content : String} (n : Notification) :
      Changes (.pm name content) (Account.queue n)
  /-- BLOCK records who blocks. -/
  | addBlock {name : String} (blocker : String) : Changes (.block name) (Account.addBlock blocker)
  /-- BLOCK takes names off the lists of those followed. -/
  | severFollowing {name : String} (followed : String) :
      Changes (.block name) (Account.stopFollowing followed)
  /-- BLOCK takes names off the lists of followers. -/
  | severFollower {name : String} (follower : String) :
      Changes (.block name) (Account.loseFollower follower)

section

variable {d : Directory} {filter : ContentFilter} {accepts : ConnectionId → Bool}
  {c : ConnectionId} {command : Command} {e : Effect}

/-- **What none of the changes of a command shows in is kept by the command.** -/
theorem Directory.keeps_execute {κ : Type} {key : Account → κ}
    (h : command.execute d filter accepts c = .ok e)
    (hregister : ∀ name password born, command ≠ .register name password born)
    (hkey : ∀ f, command.Changes f → ∀ a, key (f a) = key a) : Keeps key d e.directory := by
  cases command with
  | register name password born => exact absurd rfl (hregister name password born)
  | login name password captcha =>
    obtain ⟨-, -, a, -, -, -, rfl⟩ := executeLogin_eq_ok_iff.mp h
    exact keeps_login (hkey _ (.connect c)) d _
  | logout =>
    obtain ⟨-, rfl⟩ := executeLogout_eq_ok_iff.mp h
    exact keeps_logout (hkey _ .disconnect) d c
  | follow direction name =>
    obtain ⟨id, a, d', -, hd', rfl⟩ := executeFollow_eq_ok_iff.mp h
    cases direction with
    | true =>
      exact keeps_follow? (fun name => hkey _ (.startFollowing name))
        (fun name => hkey _ (.gainFollower name)) hd'
    | false =>
      exact keeps_unfollow? (fun name => hkey _ (.stopFollowing name))
        (fun name => hkey _ (.loseFollower name)) hd'
  | post content =>
    obtain ⟨id, author, -, rfl⟩ := executePost_eq_ok_iff.mp h
    exact (keeps_deliverAll (hkey _ (.queuePost _)) d accepts _).trans (keeps_record _ _ _)
  | pm name content =>
    obtain ⟨id, author, recipient, -, -, -, rfl⟩ := executePm_eq_ok_iff.mp h
    exact (keeps_deliver (hkey _ (.queuePm _)) d accepts _).trans (keeps_record _ _ _)
  | logStat =>
    obtain ⟨id, caller, -, rfl⟩ := executeLogStat_eq_ok_iff.mp h
    exact .refl key d
  | stat names =>
    obtain ⟨id, caller, accounts, -, -, rfl⟩ := executeStat_eq_ok_iff.mp h
    exact .refl key d
  | block name =>
    obtain ⟨id, blocker, target, -, -, rfl⟩ := executeBlock_eq_ok_iff.mp h
    exact keeps_block (fun name => hkey _ (.addBlock name))
      (fun name => hkey _ (.severFollowing name)) (fun name => hkey _ (.severFollower name)) d id _

/-- Sessions begin with a LOGIN and end with a LOGOUT. -/
theorem Directory.sessions_execute (h : command.execute d filter accepts c = .ok e)
    (hlogin : ∀ name password captcha, command ≠ .login name password captcha)
    (hlogout : command ≠ .logout) : e.directory.sessions = d.sessions := by
  cases command with
  | register name password born =>
    obtain ⟨d', hd', rfl⟩ := executeRegister_eq_ok_iff.mp h
    obtain ⟨-, rfl⟩ := register_eq_ok_iff.mp hd'
    rfl
  | login name password captcha => exact absurd rfl (hlogin name password captcha)
  | logout => exact absurd rfl hlogout
  | follow direction name =>
    obtain ⟨id, a, d', -, hd', rfl⟩ := executeFollow_eq_ok_iff.mp h
    cases direction with
    | true => exact sessions_follow? hd'
    | false => exact sessions_unfollow? hd'
  | post content =>
    obtain ⟨id, author, -, rfl⟩ := executePost_eq_ok_iff.mp h
    exact sessions_deliverAll d accepts _ _
  | pm name content =>
    obtain ⟨id, author, recipient, -, -, -, rfl⟩ := executePm_eq_ok_iff.mp h
    exact sessions_deliver d accepts _ _
  | logStat =>
    obtain ⟨id, caller, -, rfl⟩ := executeLogStat_eq_ok_iff.mp h
    rfl
  | stat names =>
    obtain ⟨id, caller, accounts, -, -, rfl⟩ := executeStat_eq_ok_iff.mp h
    rfl
  | block name =>
    obtain ⟨id, blocker, target, -, -, rfl⟩ := executeBlock_eq_ok_iff.mp h
    exact sessions_block d id _

/-- Only a POST and a PM enter the history. -/
theorem Directory.history_execute (h : command.execute d filter accepts c = .ok e)
    (hpost : ∀ content, command ≠ .post content)
    (hpm : ∀ name content, command ≠ .pm name content) :
    e.directory.history = d.history := by
  cases command with
  | register name password born =>
    obtain ⟨d', hd', rfl⟩ := executeRegister_eq_ok_iff.mp h
    obtain ⟨-, rfl⟩ := register_eq_ok_iff.mp hd'
    rfl
  | login name password captcha =>
    obtain ⟨-, -, a, -, -, -, rfl⟩ := executeLogin_eq_ok_iff.mp h
    exact history_update d _ _
  | logout =>
    obtain ⟨-, rfl⟩ := executeLogout_eq_ok_iff.mp h
    exact history_logout d c
  | follow direction name =>
    obtain ⟨id, a, d', -, hd', rfl⟩ := executeFollow_eq_ok_iff.mp h
    cases direction with
    | true => exact history_follow? hd'
    | false => exact history_unfollow? hd'
  | post content => exact absurd rfl (hpost content)
  | pm name content => exact absurd rfl (hpm name content)
  | logStat =>
    obtain ⟨id, caller, -, rfl⟩ := executeLogStat_eq_ok_iff.mp h
    rfl
  | stat names =>
    obtain ⟨id, caller, accounts, -, -, rfl⟩ := executeStat_eq_ok_iff.mp h
    rfl
  | block name =>
    obtain ⟨id, blocker, target, -, -, rfl⟩ := executeBlock_eq_ok_iff.mp h
    exact history_block d id _

end

namespace Directory

/-! ### Accounts are filed under their names and numbers -/

/-- Each account is filed under its name, and its number is the name's place in the
order of registration. -/
structure Filed (d : Directory) : Prop where
  /-- The name of an account is the one that it is filed under. -/
  name_eq : ∀ {name a}, d.member? name = some a → a.name = name
  /-- The number of an account leads to its name. -/
  roll_eq : ∀ {name a}, d.member? name = some a → d.roll[a.number]? = some name

namespace Filed

variable {d d' : Directory}

/-- Two members with one number are one member. -/
theorem number_eq_iff (hd : d.Filed) {x y : String} {a b : Account} (ha : d.member? x = some a)
    (hb : d.member? y = some b) : a.number = b.number ↔ x = y := by
  constructor
  · intro h
    have hx := hd.roll_eq ha
    rw [h, hd.roll_eq hb] at hx
    exact (Option.some.inj hx).symm
  · rintro rfl
    rw [ha] at hb
    rw [Option.some.inj hb]

theorem empty (today : Date) : Filed { today } := by
  constructor <;> intro name a h <;> simp [member?] at h

theorem of_keeps (hd : d.Filed) (h : Keeps Account.identity d d') : d'.Filed := by
  constructor
  · intro name a' ha'
    obtain ⟨a, ha, heq⟩ := h.member? ha'
    rw [← hd.name_eq ha]
    exact (congrArg Prod.fst heq).symm
  · intro name a' ha'
    obtain ⟨a, ha, heq⟩ := h.member? ha'
    have hnumber : a.number = a'.number := congrArg (fun k => k.2.2.1) heq
    rw [h.roll_eq, ← hnumber]
    exact hd.roll_eq ha

theorem register (hd : d.Filed) {user password : String} {born : BirthDate}
    (h : d.register user password born = .ok d') : d'.Filed := by
  have hroll : d'.roll = d.roll.push user := by
    obtain ⟨-, rfl⟩ := register_eq_ok_iff.mp h
    rfl
  constructor <;> intro name a ha <;> rw [member?_register h] at ha <;> split at ha
  · next hn => rw [← Option.some.inj ha, hn]
  · exact hd.name_eq ha
  · next hn =>
    rw [← Option.some.inj ha, hroll, hn]
    exact Array.getElem?_push_size
  · -- numbers given out before are smaller than the length of the roll
    have hlt : a.number < d.roll.size :=
      (Array.getElem?_eq_some_iff.mp (hd.roll_eq ha)).1
    rw [hroll, Array.getElem?_push_lt hlt, ← Array.getElem?_eq_getElem hlt]
    exact hd.roll_eq ha

theorem logout (hd : d.Filed) (c : ConnectionId) : (d.logout c).Filed :=
  hd.of_keeps (keeps_logout (fun _ => rfl) d c)

/-- **Filing is kept by every command.** -/
theorem execute (hd : d.Filed) {filter : ContentFilter} {accepts : ConnectionId → Bool}
    {c : ConnectionId} {command : Command} {e : Effect}
    (h : command.execute d filter accepts c = .ok e) : e.directory.Filed := by
  cases command with
  | register name password born =>
    obtain ⟨d', hd', rfl⟩ := executeRegister_eq_ok_iff.mp h
    exact hd.register hd'
  | _ => exact hd.of_keeps (keeps_execute h nofun fun _ hf _ => by cases hf <;> rfl)

end Filed

end Directory

end Microblog
