import Microblog.Proofs.Mailboxes

/-!
# What is private, veiled

The private messages that a user gets are kept in the user's queue and in the history,
and go through the hands of the server whenever it delivers, counts or reports anything.
A veil takes away what they tell and leaves everything else.  A directory behind a veil is
again a directory, so commands can be carried out on it, and what they do there is what
they do, seen through the veil: no command looks at what is behind.

In the history it is not noted to whom a private message went, so there all of them are
veiled.

## Main definitions

* `Notification.veiled`, `Reply.veiled`, `Message.veiled` — without what is private.
* `Account.veiled`, `Directory.veiled`, `Effect.veiled` — without what is private to a user.
* `Command.veiled` — a command that does not tell the user anything in private.

## Main results

* `Directory.account?_veiled`, `Directory.update_veiled` and their kin — the operations of
  a directory do the same behind a veil.
* `Command.execute_veiled` — **and so do commands**.
-/

namespace Microblog

/-! ### Messages -/

/-- The notification, without what it tells if it is private. -/
def Notification.veiled (n : Notification) : Notification :=
  match n.kind with
  | .pm => { n with content := "" }
  | .post => n

@[simp] theorem Notification.veiled_post (author content : String) :
    veiled ⟨.post, author, content⟩ = ⟨.post, author, content⟩ := rfl

@[simp] theorem Notification.veiled_pm (author content : String) :
    veiled ⟨.pm, author, content⟩ = ⟨.pm, author, ""⟩ := rfl

@[simp] theorem Notification.kind_veiled (n : Notification) : n.veiled.kind = n.kind := by
  rcases n with ⟨_ | _, _, _⟩ <;> rfl

@[simp] theorem Notification.author_veiled (n : Notification) : n.veiled.author = n.author := by
  rcases n with ⟨_ | _, _, _⟩ <;> rfl

@[simp] theorem Notification.veiled_veiled (n : Notification) : n.veiled.veiled = n.veiled := by
  rcases n with ⟨_ | _, _, _⟩ <;> rfl

/-- The reply, without what a private message tells. -/
def Reply.veiled : Reply → Reply
  | .notification n => .notification n.veiled
  | r => r

/-- The message, without what a private message tells. -/
def Message.veiled : Message → Message
  | .reply r => .reply r.veiled
  | m => m

/-- The command, without what it tells `user` in private. -/
def Command.veiled (user : String) : Command → Command
  | .pm name content => .pm name (if name = user then "" else content)
  | command => command

/-- Nothing is redacted from nothing. -/
@[simp] theorem ContentFilter.apply_empty (f : ContentFilter) : f.apply "" = "" := by
  have hnil : ∀ words : List String, words.foldl
      (fun cs word => redact word.toList f.placeholder.toList cs) [] = [] := by
    intro words
    induction words with
    | nil => rfl
    | cons word words ih => exact ih
  rw [apply, String.toList_empty, hnil]

/-! ### Accounts and directories -/

/-- The account that `id` addresses, without what is private to `user`. -/
def Account.veiled (user : String) (id : AccountId) (a : Account) : Account :=
  { a with pending :=
      if id = .member user then a.pending.map Notification.veiled else a.pending }

/-- What is queued for the account that `id` addresses, without what is private to
`user`. -/
def Notification.veiledFor (user : String) (id : AccountId) (n : Notification) : Notification :=
  if id = .member user then n.veiled else n

@[simp] theorem Account.name_veiled (user : String) (id : AccountId) (a : Account) :
    (a.veiled user id).name = a.name := rfl

theorem Account.veiled_of_ne {user : String} {id : AccountId} (h : id ≠ .member user)
    (a : Account) : a.veiled user id = a := by
  rw [veiled, if_neg h]

@[simp] theorem Notification.veiled_veiledFor (user : String) (id : AccountId)
    (n : Notification) : (n.veiledFor user id).veiled = n.veiled := by
  unfold veiledFor
  split
  · exact n.veiled_veiled
  · rfl

theorem Account.veiled_queue (user : String) (id : AccountId) (n : Notification) (a : Account) :
    (a.queue n).veiled user id = (a.veiled user id).queue (n.veiledFor user id) := by
  unfold veiled queue Notification.veiledFor
  split <;> simp

namespace Directory

/-- The directory, without what is private to `user`. -/
def veiled (d : Directory) (user : String) : Directory :=
  { d.update (.member user) (Account.veiled user (.member user)) with
    history := d.history.map Notification.veiled }

section

variable (d : Directory) (user : String)

@[simp] theorem today_veiled : (d.veiled user).today = d.today := rfl

@[simp] theorem roll_veiled : (d.veiled user).roll = d.roll := rfl

@[simp] theorem sessions_veiled : (d.veiled user).sessions = d.sessions := rfl

@[simp] theorem history_veiled :
    (d.veiled user).history = d.history.map Notification.veiled := rfl

@[simp] theorem account?_veiled (id : AccountId) :
    (d.veiled user).account? id = (d.account? id).map (Account.veiled user id) := by
  have hupdate : (d.veiled user).account? id
      = (d.update (.member user) (Account.veiled user (.member user))).account? id := by
    cases id <;> rfl
  rw [hupdate, account?_update]
  by_cases hid : AccountId.member user = id
  · rw [if_pos hid, hid]
  · have hother : Account.veiled user id = fun a => a :=
      funext (Account.veiled_of_ne (Ne.symm hid))
    rw [if_neg hid, hother, Option.map_id']

@[simp] theorem member?_veiled (name : String) :
    (d.veiled user).member? name = (d.member? name).map (Account.veiled user (.member name)) :=
  account?_veiled d user (.member name)

@[simp] theorem mem_members_veiled {name : String} :
    name ∈ (d.veiled user).members ↔ name ∈ d.members := by
  rw [mem_members_iff, mem_members_iff, member?_veiled]
  simp

@[simp] theorem connectionOf_veiled (name : String) :
    (d.veiled user).connectionOf name = d.connectionOf name := by
  rw [connectionOf, member?_veiled, Option.bind_map]
  rfl

theorem sessionOn_veiled (c : ConnectionId) :
    (d.veiled user).sessionOn c = (d.sessionOn c).map fun s => (s.1, s.2.veiled user s.1) := by
  unfold sessionOn
  rw [sessions_veiled]
  cases d.sessions[c]? with
  | none => rfl
  | some id =>
    simp only [Option.bind_eq_bind, Option.bind_some, account?_veiled]
    cases d.account? id <;> rfl

theorem userOn_veiled (c : ConnectionId) : (d.veiled user).userOn c = d.userOn c := by
  rw [userOn, sessionOn_veiled, Option.map_map]
  rfl

/-- There is nothing more to be veiled. -/
@[simp] theorem veiled_veiled : (d.veiled user).veiled user = d.veiled user := by
  refine ext_account? (fun id => ?_) rfl rfl rfl (by simp)
  rw [account?_veiled, account?_veiled, Option.map_map]
  refine congrArg (Option.map · (d.account? id)) (funext fun a => ?_)
  unfold Function.comp Account.veiled
  split <;> simp

/-- A change that does the same to an account behind the veil does the same to the
directory behind it. -/
theorem update_veiled {id : AccountId} {f g : Account → Account}
    (hfg : ∀ a, (f a).veiled user id = g (a.veiled user id)) :
    (d.update id f).veiled user = (d.veiled user).update id g := by
  refine ext_account? (fun other => ?_) (by simp) (by simp) (by simp) (by simp)
  rw [account?_veiled, account?_update, account?_update, account?_veiled]
  split
  · next hid =>
    rw [← hid, Option.map_map, Option.map_map]
    exact congrArg (Option.map · (d.account? id)) (funext hfg)
  · rfl

/-- So do two changes, one after the other. -/
theorem update_update_veiled {id other : AccountId} {f g : Account → Account}
    (hf : ∀ a, (f a).veiled user id = f (a.veiled user id))
    (hg : ∀ a, (g a).veiled user other = g (a.veiled user other)) :
    ((d.update id f).update other g).veiled user
      = ((d.veiled user).update id f).update other g := by
  rw [update_veiled _ user hg, update_veiled d user hf]

theorem record_veiled (n : Notification) :
    (d.record n).veiled user = (d.veiled user).record n.veiled := by
  refine ext_account? (fun id => ?_) rfl rfl rfl (by simp [record])
  have hkept : ∀ d' n', (record d' n').account? id = d'.account? id := by
    intro d' n'
    cases id <;> rfl
  rw [account?_veiled, hkept, hkept, account?_veiled]

/-! ### Registration, login, logout -/

theorem register_veiled (name password : String) (born : BirthDate) :
    (d.veiled user).register name password born
      = (d.register name password born).map (·.veiled user) := by
  unfold register
  simp only [mem_members_veiled]
  split
  · rfl
  · next hname =>
    refine congrArg Except.ok (ext_account? (fun id => ?_) rfl rfl rfl rfl)
    rw [account?_veiled]
    cases id with
    | guest index => exact account?_veiled d user (.guest index)
    | member other =>
      simp only [account?, member?, Std.ExtTreeMap.getElem?_insert]
      split
      · -- nothing waits for somebody new
        simp [Account.veiled]
      · exact member?_veiled d user other

theorem login_veiled (id : AccountId) (c : ConnectionId) :
    (d.login id c).veiled user = (d.veiled user).login id c := by
  have hconnect : ∀ a : Account,
      (a.connect c).veiled user id = (a.veiled user id).connect c := by
    intro a
    simp [Account.veiled, Account.connect]
  unfold login
  rw [← update_veiled d user hconnect]
  rfl

theorem logout_veiled (c : ConnectionId) :
    (d.logout c).veiled user = (d.veiled user).logout c := by
  unfold logout
  rw [sessions_veiled]
  cases d.sessions[c]? with
  | none => rfl
  | some id =>
    dsimp only
    rw [← update_veiled d user (f := Account.disconnect) fun _ => rfl]
    rfl

/-! ### The follow graph -/

-- Names, numbers and ties are not behind the veil.  So the conditions below are the same on
-- both sides by unfolding, though they are not written the same.

theorem unlink?_veiled (follower followed : AccountId) :
    (d.veiled user).unlink? follower followed
      = (d.unlink? follower followed).map (·.veiled user) := by
  unfold unlink?
  rw [account?_veiled, account?_veiled]
  cases d.account? follower with
  | none => rfl
  | some a =>
    cases d.account? followed with
    | none => rfl
    | some b =>
      simp only [Option.map_some, Option.bind_eq_bind, Option.bind_some]
      by_cases h : b.name ∈ a.following
      · have hchanged : ((d.update follower (Account.stopFollowing b.name)).update followed
              (Account.loseFollower a.name)).veiled user
            = ((d.veiled user).update follower (Account.stopFollowing b.name)).update followed
              (Account.loseFollower a.name) :=
          update_update_veiled d user (fun _ => rfl) fun _ => rfl
        rw [if_pos h, Option.map_some, hchanged]
        exact if_pos h
      · rw [if_neg h]
        exact if_neg h

theorem follow?_veiled (actor : AccountId) (target : String) :
    (d.veiled user).follow? actor target = (d.follow? actor target).map (·.veiled user) := by
  unfold follow?
  rw [account?_veiled, member?_veiled]
  cases d.account? actor with
  | none => rfl
  | some a =>
    cases d.member? target with
    | none => rfl
    | some b =>
      simp only [Option.map_some, Option.bind_eq_bind, Option.bind_some]
      by_cases h : b.name ∈ a.blockedBy ∨ a.number = b.number ∨ b.name ∈ a.following
      · rw [if_pos h]
        exact if_pos h
      · have hchanged : ((d.update actor (Account.startFollowing b.name)).update (.member target)
              (Account.gainFollower a.name)).veiled user
            = ((d.veiled user).update actor (Account.startFollowing b.name)).update (.member target)
              (Account.gainFollower a.name) :=
          update_update_veiled d user (fun _ => rfl) fun _ => rfl
        rw [if_neg h, Option.map_some, hchanged]
        exact if_neg h

theorem unfollow?_veiled (actor : AccountId) (target : String) :
    (d.veiled user).unfollow? actor target
      = (d.unfollow? actor target).map (·.veiled user) := by
  unfold unfollow?
  rw [account?_veiled, member?_veiled, unlink?_veiled]
  cases d.account? actor with
  | none => rfl
  | some a =>
    cases d.member? target with
    | none => rfl
    | some b =>
      simp only [Option.map_some, Option.bind_eq_bind, Option.bind_some]
      by_cases h : a.number = b.number
      · rw [if_pos h]
        exact if_pos h
      · rw [if_neg h]
        exact if_neg h

theorem getD_unlink?_veiled (follower followed : AccountId) :
    ((d.veiled user).unlink? follower followed).getD (d.veiled user)
      = ((d.unlink? follower followed).getD d).veiled user := by
  rw [unlink?_veiled]
  cases d.unlink? follower followed <;> rfl

theorem block_veiled (blocker target : AccountId) :
    (d.block blocker target).veiled user = (d.veiled user).block blocker target := by
  unfold block
  rw [account?_veiled, account?_veiled]
  cases d.account? blocker with
  | none => rfl
  | some a =>
    cases d.account? target with
    | none => rfl
    | some b =>
      have hblocked : (d.update target (Account.addBlock a.name)).veiled user
          = (d.veiled user).update target (Account.addBlock a.name) :=
        update_veiled d user fun _ => rfl
      simp only [Option.map_some]
      by_cases h : a.number = b.number
      · rw [if_pos h, hblocked]
        exact (if_pos h).symm
      · rw [if_neg h, ← getD_unlink?_veiled, ← getD_unlink?_veiled, hblocked]
        exact (if_neg h).symm

/-! ### Delivery -/

theorem deliver_veiled (accepts : ConnectionId → Bool) (n : Notification) (id : AccountId) :
    (d.veiled user).deliver accepts (n.veiledFor user id) id
      = ((d.deliver accepts n id).1, (d.deliver accepts n id).2.veiled user) := by
  unfold deliver
  rw [account?_veiled, Option.bind_map]
  have hlive : (Account.liveOn · accepts) ∘ Account.veiled user id = (Account.liveOn · accepts) :=
    rfl
  rw [hlive]
  cases (d.account? id).bind (Account.liveOn · accepts) with
  | some c => rfl
  | none => exact congrArg (none, ·) (update_veiled d user (Account.veiled_queue user id n)).symm

/-- A post is not private. -/
theorem deliverAll_veiled (accepts : ConnectionId → Bool) {n : Notification}
    (hn : n.veiled = n) (names : List String) :
    (d.veiled user).deliverAll accepts n names
      = ((d.deliverAll accepts n names).1, (d.deliverAll accepts n names).2.veiled user) := by
  induction names generalizing d with
  | nil => rfl
  | cons name names ih =>
    have hfirst := deliver_veiled d user accepts n (.member name)
    rw [Notification.veiledFor, hn, ite_self] at hfirst
    rw [deliverAll, hfirst, ih]
    rfl

theorem audience_veiled (id : AccountId) (author : Account) (content : String) :
    (d.veiled user).audience (author.veiled user id) content = d.audience author content := by
  simp only [audience, mem_members_veiled]
  rfl

/-! ### Statistics -/

theorem postCount_veiled (name : String) :
    (d.veiled user).postCount name = d.postCount name := by
  simp only [postCount, history_veiled, Array.countP_map]
  refine congrArg (Array.countP · d.history) (funext fun n => ?_)
  simp

theorem statsOf_veiled (id : AccountId) (a : Account) :
    (d.veiled user).statsOf (a.veiled user id) = d.statsOf a := by
  simp only [statsOf, Account.veiled, postCount_veiled]

theorem map_statsOf_visibleTo_veiled (id : AccountId) (caller : Account) :
    ((d.veiled user).visibleTo (caller.veiled user id)).map (d.veiled user).statsOf
      = (d.visibleTo caller).map d.statsOf := by
  simp only [visibleTo, List.map_filterMap, roll_veiled, member?_veiled, Option.map_map]
  refine congrArg (List.filterMap · _) (funext fun name => ?_)
  exact congrArg (Option.map · (d.member? name)) (funext fun a => statsOf_veiled d user _ a)

/-- The accounts named are found or not, and whatever the veil leaves to be told of an
account is told of each. -/
theorem lookup_veiled {κ : Type} {key key' : Account → κ}
    (hkey : ∀ name a, key' (a.veiled user (.member name)) = key a) (names : List String) :
    ((d.veiled user).lookup names).map (List.map key') = (d.lookup names).map (List.map key) := by
  induction names with
  | nil => rfl
  | cons name names ih =>
    rw [lookup_cons, lookup_cons, member?_veiled]
    cases d.member? name with
    | none => rfl
    | some a =>
      have hcons : ∀ (f : Account → κ) (x : Account) (found : Except Rejection (List Account)),
          (found.map (x :: ·)).map (List.map f) = (found.map (List.map f)).map (f x :: ·) := by
        rintro f x (why | accounts) <;> rfl
      simp only [Option.map_some]
      rw [hcons, hcons, ih, hkey]

/-- What is shown of the accounts named, without those that are hidden. -/
theorem map_statsOf_lookup_veiled (names : List String) (hidden : Names) :
    ((d.veiled user).lookup names).map
        (fun accounts => (accounts.filter fun a => a.name ∉ hidden).map (d.veiled user).statsOf)
      = (d.lookup names).map
        (fun accounts => (accounts.filter fun a => a.name ∉ hidden).map d.statsOf) := by
  -- names and statistics tell what is shown
  have hshown : ∀ (d' : Directory) (found : Except Rejection (List Account)),
      found.map (fun accounts => (accounts.filter fun a => a.name ∉ hidden).map d'.statsOf)
        = (found.map (List.map fun a => (a.name, d'.statsOf a))).map
          fun shown => (shown.filter fun s => s.1 ∉ hidden).map Prod.snd := by
    rintro d' (why | accounts)
    · rfl
    · simp only [Except.map, List.filter_map, List.map_map]
      rfl
  rw [hshown, hshown, lookup_veiled]
  exact fun name a => Prod.ext rfl (statsOf_veiled d user _ a)

end

end Directory

/-! ### Commands -/

/-- What is sent to somebody, without what is private to the user who is on `own`. -/
def Reply.veiledOn (own : Option ConnectionId) (item : ConnectionId × Reply) :
    ConnectionId × Reply :=
  (item.1, if own = some item.1 then item.2.veiled else item.2)

/-- The effect, without what is private to `user`. -/
def Effect.veiled (e : Effect) (user : String) : Effect where
  directory := e.directory.veiled user
  outgoing := e.outgoing.map (Reply.veiledOn (e.directory.connectionOf user))
  closes := e.closes

theorem Effect.veiled_congr {e e' : Effect} {user : String}
    (hd : e'.directory.veiled user = e.directory.veiled user)
    (houtgoing : e'.outgoing.map (Reply.veiledOn (e.directory.connectionOf user))
      = e.outgoing.map (Reply.veiledOn (e.directory.connectionOf user)))
    (hcloses : e'.closes = e.closes) : e'.veiled user = e.veiled user := by
  -- where the user is logged in can be seen through the veil
  have hown : e'.directory.connectionOf user = e.directory.connectionOf user := by
    rw [← Directory.connectionOf_veiled e'.directory user, hd, Directory.connectionOf_veiled]
  rw [veiled, veiled, hd, hown, houtgoing, hcloses]

/-- An effect on a directory behind the veil, if it sends the same. -/
theorem Effect.veiled_of_directory (d : Directory) (user : String)
    (outgoing : List (ConnectionId × Reply)) (closes : Bool) :
    Effect.veiled ⟨d.veiled user, outgoing, closes⟩ user = veiled ⟨d, outgoing, closes⟩ user :=
  veiled_congr (d.veiled_veiled user) rfl rfl

section

variable (d : Directory) (user : String) (filter : ContentFilter) (accepts : ConnectionId → Bool)
  (c : ConnectionId) (ack : Ack)

theorem executeLogin_veiled (name password : String) (captcha : UInt8) :
    (executeLogin (d.veiled user) c ack name password captcha).map (·.veiled user)
      = (executeLogin d c ack name password captcha).map (·.veiled user) := by
  unfold executeLogin
  rw [Directory.sessions_veiled, Directory.member?_veiled]
  by_cases hc : c ∈ d.sessions
  · rw [if_pos hc, if_pos hc]
  rw [if_neg hc, if_neg hc]
  by_cases hcaptcha : captcha = refusedCaptcha
  · rw [if_pos hcaptcha, if_pos hcaptcha]
  rw [if_neg hcaptcha, if_neg hcaptcha]
  cases ha : d.member? name with
  | none => rfl
  | some a =>
    -- the password and the flag are not behind the veil either
    simp only [Option.map_some]
    by_cases hpassword : a.password ≠ password
    · rw [if_pos hpassword]
      exact congrArg (Except.map _) (if_pos hpassword)
    rw [if_neg hpassword]
    refine (congrArg (Except.map _) (if_neg hpassword)).trans ?_
    by_cases hconnected : a.isConnected
    · rw [if_pos hconnected]
      exact congrArg (Except.map _) (if_pos hconnected)
    rw [if_neg hconnected]
    refine (congrArg (Except.map _) (if_neg hconnected)).trans (congrArg Except.ok ?_)
    refine Effect.veiled_congr ?_ ?_ rfl
    · rw [← Directory.login_veiled, Directory.veiled_veiled]
    by_cases hname : name = user
    · -- what has waited goes to whom it is for
      have hown : (d.login (.member name) c).connectionOf user = some c := by
        rw [Directory.connectionOf_login (Directory.mem_members_of_member? ha), if_pos hname]
      dsimp only
      rw [hown, List.map_cons, List.map_cons, List.map_map, List.map_map, Account.veiled,
        hname, if_pos rfl, List.map_map]
      refine congrArg _ (List.map_congr_left fun n _ => ?_)
      simp [Reply.veiledOn, Reply.veiled]
    · have hother : AccountId.member name ≠ .member user := fun h => hname (AccountId.member.inj h)
      rw [Account.veiled_of_ne hother]

/-- A private message that is delivered, or queued, and written down. -/
theorem Effect.veiled_written (n : Notification) (name : String) :
    let delivered := d.deliver accepts n (.member name)
    let n' := n.veiledFor user (.member name)
    Effect.veiled
        ⟨(delivered.2.veiled user).record n',
          (delivered.1.toList.map fun reader => (reader, .notification n')) ++ [(c, .ack ack)],
          false⟩ user
      = Effect.veiled
        ⟨delivered.2.record n,
          (delivered.1.toList.map fun reader => (reader, .notification n)) ++ [(c, .ack ack)],
          false⟩ user := by
  intro delivered n'
  refine veiled_congr ?_ ?_ rfl
  · rw [Directory.record_veiled, Directory.record_veiled, Directory.veiled_veiled,
      Notification.veiled_veiledFor]
  by_cases hname : name = user
  · -- the only reader there can be is the user
    have hown : ∀ reader ∈ delivered.1.toList,
        (delivered.2.record n).connectionOf user = some reader := by
      intro reader hreader
      have hlive : d.liveOn accepts user = some reader := by
        rw [← hname, ← Directory.deliver_fst d accepts n name]
        exact Option.mem_toList.mp hreader
      rw [(Directory.keeps_record Account.connection delivered.2 n).connectionOf,
        (Directory.keeps_deliver (fun _ => rfl) d accepts _).connectionOf]
      exact (Option.filter_eq_some_iff.mp hlive).1
    rw [List.map_append, List.map_append, List.map_map, List.map_map]
    refine congrArg (· ++ _) (List.map_congr_left fun reader hreader => ?_)
    have hreader := hown reader hreader
    simp [Reply.veiledOn, Reply.veiled, hreader, n']
  · have hother : AccountId.member name ≠ .member user := fun h => hname (AccountId.member.inj h)
    have hn : n' = n := if_neg hother
    rw [hn]

theorem executePm_veiled (name content : String) :
    (executePm (d.veiled user) filter accepts c ack name
        (if name = user then "" else content)).map (·.veiled user)
      = (executePm d filter accepts c ack name content).map (·.veiled user) := by
  unfold executePm
  rw [Directory.sessionOn_veiled, Directory.member?_veiled]
  cases d.sessionOn c with
  | none => rfl
  | some s =>
    cases d.member? name with
    | none => rfl
    | some b =>
      have hn : (⟨.pm, s.2.name, filter.apply (if name = user then "" else content)⟩ : Notification)
          = Notification.veiledFor user (.member name) ⟨.pm, s.2.name, filter.apply content⟩ := by
        by_cases hname : name = user <;> simp [Notification.veiledFor, hname]
      simp only [Option.map_some]
      by_cases hblocked : s.2.name ∈ b.blockedBy
      · rw [if_pos hblocked]
        exact congrArg (Except.map _) (if_pos hblocked)
      rw [if_neg hblocked]
      refine (congrArg (Except.map _) (if_neg hblocked)).trans (congrArg Except.ok ?_)
      simp only [Account.name_veiled, hn, Directory.deliver_veiled]
      exact Effect.veiled_written d user accepts c ack _ name

theorem executeFollow_veiled (direction : Bool) (name : String) :
    (executeFollow (d.veiled user) c ack direction name).map (·.veiled user)
      = (executeFollow d c ack direction name).map (·.veiled user) := by
  unfold executeFollow
  rw [Directory.sessionOn_veiled]
  cases d.sessionOn c with
  | none => rfl
  | some s =>
    have hchanged : (if direction then (d.veiled user).follow? s.1 name
          else (d.veiled user).unfollow? s.1 name)
        = (if direction then d.follow? s.1 name else d.unfollow? s.1 name).map
          (·.veiled user) := by
      cases direction with
      | true => exact d.follow?_veiled user s.1 name
      | false => exact d.unfollow?_veiled user s.1 name
    simp only [Option.map_some, hchanged]
    cases if direction then d.follow? s.1 name else d.unfollow? s.1 name with
    | none => rfl
    | some d' => exact congrArg Except.ok (Effect.veiled_of_directory d' user _ false)

theorem executePost_veiled (content : String) :
    (executePost (d.veiled user) accepts c ack content).map (·.veiled user)
      = (executePost d accepts c ack content).map (·.veiled user) := by
  unfold executePost
  rw [Directory.sessionOn_veiled]
  cases d.sessionOn c with
  | none => rfl
  | some s =>
    have hpost := Notification.veiled_post s.2.name content
    simp only [Option.map_some, Account.name_veiled, Directory.audience_veiled,
      Directory.deliverAll_veiled d user accepts hpost]
    refine congrArg Except.ok (Effect.veiled_congr ?_ rfl rfl)
    rw [Directory.record_veiled, Directory.record_veiled, Directory.veiled_veiled]

theorem executeStat_veiled (names : List String) :
    (executeStat (d.veiled user) c ack names).map (·.veiled user)
      = (executeStat d c ack names).map (·.veiled user) := by
  unfold executeStat
  rw [Directory.sessionOn_veiled]
  cases d.sessionOn c with
  | none => rfl
  | some s =>
    have hshown := d.map_statsOf_lookup_veiled user names s.2.blockedBy
    simp only [Option.map_some]
    -- all are found on both sides, or the same name is missing
    cases h' : (d.veiled user).lookup names with
    | error why' =>
      cases h : d.lookup names with
      | error why =>
        rw [h', h] at hshown
        exact congrArg Except.error (Except.error.inj hshown)
      | ok accounts =>
        rw [h', h] at hshown
        cases hshown
    | ok accounts' =>
      cases h : d.lookup names with
      | error why =>
        rw [h', h] at hshown
        cases hshown
      | ok accounts =>
        rw [h', h] at hshown
        refine congrArg Except.ok (Effect.veiled_congr (d.veiled_veiled user) ?_ rfl)
        exact congrArg (fun entries => [(c, Reply.ack { ack with body := .stats entries })].map _)
          (Except.ok.inj hshown)

theorem executeBlock_veiled (name : String) :
    (executeBlock (d.veiled user) c ack name).map (·.veiled user)
      = (executeBlock d c ack name).map (·.veiled user) := by
  unfold executeBlock
  rw [Directory.sessionOn_veiled, Directory.member?_veiled]
  cases d.sessionOn c with
  | none => rfl
  | some s =>
    cases d.member? name with
    | none => rfl
    | some b =>
      simp only [Option.map_some]
      rw [← Directory.block_veiled]
      exact congrArg Except.ok (Effect.veiled_of_directory _ user _ false)

/-- **Commands do the same behind a veil.**  A command that is refused is refused for the
same reason, and one that is carried out has the same effect, but for what is private to
the user; and it need not even be known what the command tells the user in private. -/
theorem Command.execute_veiled (command : Command) :
    ((command.veiled user).execute (d.veiled user) filter accepts c).map (·.veiled user)
      = (command.execute d filter accepts c).map (·.veiled user) := by
  cases command with
  | register name password born =>
    simp only [veiled, execute, executeRegister, Directory.register_veiled]
    cases d.register name password born with
    | error why => rfl
    | ok d' => exact congrArg Except.ok (Effect.veiled_of_directory d' user _ false)
  | login name password captcha => exact executeLogin_veiled d user c _ name password captcha
  | logout =>
    simp only [veiled, execute, executeLogout]
    rw [Directory.sessions_veiled, ← Directory.logout_veiled]
    split
    · rfl
    · exact congrArg Except.ok (Effect.veiled_of_directory (d.logout c) user _ true)
  | follow direction name => exact executeFollow_veiled d user c _ direction name
  | post content => exact executePost_veiled d user accepts c _ content
  | pm name content => exact executePm_veiled d user filter accepts c _ name content
  | logStat =>
    simp only [veiled, execute, executeLogStat, Directory.sessionOn_veiled]
    cases d.sessionOn c with
    | none => rfl
    | some s =>
      simp only [Option.map_some, Directory.map_statsOf_visibleTo_veiled]
      exact congrArg Except.ok (Effect.veiled_of_directory d user _ false)
  | stat names => exact executeStat_veiled d user c _ names
  | block name => exact executeBlock_veiled d user c _ name

end

section

variable {d : Directory} {filter : ContentFilter} {accepts : ConnectionId → Bool}
  {c : ConnectionId} {command : Command}

theorem Command.execute_veiled_eq_ok {e : Effect} (h : command.execute d filter accepts c = .ok e)
    (user : String) :
    ∃ e', (command.veiled user).execute (d.veiled user) filter accepts c = .ok e' ∧
      e'.veiled user = e.veiled user := by
  have hsame := execute_veiled d user filter accepts c command
  rw [h] at hsame
  cases hx : (command.veiled user).execute (d.veiled user) filter accepts c with
  | error why =>
    rw [hx] at hsame
    cases hsame
  | ok e' =>
    rw [hx] at hsame
    exact ⟨e', rfl, Except.ok.inj hsame⟩

theorem Command.execute_veiled_eq_error {why : Rejection}
    (h : command.execute d filter accepts c = .error why) (user : String) :
    (command.veiled user).execute (d.veiled user) filter accepts c = .error why := by
  have hsame := execute_veiled d user filter accepts c command
  rw [h] at hsame
  cases hx : (command.veiled user).execute (d.veiled user) filter accepts c with
  | error why' =>
    rw [hx] at hsame
    exact congrArg Except.error (Except.error.inj hsame)
  | ok e' =>
    rw [hx] at hsame
    cases hsame

end

end Microblog
