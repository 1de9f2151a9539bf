import Microblog.Execution

/-!
# When commands are carried out, and what they do then

For each command the condition under which it is carried out and its whole effect,
as one equivalence.  Whatever is proved of commands later starts from these, so the
order in which a command makes its checks is looked at nowhere else.

## Main definitions

* `Command.Sends` — what a command may send, and to whom.

## Main results

* `executeRegister_eq_ok_iff`, …, `executeBlock_eq_ok_iff` — one for each command.
* `Directory.sessionOn_eq_some_iff`, `Directory.register_eq_ok_iff`,
  `Directory.follow?_eq_some_iff`, `Directory.unlink?_eq_some_iff`,
  `Directory.unfollow?_eq_some_iff` — the same for what the commands rest on.
* `Command.sends_of_mem_outgoing` — what a command that is carried out sends.
-/

namespace Microblog

namespace Directory

variable {d d' : Directory}

theorem sessionOn_eq_some_iff {c : ConnectionId} {id : AccountId} {a : Account} :
    d.sessionOn c = some (id, a) ↔ d.sessions[c]? = some id ∧ d.account? id = some a := by
  cases hs : d.sessions[c]? with
  | none => simp [sessionOn, hs]
  | some other =>
    cases ha : d.account? other with
    | none =>
      simp only [sessionOn, hs, ha, Option.bind_eq_bind, Option.bind_some, Option.bind_none,
        reduceCtorEq, Option.some.injEq, false_iff, not_and]
      rintro rfl
      simp [ha]
    | some b =>
      simp only [sessionOn, hs, ha, Option.bind_eq_bind, Option.bind_some, Option.pure_def,
        Option.some.injEq, Prod.mk.injEq]
      constructor
      · rintro ⟨rfl, rfl⟩
        exact ⟨rfl, ha⟩
      · rintro ⟨rfl, hb⟩
        exact ⟨rfl, by simpa [ha] using hb⟩

/-- A name is registered unless it is taken; the account is the first one with the
number that is next. -/
theorem register_eq_ok_iff {name password : String} {born : BirthDate} :
    d.register name password born = .ok d' ↔
      name ∉ d.members ∧
        d' = { d with
          members := d.members.insert name
            { name, password, number := d.roll.size, age := ageOn d.today born }
          roll := d.roll.push name } := by
  unfold register
  split
  · next h => simp [h]
  · next h => simp [h, eq_comm]

theorem unlink?_eq_some_iff {follower followed : AccountId} :
    d.unlink? follower followed = some d' ↔
      ∃ a b, d.account? follower = some a ∧ d.account? followed = some b ∧ b.name ∈ a.following ∧
        d' = (d.update follower (Account.stopFollowing b.name)).update followed
          (Account.loseFollower a.name) := by
  cases ha : d.account? follower with
  | none => simp [unlink?, ha]
  | some a =>
    cases hb : d.account? followed with
    | none => simp [unlink?, ha, hb]
    | some b => by_cases h : b.name ∈ a.following <;> simp [unlink?, ha, hb, h, eq_comm]

theorem follow?_eq_some_iff {actor : AccountId} {target : String} :
    d.follow? actor target = some d' ↔
      ∃ a b, d.account? actor = some a ∧ d.member? target = some b ∧ b.name ∉ a.blockedBy ∧
        a.number ≠ b.number ∧ b.name ∉ a.following ∧
        d' = (d.update actor (Account.startFollowing b.name)).update (.member target)
          (Account.gainFollower a.name) := by
  cases ha : d.account? actor with
  | none => simp [follow?, ha]
  | some a =>
    cases hb : d.member? target with
    | none => simp [follow?, ha, hb]
    | some b =>
      by_cases h₁ : b.name ∈ a.blockedBy <;> by_cases h₂ : a.number = b.number <;>
        by_cases h₃ : b.name ∈ a.following <;> simp [follow?, ha, hb, h₁, h₂, h₃, eq_comm]

theorem unfollow?_eq_some_iff {actor : AccountId} {target : String} :
    d.unfollow? actor target = some d' ↔
      ∃ a b, d.account? actor = some a ∧ d.member? target = some b ∧ a.number ≠ b.number ∧
        b.name ∈ a.following ∧
        d' = (d.update actor (Account.stopFollowing b.name)).update (.member target)
          (Account.loseFollower a.name) := by
  cases ha : d.account? actor with
  | none => simp [unfollow?, ha]
  | some a =>
    cases hb : d.member? target with
    | none => simp [unfollow?, ha, hb]
    | some b =>
      by_cases h : a.number = b.number <;> simp [unfollow?, unlink?_eq_some_iff, ha, hb, h]

/-- Names are looked up one after another, up to the first that is nobody's. -/
theorem lookup_cons (d : Directory) (name : String) (names : List String) :
    d.lookup (name :: names)
      = match d.member? name with
        | none => .error (.unknownUser name)
        | some account => (d.lookup names).map (account :: ·) := by
  rw [lookup, List.mapM_cons]
  cases d.member? name with
  | none => rfl
  | some account => rfl

end Directory

section

variable {d : Directory} {filter : ContentFilter} {accepts : ConnectionId → Bool}
  {c : ConnectionId} {ack : Ack} {e : Effect}

theorem executeRegister_eq_ok_iff {name password : String} {born : BirthDate} :
    executeRegister d c ack name password born = .ok e ↔
      ∃ d', d.register name password born = .ok d' ∧
        e = { directory := d', outgoing := [(c, .ack ack)] } := by
  unfold executeRegister
  cases d.register name password born <;> simp [eq_comm]

theorem executeLogin_eq_ok_iff {name password : String} {captcha : UInt8} :
    executeLogin d c ack name password captcha = .ok e ↔
      c ∉ d.sessions ∧ captcha ≠ refusedCaptcha ∧
        ∃ a, d.member? name = some a ∧ a.password = password ∧ a.isConnected = false ∧
          e = { directory := d.login (.member name) c
                outgoing := (c, .ack ack) :: a.pending.map fun n => (c, .notification n) } := by
  unfold executeLogin
  by_cases hc : c ∈ d.sessions
  · simp [hc]
  by_cases hcaptcha : captcha = refusedCaptcha
  · simp [hc, hcaptcha]
  cases ha : d.member? name with
  | none => simp [hc, hcaptcha]
  | some a =>
    rw [if_neg hc, if_neg hcaptcha]
    constructor
    · intro h
      by_cases hp : a.password = password
      · cases hi : a.isConnected <;> simp [hp, hi] at h
        exact ⟨hc, hcaptcha, a, rfl, hp, hi, h.symm⟩
      · simp [hp] at h
    · rintro ⟨-, -, b, hb, hp, hi, rfl⟩
      cases hb
      simp [hp, hi]

theorem executeLogout_eq_ok_iff :
    executeLogout d c ack = .ok e ↔
      d.sessions.isEmpty = false ∧
        e = { directory := d.logout c, outgoing := [(c, .ack ack)], closes := true } := by
  unfold executeLogout
  cases d.sessions.isEmpty <;> simp [eq_comm]

theorem executeFollow_eq_ok_iff {follow : Bool} {name : String} :
    executeFollow d c ack follow name = .ok e ↔
      ∃ id a d', d.sessionOn c = some (id, a) ∧
        (if follow then d.follow? id name else d.unfollow? id name) = some d' ∧
        e = { directory := d', outgoing := [(c, .ack ack)] } := by
  unfold executeFollow
  cases hs : d.sessionOn c with
  | none => simp
  | some s =>
    obtain ⟨id, a⟩ := s
    cases hf : if follow then d.follow? id name else d.unfollow? id name with
    | none => simp [hf]
    | some d' => simp [hf, eq_comm]

theorem executePost_eq_ok_iff {content : String} :
    executePost d accepts c ack content = .ok e ↔
      ∃ id author, d.sessionOn c = some (id, author) ∧
        let n : Notification := ⟨.post, author.name, content⟩
        let delivered := d.deliverAll accepts n (d.audience author content)
        e = { directory := delivered.2.record n
              outgoing :=
                (delivered.1.map fun reader => (reader, .notification n)) ++ [(c, .ack ack)] } := by
  unfold executePost
  cases hs : d.sessionOn c with
  | none => simp
  | some s =>
    constructor
    · intro h
      exact ⟨s.1, s.2, rfl, (Except.ok.inj h).symm⟩
    · rintro ⟨id, author, hs', rfl⟩
      cases hs'
      rfl

theorem executePm_eq_ok_iff {name content : String} :
    executePm d filter accepts c ack name content = .ok e ↔
      ∃ id author recipient, d.sessionOn c = some (id, author) ∧
        d.member? name = some recipient ∧ author.name ∉ recipient.blockedBy ∧
        let n : Notification := ⟨.pm, author.name, filter.apply content⟩
        let delivered := d.deliver accepts n (.member name)
        e = { directory := delivered.2.record n
              outgoing :=
                (delivered.1.toList.map fun reader => (reader, .notification n)) ++
                  [(c, .ack ack)] } := by
  unfold executePm
  cases hs : d.sessionOn c with
  | none => simp
  | some s =>
    cases hr : d.member? name with
    | none => simp
    | some recipient =>
      constructor
      · intro h
        by_cases hb : s.2.name ∈ recipient.blockedBy
        · simp [hb] at h
        · simp only [hb, if_false, Except.ok.injEq] at h
          exact ⟨s.1, s.2, recipient, rfl, rfl, hb, h.symm⟩
      · rintro ⟨id, author, recipient', hs', hr', hb, rfl⟩
        cases hs'
        cases hr'
        simp [hb]

theorem executeLogStat_eq_ok_iff :
    executeLogStat d c ack = .ok e ↔
      ∃ id caller, d.sessionOn c = some (id, caller) ∧
        e = { directory := d
              outgoing :=
                [(c, .ack { ack with body := .stats ((d.visibleTo caller).map d.statsOf) })] } := by
  unfold executeLogStat
  cases hs : d.sessionOn c with
  | none => simp
  | some s =>
    constructor
    · intro h
      exact ⟨s.1, s.2, rfl, (Except.ok.inj h).symm⟩
    · rintro ⟨id, caller, hs', rfl⟩
      cases hs'
      rfl

theorem executeStat_eq_ok_iff {names : List String} :
    executeStat d c ack names = .ok e ↔
      ∃ id caller accounts, d.sessionOn c = some (id, caller) ∧ d.lookup names = .ok accounts ∧
        let shown := accounts.filter fun a => a.name ∉ caller.blockedBy
        e = { directory := d
              outgoing := [(c, .ack { ack with body := .stats (shown.map d.statsOf) })] } := by
  unfold executeStat
  cases hs : d.sessionOn c with
  | none => simp
  | some s =>
    cases hl : d.lookup names with
    | error why => simp
    | ok accounts =>
      constructor
      · intro h
        exact ⟨s.1, s.2, accounts, rfl, rfl, (Except.ok.inj h).symm⟩
      · rintro ⟨id, caller, accounts', hs', hl', rfl⟩
        cases hs'
        cases hl'
        rfl

theorem executeBlock_eq_ok_iff {name : String} :
    executeBlock d c ack name = .ok e ↔
      ∃ id blocker target, d.sessionOn c = some (id, blocker) ∧ d.member? name = some target ∧
        e = { directory := d.block id (.member name), outgoing := [(c, .ack ack)] } := by
  unfold executeBlock
  cases hs : d.sessionOn c with
  | none => simp
  | some s =>
    obtain ⟨id, blocker⟩ := s
    cases hr : d.member? name with
    | none => simp
    | some target => simp [eq_comm]

end

/-! ### What commands send -/

/-- What the connection `c` may have a command send, and to whom. -/
inductive Command.Sends (d : Directory) (filter : ContentFilter) (c : ConnectionId) :
    Command → ConnectionId × Reply → Prop where
  /-- The acknowledgement that the command calls for. -/
  | ack (command : Command) : Sends d filter c command (c, .ack command.ack)
  /-- The acknowledgement, with the statistics that are asked for. -/
  | stats {command : Command} (entries : List Stats) : command.ack.body = .stats [] →
    Sends d filter c command (c, .ack { command.ack with body := .stats entries })
  /-- What has waited for whoever logs in. -/
  | waiting {name password : String} {captcha : UInt8} {a : Account} {n : Notification} :
    d.member? name = some a → n ∈ a.pending →
    Sends d filter c (.login name password captcha) (c, .notification n)
  /-- A post, to a reader. -/
  | post {content : String} {id : AccountId} {author : Account} (reader : ConnectionId) :
    d.sessionOn c = some (id, author) →
    Sends d filter c (.post content) (reader, .notification ⟨.post, author.name, content⟩)
  /-- A private message, redacted, to its reader. -/
  | pm {name content : String} {id : AccountId} {author : Account} (reader : ConnectionId) :
    d.sessionOn c = some (id, author) →
    Sends d filter c (.pm name content)
      (reader, .notification ⟨.pm, author.name, filter.apply content⟩)

/-- **What a command that is carried out sends.** -/
theorem Command.sends_of_mem_outgoing {d : Directory} {filter : ContentFilter}
    {accepts : ConnectionId → Bool} {c : ConnectionId} {command : Command} {e : Effect}
    (h : command.execute d filter accepts c = .ok e) {item : ConnectionId × Reply}
    (hitem : item ∈ e.outgoing) : Sends d filter c command item := by
  have hack : ∀ {command : Command}, item ∈ [(c, Reply.ack command.ack)] →
      Sends d filter c command item := by
    intro command hmem
    rw [List.mem_singleton.mp hmem]
    exact .ack command
  have hstats : ∀ {command : Command} {entries : List Stats}, command.ack.body = .stats [] →
      item ∈ [(c, Reply.ack { command.ack with body := .stats entries })] →
      Sends d filter c command item := by
    intro command entries hbody hmem
    rw [List.mem_singleton.mp hmem]
    exact .stats entries hbody
  have hsaid : ∀ {command : Command} {readers : List ConnectionId} {n : Notification},
      (∀ reader, Sends d filter c command (reader, .notification n)) →
      item ∈ (readers.map fun reader => (reader, Reply.notification n))
        ++ [(c, .ack command.ack)] → Sends d filter c command item := by
    intro command readers n hreader hmem
    rcases List.mem_append.mp hmem with hmem | hmem
    · obtain ⟨reader, -, rfl⟩ := List.mem_map.mp hmem
      exact hreader reader
    · exact hack hmem
  cases command with
  | register name password born =>
    obtain ⟨d', -, rfl⟩ := executeRegister_eq_ok_iff.mp h
    exact hack hitem
  | login name password captcha =>
    obtain ⟨-, -, a, ha, -, -, rfl⟩ := executeLogin_eq_ok_iff.mp h
    rcases List.mem_cons.mp hitem with rfl | hitem
    · exact .ack _
    · obtain ⟨n, hn, rfl⟩ := List.mem_map.mp hitem
      exact .waiting ha hn
  | logout =>
    obtain ⟨-, rfl⟩ := executeLogout_eq_ok_iff.mp h
    exact hack hitem
  | follow direction name =>
    obtain ⟨id, a, d', -, -, rfl⟩ := executeFollow_eq_ok_iff.mp h
    exact hack hitem
  | post content =>
    obtain ⟨id, author, hauthor, rfl⟩ := executePost_eq_ok_iff.mp h
    exact hsaid (fun reader => .post reader hauthor) hitem
  | pm name content =>
    obtain ⟨id, author, recipient, hauthor, -, -, rfl⟩ := executePm_eq_ok_iff.mp h
    exact hsaid (fun reader => .pm reader hauthor) hitem
  | logStat =>
    obtain ⟨id, caller, -, rfl⟩ := executeLogStat_eq_ok_iff.mp h
    exact hstats rfl hitem
  | stat names =>
    obtain ⟨id, caller, accounts, -, -, rfl⟩ := executeStat_eq_ok_iff.mp h
    exact hstats rfl hitem
  | block name =>
    obtain ⟨id, blocker, target, -, -, rfl⟩ := executeBlock_eq_ok_iff.mp h
    exact hack hitem

end Microblog
