import Microblog.Proofs.Confinement

/-!
# Sending a notification out

A POST and a PM end in the same way.  A notification goes to some members, one after
another, enters the history, and an acknowledgement goes to the connection that the
command came from.  What comes of it depends only on how often each member is named: who is
logged in on a connection that takes messages gets that many copies there, for anybody else
they wait.  The order in which the members are named makes no difference, because a
connection has one user at most.

## Main definitions

* `Directory.dispatch` — a notification for some members, as the effect of a command.
* `Service.Dispatches` — what that leaves behind, account by account and channel by channel.

## Main results

* `Service.dispatches_apply` — **each member gets as many copies as it is named times.**
* `Service.apply_dispatch_of_perm` — the order of the names does not matter.
* `executePost_eq_dispatch`, `executePm_eq_dispatch` — POST and PM are such effects.
-/

namespace Microblog

namespace Directory

/-- A notification for some members, recorded in the history, and an acknowledgement for the
connection `c` behind it. -/
def dispatch (d : Directory) (accepts : ConnectionId → Bool) (c : ConnectionId) (ack : Ack)
    (n : Notification) (names : List String) : Effect :=
  let delivered := d.deliverAll accepts n names
  { directory := delivered.2.record n
    outgoing := (delivered.1.map fun reader => (reader, .notification n)) ++ [(c, .ack ack)] }

/-! ### What waits -/

/-- Who is named how often is all that matters for what waits. -/
theorem deliverAll_snd_of_perm (d : Directory) (accepts : ConnectionId → Bool) (n : Notification)
    {names names' : List String} (h : names.Perm names') :
    (d.deliverAll accepts n names).2 = (d.deliverAll accepts n names').2 := by
  have hmembers : (d.deliverAll accepts n names).2.members
      = (d.deliverAll accepts n names').2.members := by
    refine Std.ExtTreeMap.ext_getElem? fun user => ?_
    have hcount : names.count user = names'.count user := h.count_eq user
    have hmember := d.member?_deliverAll accepts n names user
    rw [hcount, ← member?_deliverAll] at hmember
    exact hmember
  rw [rest_deliverAll, hmembers, ← rest_deliverAll]

/-! ### What is sent -/

/-- A connection is sent as many copies as its user is named times. -/
theorem Coherent.count_readers {d : Directory} (hd : d.Coherent) {accepts : ConnectionId → Bool}
    (n : Notification) (names : List String) {reader : ConnectionId} (h : accepts reader) :
    (d.deliverAll accepts n names).1.count reader
      = ((d.userOn reader).map names.count).getD 0 := by
  cases huser : d.userOn reader with
  | some user =>
    have hconnection : d.connectionOf user = some reader :=
      hd.connectionOf_eq_some_iff.mpr (hd.userOn_eq_some_iff.mp huser)
    have hlive : d.liveOn accepts user = some reader := by
      rw [liveOn, hconnection, Option.filter_some_pos h]
    exact hd.count_deliverAll_fst n names hlive
  | none =>
    refine List.count_eq_zero.mpr fun hmem => ?_
    rw [deliverAll_fst] at hmem
    obtain ⟨user, -, hlive⟩ := List.mem_filterMap.mp hmem
    have hconnection : d.connectionOf user = some reader := (Option.filter_eq_some_iff.mp hlive).1
    rw [hd.userOn_eq_some_iff.mpr (hd.connectionOf_eq_some_iff.mp hconnection)] at huser
    cases huser

end Directory

namespace Switchboard

/-- Of two sendings of one message it does not matter which comes first. -/
theorem send_send_comm (s : Switchboard) (c c' : ConnectionId) (m : Message) :
    (s.send c m).send c' m = (s.send c' m).send c m := by
  refine congrArg Switchboard.mk (Array.ext_getElem? fun i => ?_)
  simp only [send, Array.getElem?_modify]
  by_cases hc : c = i <;> by_cases hc' : c' = i <;> simp [hc, hc']

theorem foldl_send_of_perm {readers readers' : List ConnectionId} (h : readers.Perm readers')
    (r : Reply) (s : Switchboard) :
    (readers.map fun reader => (reader, r)).foldl
        (fun board item => board.send item.1 (.reply item.2)) s
      = (readers'.map fun reader => (reader, r)).foldl
        (fun board item => board.send item.1 (.reply item.2)) s := by
  rw [List.foldl_map, List.foldl_map]
  exact h.foldl_eq' (fun c _ c' _ board => board.send_send_comm c c' _) s

end Switchboard

/-! ### What is left behind -/

/-- After `s` a notification has gone out to the members, to each in as many copies as
`copies` says, with an acknowledgement for the connection `c` behind it. -/
structure Service.Dispatches (s s' : Service) (n : Notification) (copies : String → Nat)
    (c : ConnectionId) (ack : Ack) : Prop where
  /-- The history has one entry more, and nothing else differs in the directory but accounts. -/
  directory : s'.directory =
    { s.directory with
      members := s'.directory.members
      history := s.directory.history.push n }
  /-- The copies wait for a member that cannot be reached, and nothing else differs in any
  account. -/
  member? : ∀ user, s'.directory.member? user
    = (s.directory.member? user).map (Account.offered s.switchboard.accepts n (copies user))
  /-- Each channel that takes messages gets the copies for its user, and that of `c` the
  acknowledgement. -/
  waiting : ∀ other, s'.switchboard.waiting other
    = s.switchboard.waiting other ++
      if s.switchboard.accepts other then
        List.replicate (((s.directory.userOn other).map copies).getD 0) (.reply (.notification n)) ++
          if c = other then [.reply (.ack ack)] else []
      else []

namespace Service

/-- What channels take of it. -/
theorem Dispatches.added {s s' : Service} {n : Notification} {copies : String → Nat}
    {c : ConnectionId} {ack : Ack} (h : s.Dispatches s' n copies c ack) (other : ConnectionId) :
    s.switchboard.added s'.switchboard other
      = if s.switchboard.accepts other then
          List.replicate (((s.directory.userOn other).map copies).getD 0)
              (.reply (.notification n)) ++
            if c = other then [.reply (.ack ack)] else []
        else [] := by
  rw [Switchboard.added, h.waiting, List.drop_left]

variable (s : Service) (c : ConnectionId) (ack : Ack) (n : Notification)

/-- **Each member gets as many copies as it is named times.** -/
theorem dispatches_apply (hd : s.directory.Coherent) (names : List String) :
    s.Dispatches (s.apply c (s.directory.dispatch s.switchboard.accepts c ack n names)) n
      names.count c ack where
  directory := by
    simp only [apply, Directory.dispatch, Directory.record]
    rw [Directory.rest_deliverAll]
  member? := s.directory.member?_deliverAll s.switchboard.accepts n names
  waiting := by
    intro other
    rw [waiting_apply, Effect.repliesTo_readers rfl]
    by_cases ha : s.switchboard.accepts other
    · rw [if_pos ha, if_pos ha, hd.count_readers n names ha, List.map_append,
        List.map_replicate]
      split <;> rfl
    · rw [if_neg ha, if_neg ha]

/-- **The order of the names does not matter.** -/
theorem apply_dispatch_of_perm {names names' : List String} (h : names.Perm names') :
    s.apply c (s.directory.dispatch s.switchboard.accepts c ack n names)
      = s.apply c (s.directory.dispatch s.switchboard.accepts c ack n names') := by
  have hreaders : (s.directory.deliverAll s.switchboard.accepts n names).1.Perm
      (s.directory.deliverAll s.switchboard.accepts n names').1 := by
    rw [Directory.deliverAll_fst, Directory.deliverAll_fst]
    exact h.filterMap _
  simp only [apply, Directory.dispatch, List.foldl_append,
    Directory.deliverAll_snd_of_perm _ _ _ h, Switchboard.foldl_send_of_perm hreaders]

end Service

/-! ### POST and PM -/

section

variable {d : Directory} {filter : ContentFilter} {accepts : ConnectionId → Bool}
  {c : ConnectionId} {ack : Ack}

theorem executePost_eq_dispatch {id : AccountId} {author : Account}
    (h : d.sessionOn c = some (id, author)) (content : String) :
    executePost d accepts c ack content
      = .ok (d.dispatch accepts c ack ⟨.post, author.name, content⟩ (d.audience author content)) :=
  executePost_eq_ok_iff.mpr ⟨id, author, h, rfl⟩

theorem executePm_eq_dispatch {id : AccountId} {author recipient : Account} {name : String}
    (h : d.sessionOn c = some (id, author)) (hname : d.member? name = some recipient)
    (hfree : author.name ∉ recipient.blockedBy) (content : String) :
    executePm d filter accepts c ack name content
      = .ok (d.dispatch accepts c ack ⟨.pm, author.name, filter.apply content⟩ [name]) := by
  refine executePm_eq_ok_iff.mpr ⟨id, author, recipient, h, hname, hfree, ?_⟩
  rw [Directory.dispatch, Directory.deliverAll_singleton]

end

end Microblog
