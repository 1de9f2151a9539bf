import Microblog.Proofs.Delivery

/-!
# Nobody gets what is for somebody else

On a connection that takes no messages a login loses what waits for its user.  Even then
nothing is handed over to a user, or waits, that was not addressed to the user, or oftener
than it was, or in another order: what is handed over and then what waits is a sublist of
what is addressed.  It is the whole of it as long as nobody logs in on such a connection.

## Main definitions

* `Hub.told` — the notifications that a run addresses to a user.

## Main results

* `Effect.handed_append_pending_sublist` — one command hands over nothing else.
* `Hub.handed_append_pending_sublist_run` — and so it is with a run.
* `Hub.mem_told` — **what the user of a connection gets was addressed to this user**.
-/

namespace Microblog

namespace Effect

variable {d : Directory} {s : Switchboard} {e : Effect} {c : ConnectionId}

/-- What waits is lost if the login is not heard, and nothing else changes. -/
theorem handed_append_pending_login_sublist (hd : d.Coherent) {ack : Ack} {name : String}
    {a : Account} (hc : c ∉ d.sessions) (hdeaf : s.accepts c = false)
    (ha : d.member? name = some a)
    (he : e = { directory := d.login (.member name) c
                outgoing := (c, .ack ack) :: a.pending.map fun n => (c, .notification n) })
    (user : String) :
    (e.handed d s.accepts user ++ e.directory.pending (.member user)).Sublist
      (d.pending (.member user)) := by
  have hname : name ∈ d.members := Directory.mem_members_of_member? ha
  have hpending : e.directory.pending (.member user)
      = if name = user then [] else d.pending (.member user) := by
    rw [he]
    exact Directory.pending_login d name c user
  by_cases hu : name = user
  · subst hu
    have hconnection : e.directory.connectionOf name = some c := by
      rw [he]
      exact (Directory.connectionOf_login hname c name).trans (if_pos rfl)
    have hnothing : e.handed d s.accepts name = [] := by
      rw [handed, hconnection, Option.some_or, Option.filter_some_neg hdeaf]
    rw [hnothing, hpending, if_pos rfl]
    exact List.nil_sublist _
  · rw [handed_login_of_ne hd hc hname he s.accepts hu, hpending, if_neg hu, List.nil_append]

/-- **One command hands over, or lets wait, nothing but what waited and what it
addresses.** -/
theorem handed_append_pending_sublist (hd : d.Coherent) (hm : d.Mirrored) (hs : d.Settled s)
    {filter : ContentFilter} {command : Command}
    (h : command.execute d filter s.accepts c = .ok e) (user : String) :
    (e.handed d s.accepts user ++ e.directory.pending (.member user)).Sublist
      (d.pending (.member user) ++ command.addressed d filter c user) := by
  by_cases hheard : ∀ name password captcha, command = .login name password captcha → s.accepts c
  · rw [handed_append_pending hd hm hs h hheard]
  · -- all that is left is a login on a connection that takes nothing
    simp only [not_forall] at hheard
    obtain ⟨name, password, captcha, rfl, hdeaf⟩ := hheard
    obtain ⟨hc, -, a, ha, -, -, he⟩ := executeLogin_eq_ok_iff.mp h
    exact (handed_append_pending_login_sublist hd hc (Bool.eq_false_iff.mpr hdeaf) ha he
      user).trans (List.sublist_append_left _ _)

end Effect

namespace Hub

/-- The notifications that the events of a run address to a user. -/
def told (h : Hub) (es : List Event) (user : String) : List Notification :=
  (h.moments es).flatMap fun m => m.1.addressed m.2 user

/-- An operation hands over, or lets wait, nothing but what waited and what it addresses. -/
theorem handed_append_pending_sublist_step {h : Hub} (hh : h.Linked)
    (hd : h.service.directory.Coherent) (hm : h.service.directory.Mirrored)
    (hs : h.service.directory.Settled h.service.switchboard) {e : Event} (he : e.isOperation)
    (user : String) :
    (h.service.handed (h.step e).service user ++
        (h.step e).service.directory.pending (.member user)).Sublist
      (h.service.directory.pending (.member user) ++ h.addressed e user) := by
  cases hx : h.carriedOut e with
  | none =>
    have hheard : h.loginIsHeard e := by rw [loginIsHeard, hx]
    rw [handed_append_pending_step hh hd hm hs he hheard]
  | some x =>
    obtain ⟨c, command⟩ := x
    obtain ⟨effect, hok, hstep⟩ := step_of_carriedOut hh hx
    rw [addressed, hx, hstep, Service.handed_apply]
    exact Effect.handed_append_pending_sublist hd hm hs hok user

/-- **A run hands over, or lets wait, nothing but what waited and what the run addresses**,
nothing more than once and all in order. -/
theorem handed_append_pending_sublist_run {h : Hub} (hh : h.Linked)
    (hdm : h.service.directory.Coherent ∧ h.service.directory.Mirrored)
    (hs : h.service.directory.Settled h.service.switchboard) {es : List Event}
    (hes : ∀ e ∈ es, e.isOperation) (user : String) :
    (((h.moments es).flatMap fun m => m.1.service.handed (m.1.step m.2).service user) ++
        (h.run es).service.directory.pending (.member user)).Sublist
      (h.service.directory.pending (.member user) ++ h.told es user) := by
  unfold told
  induction es generalizing h with
  | nil => simp
  | cons e es ih =>
    have he : e.isOperation := hes e List.mem_cons_self
    have hone := handed_append_pending_sublist_step hh hdm.1 hdm.2 hs he user
    have hrest := ih (hh.step e) (Directory.Mirrored.invariant.step hdm e)
      (hs.turn (h.turn hh he)) fun e' he' => hes e' (List.mem_cons_of_mem _ he')
    rw [moments_cons, List.flatMap_cons, List.flatMap_cons, run_cons, List.append_assoc,
      ← List.append_assoc (h.service.directory.pending _)]
    -- what waits in between links the first event to the rest
    refine (hrest.append_left _).trans ?_
    rw [← List.append_assoc]
    exact hone.append_right _

/-- **What the user of a connection gets was addressed to this user.** -/
theorem mem_told (today : Date) (filter : ContentFilter) {es : List Event}
    (hes : ∀ e ∈ es, e.isOperation) {m : Hub × Event} {c : ConnectionId} {user : String}
    {n : Notification} (hm : m ∈ (start today filter).moments es)
    (huser : (m.1.step m.2).service.directory.userOn c = some user)
    (hn : .reply (.notification n)
      ∈ m.1.service.switchboard.added (m.1.step m.2).service.switchboard c) :
    n ∈ (start today filter).told es user := by
  obtain ⟨before, -, -, hrun⟩ := exists_run_of_mem_moments hm
  have hd : (m.1.step m.2).service.directory.Coherent := by
    rw [← hrun]
    exact Directory.Coherent.invariant.step
      (Directory.Coherent.invariant.run (Directory.Coherent.empty today) before) m.2
  have hown : (m.1.step m.2).service.directory.connectionOf user = some c :=
    hd.connectionOf_eq_some_iff.mpr (hd.userOn_eq_some_iff.mp huser)
  have hhanded : n ∈ m.1.service.handed (m.1.step m.2).service user := by
    rw [Service.handed, hown, Option.some_or]
    exact Message.mem_filterMap_notification?.mpr hn
  have hsublist := handed_append_pending_sublist_run (.start today filter)
    ⟨Directory.Coherent.empty today, Directory.Mirrored.empty today⟩
    (Directory.Settled.empty today _) hes user
  -- nothing has waited for anybody at the start
  have hnone : (start today filter).service.directory.pending (.member user) = [] :=
    Directory.pending_eq_nil (by simp [start, ofDirectory])
  rw [hnone, List.nil_append] at hsublist
  exact hsublist.subset (List.mem_append_left _ (List.mem_flatMap.mpr ⟨m, hm, hhanded⟩))

end Hub

end Microblog
