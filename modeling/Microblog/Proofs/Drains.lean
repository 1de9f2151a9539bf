import Microblog.Proofs.Delivery

/-!
# What waits when its user logs in

A notification that the connection of a user does not take waits in the account.  This
holds while the user is logged in.  At the login itself it does not: all that waits goes
out, is forgotten, and nobody looks whether the connection takes it.  So a login loses
what waits exactly if it is carried out on a connection that takes nothing.

## Main definitions

* `Hub.LoginKeeps` — what waits for a user is not lost by a LOGIN.

## Main results

* `Hub.notifications_login` — what channels take of a LOGIN that is carried out.
* `Hub.loginKeeps_iff` — when nothing is lost, for any hub.
* `login_keeps_what_waits_iff` — **the same after every run**, with what happens in
  either case.
-/

namespace Microblog

namespace Hub

/-- A LOGIN from `c` loses nothing of what waits for the user whom it names: each
notification waits afterwards, or some channel has taken it. -/
def LoginKeeps (h : Hub) (c : ConnectionId) (name password : String) (captcha : UInt8) : Prop :=
  let after := h.step (.message c (.command (.login name password captcha)))
  ∀ n ∈ h.service.directory.pending (.member name),
    n ∈ after.service.directory.pending (.member name) ∨
      ∃ other, .reply (.notification n)
        ∈ h.service.switchboard.added after.service.switchboard other

section

variable {h : Hub} {c : ConnectionId} {name password : String} {captcha : UInt8}

/-- A LOGIN that is refused leaves waiting what waits. -/
theorem pending_login_of_refused (hh : h.Linked)
    (hx : h.carriedOut (.message c (.command (.login name password captcha))) = none)
    (user : String) :
    (h.step (.message c (.command (.login name password captcha)))).service.directory.pending
        (.member user) = h.service.directory.pending (.member user) := by
  have hturn := h.turn hh (e := .message c (.command (.login name password captcha))) rfl
  rw [hx] at hturn
  exact hturn.pending_eq user

/-- After a LOGIN that is carried out nothing waits for its user, and for others what
waited before. -/
theorem pending_login_of_carriedOut (hh : h.Linked)
    (hx : h.carriedOut (.message c (.command (.login name password captcha))) ≠ none)
    (user : String) :
    (h.step (.message c (.command (.login name password captcha)))).service.directory.pending
        (.member user)
      = if name = user then [] else h.service.directory.pending (.member user) := by
  obtain ⟨⟨c', command⟩, hx⟩ := Option.ne_none_iff_exists'.mp hx
  obtain ⟨heq, -, -⟩ := (carriedOut_eq_some_iff hh).mp hx
  cases heq
  obtain ⟨effect, hok, hstep⟩ := step_of_carriedOut hh hx
  obtain ⟨-, -, a, -, -, -, rfl⟩ := executeLogin_eq_ok_iff.mp hok
  rw [hstep]
  exact Directory.pending_login h.service.directory name c user

/-- The notifications that channels take of a LOGIN that is carried out: all that waited
for its user, in order, if its own connection takes messages, and else none. -/
theorem notifications_login (hh : h.Linked)
    (hx : h.carriedOut (.message c (.command (.login name password captcha))) ≠ none)
    (other : ConnectionId) :
    (h.service.switchboard.added
        (h.step (.message c (.command (.login name password captcha)))).service.switchboard
        other).filterMap Message.notification?
      = if c = other ∧ h.service.switchboard.accepts c then
          h.service.directory.pending (.member name)
        else [] := by
  obtain ⟨⟨c', command⟩, hx⟩ := Option.ne_none_iff_exists'.mp hx
  obtain ⟨heq, -, -⟩ := (carriedOut_eq_some_iff hh).mp hx
  cases heq
  obtain ⟨effect, hok, hstep⟩ := step_of_carriedOut hh hx
  obtain ⟨-, -, a, ha, -, -, heffect⟩ := executeLogin_eq_ok_iff.mp hok
  have hsent : ((effect.repliesTo other).map Message.reply).filterMap Message.notification?
      = if c = other then a.pending else [] := by
    rw [List.filterMap_map]
    exact Effect.notificationsTo_login (by rw [heffect]) other
  rw [hstep, Service.added_apply, Directory.pending_of_member? ha]
  by_cases hc : c = other
  · subst hc
    by_cases haccepts : h.service.switchboard.accepts c
    · rw [if_pos haccepts, hsent, if_pos rfl, if_pos ⟨rfl, haccepts⟩]
    · rw [if_neg haccepts, if_neg (mt And.right haccepts)]
      rfl
  · rw [if_neg (mt And.left hc)]
    split
    · rw [hsent, if_neg hc]
    · rfl

/-- **A LOGIN loses nothing exactly if it is refused, comes from a connection that takes
messages, or finds nothing that waits.** -/
theorem loginKeeps_iff (hh : h.Linked) :
    h.LoginKeeps c name password captcha ↔
      h.carriedOut (.message c (.command (.login name password captcha))) = none ∨
        h.service.switchboard.accepts c ∨ h.service.directory.pending (.member name) = [] := by
  by_cases hx : h.carriedOut (.message c (.command (.login name password captcha))) = none
  · refine iff_of_true (fun n hn => .inl ?_) (.inl hx)
    rwa [pending_login_of_refused hh hx]
  · have hforgotten := pending_login_of_carriedOut hh hx name
    rw [if_pos rfl] at hforgotten
    rw [or_iff_right hx]
    constructor
    · intro hkeeps
      by_contra hnot
      obtain ⟨haccepts, hwaits⟩ := not_or.mp hnot
      -- the first notification that waits is the one to ask for
      obtain ⟨n, hn⟩ := List.exists_mem_of_ne_nil _ hwaits
      rcases hkeeps n hn with hstill | ⟨other, htaken⟩
      · rw [hforgotten] at hstill
        cases hstill
      · have hmem := Message.mem_filterMap_notification?.mpr htaken
        rw [notifications_login hh hx, if_neg (mt And.right haccepts)] at hmem
        cases hmem
    · rintro (haccepts | hnone) n hn
      · refine .inr ⟨c, Message.mem_filterMap_notification?.mp ?_⟩
        rwa [notifications_login hh hx, if_pos ⟨rfl, haccepts⟩]
      · rw [hnone] at hn
        cases hn

end

end Hub

/-- **When a login keeps what waits.**  Take any run and any LOGIN after it.  If it is
refused, the same notifications wait as before.  If it is carried out, none waits any
more for its user, and its own connection, if that takes messages, has taken all of them
in order; no other channel takes any.  So what waited is not lost exactly if the LOGIN is
refused, or the connection takes messages, or nothing waited. -/
theorem login_keeps_what_waits_iff (today : Date) (filter : ContentFilter) (es : List Event)
    (c : ConnectionId) (name password : String) (captcha : UInt8) :
    let h := (Hub.start today filter).run es
    let e : Event := .message c (.command (.login name password captcha))
    let after := h.step e
    let waiting := h.service.directory.pending (.member name)
    (h.carriedOut e = none → after.service.directory.pending (.member name) = waiting) ∧
    (h.carriedOut e ≠ none → after.service.directory.pending (.member name) = [] ∧
      ∀ other, (h.service.switchboard.added after.service.switchboard other).filterMap
          Message.notification?
        = if c = other ∧ h.service.switchboard.accepts c then waiting else []) ∧
    (h.LoginKeeps c name password captcha ↔
      h.carriedOut e = none ∨ h.service.switchboard.accepts c ∨ waiting = []) := by
  intro h e after waiting
  have hh : h.Linked := (Hub.Linked.start today filter).run es
  refine ⟨fun hx => Hub.pending_login_of_refused hh hx name, fun hx => ⟨?_, ?_⟩,
    Hub.loginKeeps_iff hh⟩
  · have hforgotten := Hub.pending_login_of_carriedOut hh hx name
    rwa [if_pos rfl] at hforgotten
  · exact Hub.notifications_login hh hx

/-- Alice writes to Bob, who is away.  Of the connections that Bob may come back on, the
switchboard has let go of one, nobody hears another, and the third is as it should be. -/
def awayMessage : List Event :=
  [.connect, .connect, .connect, .connect,
    .message 0 (.command (.register "alice" "a" ⟨1, 1, 2000⟩)),
    .message 0 (.command (.register "bob" "b" ⟨1, 1, 2000⟩)),
    .message 0 (.command (.login "alice" "a" 0x31)),
    .message 0 (.command (.pm "bob" "hello")),
    .release 1,
    .hangUp 2]

/-- On either of the dead connections Bob's login is carried out and loses what Alice
wrote.  When he comes back on the one that is left, he gets nothing. -/
theorem not_loginKeeps_awayMessage :
    let h := (Hub.start ⟨2024, 1, 1⟩ {}).run awayMessage
    h.service.directory.pending (.member "bob") = [⟨.pm, "alice", "hello"⟩] ∧
      ∀ c ∈ [1, 2], h.service.switchboard.accepts c = false ∧
        ¬ h.LoginKeeps c "bob" "b" 0x31 ∧
        let back := h.run [.message c (.command (.login "bob" "b" 0x31)), .disconnect c]
        back.service.switchboard.added
            (back.step (.message 3 (.command (.login "bob" "b" 0x31)))).service.switchboard 3
          = [.reply (.ack ⟨.login, .empty⟩)] := by
  have hh := (Hub.Linked.start ⟨2024, 1, 1⟩ {}).run awayMessage
  refine ⟨by decide +kernel, fun c hc => ⟨?_, ?_, ?_⟩⟩
  · revert c
    decide +kernel
  · rw [Hub.loginKeeps_iff hh]
    revert c
    decide +kernel
  · revert c
    decide +kernel

end Microblog
