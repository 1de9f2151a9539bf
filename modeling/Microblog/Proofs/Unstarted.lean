import Microblog.Proofs.Confinement

/-!
# Sessions that were never started

A session has a connection from the moment when it is started.  Before that it ignores whatever
message it is given, and so it should do nothing when it ends.  But it ends by its number, and
until it is started its number is zero, which is also the number of the first connection.  So
the end of a session that was never started is the end of the session on connection zero, as far
as the directory is concerned; the switchboard keeps the connection.

## Main definitions

* `Service.SparedByUnstarted` — a session that was never started does nothing.

## Main results

* `Session.process_unstarted`, `Session.disconnect_unstarted` — what such a session does.
* `Service.sparedByUnstarted_iff` — when it does nothing, for any service.
* `unstarted_inert_iff` — **the same after every run**, with what happens otherwise.
-/

namespace Microblog

namespace Directory

/-- The end of a session changes the directory exactly if there is a session. -/
theorem logout_eq_self_iff {d : Directory} {c : ConnectionId} :
    d.logout c = d ↔ d.sessions[c]? = none := by
  refine ⟨fun h => ?_, logout_of_none⟩
  have hnone := sessions_logout d c c
  rwa [h, if_pos rfl] at hnone

theorem Coherent.userOn_eq_none_iff {d : Directory} (hd : d.Coherent) {c : ConnectionId} :
    d.userOn c = none ↔ d.sessions[c]? = none := by
  constructor
  · intro h
    cases hc : d.sessions[c]? with
    | none => rfl
    | some id =>
      -- every session is that of a member
      obtain ⟨user, a, rfl, -, -⟩ := hd.member hc
      rw [hd.userOn_eq_some_iff.mpr hc] at h
      cases h
  · intro h
    rw [userOn, sessionOn, h]
    rfl

end Directory

namespace Session

/-- Before a session is started it ignores all messages. -/
theorem process_unstarted {s : Session} (hs : s.connection = none) (service : Service)
    (m : Message) : s.process service m = (s, service) := by
  simp only [process, hs]

/-- The end of a session that was never started is, for the directory, that of the session on
connection zero. -/
theorem disconnect_unstarted {s : Session} (hs : s.connection = none) (service : Service) :
    s.disconnect service = { service with directory := service.directory.logout 0 } := by
  simp only [disconnect, id, hs, Option.getD_none]

end Session

namespace Service

/-- Whatever message a new session is given and ignores, because it was never started, the
service is after the end of the session what it was before. -/
def SparedByUnstarted (s : Service) : Prop :=
  ∀ m, let processed := Session.process {} s m
    processed.1.disconnect processed.2 = s

/-- **A session that was never started does nothing exactly if nobody has a session on
connection zero.** -/
theorem sparedByUnstarted_iff {s : Service} :
    s.SparedByUnstarted ↔ s.directory.sessions[0]? = none := by
  rw [← Directory.logout_eq_self_iff, SparedByUnstarted]
  simp only [Session.process_unstarted, Session.disconnect_unstarted]
  constructor
  · intro h
    exact congrArg directory (h (.command .logout))
  · intro h _
    rw [h]

end Service

/-- **When a session that was never started does nothing.**  Take any run, and then any message
for a new session that is never started, and the end of the session.  The message changes
nothing, and the end of the session changes nothing but the directory: the user of connection
zero, if there is one, is not logged in any more.  So nothing changes exactly if there is none. -/
theorem unstarted_inert_iff (today : Date) (filter : ContentFilter) (es : List Event)
    (m : Message) :
    let s := ((Hub.start today filter).run es).service
    let processed := Session.process {} s m
    let after := processed.1.disconnect processed.2
    (s.SparedByUnstarted ↔ s.directory.userOn 0 = none) ∧
    processed = ({}, s) ∧ after = { s with directory := after.directory } ∧
    s.directory.Releases 0 after.directory ∧
    ∀ user, s.directory.userOn 0 = some user →
      ∃ a, s.directory.member? user = some a ∧ a.connection = some 0 ∧ a.isConnected = true ∧
        after.directory.member? user = some a.disconnect ∧ after.directory.userOn 0 = none := by
  intro s processed after
  have hd : s.directory.Coherent := Directory.Coherent.invariant.run (.empty today) es
  have hprocessed : processed = ({}, s) := Session.process_unstarted rfl s m
  have hafter : after = { s with directory := s.directory.logout 0 } := by
    simp only [after, hprocessed, Session.disconnect_unstarted]
  have hdirectory : after.directory = s.directory.logout 0 := congrArg Service.directory hafter
  refine ⟨?_, hprocessed, by rw [hafter], ?_, fun user huser => ?_⟩
  · rw [Service.sparedByUnstarted_iff, hd.userOn_eq_none_iff]
  · rw [hdirectory]
    exact Directory.releases_logout hd 0
  · have hsession := hd.userOn_eq_some_iff.mp huser
    obtain ⟨_, a, heq, ha, hconnection⟩ := hd.member hsession
    cases heq
    have hflag : a.isConnected = true := by rw [hd.flag ha, hconnection]; rfl
    refine ⟨a, ha, hconnection, hflag, ?_, ?_⟩
    · rw [hdirectory, Directory.member?_logout_of_some hsession, if_pos rfl, ha]
      rfl
    · rw [hdirectory, (hd.logout 0).userOn_eq_none_iff, Directory.sessions_logout, if_pos rfl]

/-- Alice logs in on the first connection, and Bob on the second. -/
def firstCaller : List Event :=
  [.connect, .connect,
    .message 0 (.command (.register "alice" "a" ⟨1, 1, 2000⟩)),
    .message 0 (.command (.login "alice" "a" 0x31)),
    .message 1 (.command (.register "bob" "b" ⟨1, 1, 2000⟩)),
    .message 1 (.command (.login "bob" "b" 0x31))]

/-- The end of a session that was never started disconnects Alice, as long as she is logged in on
the first connection.  When that is gone it does nothing, though Bob is still logged in. -/
theorem unstarted_inert_iff_firstCaller :
    let there := ((Hub.start ⟨2024, 1, 1⟩ {}).run firstCaller).service
    let gone := ((Hub.start ⟨2024, 1, 1⟩ {}).run (firstCaller ++ [.disconnect 0])).service
    there.directory.userOn 0 = some "alice" ∧ ¬ there.SparedByUnstarted ∧
      (∃ a, there.directory.member? "alice" = some a ∧ a.connection = some 0) ∧
      gone.directory.userOn 0 = none ∧ gone.directory.userOn 1 = some "bob" ∧
      gone.SparedByUnstarted := by
  intro there gone
  have hthere : there.directory.userOn 0 = some "alice" := by decide +kernel
  have hgone : gone.directory.userOn 0 = none := by decide +kernel
  obtain ⟨hspared, -, -, -, huser⟩ :=
    unstarted_inert_iff ⟨2024, 1, 1⟩ {} firstCaller (.reply (.error .post))
  obtain ⟨a, ha, hconnection, -⟩ := huser "alice" hthere
  have hnobody := unstarted_inert_iff ⟨2024, 1, 1⟩ {} (firstCaller ++ [.disconnect 0])
    (.reply (.error .post))
  refine ⟨hthere, fun h => ?_, ⟨a, ha, hconnection⟩, hgone, by decide +kernel, hnobody.1.mpr hgone⟩
  exact Option.some_ne_none "alice" (hthere.symm.trans (hspared.mp h))

/-- The end of a session that was never started logs Alice out.  Her connection is still there,
but the next post that she writes on it is refused. -/
theorem not_sparedByUnstarted_firstCaller :
    let h := (Hub.start ⟨2024, 1, 1⟩ {}).run firstCaller
    let processed := Session.process {} h.service (.command (.post "hello"))
    let after := processed.1.disconnect processed.2
    h.service.directory.userOn 0 = some "alice" ∧ ¬ h.service.SparedByUnstarted ∧
      after.directory.userOn 0 = none ∧ after.directory.userOn 1 = some "bob" ∧
      after.switchboard.accepts 0 = true ∧
      after.switchboard.added
          (({ h with service := after } : Hub).step
            (.message 0 (.command (.post "hello")))).service.switchboard 0
        = [.reply (.error .post)] := by
  intro h processed after
  have hsession : h.service.directory.sessions[(0 : ConnectionId)]? = some (.member "alice") := by
    decide +kernel
  refine ⟨by decide +kernel, ?_, by decide +kernel, by decide +kernel, by decide +kernel,
    by decide +kernel⟩
  rw [Service.sparedByUnstarted_iff, hsession]
  exact nofun

end Microblog
