import Microblog.Proofs.Answers
import Microblog.Proofs.Handlers

/-!
# What is refused has no effect

Handlers work in place and take nothing back, so that a refused command leaves everything
as it was is a matter of their order: whatever can be refused is refused before anything
is changed, or the change that was tried has had no effect.  `Command.handle_eq` has looked
at every handler for that.  What is left is to see that an ERROR is never anything but the
answer to a refused command.

## Main results

* `Session.handle_eq` — a session does the same whether its commands are carried out in
  place or as a whole.
* `rejected_without_effect` — **a refused command changes nothing, and its ERROR is the
  only message.**
-/

namespace Microblog

/-- A handler refuses exactly what is refused as a whole, and leaves the desk as it was. -/
theorem Desk.outcome_eq_error_iff {s desk : Desk} {c : ConnectionId}
    {result : Except Rejection Effect} {why : Rejection} :
    s.outcome c result = .error why desk ↔ result = .error why ∧ desk = s := by
  cases result with
  | ok e => simp [outcome]
  | error why' => simp [outcome, eq_comm]

/-- Carried out in place or as a whole, a command does the same. -/
theorem Session.handle_eq (s : Session) (service : Service) (command : Command) :
    s.handle service command = s.process service (.command command) := by
  obtain ⟨connection, terminated⟩ := s
  cases connection with
  | none => rfl
  | some c =>
    have hhandle := command.handle_eq c { service, terminated }
    cases hx : command.execute service.directory service.filter service.switchboard.accepts c with
    | ok e =>
      rw [hx] at hhandle
      simp only [handle, process, hx, hhandle, Desk.outcome]
    | error why =>
      rw [hx] at hhandle
      simp only [handle, process, hx, hhandle, Desk.outcome]
      rfl

namespace Hub

variable {h : Hub} {c : ConnectionId} {l : Link} {command : Command}

/-- A refused command is answered, and that is all. -/
theorem step_of_refused (hh : h.Linked) (hl : h.links[c]? = some l) {why : Rejection}
    (hx : command.execute h.service.directory h.service.filter h.service.switchboard.accepts c
      = .error why) :
    h.step (.message c (.command command))
      = { h with service := h.service.send c (.error command.opcode) } :=
  step_of_answer hh hl (Service.effect_of_refused (by simp [hx]))

/-- An ERROR is the answer to a refused command. -/
theorem refused_of_error_mem_added (hh : h.Linked) (hl : h.links[c]? = some l)
    {other : ConnectionId} {o : Opcode}
    (herror : .reply (.error o) ∈ h.service.switchboard.added
      (h.step (.message c (.command command))).service.switchboard other) :
    ∃ why, command.execute h.service.directory h.service.filter h.service.switchboard.accepts c
      = .error why := by
  cases hx : command.execute h.service.directory h.service.filter
      h.service.switchboard.accepts c with
  | error why => exact ⟨why, rfl⟩
  | ok e =>
    rw [step_command hh hl, Service.effect_of_ok hx, Service.added_apply] at herror
    split at herror
    · obtain ⟨r, hr, heq⟩ := List.mem_map.mp herror
      obtain ⟨item, hitem, rfl⟩ := List.mem_map.mp hr
      have hreply : item.2 = .error o := Message.reply.inj heq
      -- what is carried out sends acknowledgements and notifications, but no ERROR
      cases Command.sends_of_mem_outgoing hx (List.mem_filter.mp hitem).1 <;> cases hreply
    · cases herror

end Hub

/-- **A refused command has no effect.**  Take any run, any connection that was opened in it
and any command from there, carried out by its handler, in place.  The hub does just that.
An ERROR to whomever is the answer to a command that the handler refuses.  And when it
refuses a command it has left everything as it was, though it takes nothing back: the
directory with all that it keeps, the links with their sessions, the connections that the
switchboard holds; and the only message that any channel takes is one ERROR, with the
opcode of the command, to the connection that it came from. -/
theorem rejected_without_effect (today : Date) (filter : ContentFilter) (es : List Event)
    {c : ConnectionId} {l : Link} (hl : ((Hub.start today filter).run es).links[c]? = some l)
    (command : Command) :
    let h := (Hub.start today filter).run es
    let after := h.step (.message c (.command command))
    let desk : Desk := { service := h.service, terminated := l.session.terminated }
    let board := h.service.switchboard
    let board' := after.service.switchboard
    (after.links[c]? = some { l with session := (l.session.handle h.service command).1 } ∧
        after.service = (l.session.handle h.service command).2) ∧
      (∀ other o, .reply (.error o) ∈ board.added board' other →
        ∃ why desk', command.handle c desk = .error why desk') ∧
      ∀ why desk', command.handle c desk = .error why desk' →
        desk' = desk ∧ after.service.directory = h.service.directory ∧ after.links = h.links ∧
          (∀ other, board'.holds other = board.holds other) ∧
          ∀ other, board'.waiting other = board.waiting other ++
            if c = other ∧ board.accepts c then [.reply (.error command.opcode)] else [] := by
  intro h after desk board board'
  have hh : h.Linked := (Hub.Linked.start today filter).run es
  have hl : h.links[c]? = some l := hl
  have hhandle := command.handle_eq c desk
  refine ⟨?_, ?_, ?_⟩
  · have hstep : after =
        let handled := l.session.process h.service (.command command)
        { service := handled.2
          links := h.links.modify c fun l => { l with session := handled.1 } } := by
      simp only [after, Hub.step, Hub.message, hl]
    rw [Session.handle_eq, hstep]
    refine ⟨?_, rfl⟩
    rw [Array.getElem?_modify, if_pos rfl, hl]
    rfl
  · intro other o herror
    obtain ⟨why, hx⟩ := Hub.refused_of_error_mem_added hh hl herror
    exact ⟨why, desk, hhandle.trans (Desk.outcome_eq_error_iff.mpr ⟨hx, rfl⟩)⟩
  · intro why desk' hrefused
    obtain ⟨hx, hdesk⟩ := Desk.outcome_eq_error_iff.mp (hhandle.symm.trans hrefused)
    have hstep : after = { h with service := h.service.send c (.error command.opcode) } :=
      Hub.step_of_refused hh hl hx
    have hboard : board' = board.send c (.reply (.error command.opcode)) :=
      congrArg (fun h => h.service.switchboard) hstep
    refine ⟨hdesk, by rw [hstep]; rfl, by rw [hstep], ?_, ?_⟩
    · intro other
      rw [hboard, Switchboard.holds_send]
    · intro other
      rw [hboard, Switchboard.waiting_send]
      split
      · rfl
      · exact (List.append_nil _).symm

/-- Alice has an account and is logged in.  Somebody else has connected. -/
def doorstep : List Event :=
  [.connect, .connect,
    .message 0 (.command (.register "alice" "a" ⟨1, 1, 2000⟩)),
    .message 0 (.command (.login "alice" "a" 0x31))]

/-- Whoever asks for Alice's name is refused, and Alice keeps her password. -/
theorem rejected_without_effect_doorstep :
    let h := (Hub.start ⟨2024, 1, 1⟩ {}).run doorstep
    let after := h.step (.message 1 (.command (.register "alice" "b" ⟨1, 1, 2000⟩)))
    h.links[1]? = some { session := { connection := some 1 } } ∧
      .reply (.error .register)
        ∈ h.service.switchboard.added after.service.switchboard 1 ∧
      after.service.directory = h.service.directory ∧ after.links = h.links ∧
      after.service.switchboard.waiting 1 = [.reply (.error .register)] := by
  have hl : ((Hub.start ⟨2024, 1, 1⟩ {}).run doorstep).links[1]?
      = some { session := { connection := some 1 } } := by decide +kernel
  obtain ⟨-, hsent, hrefused⟩ := rejected_without_effect ⟨2024, 1, 1⟩ {} doorstep hl
    (.register "alice" "b" ⟨1, 1, 2000⟩)
  have herror : Message.reply (.error .register)
      ∈ ((Hub.start ⟨2024, 1, 1⟩ {}).run doorstep).service.switchboard.added
        (((Hub.start ⟨2024, 1, 1⟩ {}).run doorstep).step
          (.message 1 (.command (.register "alice" "b" ⟨1, 1, 2000⟩)))).service.switchboard 1 := by
    decide +kernel
  obtain ⟨why, desk, hhandled⟩ := hsent 1 .register herror
  obtain ⟨-, hdirectory, hlinks, -, -⟩ := hrefused why desk hhandled
  exact ⟨hl, herror, hdirectory, hlinks, by decide +kernel⟩

end Microblog
