import Microblog.Hub
import Microblog.Proofs.Members

/-!
# Runs of a hub

A run is looked at in two ways.  What holds of the directory after every run is
shown once for all by `Directory.Invariant.run`: a command that is carried out keeps
it, and so does the end of a session.  What is said of the course of a run is said of
its moments, that is of each event together with the hub that it found.

## Main definitions

* `Hub.start` — a hub without users and connections.
* `Hub.Linked` — every link is started with its own number.
* `Directory.Invariant` — a property that no event destroys.
* `Event.isOperation` — the events that concern sessions and channels one at a time.
* `Hub.carriedOut` — the command that an event carries out, if it does.
* `Hub.Issues` — it does so for a user.
* `Hub.moments` — the events of a run, each with the hub that it found.
* `Service.Turn` — what an operation does to the service.

## Main results

* `Directory.Invariant.run` — invariants hold after every run.
* `Hub.turn` — every operation is a turn.
-/

namespace Microblog

/-- A hub without users and without connections. -/
def Hub.start (today : Date) (filter : ContentFilter) : Hub := .ofDirectory { today } filter

/-! ### Properties of directories that last -/

/-- A property of directories that is kept by every command and by the end of every
session. -/
structure Directory.Invariant (P : Directory → Prop) : Prop where
  /-- A command that is carried out keeps it. -/
  execute : ∀ {d filter accepts c command e}, P d →
    Command.execute d filter accepts c command = .ok e → P e.directory
  /-- The end of a session keeps it. -/
  logout : ∀ {d}, P d → ∀ c, P (d.logout c)

namespace Directory.Invariant

variable {P : Directory → Prop}

theorem process (hP : Invariant P) {service : Service} (h : P service.directory) (s : Session)
    (m : Message) : P (s.process service m).2.directory := by
  unfold Session.process
  split
  · next c command _ =>
    split
    · next e he => exact hP.execute h he
    · exact h
  · exact h

theorem receiveFrom (hP : Invariant P) (bs : Bytes) {l : Link} {service : Service}
    (processed : Nat) (h : P service.directory) :
    P (l.receiveFrom service processed bs).service.directory := by
  induction bs generalizing l service processed with
  | nil => exact h
  | cons b bs ih =>
    unfold Link.receiveFrom
    split
    · exact ih processed h
    · next decoder command _ =>
      have hprocess := hP.process h l.session (.command command)
      dsimp only
      split
      · exact hprocess
      · exact ih (processed + 1) hprocess

theorem step (hP : Invariant P) {h : Hub} (hd : P h.service.directory) (e : Event) :
    P (h.step e).service.directory := by
  cases e with
  | connect => exact hd
  | message c m =>
    simp only [Hub.step, Hub.message]
    split
    · exact hd
    · next l _ => exact hP.process hd l.session m
  | bytes c bs =>
    simp only [Hub.step, Hub.bytes]
    split
    · exact hd
    · next l _ => exact hP.receiveFrom bs 0 hd
  | disconnect c =>
    simp only [Hub.step, Hub.disconnect]
    split
    · exact hd
    · next l _ => exact hP.logout hd l.session.id
  | hangUp c => exact hd
  | release c => exact hd
  | broadcast m => exact hd

/-- **What commands and the ends of sessions keep holds after every run.** -/
theorem run (hP : Invariant P) {h : Hub} (hd : P h.service.directory) (es : List Event) :
    P (h.run es).service.directory := by
  induction es generalizing h with
  | nil => exact hd
  | cons e es ih => exact ih (hP.step hd e)

end Directory.Invariant

/-! ### Links -/

/-- A change that changes nothing. -/
theorem modify_eq_self {α : Type} {xs : Array α} {i : Nat} {f : α → α}
    (h : ∀ a, xs[i]? = some a → f a = a) : xs.modify i f = xs := by
  refine Array.ext_getElem? fun j => ?_
  rw [Array.getElem?_modify]
  split
  · next hj =>
    subst hj
    cases ha : xs[i]? with
    | none => rfl
    | some a => rw [Option.map_some, h a ha]
  · rfl

/-- Of two values that are put in one place the second stays. -/
theorem modify_modify {α : Type} (xs : Array α) (i : Nat) (a b : α) :
    (xs.modify i fun _ => a).modify i (fun _ => b) = xs.modify i fun _ => b := by
  refine Array.ext_getElem? fun j => ?_
  rw [Array.getElem?_modify, Array.getElem?_modify, Array.getElem?_modify]
  split
  · rw [Option.map_map]
    rfl
  · rfl

namespace Switchboard

@[simp] theorem size_channels_send (s : Switchboard) (c : ConnectionId) (m : Message) :
    (s.send c m).channels.size = s.channels.size := Array.size_modify

@[simp] theorem size_channels_release (s : Switchboard) (c : ConnectionId) :
    (s.release c).channels.size = s.channels.size := Array.size_modify

theorem size_channels_foldl_send (items : List (ConnectionId × Reply)) (s : Switchboard) :
    (items.foldl (fun board item => board.send item.1 (.reply item.2)) s).channels.size
      = s.channels.size := by
  induction items generalizing s with
  | nil => rfl
  | cons item items ih => rw [List.foldl_cons, ih, size_channels_send]

end Switchboard

theorem Service.size_channels_apply (s : Service) (c : ConnectionId) (e : Effect) :
    (s.apply c e).switchboard.channels.size = s.switchboard.channels.size := by
  unfold apply
  dsimp only
  split
  · rw [Switchboard.size_channels_release, Switchboard.size_channels_foldl_send]
  · rw [Switchboard.size_channels_foldl_send]

theorem Session.connection_process (s : Session) (service : Service) (m : Message) :
    (s.process service m).1.connection = s.connection := by
  unfold process
  split
  · split <;> rfl
  · rfl

theorem Session.size_channels_process (s : Session) (service : Service) (m : Message) :
    (s.process service m).2.switchboard.channels.size = service.switchboard.channels.size := by
  unfold process
  split
  · split
    · exact service.size_channels_apply _ _
    · exact Switchboard.size_channels_send _ _ _
  · rfl

/-- Bytes neither open connections nor renumber links. -/
theorem Link.receiveFrom_linked (bs : Bytes) (l : Link) (service : Service) (processed : Nat) :
    (l.receiveFrom service processed bs).link.session.connection = l.session.connection ∧
      (l.receiveFrom service processed bs).service.switchboard.channels.size
        = service.switchboard.channels.size := by
  induction bs generalizing l service processed with
  | nil => exact ⟨rfl, rfl⟩
  | cons b bs ih =>
    unfold receiveFrom
    split
    · exact ih _ service processed
    · next decoder command _ =>
      have hc := l.session.connection_process service (.command command)
      have hs := l.session.size_channels_process service (.command command)
      dsimp only
      split
      · exact ⟨hc, hs⟩
      · rw [← hc, ← hs]
        exact ih ⟨decoder, _⟩ _ _

namespace Hub

/-- There is a link for each channel, and its session is started with its number. -/
structure Linked (h : Hub) : Prop where
  /-- There are as many links as channels. -/
  size_eq : h.links.size = h.service.switchboard.channels.size
  /-- Each link's session is started with the number of the link. -/
  connection_eq : ∀ {c : ConnectionId} {l : Link}, h.links[c]? = some l →
    l.session.connection = some c

namespace Linked

variable {h : Hub}

theorem start (today : Date) (filter : ContentFilter) : (Hub.start today filter).Linked where
  size_eq := rfl
  connection_eq := by intro c l hl; simp [Hub.start, ofDirectory] at hl

theorem lt_of_getElem? (hh : h.Linked) {c : ConnectionId} {l : Link} (hl : h.links[c]? = some l) :
    c < h.service.switchboard.channels.size := by
  rw [← hh.size_eq]
  exact (Array.getElem?_eq_some_iff.mp hl).1

/-- A change of a link that does not renumber it. -/
theorem of_modify (hh : h.Linked) {service : Service} {c : ConnectionId} {f : Link → Link}
    (hs : service.switchboard.channels.size = h.service.switchboard.channels.size)
    (hf : ∀ l, h.links[c]? = some l → (f l).session.connection = l.session.connection) :
    Linked { service, links := h.links.modify c f } where
  size_eq := by rw [Array.size_modify, hh.size_eq, ← hs]
  connection_eq := by
    intro c' l' hl'
    rw [Array.getElem?_modify] at hl'
    split at hl'
    · next hc =>
      obtain ⟨l, hl, rfl⟩ := Option.map_eq_some_iff.mp hl'
      rw [hf l (hc ▸ hl)]
      exact hh.connection_eq hl
    · exact hh.connection_eq hl'

theorem of_size_eq (hh : h.Linked) {service : Service}
    (hs : service.switchboard.channels.size = h.service.switchboard.channels.size) :
    Linked { h with service } where
  size_eq := by rw [hh.size_eq, ← hs]
  connection_eq := hh.connection_eq

theorem step (hh : h.Linked) (e : Event) : (h.step e).Linked := by
  cases e with
  | connect =>
    refine ⟨by simp [Hub.step, Hub.connect, Switchboard.connect, hh.size_eq], ?_⟩
    intro c l hl
    simp only [Hub.step, Hub.connect, Array.getElem?_push] at hl
    split at hl
    · next hc =>
      rw [← Option.some.inj hl, hc, hh.size_eq]
      rfl
    · exact hh.connection_eq hl
  | message c m =>
    simp only [Hub.step, Hub.message]
    split
    · exact hh
    · next l hl =>
      refine hh.of_modify (l.session.size_channels_process _ m) fun l' hl' => ?_
      rw [hl] at hl'
      rw [← Option.some.inj hl']
      exact l.session.connection_process _ m
  | bytes c bs =>
    simp only [Hub.step, Hub.bytes]
    split
    · exact hh
    · next l hl =>
      have hr := Link.receiveFrom_linked bs l h.service 0
      refine hh.of_modify hr.2 fun l' hl' => ?_
      rw [hl] at hl'
      rw [← Option.some.inj hl']
      exact hr.1
  | disconnect c =>
    simp only [Hub.step, Hub.disconnect]
    split
    · exact hh
    · next l hl =>
      refine hh.of_size_eq ?_
      simp [Session.disconnect, hh.connection_eq hl]
  | hangUp c => exact hh.of_size_eq Array.size_modify
  | release c => exact hh.of_size_eq Array.size_modify
  | broadcast m => exact hh.of_size_eq Array.size_map

theorem run (hh : h.Linked) (es : List Event) : (h.run es).Linked := by
  induction es generalizing h with
  | nil => exact hh
  | cons e es ih => exact ih (hh.step e)

end Linked

end Hub

/-! ### The moments of a run -/

/-- The event opens, serves or closes one connection.  Bytes are left out, since what
they amount to are the messages that they complete, and so is a message for everybody,
which no session sends. -/
def Event.isOperation : Event → Bool
  | .bytes .. | .broadcast _ => false
  | _ => true

theorem Event.ne_bytes_of_isOperation {e : Event} (he : e.isOperation) (c : ConnectionId)
    (bs : Bytes) : e ≠ .bytes c bs := by
  rintro rfl
  cases he

/-- With nothing to read an event is an operation, or something is sent to everybody. -/
theorem Hub.isOperation_or_broadcast {e : Event} (he : ∀ c bs, e ≠ .bytes c bs) :
    e.isOperation ∨ ∃ m, e = .broadcast m := by
  cases e with
  | bytes c bs => exact absurd rfl (he c bs)
  | broadcast m => exact .inr ⟨m, rfl⟩
  | _ => exact .inl rfl

/-- The user of a connection. -/
def Directory.userOn (d : Directory) (c : ConnectionId) : Option String :=
  (d.sessionOn c).map fun s => s.2.name

theorem Directory.userOn_of_sessionOn {d : Directory} {c : ConnectionId} {id : AccountId}
    {a : Account} (h : d.sessionOn c = some (id, a)) : d.userOn c = some a.name := by
  rw [userOn, h, Option.map_some]

namespace Hub

/-- The command that an event carries out, with the connection that it comes from. -/
def carriedOut (h : Hub) : Event → Option (ConnectionId × Command)
  | .message c (.command command) =>
    match h.links[c]?.bind fun l => l.session.connection with
    | none => none
    | some c =>
      match command.execute h.service.directory h.service.filter
          h.service.switchboard.accepts c with
      | .ok _ => some (c, command)
      | .error _ => none
  | _ => none

/-- The event carries out a command of the user that its connection has. -/
def Issues (h : Hub) (e : Event) (user : String) (command : Command) : Prop :=
  ∃ c, h.carriedOut e = some (c, command) ∧ h.service.directory.userOn c = some user

/-- The events of a run, each with the hub that it found. -/
def moments (h : Hub) : List Event → List (Hub × Event)
  | [] => []
  | e :: es => (h, e) :: (h.step e).moments es

@[simp] theorem moments_nil (h : Hub) : h.moments [] = [] := rfl

@[simp] theorem moments_cons (h : Hub) (e : Event) (es : List Event) :
    h.moments (e :: es) = (h, e) :: (h.step e).moments es := rfl

theorem moments_append (h : Hub) (es fs : List Event) :
    h.moments (es ++ fs) = h.moments es ++ (h.run es).moments fs := by
  induction es generalizing h with
  | nil => rfl
  | cons e es ih =>
    rw [List.cons_append, moments_cons, ih, run_cons, moments_cons, List.cons_append]

/-- At each moment of a run the hub is where the events before have brought it. -/
theorem exists_run_of_mem_moments {h : Hub} {es : List Event} {m : Hub × Event}
    (hm : m ∈ h.moments es) : ∃ before after, es = before ++ m.2 :: after ∧ h.run before = m.1 := by
  induction es generalizing h with
  | nil => cases hm
  | cons e es ih =>
    rw [moments_cons] at hm
    rcases List.mem_cons.mp hm with rfl | hm
    · exact ⟨[], es, rfl, rfl⟩
    · obtain ⟨before, after, rfl, hrun⟩ := ih hm
      exact ⟨e :: before, after, rfl, hrun⟩

theorem carriedOut_eq_some_iff {h : Hub} (hh : h.Linked) {e : Event} {c : ConnectionId}
    {command : Command} :
    h.carriedOut e = some (c, command) ↔
      e = .message c (.command command) ∧ c < h.links.size ∧
        ∃ effect, command.execute h.service.directory h.service.filter
          h.service.switchboard.accepts c = .ok effect := by
  constructor
  · intro hx
    cases e with
    | message c' m =>
      cases m with
      | reply r => cases hx
      | command command' =>
        cases hl : h.links[c']? with
        | none => simp [carriedOut, hl] at hx
        | some l =>
          simp only [carriedOut, hl, Option.bind_some, hh.connection_eq hl] at hx
          split at hx
          · next effect heffect =>
            cases hx
            exact ⟨rfl, (Array.getElem?_eq_some_iff.mp hl).1, effect, heffect⟩
          · cases hx
    | _ => cases hx
  · rintro ⟨rfl, hc, effect, heffect⟩
    have hl : h.links[c]? = some h.links[c] := Array.getElem?_eq_getElem hc
    simp only [carriedOut, hl, Option.bind_some, hh.connection_eq hl, heffect]

end Hub

/-- What an operation does to the service, and which command it carries out. -/
inductive Service.Turn (s : Service) : Event → Option (ConnectionId × Command) → Service → Prop
  /-- A connection opens. -/
  | opened : Turn s .connect none { s with switchboard := s.switchboard.connect.2 }
  /-- A command is carried out. -/
  | carriedOut {c : ConnectionId} {command : Command} {e : Effect}
      (hc : c < s.switchboard.channels.size)
      (h : command.execute s.directory s.filter s.switchboard.accepts c = .ok e) :
      Turn s (.message c (.command command)) (some (c, command)) (s.apply c e)
  /-- A command is refused. -/
  | refused {c : ConnectionId} {command : Command} {why : Rejection}
      (h : command.execute s.directory s.filter s.switchboard.accepts c = .error why) :
      Turn s (.message c (.command command)) none (s.send c (.error command.opcode))
  /-- A connection is gone, and its session with it. -/
  | ended (c : ConnectionId) :
      Turn s (.disconnect c) none
        { s with directory := s.directory.logout c, switchboard := s.switchboard.release c }
  /-- A receiving end is gone. -/
  | hungUp (c : ConnectionId) :
      Turn s (.hangUp c) none { s with switchboard := s.switchboard.hangUp c }
  /-- A sending end is gone. -/
  | released (c : ConnectionId) :
      Turn s (.release c) none { s with switchboard := s.switchboard.release c }
  /-- The message is no command, or the connection was never opened. -/
  | ignored (e : Event) : Turn s e none s

/-- **Every operation is a turn.** -/
theorem Hub.turn {h : Hub} (hh : h.Linked) {e : Event} (he : e.isOperation) :
    h.service.Turn e (h.carriedOut e) (h.step e).service := by
  cases e with
  | connect => exact .opened
  | message c m =>
    simp only [step, message]
    cases hl : h.links[c]? with
    | none =>
      -- nothing was ever opened under this number
      have hnone : h.carriedOut (.message c m) = none := by cases m <;> simp [carriedOut, hl]
      rw [hnone]
      exact .ignored _
    | some l =>
      have hc := hh.connection_eq hl
      cases m with
      | reply r =>
        simp only [carriedOut, Session.process, hc]
        exact .ignored _
      | command command =>
        simp only [carriedOut, Session.process, hl, hc, Option.bind_some]
        cases hx : command.execute h.service.directory h.service.filter
            h.service.switchboard.accepts c with
        | ok effect => exact .carriedOut (hh.lt_of_getElem? hl) hx
        | error why => exact .refused hx
  | disconnect c =>
    simp only [step, disconnect, carriedOut]
    cases hl : h.links[c]? with
    | none => exact .ignored _
    | some l =>
      simp only [Session.disconnect, Session.id, hh.connection_eq hl, Option.getD_some]
      exact .ended c
  | hangUp c => exact .hungUp c
  | release c => exact .released c
  | bytes c bs => cases he
  | broadcast m => cases he

/-- A command that is carried out is the whole of its event. -/
theorem Hub.step_of_carriedOut {h : Hub} (hh : h.Linked) {e : Event} {c : ConnectionId}
    {command : Command} (hx : h.carriedOut e = some (c, command)) :
    ∃ effect, command.execute h.service.directory h.service.filter
        h.service.switchboard.accepts c = .ok effect ∧
      (h.step e).service = h.service.apply c effect := by
  have he : e.isOperation := by
    obtain ⟨rfl, -, -⟩ := (carriedOut_eq_some_iff hh).mp hx
    rfl
  have hturn := h.turn hh he
  rw [hx] at hturn
  generalize (h.step e).service = s at hturn ⊢
  cases hturn with
  | carriedOut hc hok => exact ⟨_, hok, rfl⟩

/-- A command from a connection that was opened is carried out if nothing speaks against it. -/
theorem Hub.carriedOut_of_ok {h : Hub} (hh : h.Linked) {c : ConnectionId} (hc : c < h.links.size)
    {command : Command} {effect : Effect}
    (hok : command.execute h.service.directory h.service.filter h.service.switchboard.accepts c
      = .ok effect) :
    h.carriedOut (.message c (.command command)) = some (c, command) ∧
      (h.step (.message c (.command command))).service = h.service.apply c effect := by
  have hx : h.carriedOut (.message c (.command command)) = some (c, command) :=
    (carriedOut_eq_some_iff hh).mpr ⟨rfl, hc, effect, hok⟩
  obtain ⟨effect', hok', hstep⟩ := step_of_carriedOut hh hx
  obtain rfl : effect = effect' := Except.ok.inj (hok.symm.trans hok')
  exact ⟨hx, hstep⟩

theorem Hub.size_links_message (h : Hub) (c : ConnectionId) (m : Message) :
    (h.step (.message c m)).links.size = h.links.size := by
  simp only [step, message]
  split
  · rfl
  · exact Array.size_modify

end Microblog
