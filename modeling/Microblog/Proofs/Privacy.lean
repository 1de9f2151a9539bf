import Microblog.Proofs.Addressees
import Microblog.Proofs.Transcripts
import Microblog.Proofs.Veils

/-!
# What a private message tells stays private

Two runs are compared that differ in nothing but what is told a user in private.  Behind
the veil for that user the two are one: whatever happens to a hub happens to the hub behind
the veil as well, and there it cannot be seen what the private messages tell.  So
whatever the veil leaves is common to the two runs: what is carried out and what is
refused, all that is known of users besides what the private messages say, and every
message to a connection that is not the user's own.

Neither does what is on its way to clients matter for what happens next, so it is left
out behind the veil as well; what channels take is compared event by event.

## Main definitions

* `Switchboard.emptied`, `Service.veiled`, `Hub.veiled`, `Event.veiled` — behind the veil.
* `Event.SameButFor` — the same event but for what is told the user in private.
* `Message.SameButFor` — the same message but for what is told in private.
* `Directory.LooksLike` — the same directory but for what notifications say.
* `Hub.InStep` — what the two runs have in common at one moment.

## Main results

* `Hub.veiled_step` — behind the veil the same happens.
* `Hub.inStep` — moments that are the same behind the veil are in step.
* `private_messages_stay_private` — **nobody else learns what a private message tells.**
-/

namespace Microblog

/-! ### The switchboard -/

namespace Switchboard

/-- The switchboard, with nothing on its way. -/
def emptied (s : Switchboard) : Switchboard := { channels := s.channels.map Channel.drain }

variable (s : Switchboard) (c : ConnectionId)

@[simp] theorem accepts_emptied : s.emptied.accepts = s.accepts := by
  funext c
  simp only [accepts, emptied, Array.getElem?_map]
  cases s.channels[c]? <;> rfl

@[simp] theorem emptied_emptied : s.emptied.emptied = s.emptied := by
  simp only [emptied, Array.map_map]
  rfl

/-- A change of a channel, seen with nothing on its way. -/
theorem emptied_modify {f g : Channel → Channel} (hf : ∀ ch, (f ch).drain = g ch.drain) :
    emptied { channels := s.channels.modify c f }
      = { channels := s.emptied.channels.modify c g } := by
  simp only [emptied, mk.injEq]
  refine Array.ext_getElem? fun i => ?_
  simp only [Array.getElem?_map, Array.getElem?_modify]
  split
  · rw [Option.map_map, Option.map_map]
    exact congrArg (Option.map · s.channels[i]?) (funext hf)
  · rfl

@[simp] theorem emptied_send (m : Message) : (s.send c m).emptied = s.emptied := by
  have hpush : ∀ ch : Channel, (ch.push m).drain = id ch.drain := by
    intro ch
    unfold Channel.push
    split <;> rfl
  refine (emptied_modify s c hpush).trans (congrArg Switchboard.mk ?_)
  refine Array.ext_getElem? fun i => ?_
  rw [Array.getElem?_modify, Option.map_id_fun, id, ite_self, emptied]

@[simp] theorem emptied_foldl_send (items : List (ConnectionId × Reply)) :
    (items.foldl (fun board item => board.send item.1 (.reply item.2)) s).emptied
      = s.emptied := by
  induction items generalizing s with
  | nil => rfl
  | cons item items ih => rw [List.foldl_cons, ih, emptied_send]

theorem emptied_connect : s.connect.2.emptied = s.emptied.connect.2 := by
  simp [emptied, connect, Channel.drain]

theorem emptied_release : (s.release c).emptied = s.emptied.release c :=
  emptied_modify s c fun _ => rfl

theorem emptied_hangUp : (s.hangUp c).emptied = s.emptied.hangUp c :=
  emptied_modify s c fun _ => rfl

end Switchboard

/-! ### The service -/

/-- What a command has for a connection, without what is private to `user` if it is the
user's own. -/
theorem Effect.repliesTo_veiled (e : Effect) (user : String) (c : ConnectionId) :
    (e.veiled user).repliesTo c
      = if e.directory.connectionOf user = some c then (e.repliesTo c).map Reply.veiled
        else e.repliesTo c := by
  have hreply : ∀ item ∈ e.outgoing.filter (fun item => item.1 = c),
      (Reply.veiledOn (e.directory.connectionOf user) item).2
        = if e.directory.connectionOf user = some c then item.2.veiled else item.2 := by
    intro item hitem
    have hc : item.1 = c := by simpa using (List.mem_filter.mp hitem).2
    rw [Reply.veiledOn, hc]
  simp only [repliesTo, veiled, List.filter_map, List.map_map]
  refine (List.map_congr_left hreply).trans ?_
  split <;> rfl

/-- The service, without what is private to `user` and with nothing on its way. -/
def Service.veiled (s : Service) (user : String) : Service :=
  { s with directory := s.directory.veiled user, switchboard := s.switchboard.emptied }

/-- What a channel takes, without what is private to `user` if it is the user's own. -/
def Service.glimpse (s s' : Service) (user : String) (c : ConnectionId) : List Message :=
  let added := s.switchboard.added s'.switchboard c
  if s'.directory.connectionOf user = some c then added.map Message.veiled else added

namespace Service

variable {s : Service} {user : String}

/-- A channel on whose way nothing is put takes nothing. -/
theorem glimpse_eq_nil {s' : Service} {c : ConnectionId}
    (h : s'.switchboard.waiting c = s.switchboard.waiting c ∨ s'.switchboard.waiting c = []) :
    s.glimpse s' user c = [] := by
  have hadded : s.switchboard.added s'.switchboard c = [] := by
    rcases h with h | h
    · exact Switchboard.added_eq_nil h
    · rw [Switchboard.added, h, List.drop_nil]
  simp [glimpse, hadded]

/-- An ERROR tells nothing in private. -/
theorem glimpse_send_error (s : Service) (user : String) (c other : ConnectionId) (o : Opcode) :
    s.glimpse (s.send c (.error o)) user other
      = if c = other ∧ s.switchboard.accepts c then [.reply (.error o)] else [] := by
  have hadded : s.switchboard.added (s.send c (.error o)).switchboard other
      = if c = other ∧ s.switchboard.accepts c then [.reply (.error o)] else [] := by
    simp only [Switchboard.added, send, Switchboard.waiting_send]
    split
    · exact List.drop_left
    · exact List.drop_length
  rw [glimpse, hadded]
  split <;> split <;> rfl

theorem glimpse_apply (s : Service) (user : String) (e : Effect) (c other : ConnectionId) :
    s.glimpse (s.apply c e) user other
      = if s.switchboard.accepts other then ((e.veiled user).repliesTo other).map .reply
        else [] := by
  have hdirectory : (s.apply c e).directory = e.directory := rfl
  rw [glimpse, added_apply, hdirectory, Effect.repliesTo_veiled]
  by_cases hown : e.directory.connectionOf user = some other
  · rw [if_pos hown, if_pos hown]
    split
    · rw [List.map_map, List.map_map]
      rfl
    · rfl
  · rw [if_neg hown, if_neg hown]

/-- An effect on the service behind the veil. -/
theorem veiled_apply {e e' : Effect} (h : e'.veiled user = e.veiled user) (c : ConnectionId) :
    ((s.veiled user).apply c e').veiled user = (s.apply c e).veiled user := by
  have hdirectory : e'.directory.veiled user = e.directory.veiled user :=
    congrArg Effect.directory h
  have hcloses : (e'.veiled user).closes = (e.veiled user).closes := congrArg Effect.closes h
  change e'.closes = e.closes at hcloses
  simp only [veiled, apply, hdirectory, hcloses, mk.injEq, true_and]
  split
  · simp only [Switchboard.emptied_release, Switchboard.emptied_foldl_send,
      Switchboard.emptied_emptied]
  · simp only [Switchboard.emptied_foldl_send, Switchboard.emptied_emptied]

@[simp] theorem veiled_veiled (s : Service) (user : String) :
    (s.veiled user).veiled user = s.veiled user := by
  simp [veiled]

end Service

/-! ### The hub -/

/-- What a client sends, without what it tells `user` in private. -/
def Message.hushed (user : String) : Message → Message
  | .command c => .command (c.veiled user)
  | .reply r => .reply r

/-- The event, without what is told `user` in private. -/
def Event.veiled (user : String) : Event → Event
  | .message c m => .message c (m.hushed user)
  | e => e

@[simp] theorem Event.isOperation_veiled (user : String) (e : Event) :
    (e.veiled user).isOperation = e.isOperation := by
  cases e <;> rfl

theorem Command.opcode_veiled (user : String) (command : Command) :
    (command.veiled user).opcode = command.opcode := by
  cases command <;> rfl

/-- A message for a session behind the veil. -/
theorem Session.process_veiled (s : Session) (service : Service) (user : String) (m : Message) :
    let x := s.process service m
    let x' := s.process (service.veiled user) (m.hushed user)
    x'.1 = x.1 ∧ x'.2.veiled user = x.2.veiled user ∧
      ∀ c, (service.veiled user).glimpse x'.2 user c = service.glimpse x.2 user c := by
  have hignored : ∀ c, (service.veiled user).glimpse (service.veiled user) user c
      = service.glimpse service user c :=
    fun _ => (Service.glimpse_eq_nil (.inl rfl)).trans (Service.glimpse_eq_nil (.inl rfl)).symm
  obtain ⟨connection, terminated⟩ := s
  cases connection with
  | none => exact ⟨rfl, service.veiled_veiled user, hignored⟩
  | some c =>
    cases m with
    | reply r => exact ⟨rfl, service.veiled_veiled user, hignored⟩
    | command command =>
      have haccepts : (service.veiled user).switchboard.accepts = service.switchboard.accepts :=
        service.switchboard.accepts_emptied
      cases hx : command.execute service.directory service.filter service.switchboard.accepts c with
      | ok e =>
        obtain ⟨e', hx', he⟩ := Command.execute_veiled_eq_ok hx user
        have hx' : (command.veiled user).execute (service.veiled user).directory
            (service.veiled user).filter (service.veiled user).switchboard.accepts c = .ok e' := by
          rwa [haccepts]
        have hcloses : (e'.veiled user).closes = (e.veiled user).closes :=
          congrArg Effect.closes he
        change e'.closes = e.closes at hcloses
        simp only [Message.hushed, process, hx, hx']
        refine ⟨by rw [hcloses], Service.veiled_apply he c, fun other => ?_⟩
        rw [Service.glimpse_apply, Service.glimpse_apply, haccepts, he]
      | error why =>
        have hx' : (command.veiled user).execute (service.veiled user).directory
            (service.veiled user).filter (service.veiled user).switchboard.accepts c
              = .error why := by
          rw [haccepts]
          exact Command.execute_veiled_eq_error hx user
        simp only [Message.hushed, process, hx, hx']
        refine ⟨trivial, ?_, fun other => ?_⟩
        · simp [Service.veiled, Service.send]
        · simp only [Message.refusal, Message.opcode, Command.opcode_veiled]
          rw [Service.glimpse_send_error, Service.glimpse_send_error, haccepts]

namespace Hub

/-- The hub, without what is private to `user` and with nothing on its way. -/
def veiled (h : Hub) (user : String) : Hub := { h with service := h.service.veiled user }

/-- **Behind the veil the same happens.** -/
theorem veiled_step (h : Hub) (user : String) {e : Event} (he : e.isOperation) :
    ((h.veiled user).step (e.veiled user)).veiled user = (h.step e).veiled user := by
  have hignored : (h.veiled user).veiled user = h.veiled user :=
    congrArg (Hub.mk · h.links) (h.service.veiled_veiled user)
  -- the links are not behind the veil, so the same one is found on both sides
  cases e with
  | connect =>
    simp only [veiled, Event.veiled, step, connect, Service.veiled, Directory.veiled_veiled,
      Switchboard.emptied_connect, Switchboard.emptied_emptied, mk.injEq, true_and]
    simp [Switchboard.connect, Switchboard.emptied]
  | message c m =>
    simp only [Event.veiled, step, message]
    cases hl : h.links[c]? with
    | none =>
      have hl' : (h.veiled user).links[c]? = none := hl
      simp only [hl', hignored]
    | some l =>
      have hl' : (h.veiled user).links[c]? = some l := hl
      obtain ⟨hsession, hservice, -⟩ := l.session.process_veiled h.service user m
      simp only [hl']
      simp only [veiled, hsession, hservice]
  | disconnect c =>
    simp only [Event.veiled, step, disconnect]
    cases hl : h.links[c]? with
    | none =>
      have hl' : (h.veiled user).links[c]? = none := hl
      simp only [hl', hignored]
    | some l =>
      have hl' : (h.veiled user).links[c]? = some l := hl
      simp only [hl']
      simp only [veiled, Session.disconnect, Service.veiled, ← Directory.logout_veiled,
        Directory.veiled_veiled]
      cases l.session.connection <;> simp [Switchboard.emptied_release]
  | hangUp c =>
    simp [veiled, Event.veiled, step, mapSwitchboard, Service.veiled, Switchboard.emptied_hangUp]
  | release c =>
    simp [veiled, Event.veiled, step, mapSwitchboard, Service.veiled, Switchboard.emptied_release]
  | bytes c bs => cases he
  | broadcast m => cases he

/-- Only a message puts anything on its way to anybody. -/
theorem glimpse_step_eq_nil (h : Hub) (user : String) {e : Event} (he : e.isOperation)
    (hm : ∀ c m, e ≠ .message c m) (c : ConnectionId) :
    h.service.glimpse (h.step e).service user c = [] := by
  refine Service.glimpse_eq_nil ?_
  cases e with
  | connect => exact .inl (Switchboard.waiting_connect _ c)
  | message c' m => exact absurd rfl (hm c' m)
  | disconnect c' =>
    simp only [step, disconnect]
    cases h.links[c']? with
    | none => exact .inl rfl
    | some l =>
      refine .inl ?_
      simp only [Session.disconnect]
      split
      · exact Switchboard.waiting_release _ _ c
      · rfl
  | hangUp c' =>
    simp only [step, mapSwitchboard, Switchboard.waiting_hangUp]
    split
    · exact .inr rfl
    · exact .inl rfl
  | release c' => exact .inl (Switchboard.waiting_release _ c' c)
  | bytes c' bs => cases he
  | broadcast m => cases he

/-- **Behind the veil channels take the same.** -/
theorem glimpse_veiled_step (h : Hub) (user : String) {e : Event} (he : e.isOperation)
    (c : ConnectionId) :
    (h.veiled user).service.glimpse ((h.veiled user).step (e.veiled user)).service user c
      = h.service.glimpse (h.step e).service user c := by
  by_cases hm : ∀ c m, e ≠ .message c m
  · have hveiled : e.veiled user = e := by
      cases e with
      | message c' m => exact absurd rfl (hm c' m)
      | _ => rfl
    rw [hveiled, glimpse_step_eq_nil _ user he hm, glimpse_step_eq_nil _ user he hm]
  · obtain ⟨c', m, rfl⟩ : ∃ c' m, e = .message c' m := by simpa using hm
    simp only [Event.veiled, step, message]
    cases hl : h.links[c']? with
    | none =>
      have hl' : (h.veiled user).links[c']? = none := hl
      simp only [hl']
      exact (Service.glimpse_eq_nil (.inl rfl)).trans (Service.glimpse_eq_nil (.inl rfl)).symm
    | some l =>
      have hl' : (h.veiled user).links[c']? = some l := hl
      obtain ⟨-, -, hglimpse⟩ := l.session.process_veiled h.service user m
      simp only [hl']
      exact hglimpse c

/-- Behind the veil the same is carried out and refused. -/
theorem isSome_carriedOut_veiled (h : Hub) (user : String) (e : Event) :
    ((h.veiled user).carriedOut (e.veiled user)).isSome = (h.carriedOut e).isSome := by
  cases e with
  | message c m =>
    cases m with
    | reply r => rfl
    | command command =>
      have hlink : ((h.veiled user).links[c]?.bind fun l => l.session.connection)
          = h.links[c]?.bind fun l => l.session.connection := rfl
      have haccepts : (h.veiled user).service.switchboard.accepts = h.service.switchboard.accepts :=
        h.service.switchboard.accepts_emptied
      simp only [Event.veiled, Message.hushed, carriedOut, hlink, haccepts]
      cases h.links[c]?.bind fun l => l.session.connection with
      | none => rfl
      | some c' =>
        cases hx : command.execute h.service.directory h.service.filter
            h.service.switchboard.accepts c' with
        | ok effect =>
          obtain ⟨effect', hx', -⟩ := Command.execute_veiled_eq_ok hx user
          have hx' : (command.veiled user).execute (h.veiled user).service.directory
              (h.veiled user).service.filter h.service.switchboard.accepts c' = .ok effect' := hx'
          simp only [hx, hx']
          rfl
        | error why =>
          have hx' : (command.veiled user).execute (h.veiled user).service.directory
              (h.veiled user).service.filter h.service.switchboard.accepts c' = .error why :=
            Command.execute_veiled_eq_error hx user
          simp only [hx, hx']
  | _ => rfl

end Hub

/-! ### What is left -/

/-- The directory is the same, but for what the notifications in it say. -/
structure Directory.LooksLike (d d' : Directory) : Prop where
  /-- The same connections have sessions, of the same users. -/
  sessions_eq : d'.sessions = d.sessions
  /-- The connections have the same users. -/
  userOn_eq : ∀ c, d'.userOn c = d.userOn c
  /-- The same users are registered. -/
  identity : Keeps Account.identity d d'
  /-- They are logged in on the same connections. -/
  binding : Keeps Account.binding d d'
  /-- They follow and have blocked the same users. -/
  ties : Keeps Account.ties d d'
  /-- As many notifications wait for each of them. -/
  length_pending_eq : ∀ user,
    (d'.pending (.member user)).length = (d.pending (.member user)).length
  /-- Each has written as many posts. -/
  postCount_eq : ∀ user, d'.postCount user = d.postCount user
  /-- The history is as long. -/
  size_history_eq : d'.history.size = d.history.size

/-- What looks the same behind the veil looks the same. -/
theorem Directory.looksLike_of_veiled_eq {d d' : Directory} {user : String}
    (h : d'.veiled user = d.veiled user) : d.LooksLike d' := by
  have hkeeps : ∀ {κ : Type} {key : Account → κ},
      (∀ id a, key (Account.veiled user id a) = key a) → Keeps key d d' := by
    intro κ key hkey
    have hmap : ∀ (d : Directory) name,
        ((d.veiled user).member? name).map key = (d.member? name).map key := by
      intro d name
      rw [member?_veiled, Option.map_map]
      exact congrArg (Option.map · (d.member? name)) (funext (hkey _))
    have hroll : (d'.veiled user).roll = (d.veiled user).roll := by rw [h]
    exact ⟨fun name => by rw [← hmap d', h, hmap], hroll⟩
  have hlength : Keeps (fun a => a.pending.length) d d' := by
    refine hkeeps fun id a => ?_
    unfold Account.veiled
    split
    · exact List.length_map _
    · rfl
  have hsessions : (d'.veiled user).sessions = (d.veiled user).sessions := by rw [h]
  refine ⟨hsessions, fun c => ?_, hkeeps fun _ _ => rfl, hkeeps fun _ _ => rfl,
    hkeeps fun _ _ => rfl, fun name => ?_, fun name => ?_, ?_⟩
  · rw [← userOn_veiled d' user, h, userOn_veiled]
  · have hpending : ∀ d : Directory, (d.pending (.member name)).length
        = ((d.member? name).map fun a => a.pending.length).getD 0 := by
      intro d
      rw [pending, account?_member]
      cases d.member? name <;> rfl
    rw [hpending, hpending, hlength.map_key name]
  · rw [← postCount_veiled d' user, h, postCount_veiled]
  · have hsize := congrArg (fun d => d.history.size) h
    simpa using hsize

/-- What two runs have in common at a moment of each: an event, with the hub that it
found. -/
structure Hub.InStep (user : String) (m m' : Hub × Event) : Prop where
  /-- The same connections were opened, with their sessions in the same state. -/
  links_eq : (m'.1.step m'.2).links = (m.1.step m.2).links
  /-- In both a command is carried out, or in neither. -/
  isSome_carriedOut_eq : (m'.1.carriedOut m'.2).isSome = (m.1.carriedOut m.2).isSome
  /-- The directories are the same afterwards, but for what notifications say. -/
  looksLike : (m.1.step m.2).service.directory.LooksLike (m'.1.step m'.2).service.directory
  /-- Every channel takes the same, unless it is the user's own. -/
  added_eq : ∀ c, (m.1.step m.2).service.directory.userOn c ≠ some user →
    m'.1.service.switchboard.added (m'.1.step m'.2).service.switchboard c
      = m.1.service.switchboard.added (m.1.step m.2).service.switchboard c
  /-- The user's own channel takes the same, but for what private messages tell. -/
  map_veiled_added_eq : ∀ c,
    (m'.1.service.switchboard.added (m'.1.step m'.2).service.switchboard c).map Message.veiled
      = (m.1.service.switchboard.added (m.1.step m.2).service.switchboard c).map Message.veiled

namespace Hub

variable {h h' : Hub} {user : String}

/-- **Moments that are the same behind the veil are in step.** -/
theorem inStep (hh : h'.veiled user = h.veiled user) (hd : h.service.directory.Coherent)
    {e e' : Event} (he : e.isOperation) (hee : e'.veiled user = e.veiled user) :
    InStep user (h, e) (h', e') ∧ (h'.step e').veiled user = (h.step e).veiled user := by
  have he' : e'.isOperation := by
    rwa [← Event.isOperation_veiled user, hee, Event.isOperation_veiled]
  have hnext : (h'.step e').veiled user = (h.step e).veiled user := by
    rw [← veiled_step h' user he', hh, hee, veiled_step h user he]
  have hdirectory : (h'.step e').service.directory.veiled user
      = (h.step e).service.directory.veiled user :=
    congrArg (fun h => h.service.directory) hnext
  have hown : (h'.step e').service.directory.connectionOf user
      = (h.step e).service.directory.connectionOf user := by
    rw [← Directory.connectionOf_veiled _ user, hdirectory, Directory.connectionOf_veiled]
  have hglimpse : ∀ c, h'.service.glimpse (h'.step e').service user c
      = h.service.glimpse (h.step e).service user c := by
    intro c
    rw [← glimpse_veiled_step h' user he', hh, hee, glimpse_veiled_step h user he]
  have hd' : (h.step e).service.directory.Coherent := Directory.Coherent.invariant.step hd e
  have hlinks : ((h'.step e').veiled user).links = ((h.step e).veiled user).links := by rw [hnext]
  refine ⟨⟨hlinks, ?_, Directory.looksLike_of_veiled_eq hdirectory, ?_, ?_⟩, hnext⟩
  · rw [← isSome_carriedOut_veiled h' user, hh, hee, isSome_carriedOut_veiled]
  · intro c hc
    have hother : (h.step e).service.directory.connectionOf user ≠ some c := fun hown =>
      hc (hd'.userOn_eq_some_iff.mpr (hd'.connectionOf_eq_some_iff.mp hown))
    have hsame := hglimpse c
    rwa [Service.glimpse, Service.glimpse, hown, if_neg hother, if_neg hother] at hsame
  · intro c
    have hsame := hglimpse c
    rw [Service.glimpse, Service.glimpse, hown] at hsame
    split at hsame
    · exact hsame
    · exact congrArg (List.map Message.veiled) hsame

end Hub

/-! ### Runs -/

/-- The message is the same, but for what it tells if it is private and among what one run
and the other told. -/
inductive Message.SameButFor (told told' : List Notification) : Message → Message → Prop
  /-- The message is the same. -/
  | same (m : Message) : SameButFor told told' m m
  /-- The author tells something else in private. -/
  | pm {author content content' : String} (h : ⟨.pm, author, content⟩ ∈ told)
      (h' : ⟨.pm, author, content'⟩ ∈ told') :
    SameButFor told told' (.reply (.notification ⟨.pm, author, content⟩))
      (.reply (.notification ⟨.pm, author, content'⟩))

namespace Message

variable {told told' : List Notification}

/-- Messages that are the same behind the veil are the same but for what was told. -/
theorem sameButFor_of_veiled_eq {m m' : Message} (hm : m'.veiled = m.veiled)
    (htold : ∀ n, m = .reply (.notification n) → n ∈ told)
    (htold' : ∀ n, m' = .reply (.notification n) → n ∈ told') : SameButFor told told' m m' := by
  rcases m with command | (⟨kind, author, content⟩ | ack | opcode) <;>
    rcases m' with command' | (⟨kind', author', content'⟩ | ack' | opcode') <;>
    simp only [veiled, Reply.veiled, reply.injEq, Reply.notification.injEq, reduceCtorEq] at hm
  case command.command => exact hm ▸ .same _
  case reply.ack.reply.ack => exact hm ▸ .same _
  case reply.error.reply.error => exact hm ▸ .same _
  case reply.notification.reply.notification =>
    have hkind : kind' = kind := by simpa using congrArg Notification.kind hm
    have hauthor : author' = author := by simpa using congrArg Notification.author hm
    subst hkind hauthor
    cases kind' with
    | pm => exact .pm (htold _ rfl) (htold' _ rfl)
    | post =>
      have hcontent : content' = content := congrArg Notification.content hm
      exact hcontent ▸ .same _

theorem forall₂_sameButFor_of_map_veiled_eq {ms ms' : List Message}
    (h : ms'.map veiled = ms.map veiled) (htold : ∀ n, .reply (.notification n) ∈ ms → n ∈ told)
    (htold' : ∀ n, .reply (.notification n) ∈ ms' → n ∈ told') :
    List.Forall₂ (SameButFor told told') ms ms' := by
  induction ms generalizing ms' with
  | nil =>
    obtain rfl : ms' = [] := List.map_eq_nil_iff.mp h
    exact .nil
  | cons m ms ih =>
    obtain ⟨m', ms', rfl, hm, hms⟩ := List.map_eq_cons_iff.mp h
    refine .cons (sameButFor_of_veiled_eq hm ?_ ?_) (ih hms ?_ ?_)
    · exact fun n hn => htold n (hn ▸ List.mem_cons_self)
    · exact fun n hn => htold' n (hn ▸ List.mem_cons_self)
    · exact fun n hn => htold n (List.mem_cons_of_mem _ hn)
    · exact fun n hn => htold' n (List.mem_cons_of_mem _ hn)

end Message

/-- The event is the same, but for what a private message tells `user`. -/
inductive Event.SameButFor (user : String) : Event → Event → Prop
  /-- The event is the same. -/
  | same (e : Event) : SameButFor user e e
  /-- The user is told something else in private. -/
  | pm (c : ConnectionId) (content content' : String) :
    SameButFor user (.message c (.command (.pm user content)))
      (.message c (.command (.pm user content')))

theorem Event.SameButFor.veiled_eq {user : String} {e e' : Event} (h : SameButFor user e e') :
    e'.veiled user = e.veiled user := by
  cases h with
  | same => rfl
  | pm c content content' => simp [Event.veiled, Message.hushed, Command.veiled]

theorem Event.SameButFor.isOperation {user : String} {es es' : List Event}
    (hsame : List.Forall₂ (SameButFor user) es es') (hes : ∀ e ∈ es, e.isOperation) :
    ∀ e ∈ es', e.isOperation := by
  induction hsame with
  | nil => exact hes
  | @cons e e' es es' hee _ ih =>
    refine List.forall_mem_cons.mpr ⟨?_, ih fun x hx => hes x (List.mem_cons_of_mem _ hx)⟩
    rw [← isOperation_veiled user, hee.veiled_eq, isOperation_veiled]
    exact hes e List.mem_cons_self

/-- Runs of hubs that are the same behind the veil stay in step. -/
theorem Hub.inStep_moments {h h' : Hub} {user : String} (hh : h'.veiled user = h.veiled user)
    (hd : h.service.directory.Coherent) {es es' : List Event}
    (hes : ∀ e ∈ es, e.isOperation) (hsame : List.Forall₂ (Event.SameButFor user) es es') :
    List.Forall₂ (InStep user) (h.moments es) (h'.moments es') := by
  -- that the hubs are the same behind the veil is all that the next step needs
  induction hsame generalizing h h' with
  | nil => exact .nil
  | @cons e e' es es' hee hsame ih =>
    obtain ⟨hstep, hnext⟩ := inStep hh hd (hes e List.mem_cons_self) hee.veiled_eq
    exact .cons hstep (ih hnext (Directory.Coherent.invariant.step hd e)
      fun x hx => hes x (List.mem_cons_of_mem _ hx))

/-- **Nobody else learns what a private message tells.**  Take any run of operations, and
another that differs from it in nothing but what the private messages to one user tell.
Then at every moment the same happens in both: the same commands are carried out and
refused, the links are the same, and the directories are the same but for what
notifications say: sessions, users, the follow graph with its blocks, the numbers of
posts and of notifications that wait, the length of the history.  A connection on which the
user is never logged in gets exactly the same messages.  One on which the user is logged in
gets the same, too, but for what the private notifications tell that were addressed to the
user. -/
theorem private_messages_stay_private (today : Date) (filter : ContentFilter) {user : String}
    {es es' : List Event} (hes : ∀ e ∈ es, e.isOperation)
    (hsame : List.Forall₂ (Event.SameButFor user) es es') :
    let start := Hub.start today filter
    List.Forall₂ (Hub.InStep user) (start.moments es) (start.moments es') ∧
      ∀ c, List.Forall₂ (Message.SameButFor (start.told es user) (start.told es' user))
          (start.said es c) (start.said es' c) ∧
        ((∀ m ∈ start.moments es, (m.1.step m.2).service.directory.userOn c ≠ some user) →
          start.said es' c = start.said es c) := by
  intro start
  have hes' : ∀ e ∈ es', e.isOperation := Event.SameButFor.isOperation hsame hes
  have hmoments : List.Forall₂ (Hub.InStep user) (start.moments es) (start.moments es') :=
    Hub.inStep_moments rfl (Directory.Coherent.empty today) hes hsame
  refine ⟨hmoments, fun c => ?_⟩
  -- the runs go on together, but what was told is taken from the whole of them
  have hmem : ∀ es, (∀ e ∈ es, e.isOperation) → ∀ m ∈ start.moments es,
      (m.1.step m.2).service.directory.userOn c = some user → ∀ n, .reply (.notification n)
        ∈ m.1.service.switchboard.added (m.1.step m.2).service.switchboard c →
      n ∈ start.told es user :=
    fun es hes m hm huser n hn => Hub.mem_told today filter hes hm huser hn
  have htold := hmem es hes
  have htold' := hmem es' hes'
  unfold Hub.said
  generalize start.moments es = ms at hmoments htold ⊢
  generalize start.moments es' = ms' at hmoments htold' ⊢
  induction hmoments with
  | nil => exact ⟨.nil, fun _ => rfl⟩
  | @cons m m' ms ms' hm _ ih =>
    obtain ⟨hsimilar, hequal⟩ := ih (fun x hx => htold x (List.mem_cons_of_mem _ hx))
      fun x hx => htold' x (List.mem_cons_of_mem _ hx)
    simp only [List.flatMap_cons]
    refine ⟨List.rel_append ?_ hsimilar, fun hnever => ?_⟩
    · by_cases huser : (m.1.step m.2).service.directory.userOn c = some user
      · have huser' : (m'.1.step m'.2).service.directory.userOn c = some user := by
          rw [hm.looksLike.userOn_eq, huser]
        exact Message.forall₂_sameButFor_of_map_veiled_eq (hm.map_veiled_added_eq c)
          (htold m List.mem_cons_self huser) (htold' m' List.mem_cons_self huser')
      · rw [hm.added_eq c huser]
        exact List.forall₂_same.mpr fun x _ => .same x
    · rw [hm.added_eq c (hnever _ List.mem_cons_self),
        hequal fun m hmem => hnever m (List.mem_cons_of_mem _ hmem)]

/-- Alice writes to Bob twice, once before and once after he has logged in, and then to Eve,
who looks at everybody's statistics. -/
def whispers (first second : String) : List Event :=
  [.connect, .connect, .connect,
    .message 0 (.command (.register "alice" "a" ⟨1, 1, 2000⟩)),
    .message 1 (.command (.register "bob" "b" ⟨1, 1, 2000⟩)),
    .message 2 (.command (.register "eve" "e" ⟨1, 1, 2000⟩)),
    .message 0 (.command (.login "alice" "a" 0x31)),
    .message 2 (.command (.login "eve" "e" 0x31)),
    .message 0 (.command (.pm "bob" first)),
    .message 1 (.command (.login "bob" "b" 0x31)),
    .message 0 (.command (.pm "bob" second)),
    .message 0 (.command (.pm "eve" "not you")),
    .message 2 (.command .logStat)]

theorem sameButFor_whispers (first second first' second' : String) :
    List.Forall₂ (Event.SameButFor "bob") (whispers first second) (whispers first' second') :=
  .cons (.same _) <| .cons (.same _) <| .cons (.same _) <|
    .cons (.same _) <| .cons (.same _) <| .cons (.same _) <|
    .cons (.same _) <| .cons (.same _) <|
    .cons (.pm 0 first first') <| .cons (.same _) <| .cons (.pm 0 second second') <|
    .cons (.same _) <| .cons (.same _) .nil

/-- Bob gets what Alice writes, and Eve does not. -/
theorem private_messages_stay_private_whispers :
    let start := Hub.start ⟨2024, 1, 1⟩ {}
    let es := whispers "noon" "dinner at the bridge"
    let es' := whispers "midnight" "never mind"
    (∀ e ∈ es, e.isOperation) ∧ List.Forall₂ (Event.SameButFor "bob") es es' ∧
      start.said es 1 ≠ start.said es' 1 ∧
      List.Forall₂ (Message.SameButFor (start.told es "bob") (start.told es' "bob"))
        (start.said es 1) (start.said es' 1) ∧
      start.said es' 2 = start.said es 2 ∧ (start.said es 2).length = 4 := by
  have hes : ∀ e ∈ whispers "noon" "dinner at the bridge", e.isOperation := by decide
  have hsame := sameButFor_whispers "noon" "dinner at the bridge" "midnight" "never mind"
  obtain ⟨-, hsaid⟩ := private_messages_stay_private ⟨2024, 1, 1⟩ {} hes hsame
  have hnever : ∀ m ∈ (Hub.start ⟨2024, 1, 1⟩ {}).moments (whispers "noon" "dinner at the bridge"),
      (m.1.step m.2).service.directory.userOn 2 ≠ some "bob" := by decide +kernel
  exact ⟨hes, hsame, by decide +kernel, (hsaid 1).1, (hsaid 2).2 hnever, by decide +kernel⟩

end Microblog
