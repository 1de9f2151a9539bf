import Microblog.Proofs.Answers
import Microblog.Proofs.Capacity
import Microblog.Proofs.Unfolding

/-!
# A LOGOUT is the last command

The bytes that a client sends arrive piece by piece, and each command is carried out with its
last byte.  Whether a LOGOUT is accepted is known only then: it is if anybody is logged in.  If it
is, the rest of the piece is dropped, and the connection is given up, so that there is no other.
If it is not, all goes on.

So where the pieces end makes no difference.  What does is the list of all commands in all of the
pieces, and the first accepted LOGOUT in it.

## Main definitions

* `Link.executed`, `Server.executed` — the commands that are executed while bytes arrive.
* `Service.after` — a service after some commands.
* `Service.AcceptsLogoutAt` — one of some commands is a LOGOUT, and is accepted in its turn.

## Main results

* `Link.receiveFrom_append` — two pieces for a link are one.
* `Server.Sound.receive_flatten` — many pieces for a server are one.
* `Session.processed_of_first`, `Session.processed_of_none` — how far a session gets.
* `logout_is_last` — **commands are executed up to the first accepted LOGOUT.**
-/

namespace Microblog

/-! ### The commands that are executed -/

namespace Link

/-- The commands that are executed while some bytes arrive for a link.  After one that leaves the
session terminated there is none. -/
def executed (l : Link) (service : Service) : Bytes → List Command
  | [] => []
  | b :: bs =>
    match l.decoder.step b with
    | (decoder, none) => executed { l with decoder } service bs
    | (decoder, some command) =>
      match l.session.process service (.command command) with
      | (session, service) =>
        command :: if session.terminated then [] else executed ⟨decoder, session⟩ service bs

section

variable {l : Link} {b : UInt8} {decoder : Wire.Decoder} {command : Command}

theorem executed_cons_none (h : l.decoder.step b = (decoder, none)) (service : Service)
    (bs : Bytes) : l.executed service (b :: bs) = Link.executed { l with decoder } service bs := by
  rw [executed, h]

theorem executed_cons_some (h : l.decoder.step b = (decoder, some command)) (service : Service)
    (bs : Bytes) :
    let done := l.session.process service (.command command)
    l.executed service (b :: bs)
      = command :: if done.1.terminated then [] else Link.executed ⟨decoder, done.1⟩ done.2 bs := by
  rw [executed, h]

end

/-- They are those of the commands in the bytes that the session processes. -/
theorem executed_eq (l : Link) (service : Service) (bs : Bytes) :
    l.executed service bs = l.session.processed service (l.decoder.feed bs).2 := by
  induction bs generalizing l service with
  | nil => rfl
  | cons b bs ih =>
    rw [Wire.Decoder.feed_cons]
    rcases hstep : l.decoder.step b with ⟨decoder, completed⟩
    cases completed with
    | none =>
      rw [executed_cons_none hstep, ih]
      rfl
    | some command =>
      rw [executed_cons_some hstep, ih]
      rfl

/-- They are as many as are counted, and the count has no other effect. -/
theorem receiveFrom_eq_receive (l : Link) (service : Service) (processed : Nat) (bs : Bytes) :
    l.receiveFrom service processed bs
      = { l.receive service bs with processed := processed + (l.executed service bs).length } := by
  induction bs generalizing l service processed with
  | nil => rfl
  | cons b bs ih =>
    rcases hstep : l.decoder.step b with ⟨decoder, completed⟩
    cases completed with
    | none =>
      rw [receive, receiveFrom_cons_none hstep, receiveFrom_cons_none hstep,
        executed_cons_none hstep]
      exact ih _ service processed
    | some command =>
      rw [receive, receiveFrom_cons_some hstep, receiveFrom_cons_some hstep,
        executed_cons_some hstep]
      split
      · rfl
      · rw [ih, ih _ _ (0 + 1), List.length_cons, Nat.add_right_comm, Nat.add_assoc]

variable {l : Link} {service : Service}

/-- **Two pieces for a link are one**, unless the first has terminated the session. -/
theorem receiveFrom_append (hl : l.session.terminated = false) (service : Service)
    (processed : Nat) (as bs : Bytes) :
    let first := l.receiveFrom service processed as
    l.receiveFrom service processed (as ++ bs)
        = (if first.link.session.terminated then first
            else first.link.receiveFrom first.service first.processed bs) ∧
      l.executed service (as ++ bs)
        = l.executed service as ++
          if first.link.session.terminated then [] else first.link.executed first.service bs := by
  induction as generalizing l service processed with
  | nil => simp [receiveFrom, executed, hl]
  | cons a as ih =>
    rcases hstep : l.decoder.step a with ⟨decoder, completed⟩
    rw [List.cons_append]
    cases completed with
    | none =>
      rw [receiveFrom_cons_none hstep, receiveFrom_cons_none hstep, executed_cons_none hstep,
        executed_cons_none hstep]
      exact ih (l := { l with decoder }) hl service processed
    | some command =>
      rw [receiveFrom_cons_some hstep, receiveFrom_cons_some hstep, executed_cons_some hstep,
        executed_cons_some hstep]
      split
      · next hdone => simp [hdone]
      · next hdone =>
        obtain ⟨hreceive, hexecuted⟩ :=
          ih (l := ⟨decoder, _⟩) (Bool.eq_false_iff.mpr hdone) _ (processed + 1)
        exact ⟨hreceive, congrArg (command :: ·) hexecuted⟩

/-- After a piece that has terminated the session another is for nothing. -/
theorem receive_append_of_terminated (hl : l.session.terminated = false) {as : Bytes}
    (h : (l.receive service as).link.session.terminated) (bs : Bytes) :
    l.receive service (as ++ bs) = l.receive service as ∧
      l.executed service (as ++ bs) = l.executed service as := by
  obtain ⟨hreceive, hexecuted⟩ := receiveFrom_append hl service 0 as bs
  refine ⟨hreceive.trans (if_pos h), hexecuted.trans ?_⟩
  show _ ++ (if (l.receive service as).link.session.terminated then _ else _) = _
  rw [if_pos h, List.append_nil]

/-- After any other it is as if they had come together. -/
theorem receive_append_of_live (hl : l.session.terminated = false) {as : Bytes}
    (h : (l.receive service as).link.session.terminated = false) (bs : Bytes) :
    let first := l.receive service as
    let second := first.link.receive first.service bs
    (l.receive service (as ++ bs)).link = second.link ∧
      (l.receive service (as ++ bs)).service = second.service ∧
      l.executed service (as ++ bs)
        = l.executed service as ++ first.link.executed first.service bs := by
  intro first second
  have hlive : ¬ first.link.session.terminated = true := by
    rw [h]
    exact Bool.false_ne_true
  obtain ⟨hreceive, hexecuted⟩ := receiveFrom_append hl service 0 as bs
  have hboth : l.receive service (as ++ bs)
      = first.link.receiveFrom first.service first.processed bs := hreceive.trans (if_neg hlive)
  rw [hboth, receiveFrom_eq_receive]
  exact ⟨rfl, rfl, hexecuted.trans (congrArg (l.executed service as ++ ·) (if_neg hlive))⟩

end Link

/-! ### Pieces for a server -/

namespace Server

/-- The commands that are executed while some bytes arrive on `c`. -/
def executedIn (s : Server) (c : ConnectionId) (bs : Bytes) : List Command :=
  if s.isOpen c then s.hub.links[c]?.elim [] fun l => l.executed s.hub.service bs else []

/-- The commands that are executed while some pieces arrive on `c`, one after another. -/
def executed (s : Server) (c : ConnectionId) : List Bytes → List Command
  | [] => []
  | bs :: pieces => s.executedIn c bs ++ (s.receive c bs).executed c pieces

namespace Sound

variable {s : Server} {c : ConnectionId} {l : Link}

/-- What bytes on an open connection leave. -/
theorem receive_eq_link (hs : s.Sound) (hl : s.hub.links[c]? = some l) (hc : s.isOpen c)
    (bs : Bytes) :
    s.receive c bs = { s with
      hub := { service := (l.receive s.hub.service bs).service
               links := s.hub.links.modify c fun _ => (l.receive s.hub.service bs).link } } := by
  rw [hs.receive_eq hc]
  simp only [Hub.bytes, hl]

theorem executedIn_eq (hl : s.hub.links[c]? = some l) (hc : s.isOpen c) (bs : Bytes) :
    s.executedIn c bs = l.executed s.hub.service bs := by
  rw [executedIn, if_pos hc, hl, Option.elim_some]

/-- The link after that, and whether the connection is still open. -/
theorem link_receive (hs : s.Sound) (hl : s.hub.links[c]? = some l) (hc : s.isOpen c) (bs : Bytes) :
    (s.receive c bs).hub.links[c]? = some (l.receive s.hub.service bs).link ∧
      (s.receive c bs).hasTerminated c = (l.receive s.hub.service bs).link.session.terminated ∧
      (s.receive c bs).isOpen c = !(l.receive s.hub.service bs).link.session.terminated := by
  have hlink : (s.receive c bs).hub.links[c]? = some (l.receive s.hub.service bs).link := by
    rw [hs.receive_eq_link hl hc, Array.getElem?_modify, if_pos rfl, hl]
    rfl
  have hterminated : (s.receive c bs).hasTerminated c
      = (l.receive s.hub.service bs).link.session.terminated := by
    rw [hasTerminated, hlink]
    rfl
  obtain ⟨-, -, -, hopen, -⟩ := hs.bytes hc bs
  rw [← hs.receive_eq hc bs, hterminated] at hopen
  exact ⟨hlink, hterminated, by rw [hopen, Bool.not_not]⟩

/-- No bytes at all change nothing. -/
theorem receive_nil (hs : s.Sound) (c : ConnectionId) :
    s.receive c [] = s ∧ s.executedIn c [] = [] := by
  by_cases hc : s.isOpen c
  · obtain ⟨l, hl⟩ := hs.exists_link hc
    have hlinks : (s.hub.links.modify c fun _ => l) = s.hub.links :=
      modify_eq_self fun l' hl' => Option.some.inj (hl.symm.trans hl')
    rw [hs.receive_eq_link hl hc, executedIn_eq hl hc]
    refine ⟨?_, rfl⟩
    show { s with hub := { s.hub with links := s.hub.links.modify c fun _ => l } } = s
    rw [hlinks]
  · exact ⟨if_neg hc, if_neg hc⟩

/-- **Two pieces for a server are one.** -/
theorem receive_append (hs : s.Sound) (c : ConnectionId) (as bs : Bytes) :
    s.receive c (as ++ bs) = (s.receive c as).receive c bs ∧
      s.executedIn c (as ++ bs) = s.executedIn c as ++ (s.receive c as).executedIn c bs := by
  by_cases hc : s.isOpen c
  · obtain ⟨l, hl⟩ := hs.exists_link hc
    obtain ⟨hs', -, -⟩ := hs.step (.receive c as)
    have hs' : (s.receive c as).Sound := hs'
    obtain ⟨hl', -, hc'⟩ := hs.link_receive hl hc as
    have hfirst := hs.receive_eq_link hl hc as
    rw [hs.receive_eq_link hl hc (as ++ bs), executedIn_eq hl hc, executedIn_eq hl hc]
    cases hclosed : (l.receive s.hub.service as).link.session.terminated with
    | true =>
      obtain ⟨hboth, hexecuted⟩ := Link.receive_append_of_terminated (hs.live hl hc) hclosed bs
      have hended : ¬ (s.receive c as).isOpen c := by
        rw [hc', hclosed]
        exact Bool.false_ne_true
      have hlast : (s.receive c as).receive c bs = s.receive c as := if_neg hended
      have hnone : (s.receive c as).executedIn c bs = [] := if_neg hended
      rw [hlast, hnone, hfirst, hboth, hexecuted, List.append_nil]
      exact ⟨rfl, rfl⟩
    | false =>
      obtain ⟨hlink, hservice, hexecuted⟩ :=
        Link.receive_append_of_live (hs.live hl hc) hclosed bs
      have hopen : (s.receive c as).isOpen c = true := by
        rw [hc', hclosed]
        rfl
      rw [executedIn_eq hl' hopen, hs'.receive_eq_link hl' hopen, hfirst, hlink, hservice,
        hexecuted]
      refine ⟨?_, rfl⟩
      dsimp only
      rw [modify_modify]
  · have hignored : ∀ bs, s.receive c bs = s := fun bs => if_neg hc
    have hnothing : ∀ bs, s.executedIn c bs = [] := fun bs => if_neg hc
    simp only [hignored, hnothing, List.append_nil, and_self]

/-- **Many pieces for a server are one.** -/
theorem receive_flatten (hs : s.Sound) (c : ConnectionId) (pieces : List Bytes) :
    s.run (pieces.map (.receive c)) = s.receive c pieces.flatten ∧
      s.executed c pieces = s.executedIn c pieces.flatten := by
  induction pieces generalizing s with
  | nil =>
    obtain ⟨hreceive, hexecuted⟩ := hs.receive_nil c
    exact ⟨hreceive.symm, hexecuted.symm⟩
  | cons bs pieces ih =>
    obtain ⟨hs', -, -⟩ := hs.step (.receive c bs)
    obtain ⟨hrun, hrest⟩ := ih hs'
    obtain ⟨hreceive, hexecuted⟩ := hs.receive_append c bs pieces.flatten
    rw [List.flatten_cons, hreceive, hexecuted]
    exact ⟨hrun, congrArg (s.executedIn c bs ++ ·) hrest⟩

end Sound

end Server

/-! ### The first LOGOUT that is accepted -/

namespace Service

variable {s : Service} {c : ConnectionId} {command : Command} {commands : List Command} {i : Nat}

/-- The service after some commands from the connection `c`, each carried out or refused. -/
def after (s : Service) (c : ConnectionId) (commands : List Command) : Service :=
  commands.foldl (fun s command => s.apply c (s.effect c command)) s

/-- Command number `i` is a LOGOUT, and somebody is logged in when its turn comes. -/
def AcceptsLogoutAt (s : Service) (c : ConnectionId) (commands : List Command) (i : Nat) : Prop :=
  commands[i]? = some .logout ∧
    (s.after c (commands.take i)).directory.sessions.isEmpty = false

instance (s : Service) (c : ConnectionId) (commands : List Command) (i : Nat) :
    Decidable (s.AcceptsLogoutAt c commands i) :=
  inferInstanceAs (Decidable (_ ∧ _))

theorem after_take_succ (s : Service) (c : ConnectionId) (h : commands[i]? = some command) :
    s.after c (commands.take (i + 1))
      = (s.after c (commands.take i)).apply c ((s.after c (commands.take i)).effect c command) := by
  rw [List.take_add_one, h, after, List.foldl_append]
  rfl

/-- A LOGOUT that is refused changes nothing in the directory. -/
theorem directory_apply_refused (h : s.directory.sessions.isEmpty) :
    (s.apply c (s.effect c .logout)).directory = s.directory := by
  rw [effect_of_refused fun e he => ?_]
  · rfl
  · have hsome := (executeLogout_eq_ok_iff.mp he).1
    rw [h] at hsome
    cases hsome

/-- A command closes its connection if it is a LOGOUT and somebody is logged in. -/
theorem closes_effect_iff : (s.effect c command).closes
    ↔ command = .logout ∧ s.directory.sessions.isEmpty = false := by
  obtain ⟨-, -, -, hcloses⟩ := s.exists_emission c command
  rw [hcloses, and_comm]
  refine and_congr_right ?_
  rintro rfl
  constructor
  · rintro ⟨e, he⟩
    exact (executeLogout_eq_ok_iff.mp he).1
  · intro hsome
    exact ⟨_, executeLogout_eq_ok_iff.mpr ⟨hsome, rfl⟩⟩

theorem acceptsLogoutAt_zero : s.AcceptsLogoutAt c (command :: commands) 0
    ↔ (s.effect c command).closes := by
  rw [closes_effect_iff, AcceptsLogoutAt, List.getElem?_cons_zero, Option.some_inj]
  rfl

theorem acceptsLogoutAt_succ : s.AcceptsLogoutAt c (command :: commands) (i + 1)
    ↔ (s.apply c (s.effect c command)).AcceptsLogoutAt c commands i := Iff.rfl

end Service

namespace Session

variable {s : Session} {service : Service} {c : ConnectionId} {commands : List Command} {i : Nat}

/-- What a session processes has its effects, one after another. -/
theorem processAll_snd (hs : s.connection = some c) (commands : List Command) :
    (s.processAll service commands).2 = service.after c (s.processed service commands) := by
  induction commands generalizing s service with
  | nil => rfl
  | cons command commands ih =>
    unfold processAll processed
    rw [Service.process_eq_effect hs]
    dsimp only
    split
    · rfl
    · exact ih (s := { s with terminated := _ }) hs

/-- As long as no LOGOUT is accepted, the session goes on. -/
theorem processed_drop (hs : s.connection = some c) (hlive : s.terminated = false)
    (hnone : ∀ j < i, ¬ service.AcceptsLogoutAt c commands j) :
    let later := service.after c (commands.take i)
    s.processed service commands
        = commands.take i ++ s.processed later (commands.drop i) ∧
      s.processAll service commands = s.processAll later (commands.drop i) := by
  induction commands generalizing service i with
  | nil => simp [Service.after]
  | cons command commands ih =>
    cases i with
    | zero => exact ⟨rfl, rfl⟩
    | succ i =>
      have hopen : (service.effect c command).closes = false := by
        refine Bool.eq_false_iff.mpr fun hcloses => ?_
        exact hnone 0 (Nat.zero_lt_succ i) (Service.acceptsLogoutAt_zero.mpr hcloses)
      have hprocess : s.process service (.command command)
          = (s, service.apply c (service.effect c command)) := by
        rw [Service.process_eq_effect hs, hopen, Bool.or_false]
      obtain ⟨hprocessed, hprocessAll⟩ := ih fun j hj hbefore =>
        hnone (j + 1) (Nat.succ_lt_succ hj) (Service.acceptsLogoutAt_succ.mpr hbefore)
      rw [processed, processAll, hprocess]
      dsimp only
      rw [hlive, if_neg Bool.false_ne_true, if_neg Bool.false_ne_true]
      exact ⟨congrArg (command :: ·) hprocessed, hprocessAll⟩

/-- **A session processes commands up to the first LOGOUT that is accepted**, which terminates
it. -/
theorem processed_of_first (hs : s.connection = some c) (hlive : s.terminated = false)
    (hi : service.AcceptsLogoutAt c commands i)
    (hfirst : ∀ j < i, ¬ service.AcceptsLogoutAt c commands j) :
    s.processed service commands = commands.take (i + 1) ∧
      (s.processAll service commands).1.terminated := by
  obtain ⟨hprocessed, hprocessAll⟩ := processed_drop hs hlive hfirst
  obtain ⟨hlogout, hsome⟩ := hi
  obtain ⟨hlt, hget⟩ := List.getElem?_eq_some_iff.mp hlogout
  have hcloses : ((service.after c (commands.take i)).effect c .logout).closes :=
    Service.closes_effect_iff.mpr ⟨rfl, hsome⟩
  rw [hprocessed, hprocessAll, List.drop_eq_getElem_cons hlt, hget, List.take_add_one, hlogout,
    processed, processAll, Service.process_eq_effect hs, hcloses, Bool.or_true]
  exact ⟨rfl, rfl⟩

/-- **If none is accepted, it processes them all.** -/
theorem processed_of_none (hs : s.connection = some c) (hlive : s.terminated = false)
    (hnone : ∀ i, ¬ service.AcceptsLogoutAt c commands i) :
    s.processed service commands = commands ∧
      (s.processAll service commands).1.terminated = false := by
  obtain ⟨hprocessed, hprocessAll⟩ :=
    processed_drop (i := commands.length) hs hlive fun j _ => hnone j
  rw [List.take_length, List.drop_length] at hprocessed hprocessAll
  rw [hprocessed, hprocessAll]
  exact ⟨List.append_nil commands, hlive⟩

/-- The session processes some of the commands from the front, the one behind each LOGOUT that is
not accepted being among them. -/
theorem getElem?_processed_succ (hs : s.connection = some c) (hlive : s.terminated = false)
    (hi : i < (s.processed service commands).length)
    (hrefused : ¬ service.AcceptsLogoutAt c commands i) :
    (s.processed service commands)[i + 1]? = commands[i + 1]? := by
  by_cases hsome : ∃ k, service.AcceptsLogoutAt c commands k
  · obtain ⟨k, hk, hfirst⟩ := Nat.findX hsome
    obtain ⟨hprocessed, -⟩ := processed_of_first hs hlive hk hfirst
    rw [hprocessed, List.length_take] at hi
    have hne : i ≠ k := fun heq => hrefused (heq ▸ hk)
    rw [hprocessed, List.getElem?_take_of_lt (by omega)]
  · rw [(processed_of_none hs hlive fun k hk => hsome ⟨k, hk⟩).1]

end Session

namespace Server.Sound

variable {s : Server} {c : ConnectionId} {l : Link}

/-- What arrives in pieces is processed as the commands in all of them. -/
theorem run_pieces (hs : s.Sound) (hl : s.hub.links[c]? = some l) (hc : s.isOpen c)
    (pieces : List Bytes) :
    let commands := (l.decoder.feed pieces.flatten).2
    let s' := s.run (pieces.map (.receive c))
    s.executed c pieces = l.session.processed s.hub.service commands ∧
      s'.hub.service = (l.session.processAll s.hub.service commands).2 ∧
      s'.hasTerminated c = (l.session.processAll s.hub.service commands).1.terminated ∧
      s'.isOpen c = !(l.session.processAll s.hub.service commands).1.terminated := by
  intro commands s'
  obtain ⟨hrun, hexecuted⟩ := hs.receive_flatten c pieces
  obtain ⟨-, hterminated, hopen⟩ := hs.link_receive hl hc pieces.flatten
  have hprocessAll := Link.receiveFrom_eq pieces.flatten l s.hub.service 0
  have hsession := congrArg Prod.fst hprocessAll
  have hservice := congrArg Prod.snd hprocessAll
  have hrun : s' = s.receive c pieces.flatten := hrun
  rw [hrun, hexecuted, executedIn_eq hl hc, Link.executed_eq, hterminated, hopen, ← hsession,
    hs.receive_eq_link hl hc]
  exact ⟨rfl, hservice, rfl, rfl⟩

end Server.Sound

/-! ### Links on which nothing has arrived -/

theorem Hub.links_disconnect (h : Hub) (c : ConnectionId) : (h.disconnect c).links = h.links := by
  unfold Hub.disconnect
  split <;> rfl

namespace Server

variable {s : Server} {c : ConnectionId}

/-- Whoever hears nothing on `c` has no frame under way there. -/
theorem decoder_step (h : ∀ l, s.hub.links[c]? = some l → l.decoder = .idle) {x : Step}
    (hx : ∀ bs, x ≠ .receive c bs) :
    ∀ l, (s.step x).hub.links[c]? = some l → l.decoder = .idle := by
  cases x with
  | connect =>
    simp only [step, connect]
    split
    · exact h
    · intro l hl
      simp only [Hub.connect, Array.getElem?_push] at hl
      split at hl
      · rw [← Option.some.inj hl]
      · exact h l hl
  | receive other bs =>
    have hne : other ≠ c := fun heq => hx bs (heq ▸ rfl)
    have hbytes : (s.hub.bytes other bs).2.links[c]? = s.hub.links[c]? := by
      unfold Hub.bytes
      split
      · rfl
      · exact (Array.getElem?_modify ..).trans (if_neg hne)
    simp only [step, receive]
    split
    · split
      · rwa [Hub.links_disconnect, hbytes]
      · rwa [hbytes]
    · exact h
  | close other =>
    simp only [step, close]
    split
    · rwa [Hub.links_disconnect]
    · exact h

theorem decoder_run {xs : List Step} (h : ∀ l, s.hub.links[c]? = some l → l.decoder = .idle)
    (hxs : ∀ bs, .receive c bs ∉ xs) :
    ∀ l, (s.run xs).hub.links[c]? = some l → l.decoder = .idle := by
  induction xs generalizing s with
  | nil => exact h
  | cons x xs ih =>
    refine ih (decoder_step h fun bs hx => ?_) fun bs hmem => hxs bs (List.mem_cons_of_mem x hmem)
    exact hxs bs (hx ▸ List.mem_cons_self)

end Server

/-- **A LOGOUT that is accepted is the last command, however the bytes are cut.**  Take a server
after any steps and a connection that is open; if nothing has arrived on it yet, its decoder is a
fresh one.  Let any pieces arrive on it, one after another.  The commands in all the pieces together
are executed in their order: up to and including the first LOGOUT that is accepted, which closes the
connection, or all of them if none is accepted.  The service is then what these commands make of it.
A LOGOUT that is refused, as nobody is logged in, changes nothing in the directory, and the next
command is executed.  And if the same bytes are cut in another way, the same commands are executed,
and the server is the same in the end: its directory, what it has sent, and whether the session is
terminated. -/
theorem logout_is_last (config : Config) (today : Date) (xs : List Server.Step) {c : ConnectionId} :
    let s := (Server.start config { today }).run xs
    s.isOpen c → ∃ l, s.hub.links[c]? = some l ∧
      ((∀ bs, .receive c bs ∉ xs) → l.decoder = .idle) ∧
      ∀ pieces : List Bytes,
        let commands := (l.decoder.feed pieces.flatten).2
        let executed := s.executed c pieces
        let service := s.hub.service
        let s' := s.run (pieces.map (.receive c))
        (∀ i, service.AcceptsLogoutAt c commands i →
          (∀ j < i, ¬ service.AcceptsLogoutAt c commands j) →
          executed = commands.take (i + 1) ∧ s'.hasTerminated c ∧ s'.isOpen c = false) ∧
        ((∀ i, ¬ service.AcceptsLogoutAt c commands i) →
          executed = commands ∧ s'.hasTerminated c = false ∧ s'.isOpen c) ∧
        s'.hub.service = service.after c executed ∧
        (∀ i < executed.length, commands[i]? = some .logout →
          (service.after c (commands.take i)).directory.sessions.isEmpty →
          (service.after c (commands.take (i + 1))).directory
            = (service.after c (commands.take i)).directory ∧
          executed[i + 1]? = commands[i + 1]?) ∧
        ∀ pieces', pieces'.flatten = pieces.flatten →
          s.executed c pieces' = executed ∧ s.run (pieces'.map (.receive c)) = s' := by
  intro s hc
  obtain ⟨hs, -, -⟩ := (Server.Sound.start config today).run xs
  have hs : s.Sound := hs
  obtain ⟨l, hl⟩ := hs.exists_link hc
  refine ⟨l, hl, fun hunheard => ?_, fun pieces => ?_⟩
  · have hnone : ∀ l, (Server.start config { today }).hub.links[c]? = some l →
        l.decoder = .idle := by
      intro l hl
      simp [Server.start, Hub.ofDirectory] at hl
    exact Server.decoder_run hnone hunheard l hl
  · intro commands executed service s'
    have hconnection : l.session.connection = some c := hs.linked.connection_eq hl
    have hlive : l.session.terminated = false := hs.live hl hc
    let done := l.session.processAll service commands
    obtain ⟨hexecuted, hservice, hterminated, hopen⟩ :
        executed = l.session.processed service commands ∧ s'.hub.service = done.2 ∧
          s'.hasTerminated c = done.1.terminated ∧ s'.isOpen c = !done.1.terminated :=
      hs.run_pieces hl hc pieces
    refine ⟨fun i hi hfirst => ?_, fun hnone => ?_, ?_, fun i hi hlogout hempty => ?_,
      fun pieces' hsame => ?_⟩
    · obtain ⟨hprocessed, hclosed⟩ := Session.processed_of_first hconnection hlive hi hfirst
      rw [hexecuted, hterminated, hopen, hclosed]
      exact ⟨hprocessed, rfl, rfl⟩
    · obtain ⟨hprocessed, hheld⟩ := Session.processed_of_none hconnection hlive hnone
      rw [hexecuted, hterminated, hopen, hheld]
      exact ⟨hprocessed, rfl, rfl⟩
    · rw [hservice, hexecuted, Session.processAll_snd hconnection]
    · have hrefused : ¬ service.AcceptsLogoutAt c commands i := by
        rintro ⟨-, hsome⟩
        rw [hempty] at hsome
        cases hsome
      rw [hexecuted] at hi ⊢
      refine ⟨?_, Session.getElem?_processed_succ hconnection hlive hi hrefused⟩
      rw [Service.after_take_succ service c hlogout, Service.directory_apply_refused hempty]
    · obtain ⟨hrun, hcommands⟩ := hs.receive_flatten c pieces
      obtain ⟨hrun', hcommands'⟩ := hs.receive_flatten c pieces'
      rw [hsame] at hrun' hcommands'
      exact ⟨hcommands'.trans hcommands.symm, hrun'.trans hrun.symm⟩

/-- Before anybody is logged in a client says LOGOUT, and then comes Bob. -/
def falseStart : Bytes := Command.logout.encode ++ farewell

/-- The same, cut between the two bytes of either LOGOUT. -/
def falseStartInPieces : List Bytes :=
  [falseStart.take 1, (falseStart.drop 1).take 31, falseStart.drop 32]

/-- The first LOGOUT is refused, and Bob registers, logs in and out.  His second LOGIN is not
executed, and all is as if the bytes had come at once. -/
theorem logout_is_last_falseStart :
    let s := (Server.start { maxConnections := 2 } { today := ⟨2024, 1, 1⟩ }).run [.connect]
    let s' := s.run (falseStartInPieces.map (.receive 0))
    s.isOpen 0 ∧ s.executed 0 falseStartInPieces
        = [.logout, .register "bob" "b" ⟨1, 1, 2000⟩, .login "bob" "b" 0x31, .logout] ∧
      s'.hasTerminated 0 ∧ s'.isOpen 0 = false ∧ s.run [.receive 0 falseStart] = s' := by
  have hopen : ((Server.start { maxConnections := 2 } { today := ⟨2024, 1, 1⟩ }).run
      [.connect]).isOpen 0 := by decide +kernel
  obtain ⟨l, -, hidle, hpieces⟩ :=
    logout_is_last { maxConnections := 2 } ⟨2024, 1, 1⟩ [.connect] hopen
  have hfresh : l.decoder = .idle := hidle (by simp)
  rw [hfresh] at hpieces
  obtain ⟨hfirst, -, -, -, hcuts⟩ := hpieces falseStartInPieces
  obtain ⟨hexecuted, hterminated, hclosed⟩ := hfirst 3 (by decide +kernel) (by decide +kernel)
  refine ⟨hopen, hexecuted.trans (by decide +kernel), hterminated, hclosed, ?_⟩
  exact (hcuts [falseStart] (by decide +kernel)).2

end Microblog
