import Microblog.Proofs.Blocks
import Microblog.Proofs.Intake

/-!
# Runs with their bytes read

Bytes that come in on a connection are worth the messages that they complete.  A run can
therefore be told with these messages in place of the bytes.  Told like that it leaves the
service as it was left, and every command in it has a moment of its own.

What a hub shows to its clients does not depend on what its decoders hold, so the two runs
are compared by the service and the sessions (`Hub.view`).

## Main definitions

* `Session.processed` — which of some commands a session processes.
* `Hub.read`, `Hub.unfold` — an event, and a run, with the bytes read.
* `Hub.view` — a hub but for its decoders.

## Main results

* `Hub.view_run_unfold` — **a run and the same run with its bytes read lead to one view.**
* `Hub.mem_blockedBy_unfold` — the blocks on record are the BLOCKs of the run.
-/

namespace Microblog

/-! ### Bytes as messages -/

/-- Those of some commands that a session processes: the first that closes it is the last. -/
def Session.processed (s : Session) (service : Service) : List Command → List Command
  | [] => []
  | command :: commands =>
    let done := s.process service (.command command)
    command :: if done.1.terminated then [] else done.1.processed done.2 commands

namespace Hub

/-- An event with the bytes read: they are the messages that they complete, up to the one that
closes the session. -/
def read (h : Hub) : Event → List Event
  | .bytes c bs =>
    match h.links[c]? with
    | none => []
    | some l =>
      (l.session.processed h.service (l.decoder.feed bs).2).map fun command =>
        .message c (.command command)
  | e => [e]

/-- A run with the bytes read. -/
def unfold (h : Hub) : List Event → List Event
  | [] => []
  | e :: es => h.read e ++ (h.step e).unfold es

/-- A hub but for its decoders. -/
def view (h : Hub) : Service × Array Session := (h.service, h.links.map Link.session)

variable {h h' : Hub}

theorem service_eq_of_view_eq (hv : h'.view = h.view) : h'.service = h.service :=
  congrArg Prod.fst hv

theorem sessions_eq_of_view_eq (hv : h'.view = h.view) (c : ConnectionId) :
    h'.links[c]?.map Link.session = h.links[c]?.map Link.session := by
  have hsessions : h'.links.map Link.session = h.links.map Link.session := congrArg Prod.snd hv
  rw [← Array.getElem?_map, hsessions, Array.getElem?_map]

/-- A link that changes is seen by its session. -/
theorem map_session_modify {links : Array Link} {c : ConnectionId} {f : Link → Link} {s : Session}
    (hf : ∀ l, links[c]? = some l → (f l).session = s) :
    (links.modify c f).map Link.session = (links.map Link.session).modify c fun _ => s := by
  refine Array.ext_getElem? fun i => ?_
  rw [Array.getElem?_map, Array.getElem?_modify, Array.getElem?_modify, Array.getElem?_map]
  split
  · next hi =>
    subst hi
    cases hl : links[c]? with
    | none => rfl
    | some l => simp [hf l hl]
  · rfl

/-- A message is processed by the session that is seen. -/
theorem view_message (h : Hub) (c : ConnectionId) (m : Message) :
    (h.step (.message c m)).view =
      match h.view.2[c]? with
      | none => h.view
      | some s =>
        ((s.process h.view.1 m).2, h.view.2.modify c fun _ => (s.process h.view.1 m).1) := by
  simp only [step, message, view, Array.getElem?_map]
  cases h.links[c]? with
  | none => rfl
  | some l =>
    simp only [Option.map_some]
    exact congrArg (Prod.mk _) (map_session_modify fun _ _ => rfl)

/-- The same happens to hubs that look the same, unless bytes have to be read. -/
theorem view_step (hv : h'.view = h.view) {e : Event} (he : ∀ c bs, e ≠ .bytes c bs) :
    (h'.step e).view = (h.step e).view := by
  have hservice : h'.service = h.service := service_eq_of_view_eq hv
  have hsessions : h'.links.map Link.session = h.links.map Link.session := congrArg Prod.snd hv
  cases e with
  | connect => simp only [step, connect, view, Array.map_push, hservice, hsessions]
  | message c m => rw [view_message, view_message, hv]
  | bytes c bs => exact absurd rfl (he c bs)
  | disconnect c =>
    have hsession := sessions_eq_of_view_eq hv c
    simp only [step, disconnect]
    cases hl : h.links[c]? with
    | none =>
      rw [hl, Option.map_none, Option.map_eq_none_iff] at hsession
      simp only [hsession, hv]
    | some l =>
      rw [hl, Option.map_some] at hsession
      obtain ⟨l', hl', heq⟩ := Option.map_eq_some_iff.mp hsession
      simp only [hl', view, heq, hservice, hsessions]
  | hangUp c | release c => simp only [step, mapSwitchboard, view, hservice, hsessions]
  | broadcast m => simp only [step, mapSwitchboard, view, hservice, hsessions]

/-- Commands that arrive one after another, each as a message, are processed by the session. -/
theorem view_run_processed {s : Session} {c : ConnectionId} (commands : List Command) {h : Hub}
    (hs : h.view.2[c]? = some s) :
    (h.run ((s.processed h.service commands).map fun command => .message c (.command command))).view
      = ((s.processAll h.service commands).2,
          h.view.2.modify c fun _ => (s.processAll h.service commands).1) := by
  induction commands generalizing s h with
  | nil =>
    have hself : (h.view.2.modify c fun _ => s) = h.view.2 :=
      modify_eq_self fun s' hs' => Option.some.inj (hs.symm.trans hs')
    exact congrArg (Prod.mk h.service) hself.symm
  | cons command commands ih =>
    let done := s.process h.service (.command command)
    have hstep : (h.step (.message c (.command command))).view
        = (done.2, h.view.2.modify c fun _ => done.1) := by
      rw [view_message, hs]
      rfl
    simp only [Session.processed, List.map_cons, run_cons, Session.processAll]
    change (Hub.run (h.step _) (List.map _ (if done.1.terminated then _ else _))).view
      = ((if done.1.terminated then done else _).2,
          h.view.2.modify c fun _ => (if done.1.terminated then done else _).1)
    by_cases hterminated : done.1.terminated
    · rw [if_pos hterminated, if_pos hterminated]
      exact hstep
    · rw [if_neg hterminated, if_neg hterminated]
      have hservice : (h.step (.message c (.command command))).service = done.2 :=
        congrArg Prod.fst hstep
      have hsessions : (h.step (.message c (.command command))).view.2
          = h.view.2.modify c fun _ => done.1 := congrArg Prod.snd hstep
      have hsession : (h.step (.message c (.command command))).view.2[c]? = some done.1 := by
        rw [hsessions, Array.getElem?_modify, if_pos rfl, hs]
        rfl
      have hrest := ih hsession
      rw [hservice, hsessions] at hrest
      rw [hrest]
      refine congrArg (Prod.mk _) (Array.ext_getElem? fun i => ?_)
      simp only [Array.getElem?_modify]
      split
      · rw [Option.map_map]
        rfl
      · rfl

/-- Bytes that arrive are processed as the commands that they complete. -/
theorem view_bytes {h : Hub} {c : ConnectionId} {l : Link} (hl : h.links[c]? = some l)
    (bs : Bytes) :
    let done := l.session.processAll h.service (l.decoder.feed bs).2
    (h.step (.bytes c bs)).view = (done.2, h.view.2.modify c fun _ => done.1) := by
  intro done
  have hreceive : (_, _) = done := l.receiveFrom_eq bs h.service 0
  obtain ⟨hsession, hservice⟩ := Prod.mk.inj hreceive
  simp only [step, bytes, hl, view, Link.receive]
  rw [hservice, map_session_modify fun _ _ => hsession]

theorem read_of_ne_bytes {e : Event} (he : ∀ c bs, e ≠ .bytes c bs) : h.read e = [e] := by
  cases e with
  | bytes c bs => exact absurd rfl (he c bs)
  | _ => rfl

/-- An event, and the same event with its bytes read. -/
theorem view_read (hv : h'.view = h.view) (e : Event) :
    (h'.run (h.read e)).view = (h.step e).view := by
  by_cases he : ∃ c bs, e = .bytes c bs
  · obtain ⟨c, bs, rfl⟩ := he
    have hsession := sessions_eq_of_view_eq hv c
    cases hl : h.links[c]? with
    | none => simpa only [read, step, bytes, hl, run_nil] using hv
    | some l =>
      rw [hl, Option.map_some, ← Array.getElem?_map] at hsession
      have hrun := view_run_processed (l.decoder.feed bs).2 hsession
      rw [service_eq_of_view_eq hv, hv] at hrun
      simp only [read, hl]
      rw [hrun, view_bytes hl]
  · have hne : ∀ c bs, e ≠ .bytes c bs := fun c bs heq => he ⟨c, bs, heq⟩
    rw [read_of_ne_bytes hne]
    exact view_step hv hne

/-- **A run and the same run with its bytes read lead to one view.** -/
theorem view_run_unfold (hv : h'.view = h.view) (es : List Event) :
    (h'.run (h.unfold es)).view = (h.run es).view := by
  induction es generalizing h h' with
  | nil => exact hv
  | cons e es ih =>
    rw [unfold, run_append, run_cons]
    exact ih (view_read hv e)

theorem service_run_unfold (h : Hub) (es : List Event) :
    (h.run (h.unfold es)).service = (h.run es).service :=
  service_eq_of_view_eq (view_run_unfold rfl es)

/-! ### What is read -/

/-- A run with its bytes read has commands in their place, and else the events that it had. -/
theorem of_mem_unfold {es : List Event} {e : Event} (he : e ∈ h.unfold es) :
    (∃ c command, e = .message c (.command command)) ∨ (e ∈ es ∧ ∀ c bs, e ≠ .bytes c bs) := by
  induction es generalizing h with
  | nil => cases he
  | cons e' es ih =>
    rcases List.mem_append.mp he with he | he
    · cases e' with
      | bytes c bs =>
        rw [read] at he
        split at he
        · cases he
        · obtain ⟨command, -, rfl⟩ := List.mem_map.mp he
          exact .inl ⟨c, command, rfl⟩
      | _ =>
        obtain rfl := List.mem_singleton.mp he
        exact .inr ⟨List.mem_cons_self, fun _ _ => nofun⟩
    · exact (ih he).imp_right fun ⟨hmem, hbytes⟩ => ⟨List.mem_cons_of_mem e' hmem, hbytes⟩

/-- Nothing is left to read. -/
theorem ne_bytes_of_mem_unfold {es : List Event} {e : Event} (he : e ∈ h.unfold es)
    (c : ConnectionId) (bs : Bytes) : e ≠ .bytes c bs := by
  rcases of_mem_unfold he with ⟨c', command, rfl⟩ | ⟨-, hbytes⟩
  · exact nofun
  · exact hbytes c bs

/-- Nothing is sent to everybody but what was. -/
theorem broadcast_mem_of_mem_unfold {es : List Event} {m : Message}
    (hm : .broadcast m ∈ h.unfold es) : .broadcast m ∈ es := by
  rcases of_mem_unfold hm with ⟨c, command, heq⟩ | ⟨hmem, -⟩
  · cases heq
  · exact hmem

/-! ### Blocks -/

/-- The blocks on record after a run with nothing left to read, where messages for everybody
may be among the events. -/
theorem mem_blockedBy_run_of_ne_bytes (hh : h.Linked) (hd : h.service.directory.Coherent)
    {es : List Event} (hes : ∀ e ∈ es, ∀ c bs, e ≠ .bytes c bs) (u v : String) :
    v ∈ (h.run es).service.directory.blockedBy u ↔
      v ∈ h.service.directory.blockedBy u ∨ ∃ m ∈ h.moments es, m.1.Issues m.2 v (.block u) := by
  induction es generalizing h with
  | nil => simp
  | cons e es ih =>
    have hstep : v ∈ (h.step e).service.directory.blockedBy u ↔
        v ∈ h.service.directory.blockedBy u ∨ h.Issues e v (.block u) := by
      rcases isOperation_or_broadcast (hes e List.mem_cons_self) with he | ⟨m, rfl⟩
      · exact mem_blockedBy_step hh hd he u v
      · simp [step, mapSwitchboard, Issues, carriedOut]
    rw [run_cons, ih (hh.step e) (Directory.Coherent.invariant.step hd e)
      fun e' he' => hes e' (List.mem_cons_of_mem _ he'), hstep, or_assoc]
    simp

/-- **The blocks on record are the BLOCKs of the run.** -/
theorem mem_blockedBy_unfold (today : Date) (filter : ContentFilter) (es : List Event)
    (u v : String) :
    let start := Hub.start today filter
    v ∈ (start.run es).service.directory.blockedBy u ↔
      ∃ m ∈ start.moments (start.unfold es), m.1.Issues m.2 v (.block u) := by
  intro start
  have hnone : v ∉ start.service.directory.blockedBy u := by
    simp [start, Hub.start, Hub.ofDirectory]
  rw [← service_run_unfold start es]
  exact (mem_blockedBy_run_of_ne_bytes (.start today filter) (.empty today)
    (fun _ => ne_bytes_of_mem_unfold) u v).trans (or_iff_right hnone)

end Hub

end Microblog
