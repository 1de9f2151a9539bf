import Microblog.Proofs.Runs

/-!
# What channels take

A command sends its replies in one go.  The channel of a connection takes those that
are for it, in their order, or none of them, since nothing that is sent changes what
channels take.  A channel that takes messages once may stop to, but not the other way
round.

## Main definitions

* `Switchboard.Wanes` — no channel takes messages that took none before.
* `Switchboard.added` — what a channel has taken meanwhile.
* `Effect.repliesTo`, `Effect.notificationsTo` — what a command has for a connection.

## Main results

* `Service.waiting_apply` — what a command adds to the messages on their way.
* `Service.Turn.wanes` — operations only ever end what channels take.
-/

namespace Microblog

/-! ### What a command has for a connection -/

/-- The notification that a reply is. -/
def Reply.notification? : Reply → Option Notification
  | .notification n => some n
  | .ack _ | .error _ => none

/-- The notification that a message is. -/
def Message.notification? : Message → Option Notification
  | .reply r => r.notification?
  | .command _ => none

theorem Message.notification?_eq_some_iff {m : Message} {n : Notification} :
    m.notification? = some n ↔ m = .reply (.notification n) := by
  rcases m with c | (n' | a | o) <;> simp [notification?, Reply.notification?]

/-- The notifications among some messages. -/
theorem Message.mem_filterMap_notification? {ms : List Message} {n : Notification} :
    n ∈ ms.filterMap notification? ↔ .reply (.notification n) ∈ ms := by
  rw [List.mem_filterMap]
  constructor
  · rintro ⟨m, hm, hn⟩
    rwa [← notification?_eq_some_iff.mp hn]
  · exact fun hn => ⟨_, hn, rfl⟩

namespace Effect

/-- The replies for a connection, in order. -/
def repliesTo (e : Effect) (c : ConnectionId) : List Reply :=
  (e.outgoing.filter fun item => item.1 = c).map Prod.snd

/-- The notifications for a connection, in order. -/
def notificationsTo (e : Effect) (c : ConnectionId) : List Notification :=
  (e.repliesTo c).filterMap Reply.notification?

/-- An effect without notifications has none for anybody. -/
theorem notificationsTo_eq_nil {e : Effect}
    (h : ∀ item ∈ e.outgoing, item.2.notification? = none) (c : ConnectionId) :
    e.notificationsTo c = [] := by
  refine List.filterMap_eq_nil_iff.mpr fun r hr => ?_
  obtain ⟨item, hitem, rfl⟩ := List.mem_map.mp hr
  exact h item (List.mem_filter.mp hitem).1

/-- A connection is sent the copies first and the acknowledgement behind them. -/
theorem repliesTo_readers {e : Effect} {n : Notification} {readers : List ConnectionId}
    {c : ConnectionId} {ack : Ack}
    (h : e.outgoing = (readers.map fun reader => (reader, .notification n)) ++ [(c, .ack ack)])
    (other : ConnectionId) :
    e.repliesTo other = List.replicate (readers.count other) (.notification n) ++
      if c = other then [.ack ack] else [] := by
  rw [repliesTo, h]
  clear h
  induction readers with
  | nil => by_cases hc : c = other <;> simp [hc]
  | cons reader readers ih =>
    rw [List.map_cons, List.cons_append]
    by_cases hr : reader = other
    · rw [List.filter_cons_of_pos (by simpa using hr), List.map_cons, ih, hr,
        List.count_cons_self, List.replicate_succ, List.cons_append]
    · rw [List.filter_cons_of_neg (by simpa using hr), ih, List.count_cons_of_ne hr]

/-- One notification for each of some readers, and an acknowledgement: a connection gets
as many notifications as there are readers on it. -/
theorem notificationsTo_readers {e : Effect} {n : Notification} {readers : List ConnectionId}
    {c : ConnectionId} {ack : Ack}
    (h : e.outgoing = (readers.map fun reader => (reader, .notification n)) ++ [(c, .ack ack)])
    (other : ConnectionId) : e.notificationsTo other = List.replicate (readers.count other) n := by
  rw [notificationsTo, repliesTo_readers h, List.filterMap_append,
    List.filterMap_replicate_of_some (f := Reply.notification?) rfl]
  split <;> exact List.append_nil _

end Effect

/-! ### The switchboard -/

namespace Switchboard

@[simp] theorem holds_send (s : Switchboard) (c other : ConnectionId) (m : Message) :
    (s.send c m).holds other = s.holds other := by
  simp only [send, holds, Array.getElem?_modify]
  split
  · cases s.channels[other]? with
    | none => rfl
    | some ch => exact ch.held_push m
  · rfl

theorem holds_release (s : Switchboard) (c other : ConnectionId) :
    (s.release c).holds other = (decide (c ≠ other) && s.holds other) := by
  simp only [release, holds, Array.getElem?_modify]
  by_cases hc : c = other
  · cases s.channels[other]? <;> simp [hc, Channel.release]
  · simp [hc]

theorem holds_connect (s : Switchboard) (c : ConnectionId) :
    s.connect.2.holds c = (decide (c = s.channels.size) || s.holds c) := by
  simp only [connect, holds, Array.getElem?_push]
  by_cases hc : c = s.channels.size <;> simp [hc]

@[simp] theorem waiting_connect (s : Switchboard) (c : ConnectionId) :
    s.connect.2.waiting c = s.waiting c := by
  simp only [connect, waiting, Array.getElem?_push]
  split
  · next hc => simp [hc]
  · rfl

theorem accepts_connect (s : Switchboard) (c : ConnectionId) :
    s.connect.2.accepts c = (decide (c = s.channels.size) || s.accepts c) := by
  simp only [connect, accepts, Array.getElem?_push]
  by_cases hc : c = s.channels.size <;> simp [hc, Channel.accepts]

@[simp] theorem waiting_release (s : Switchboard) (c other : ConnectionId) :
    (s.release c).waiting other = s.waiting other := by
  simp only [release, waiting, Array.getElem?_modify]
  split
  · rw [Option.map_map]
    rfl
  · rfl

theorem accepts_of_accepts_release {s : Switchboard} {c other : ConnectionId}
    (h : (s.release c).accepts other) : s.accepts other := by
  simp only [release, accepts, Array.getElem?_modify] at h ⊢
  split at h
  · cases ho : s.channels[other]? with
    | none => simp [ho] at h
    | some ch => simp [ho, Channel.release, Channel.accepts] at h
  · exact h

theorem waiting_hangUp (s : Switchboard) (c other : ConnectionId) :
    (s.hangUp c).waiting other = if c = other then [] else s.waiting other := by
  simp only [hangUp, waiting, Array.getElem?_modify]
  split
  · cases s.channels[other]? <;> rfl
  · rfl

theorem accepts_of_accepts_hangUp {s : Switchboard} {c other : ConnectionId}
    (h : (s.hangUp c).accepts other) : s.accepts other := by
  simp only [hangUp, accepts, Array.getElem?_modify] at h ⊢
  split at h
  · cases ho : s.channels[other]? with
    | none => simp [ho] at h
    | some ch => simp [ho, Channel.hangUp, Channel.accepts] at h
  · exact h

/-- Sending changes nothing about who is reached, however much is sent. -/
@[simp] theorem accepts_foldl_send (items : List (ConnectionId × Reply)) (s : Switchboard)
    (c : ConnectionId) :
    (items.foldl (fun board item => board.send item.1 (.reply item.2)) s).accepts c
      = s.accepts c := by
  induction items generalizing s with
  | nil => rfl
  | cons item items ih => rw [List.foldl_cons, ih, accepts_send]

theorem accepts_release (s : Switchboard) (c other : ConnectionId) :
    (s.release c).accepts other = (decide (c ≠ other) && s.accepts other) := by
  simp only [release, accepts, Array.getElem?_modify]
  by_cases hc : c = other
  · cases s.channels[other]? <;> simp [hc, Channel.release, Channel.accepts]
  · simp [hc]

@[simp] theorem holds_foldl_send (items : List (ConnectionId × Reply)) (s : Switchboard)
    (c : ConnectionId) :
    (items.foldl (fun board item => board.send item.1 (.reply item.2)) s).holds c = s.holds c := by
  induction items generalizing s with
  | nil => rfl
  | cons item items ih => rw [List.foldl_cons, ih, holds_send]

/-- All that is for a channel is taken, in order, or nothing is. -/
theorem waiting_foldl_send (items : List (ConnectionId × Reply)) (s : Switchboard)
    (c : ConnectionId) :
    (items.foldl (fun board item => board.send item.1 (.reply item.2)) s).waiting c
      = s.waiting c ++
        if s.accepts c then ((items.filter fun item => item.1 = c).map Prod.snd).map .reply
        else [] := by
  induction items generalizing s with
  | nil => simp
  | cons item items ih =>
    rw [List.foldl_cons, ih, accepts_send, waiting_send]
    by_cases hc : item.1 = c
    · cases ha : s.accepts c <;> simp [hc, ha]
    · simp [hc]

/-- No channel takes messages that took none before. -/
structure Wanes (s s' : Switchboard) : Prop where
  /-- The channels are still there. -/
  size_le : s.channels.size ≤ s'.channels.size
  /-- One that takes messages took them before. -/
  accepts : ∀ {c : ConnectionId}, c < s.channels.size → s'.accepts c → s.accepts c

theorem Wanes.of_size_eq {s s' : Switchboard} (hs : s'.channels.size = s.channels.size)
    (h : ∀ c, s'.accepts c → s.accepts c) : s.Wanes s' where
  size_le := Nat.le_of_eq hs.symm
  accepts := fun _ => h _

/-- The messages that were put on their way to `c` between `s` and `s'`, where those
that were on their way in `s` still are or are lost. -/
def added (s s' : Switchboard) (c : ConnectionId) : List Message :=
  (s'.waiting c).drop (s.waiting c).length

theorem added_eq_nil {s s' : Switchboard} {c : ConnectionId} (h : s'.waiting c = s.waiting c) :
    s.added s' c = [] := by
  rw [added, h, List.drop_length]

end Switchboard

/-! ### The service -/

namespace Service

theorem waiting_apply (s : Service) (c : ConnectionId) (e : Effect) (other : ConnectionId) :
    (s.apply c e).switchboard.waiting other
      = s.switchboard.waiting other ++
        if s.switchboard.accepts other then (e.repliesTo other).map .reply else [] := by
  unfold apply
  dsimp only
  split
  · rw [Switchboard.waiting_release, Switchboard.waiting_foldl_send]
    rfl
  · rw [Switchboard.waiting_foldl_send]
    rfl

/-- What a channel takes of a command. -/
theorem added_apply (s : Service) (c : ConnectionId) (e : Effect) (other : ConnectionId) :
    s.switchboard.added (s.apply c e).switchboard other
      = if s.switchboard.accepts other then (e.repliesTo other).map .reply else [] := by
  rw [Switchboard.added, waiting_apply, List.drop_left]

theorem accepts_of_accepts_apply {s : Service} {c : ConnectionId} {e : Effect}
    {other : ConnectionId} (h : (s.apply c e).switchboard.accepts other) :
    s.switchboard.accepts other := by
  unfold apply at h
  dsimp only at h
  split at h
  · simpa using Switchboard.accepts_of_accepts_release h
  · simpa using h

/-- **Operations only ever end what channels take.** -/
theorem Turn.wanes {s s' : Service} {e : Event} {x : Option (ConnectionId × Command)}
    (h : s.Turn e x s') : s.switchboard.Wanes s'.switchboard := by
  cases h with
  | opened =>
    refine ⟨?_, fun hc h => ?_⟩
    · simp [Switchboard.connect]
    · rwa [s.switchboard.accepts_connect, decide_eq_false (Nat.ne_of_lt hc), Bool.false_or] at h
  | @carriedOut c _ e hc hx =>
    exact .of_size_eq (s.size_channels_apply c e) fun _ h => accepts_of_accepts_apply h
  | refused hx =>
    exact .of_size_eq (Switchboard.size_channels_send _ _ _) fun _ h => by simpa [send] using h
  | ended c | released c =>
    exact .of_size_eq (Switchboard.size_channels_release _ _) fun _ h =>
      Switchboard.accepts_of_accepts_release h
  | hungUp c =>
    exact .of_size_eq Array.size_modify fun _ h => Switchboard.accepts_of_accepts_hangUp h
  | ignored e => exact .of_size_eq rfl fun _ h => h

end Service

end Microblog
