import Mathlib.Data.List.Induction
import Microblog.Proofs.Channels

/-!
# What comes out of a channel

The switchboard is used by all sessions at once, and the receiving ends by those who write to
the clients.  What a client gets may then depend on the order of all that is done with it.
Here that is told from the history alone, for each connection by itself: whether a message is
taken, and which messages come out.

An operation does to each channel one thing, `Operation.onChannel`, and nothing where it does
not concern the connection.  So the channels do not interfere, and a channel that is let go of
or has lost its receiving end stays so.

## Main definitions

* `Operation.concerns`, `Operation.onChannel` — what an operation has to do with a connection,
  and what it does to its channel.
* `Switchboard.issued`, `received`, `entrusted` — what an operation brings to light.
* `Switchboard.moments` — the operations of a history, each with the switchboard that it found.
* `Switchboard.receivedIn`, `Switchboard.entrustedIn` — what comes out of a channel, and what it
  was given.
* `Lasts` — a connection was opened, and has not been brought to an end in some way.
* `AlikeFor` — switchboards that do not differ for one connection.

## Main results

* `any_channel_run_iff` — what can be told of a channel from the history.
* `received_append_waiting_run` — nothing is lost, doubled or put in another order.
* `AlikeFor.run_filter` — channels do not interfere.
* `channels_exactly_once` — **channels deliver exactly once and in order, and none comes back.**
-/

namespace Microblog

namespace Switchboard

/-! ### One operation, one channel -/

/-- The operation has to do with the connection `c`. -/
def Operation.concerns (c : ConnectionId) : Operation → Bool
  | .connect | .broadcast _ => true
  | .send other _ | .release other | .hangUp other | .receive other _ => other = c

/-- What the operation does to the channel of `c`, if there is one. -/
def Operation.onChannel (op : Operation) (c : ConnectionId) (ch : Channel) : Channel :=
  if op.concerns c then
    match op with
    | .connect => ch
    | .send _ m | .broadcast m => ch.push m
    | .release _ => ch.release
    | .hangUp _ => ch.hangUp
    | .receive _ n => ch.advance n
  else ch

theorem Operation.onChannel_of_not_concerns {op : Operation} {c : ConnectionId}
    (h : op.concerns c = false) (ch : Channel) : op.onChannel c ch = ch := by
  unfold onChannel
  rw [h]
  rfl

/-- A new channel is at the end, and each of the others changes as the operation has it. -/
theorem getElem?_step (s : Switchboard) (op : Operation) (c : ConnectionId) :
    (s.step op).channels[c]?
      = if op = .connect ∧ c = s.channels.size then some {}
        else s.channels[c]?.map (op.onChannel c) := by
  have hmodify : ∀ (other : ConnectionId) (f g : Channel → Channel),
      (other = c → g = f) → (other ≠ c → g = id) →
      (s.channels.modify other f)[c]? = s.channels[c]?.map g := by
    intro other f g hsame hother
    rw [Array.getElem?_modify]
    by_cases hc : other = c
    · rw [if_pos hc, hsame hc]
    · rw [if_neg hc, hother hc, Option.map_id_fun, id]
  cases op with
  | connect =>
    have hid : Operation.connect.onChannel c = id := rfl
    simp only [step, connect, Array.getElem?_push, hid, Option.map_id_fun, id, true_and]
  | broadcast m =>
    simp only [step, broadcast, Array.getElem?_map, reduceCtorEq, false_and, if_false]
    rfl
  | send other m | release other | hangUp other | receive other n =>
    rw [if_neg (by simp)]
    refine hmodify other _ _ (fun hc => ?_) fun hc => ?_
    · funext ch
      simp [Operation.onChannel, Operation.concerns, hc]
    · funext ch
      simp [Operation.onChannel, Operation.concerns, hc]

theorem size_channels_step (s : Switchboard) (op : Operation) :
    (s.step op).channels.size = s.channels.size + if op = .connect then 1 else 0 := by
  cases op with
  | connect => exact Array.size_push _
  | broadcast m => exact Array.size_map
  | _ => exact Array.size_modify

/-- What neither a message nor its receipt shows in changes with the ends of the channel only. -/
theorem apply_onChannel {p : Channel → Bool} (hpush : ∀ m ch, p (Channel.push m ch) = p ch)
    (hadvance : ∀ n ch, p (Channel.advance n ch) = p ch) (op : Operation) (c : ConnectionId)
    (ch : Channel) :
    p (op.onChannel c ch) = if op = .release c then p ch.release
      else if op = .hangUp c then p ch.hangUp else p ch := by
  cases op with
  | connect => rfl
  | broadcast m => exact hpush m ch
  | send other m | release other | hangUp other | receive other n =>
    by_cases hc : other = c <;>
      simp [Operation.onChannel, Operation.concerns, hc, hpush, hadvance]

theorem held_onChannel (op : Operation) (c : ConnectionId) (ch : Channel) :
    (op.onChannel c ch).held = (ch.held && op ≠ .release c) := by
  rw [apply_onChannel Channel.held_push (fun _ _ => rfl)]
  by_cases hrelease : op = .release c
  · simp [hrelease, Channel.release]
  · simp [hrelease, Channel.hangUp]

theorem heard_onChannel (op : Operation) (c : ConnectionId) (ch : Channel) :
    (op.onChannel c ch).heard = (ch.heard && op ≠ .hangUp c) := by
  rw [apply_onChannel Channel.heard_push (fun _ _ => rfl)]
  by_cases hhangUp : op = .hangUp c
  · simp [hhangUp, Channel.hangUp]
  · simp [hhangUp, Channel.release]

theorem accepts_onChannel (op : Operation) (c : ConnectionId) (ch : Channel) :
    (op.onChannel c ch).accepts = (ch.accepts && decide (op ∉ [.release c, .hangUp c])) := by
  rw [Channel.accepts, held_onChannel, heard_onChannel, Channel.accepts]
  by_cases hrelease : op = .release c <;> by_cases hhangUp : op = .hangUp c <;>
    simp [hrelease, hhangUp]

/-! ### What comes to light -/

/-- The number that the operation gives out. -/
def issued (s : Switchboard) : Operation → Option ConnectionId
  | .connect => some s.connect.1
  | _ => none

/-- The messages that the operation receives on `c`, the oldest first. -/
def received (s : Switchboard) (c : ConnectionId) : Operation → List Message
  | .receive other n => if other = c then (s.receiveSome other n).1 else []
  | .connect | .send .. | .broadcast _ | .release _ | .hangUp _ => []

/-- The messages that the operation entrusts to the channel of `c`: one that is sent there and
taken, or one for everybody while the switchboard holds the channel. -/
def entrusted (s : Switchboard) (c : ConnectionId) : Operation → List Message
  | .send other m => if other = c ∧ s.accepts other then [m] else []
  | .broadcast m => if s.holds c then [m] else []
  | .connect | .release _ | .hangUp _ | .receive .. => []

/-- The operations of a history, each with the switchboard that it found. -/
def moments (s : Switchboard) : List Operation → List (Switchboard × Operation)
  | [] => []
  | op :: ops => (s, op) :: (s.step op).moments ops

@[simp] theorem moments_nil (s : Switchboard) : s.moments [] = [] := rfl

@[simp] theorem moments_cons (s : Switchboard) (op : Operation) (ops : List Operation) :
    s.moments (op :: ops) = (s, op) :: (s.step op).moments ops := rfl

theorem moments_concat (s : Switchboard) (ops : List Operation) (op : Operation) :
    s.moments (ops ++ [op]) = s.moments ops ++ [(s.run ops, op)] := by
  induction ops generalizing s with
  | nil => rfl
  | cons first ops ih =>
    rw [List.cons_append, moments_cons, ih, run_cons, moments_cons, List.cons_append]

/-- All that is received on `c` in the course of a history. -/
def receivedIn (s : Switchboard) (c : ConnectionId) (ops : List Operation) : List Message :=
  (s.moments ops).flatMap fun m => m.1.received c m.2

/-- All that is entrusted to the channel of `c` in the course of a history. -/
def entrustedIn (s : Switchboard) (c : ConnectionId) (ops : List Operation) : List Message :=
  (s.moments ops).flatMap fun m => m.1.entrusted c m.2

theorem run_concat (s : Switchboard) (ops : List Operation) (op : Operation) :
    s.run (ops ++ [op]) = (s.run ops).step op := s.run_append ops [op]

theorem receivedIn_cons (s : Switchboard) (c : ConnectionId) (op : Operation)
    (ops : List Operation) :
    s.receivedIn c (op :: ops) = s.received c op ++ (s.step op).receivedIn c ops := rfl

theorem receivedIn_concat (s : Switchboard) (c : ConnectionId) (ops : List Operation)
    (op : Operation) :
    s.receivedIn c (ops ++ [op]) = s.receivedIn c ops ++ (s.run ops).received c op := by
  rw [receivedIn, moments_concat, List.flatMap_append, List.flatMap_singleton, receivedIn]

theorem entrustedIn_concat (s : Switchboard) (c : ConnectionId) (ops : List Operation)
    (op : Operation) :
    s.entrustedIn c (ops ++ [op]) = s.entrustedIn c ops ++ (s.run ops).entrusted c op := by
  rw [entrustedIn, moments_concat, List.flatMap_append, List.flatMap_singleton, entrustedIn]

/-! ### The numbers -/

/-- Each connection gets the next number. -/
theorem issued_moments (s : Switchboard) (ops : List Operation) :
    (s.moments ops).filterMap (fun m => m.1.issued m.2)
      = List.range' s.channels.size (ops.count .connect) := by
  induction ops generalizing s with
  | nil => rfl
  | cons op ops ih =>
    have hsize := s.size_channels_step op
    rw [moments_cons]
    by_cases hop : op = .connect
    · subst hop
      have hnew : s.issued .connect = some s.channels.size := rfl
      rw [List.filterMap_cons, hnew, ih, hsize, if_pos rfl, List.count_cons_self,
        List.range'_succ]
    · have hnone : s.issued op = none := by
        cases op with
        | connect => exact absurd rfl hop
        | _ => rfl
      rw [List.filterMap_cons, hnone, ih, hsize, if_neg hop, List.count_cons_of_ne hop]
      rfl

theorem size_channels_run (s : Switchboard) (ops : List Operation) :
    (s.run ops).channels.size = s.channels.size + ops.count .connect := by
  induction ops generalizing s with
  | nil => rfl
  | cons op ops ih =>
    rw [run_cons, ih, size_channels_step, List.count_cons]
    simp only [beq_iff_eq]
    omega

/-! ### Whether messages are taken -/

/-- In the course of `ops` the connection `c` was opened, and none of `ends` came after it. -/
def Lasts (ops : List Operation) (c : ConnectionId) (ends : List Operation) : Prop :=
  ∃ before after, ops = before ++ .connect :: after ∧
    (({} : Switchboard).run before).connect.1 = c ∧ ∀ op ∈ after, op ∉ ends

theorem Lasts.append {ops more : List Operation} {c : ConnectionId} {ends : List Operation}
    (h : Lasts ops c ends) (hmore : ∀ op ∈ more, op ∉ ends) : Lasts (ops ++ more) c ends := by
  obtain ⟨before, after, rfl, hc, hafter⟩ := h
  refine ⟨before, after ++ more, by rw [List.append_assoc, List.cons_append], hc, ?_⟩
  intro op hop
  rcases List.mem_append.mp hop with hop | hop
  · exact hafter op hop
  · exact hmore op hop

theorem lasts_concat_iff {ops : List Operation} {op : Operation} {c : ConnectionId}
    {ends : List Operation} :
    Lasts (ops ++ [op]) c ends ↔
      (op = .connect ∧ (({} : Switchboard).run ops).connect.1 = c) ∨
        (Lasts ops c ends ∧ op ∉ ends) := by
  constructor
  · rintro ⟨before, after, heq, hc, hafter⟩
    -- the connection was opened by the last operation, or earlier
    rcases List.eq_nil_or_concat after with rfl | ⟨earlier, last, rfl⟩
    · obtain ⟨rfl, hop⟩ := List.append_inj' heq rfl
      exact .inl ⟨(List.cons.inj hop).1, hc⟩
    · rw [List.concat_eq_append] at heq hafter
      rw [← List.cons_append, ← List.append_assoc] at heq
      obtain ⟨rfl, hop⟩ := List.append_inj' heq rfl
      obtain ⟨rfl, -⟩ := List.cons.inj hop
      have hlast : op ∈ earlier ++ [op] := List.mem_append_right _ (List.mem_singleton_self op)
      exact .inr ⟨⟨before, earlier, rfl, hc, fun o ho => hafter o (List.mem_append_left _ ho)⟩,
        hafter op hlast⟩
  · rintro (⟨rfl, hc⟩ | ⟨hlasts, hop⟩)
    · exact ⟨ops, [], rfl, hc, fun _ ho => absurd ho List.not_mem_nil⟩
    · refine hlasts.append ?_
      intro o ho
      rwa [List.mem_singleton.mp ho]

/-- What is true of a new channel, and ended by some operations and no others, is true of the
channel of `c` as long as it `Lasts`. -/
theorem any_channel_run_iff {p : Channel → Bool} {c : ConnectionId} {ends : List Operation}
    (hnew : p {} = true)
    (hp : ∀ op ch, p (op.onChannel c ch) = (p ch && decide (op ∉ ends)))
    (ops : List Operation) :
    (({} : Switchboard).run ops).channels[c]?.any p = true ↔ Lasts ops c ends := by
  induction ops using List.reverseRecOn with
  | nil =>
    refine iff_of_false Bool.false_ne_true ?_
    rintro ⟨before, after, heq, -, -⟩
    exact List.append_ne_nil_of_right_ne_nil before (List.cons_ne_nil _ after) heq.symm
  | append_singleton ops op ih =>
    rw [run_concat, getElem?_step, lasts_concat_iff]
    split
    · next hop => exact iff_of_true hnew (.inl ⟨hop.1, hop.2.symm⟩)
    · next hop =>
      have hearlier : ¬ (op = .connect ∧ (({} : Switchboard).run ops).connect.1 = c) :=
        fun h => hop ⟨h.1, h.2.symm⟩
      rw [or_iff_right hearlier, ← ih]
      cases (({} : Switchboard).run ops).channels[c]? with
      | none => simp
      | some ch => simp [hp]

theorem accepts_run_iff (ops : List Operation) (c : ConnectionId) :
    (({} : Switchboard).run ops).accepts c = true ↔ Lasts ops c [.release c, .hangUp c] :=
  any_channel_run_iff rfl (fun op ch => accepts_onChannel op c ch) ops

theorem holds_run_iff (ops : List Operation) (c : ConnectionId) :
    (({} : Switchboard).run ops).holds c = true ↔ Lasts ops c [.release c] := by
  refine any_channel_run_iff rfl (fun op ch => ?_) ops
  simp only [held_onChannel, List.mem_singleton]

theorem any_heard_run_iff (ops : List Operation) (c : ConnectionId) :
    (({} : Switchboard).run ops).channels[c]?.any Channel.heard = true
      ↔ Lasts ops c [.hangUp c] := by
  refine any_channel_run_iff rfl (fun op ch => ?_) ops
  simp only [heard_onChannel, List.mem_singleton]

/-- A channel that lasts until somebody hangs up is open, and heard if there is one. -/
theorem heard_of_lasts {ops : List Operation} {c : ConnectionId} (h : Lasts ops c [.hangUp c]) :
    c < (({} : Switchboard).run ops).channels.size ∧
      ∀ ch, (({} : Switchboard).run ops).channels[c]? = some ch → ch.heard = true := by
  rw [← any_heard_run_iff] at h
  cases hch : (({} : Switchboard).run ops).channels[c]? with
  | none =>
    rw [hch] at h
    cases h
  | some ch =>
    rw [hch] at h
    refine ⟨(Array.getElem?_eq_some_iff.mp hch).1, fun ch' hch' => ?_⟩
    cases hch'
    exact h

/-- What no operation brings about in a channel does not come about in one that is open. -/
theorem any_of_any_run {p : Channel → Bool} {c : ConnectionId}
    (hp : ∀ (op : Operation) ch, p (op.onChannel c ch) = true → p ch = true) {s : Switchboard}
    (hc : c < s.channels.size) {ops : List Operation}
    (h : (s.run ops).channels[c]?.any p = true) : s.channels[c]?.any p = true := by
  induction ops generalizing s with
  | nil => exact h
  | cons op ops ih =>
    have hsize : s.channels.size ≤ (s.step op).channels.size := by
      rw [size_channels_step]
      exact Nat.le_add_right _ _
    have hstep := ih (Nat.lt_of_lt_of_le hc hsize) h
    rw [getElem?_step, if_neg fun hnew => Nat.ne_of_lt hc hnew.2] at hstep
    cases hch : s.channels[c]? with
    | none =>
      rw [hch] at hstep
      cases hstep
    | some ch =>
      rw [hch] at hstep
      exact hp op ch hstep

/-- A connection that is open takes no message after it has taken none. -/
theorem accepts_of_accepts_run {s : Switchboard} {c : ConnectionId} (hc : c < s.channels.size)
    {ops : List Operation} (h : (s.run ops).accepts c = true) : s.accepts c = true := by
  refine any_of_any_run (fun op ch haccepts => ?_) hc h
  rw [accepts_onChannel, Bool.and_eq_true] at haccepts
  exact haccepts.1

/-- A connection that is open and was let go of is not held again. -/
theorem holds_of_holds_run {s : Switchboard} {c : ConnectionId} (hc : c < s.channels.size)
    {ops : List Operation} (h : (s.run ops).holds c = true) : s.holds c = true := by
  refine any_of_any_run (fun op ch hheld => ?_) hc h
  rw [held_onChannel, Bool.and_eq_true] at hheld
  exact hheld.1

/-! ### Nothing is lost, doubled or put in another order -/

theorem waiting_receiveSome (s : Switchboard) (c other : ConnectionId) (n : Nat) :
    (s.receiveSome other n).2.waiting c
      = if other = c then (s.waiting c).drop n else s.waiting c := by
  simp only [receiveSome, waiting, Array.getElem?_modify]
  split
  · cases s.channels[c]? with
    | none => exact List.drop_nil.symm
    | some ch => rfl
  · rfl

/-- A switchboard holds a channel that is heard exactly if the channel takes messages. -/
theorem accepts_eq_holds {s : Switchboard} {c : ConnectionId}
    (h : ∀ ch, s.channels[c]? = some ch → ch.heard = true) : s.accepts c = s.holds c := by
  rw [accepts, holds]
  cases hch : s.channels[c]? with
  | none => rfl
  | some ch =>
    rw [Option.any_some, Option.any_some, Channel.accepts, h ch hch, Bool.and_true]

/-- A channel that is heard after an operation was heard before it. -/
theorem heard_of_heard_step {s : Switchboard} {op : Operation} {c : ConnectionId}
    (h : ∀ ch, (s.step op).channels[c]? = some ch → ch.heard = true) :
    ∀ ch, s.channels[c]? = some ch → ch.heard = true := by
  intro ch hch
  have hold : ¬ (op = .connect ∧ c = s.channels.size) := by
    rintro ⟨-, rfl⟩
    rw [Array.getElem?_size] at hch
    cases hch
  have hstep := h (op.onChannel c ch) (by rw [getElem?_step, if_neg hold, hch, Option.map_some])
  rw [heard_onChannel, Bool.and_eq_true] at hstep
  exact hstep.1

/-- **What an operation receives on a channel that stays heard, and what waits there then, is
what waited before and what the operation entrusts to it.** -/
theorem received_append_waiting_step {s : Switchboard} {op : Operation} {c : ConnectionId}
    (h : ∀ ch, (s.step op).channels[c]? = some ch → ch.heard = true) :
    s.received c op ++ (s.step op).waiting c = s.waiting c ++ s.entrusted c op := by
  cases op with
  | connect => rw [step, waiting_connect, received, entrusted, List.nil_append, List.append_nil]
  | send other m =>
    rw [step, waiting_send, received, entrusted, List.nil_append]
    split
    · rfl
    · rw [List.append_nil]
  | broadcast m =>
    rw [step, waiting_broadcast, received, entrusted, List.nil_append,
      accepts_eq_holds (heard_of_heard_step h)]
    split
    · rfl
    · rw [List.append_nil]
  | release other =>
    rw [step, waiting_release, received, entrusted, List.nil_append, List.append_nil]
  | hangUp other =>
    rw [step, waiting_hangUp, received, entrusted, List.nil_append, List.append_nil]
    split
    · next hc =>
      -- there is no such channel, or else nobody would hear it any more
      subst hc
      have hnone : s.channels[other]? = none := by
        by_contra hsome
        obtain ⟨ch, hch⟩ := Option.ne_none_iff_exists'.mp hsome
        have hgone := h ch.hangUp (by
          rw [step, hangUp, Array.getElem?_modify, if_pos rfl, hch]
          rfl)
        cases hgone
      rw [waiting, hnone]
      rfl
    · rfl
  | receive other n =>
    rw [step, waiting_receiveSome, received, entrusted, List.append_nil]
    split
    · next hc =>
      subst hc
      exact List.take_append_drop n _
    · rfl

/-- **Nothing is lost, doubled or put in another order.**  As long as a channel is heard, what
was received there and what still waits is what waited at first and what was entrusted to it. -/
theorem received_append_waiting_run {s : Switchboard} {c : ConnectionId} {ops : List Operation}
    (h : ∀ ch, (s.run ops).channels[c]? = some ch → ch.heard = true) :
    s.receivedIn c ops ++ (s.run ops).waiting c = s.waiting c ++ s.entrustedIn c ops := by
  induction ops using List.reverseRecOn with
  | nil => exact (List.append_nil _).symm
  | append_singleton ops op ih =>
    rw [run_concat] at h
    calc s.receivedIn c (ops ++ [op]) ++ (s.run (ops ++ [op])).waiting c
        = s.receivedIn c ops
            ++ ((s.run ops).received c op ++ ((s.run ops).step op).waiting c) := by
          rw [receivedIn_concat, run_concat, List.append_assoc]
      _ = s.receivedIn c ops ++ (s.run ops).waiting c ++ (s.run ops).entrusted c op := by
          rw [received_append_waiting_step h, List.append_assoc]
      _ = s.waiting c ++ s.entrustedIn c (ops ++ [op]) := by
          rw [ih (heard_of_heard_step h), entrustedIn_concat, List.append_assoc]

/-- Nothing is entrusted to a channel that the switchboard has let go of. -/
theorem entrusted_of_not_holds {s : Switchboard} {c : ConnectionId} (h : s.holds c = false)
    (op : Operation) : s.entrusted c op = [] := by
  have haccepts : s.accepts c = false := by
    rw [holds] at h
    rw [accepts]
    cases hch : s.channels[c]? with
    | none => rfl
    | some ch =>
      rw [hch, Option.any_some] at h
      rw [Option.any_some, Channel.accepts, h, Bool.false_and]
  cases op with
  | send other m =>
    refine if_neg ?_
    rintro ⟨rfl, htaken⟩
    rw [haccepts] at htaken
    cases htaken
  | broadcast m =>
    rw [entrusted, h]
    rfl
  | connect | release other | hangUp other | receive other n => rfl

/-- Nothing more is entrusted to it afterwards. -/
theorem entrustedIn_of_not_holds {s : Switchboard} {c : ConnectionId} (hc : c < s.channels.size)
    (h : s.holds c = false) (ops : List Operation) : s.entrustedIn c ops = [] := by
  induction ops using List.reverseRecOn with
  | nil => rfl
  | append_singleton ops op ih =>
    have hstill : (s.run ops).holds c = false :=
      Bool.eq_false_iff.mpr fun hheld => Bool.eq_false_iff.mp h (holds_of_holds_run hc hheld)
    rw [entrustedIn_concat, ih, entrusted_of_not_holds hstill, List.append_nil]

/-- What waits when the switchboard lets go of a channel is received later, or waits still, and
nothing comes behind it. -/
theorem received_append_waiting_release {ops more : List Operation} {c : ConnectionId}
    (hlasts : Lasts ops c [.hangUp c]) (hmore : .hangUp c ∉ more) :
    let s := ({} : Switchboard).run ops
    (s.release c).receivedIn c more ++ ((s.release c).run more).waiting c = s.waiting c := by
  intro s
  -- letting go of the channel, and what comes then, leave it heard
  have hstill : Lasts (ops ++ .release c :: more) c [.hangUp c] := by
    refine hlasts.append fun op hop hend => ?_
    obtain rfl := List.mem_singleton.mp hend
    rcases List.mem_cons.mp hop with hop | hop
    · cases hop
    · exact hmore hop
  obtain ⟨-, hheard⟩ := heard_of_lasts hstill
  rw [run_append, run_cons] at hheard
  have hnothing : (s.release c).entrustedIn c more = [] := by
    have hopen : c < (s.release c).channels.size := by
      rw [size_channels_release]
      exact (heard_of_lasts hlasts).1
    refine entrustedIn_of_not_holds hopen ?_ more
    rw [holds_release, decide_eq_false (not_not_intro rfl), Bool.false_and]
  calc (s.release c).receivedIn c more ++ ((s.release c).run more).waiting c
      = (s.release c).waiting c ++ (s.release c).entrustedIn c more :=
        received_append_waiting_run hheard
    _ = s.waiting c := by rw [hnothing, List.append_nil, waiting_release]

/-! ### Nothing interferes -/

/-- Two switchboards are alike for `c`: as many connections were opened, and the channel of `c`
is the same. -/
structure AlikeFor (c : ConnectionId) (s s' : Switchboard) : Prop where
  /-- As many connections were opened. -/
  size_eq : s.channels.size = s'.channels.size
  /-- The channel of `c` is the same. -/
  channel_eq : s.channels[c]? = s'.channels[c]?

theorem AlikeFor.step {c : ConnectionId} {s s' : Switchboard} (h : s.AlikeFor c s')
    (op : Operation) : (s.step op).AlikeFor c (s'.step op) where
  size_eq := by rw [size_channels_step, size_channels_step, h.size_eq]
  channel_eq := by rw [getElem?_step, getElem?_step, h.size_eq, h.channel_eq]

theorem AlikeFor.received_eq {c : ConnectionId} {s s' : Switchboard} (h : s.AlikeFor c s')
    (op : Operation) : s.received c op = s'.received c op := by
  cases op with
  | receive other n =>
    rw [received, received]
    split
    · next hc =>
      subst hc
      rw [receiveSome, receiveSome, waiting, waiting, h.channel_eq]
    · rfl
  | _ => rfl

/-- An operation that does not concern a connection leaves its channel as it is. -/
theorem alikeFor_step_of_not_concerns {c : ConnectionId} {op : Operation}
    (h : op.concerns c = false) (s : Switchboard) : s.AlikeFor c (s.step op) := by
  have hop : op ≠ .connect := by
    rintro rfl
    cases h
  have hid : op.onChannel c = id := funext (Operation.onChannel_of_not_concerns h)
  refine ⟨?_, ?_⟩
  · rw [size_channels_step, if_neg hop, Nat.add_zero]
  · rw [getElem?_step, if_neg fun hnew => hop hnew.1, hid, Option.map_id_fun, id]

theorem received_of_not_concerns {c : ConnectionId} {op : Operation}
    (h : op.concerns c = false) (s : Switchboard) : s.received c op = [] := by
  cases op with
  | receive other n => exact if_neg (of_decide_eq_false h)
  | _ => rfl

/-- Nor does the opening of another connection. -/
theorem channel_connect_of_ne {s : Switchboard} {c : ConnectionId} (hne : s.connect.1 ≠ c) :
    (s.step .connect).channels[c]? = s.channels[c]? := by
  rw [getElem?_step, if_neg fun hnew => hne hnew.2.symm]
  exact congrFun Option.map_id_fun s.channels[c]?

/-- **What comes out of a channel depends only on the operations that concern it.** -/
theorem AlikeFor.run_filter {c : ConnectionId} {s s' : Switchboard} (h : s.AlikeFor c s')
    (ops : List Operation) :
    s.receivedIn c ops = s'.receivedIn c (ops.filter (·.concerns c)) ∧
      (s.run ops).AlikeFor c (s'.run (ops.filter (·.concerns c))) := by
  induction ops generalizing s s' with
  | nil => exact ⟨rfl, h⟩
  | cons op ops ih =>
    cases hop : op.concerns c with
    | true =>
      obtain ⟨hreceived, halike⟩ := ih (h.step op)
      rw [List.filter_cons_of_pos hop]
      refine ⟨?_, halike⟩
      rw [receivedIn_cons, receivedIn_cons, hreceived, h.received_eq]
    | false =>
      have hstay := alikeFor_step_of_not_concerns hop s
      have hstill : (s.step op).AlikeFor c s' :=
        ⟨hstay.size_eq.symm.trans h.size_eq, hstay.channel_eq.symm.trans h.channel_eq⟩
      obtain ⟨hreceived, halike⟩ := ih hstill
      rw [List.filter_cons_of_neg (by rw [hop]; exact Bool.false_ne_true)]
      refine ⟨?_, halike⟩
      rw [receivedIn_cons, received_of_not_concerns hop, List.nil_append, hreceived]

end Switchboard

open Switchboard in
/-- **Channels deliver exactly once and in order, and none comes back.**  Let anything be done
with a switchboard, in any order.  Connections get the numbers 0, 1, 2 and so on, each once.  A
message for a connection is taken exactly if the connection was opened, the switchboard has not
let go of it since, and its receiving end exists.  As long as that exists, what was received
there so far and what still waits are the messages for the connection that were taken and those
for everybody while the switchboard held it, in order, each once; and what waits when the
switchboard lets go can still be received.  A connection that has taken no message takes none
later.  Of what is done for other connections, nothing makes a difference, and nor does it that
others are opened. -/
theorem channels_exactly_once (ops : List Operation) :
    let start : Switchboard := {}
    let s := start.run ops
    ((start.moments ops).filterMap (fun m => m.1.issued m.2) = List.range (ops.count .connect)) ∧
    ∀ c : ConnectionId,
      (s.accepts c ↔ Lasts ops c [.release c, .hangUp c]) ∧
      (s.holds c ↔ Lasts ops c [.release c]) ∧
      (Lasts ops c [.hangUp c] →
        start.receivedIn c ops ++ s.waiting c = start.entrustedIn c ops ∧
        ((s.release c).receive c).1 = s.waiting c ∧
        ∀ more, .hangUp c ∉ more →
          (s.release c).receivedIn c more ++ ((s.release c).run more).waiting c = s.waiting c) ∧
      (c < ops.count .connect → s.accepts c = false →
        ∀ more, (s.run more).accepts c = false) ∧
      (∀ op : Operation, op.concerns c = false ∨ op = .connect ∧ s.connect.1 ≠ c →
        s.received c op = [] ∧ (s.step op).channels[c]? = s.channels[c]?) ∧
      start.receivedIn c ops = start.receivedIn c (ops.filter (·.concerns c)) ∧
      s.channels[c]? = (start.run (ops.filter (·.concerns c))).channels[c]? := by
  intro start s
  have hsize : s.channels.size = ops.count .connect :=
    (start.size_channels_run ops).trans (Nat.zero_add _)
  have hissued : (start.moments ops).filterMap (fun m => m.1.issued m.2)
      = List.range (ops.count .connect) := by
    rw [issued_moments, List.range_eq_range']
    rfl
  refine ⟨hissued, fun c => ⟨accepts_run_iff ops c, holds_run_iff ops c, fun hlasts => ?_,
    fun hc hrefuses more => ?_, fun op hop => ?_, ?_⟩⟩
  · obtain ⟨-, hheard⟩ := heard_of_lasts hlasts
    exact ⟨received_append_waiting_run hheard, waiting_release s c c, fun more hmore =>
      received_append_waiting_release hlasts hmore⟩
  · rw [← hsize] at hc
    rw [Bool.eq_false_iff] at hrefuses ⊢
    exact fun htakes => hrefuses (accepts_of_accepts_run hc htakes)
  · rcases hop with hop | ⟨rfl, hne⟩
    · have halike := alikeFor_step_of_not_concerns hop s
      exact ⟨received_of_not_concerns hop s, halike.channel_eq.symm⟩
    · exact ⟨rfl, channel_connect_of_ne hne⟩
  · have halike : start.AlikeFor c start := ⟨rfl, rfl⟩
    obtain ⟨hreceived, hrun⟩ := halike.run_filter ops
    exact ⟨hreceived, hrun.channel_eq⟩

end Microblog
