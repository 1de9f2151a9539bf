import Microblog.Proofs.FollowGraph

/-!
# Blocks

Who has blocked a user is written down with the user that is blocked.  Nothing ever
takes a name off that list, and nothing but an accepted BLOCK puts one on it.  A
FOLLOW looks at the list of the user who wants to follow, so the direction is this:
after `v` has blocked `u`, it is `u` who cannot follow `v`.

## Main definitions

* `Directory.BlocksHold` — nobody follows a user who has blocked him.

## Main results

* `Directory.mem_blockedBy_block`, `Directory.block_eq_self` — a BLOCK, and a second.
* `Directory.mem_blockedBy_execute` — what commands do to the lists of blocks.
* `blocks_permanent` — **blocks are permanent and effective.**
-/

namespace Microblog

namespace Directory

variable {d d' : Directory}

/-! ### What a block records -/

/-- A block is recorded with the user that is blocked, and nothing else is. -/
theorem mem_blockedBy_block (hd : d.Filed) {x y : String} (hx : x ∈ d.members)
    (hy : y ∈ d.members) (u v : String) :
    v ∈ (d.block (.member x) (.member y)).blockedBy u ↔ v ∈ d.blockedBy u ∨ (u = y ∧ v = x) := by
  obtain ⟨a, ha⟩ := mem_members_iff.mp hx
  obtain ⟨b, hb⟩ := mem_members_iff.mp hy
  let d₀ := d.update (.member y) (Account.addBlock a.name)
  have hlist : (d.block (.member x) (.member y)).blockedBy = d₀.blockedBy := by
    simp only [block, account?_member, ha, hb]
    split
    · rfl
    · have hk (d : Directory) (id other : AccountId) :
          Keeps Account.blockedBy d ((d.unlink? id other).getD d) :=
        keeps_getD_unlink? (fun _ _ => rfl) (fun _ _ => rfl)
      exact ((hk d₀ _ _).trans (hk _ _ _)).listed
  rw [hlist]
  exact mem_listed_update_insert (f := Account.addBlock a.name)
    (fun _ => by rw [hd.name_eq ha]; rfl) hy u v

/-- A block of somebody who is blocked, and not connected by any edge, does nothing. -/
theorem block_eq_self (hd : d.Filed) {x y : String} (hx : x ∈ d.members)
    (hblocked : x ∈ d.blockedBy y) (hxy : y ∉ d.following x) (hyx : x ∉ d.following y) :
    d.block (.member x) (.member y) = d := by
  obtain ⟨a, ha⟩ := mem_members_iff.mp hx
  obtain ⟨b, hb⟩ := exists_member?_of_mem_listed hblocked
  rw [blockedBy, listed_of_member? hb] at hblocked
  have hself : d.update (.member y) (Account.addBlock a.name) = d := by
    refine update_eq_self fun b' hb' => ?_
    obtain rfl : b = b' := Option.some.inj (hb.symm.trans hb')
    rw [Account.addBlock, hd.name_eq ha, Names.insert_eq_self hblocked]
  simp only [block, account?_member, ha, hb, hself, unlink?_eq_none hd hxy,
    unlink?_eq_none hd hyx, Option.getD_none, ite_self]

/-! ### What commands do -/

/-- The only command that records a block is BLOCK. -/
theorem mem_blockedBy_execute (hd : d.Coherent) {filter : ContentFilter}
    {accepts : ConnectionId → Bool} {c : ConnectionId} {command : Command} {e : Effect}
    (h : command.execute d filter accepts c = .ok e) (u v : String) :
    v ∈ e.directory.blockedBy u ↔
      v ∈ d.blockedBy u ∨ (command = .block u ∧ d.userOn c = some v) := by
  cases command with
  | follow direction name =>
    have hk : Keeps Account.blockedBy d e.directory :=
      keeps_execute h nofun fun _ hf _ => by cases hf <;> rfl
    simp [blockedBy, hk.listed]
  | block name =>
    obtain ⟨id, blocker, target, hs, ht, rfl⟩ := executeBlock_eq_ok_iff.mp h
    obtain ⟨rfl, hb, -⟩ := hd.of_sessionOn hs
    have huser : d.userOn c = some blocker.name := userOn_of_sessionOn hs
    rw [mem_blockedBy_block hd.toFiled (mem_members_of_member? hb)
      (mem_members_of_member? ht), huser, Command.block.injEq, Option.some.injEq,
      eq_comm (a := u), eq_comm (a := v)]
  | _ =>
    have hlist : e.directory.blockedBy = d.blockedBy :=
      listed_execute (fun _ _ ht => congrArg (fun t => t.2.2) ht) (fun _ _ _ _ => rfl) h nofun nofun
    simp [hlist]

/-- Nobody follows a user who has blocked him. -/
def BlocksHold (d : Directory) : Prop := ∀ u v : String, v ∈ d.blockedBy u → v ∉ d.following u

theorem BlocksHold.empty (today : Date) : BlocksHold { today } := by
  intro u v hv
  simp at hv

theorem BlocksHold.execute (hb : d.BlocksHold) (hm : d.Mirrored) (hd : d.Coherent)
    {filter : ContentFilter} {accepts : ConnectionId → Bool} {c : ConnectionId}
    {command : Command} {e : Effect} (h : command.execute d filter accepts c = .ok e) :
    e.directory.BlocksHold := by
  intro u v hv
  rw [mem_blockedBy_execute hd h] at hv
  cases command with
  | follow direction name =>
    obtain ⟨id, a, d', hs, hd', rfl⟩ := executeFollow_eq_ok_iff.mp h
    obtain ⟨rfl, -, -⟩ := hd.of_sessionOn hs
    -- a FOLLOW records no block, so the one in question is an old one
    have hold : v ∈ d.blockedBy u := hv.resolve_right fun ⟨hc, _⟩ => nomatch hc
    cases direction with
    | true =>
      -- the user who is followed now has not blocked the one who follows
      obtain ⟨-, hfree, -, hl⟩ := links_follow? hd.toFiled hd'
      rw [hl.mem_following]
      rintro (hf | ⟨rfl, rfl⟩)
      · exact hb u v hold hf
      · exact hfree hold
    | false =>
      rw [(severs_unfollow? hd.toFiled hd').mem_following]
      exact fun hf => hb u v hold hf.1
  | block name =>
    obtain ⟨id, blocker, target, hs, ht, rfl⟩ := executeBlock_eq_ok_iff.mp h
    obtain ⟨rfl, hblocker, -⟩ := hd.of_sessionOn hs
    obtain ⟨d₁, h₁, h₂⟩ := hm.severs_block hd.toFiled (mem_members_of_member? hblocker)
      (mem_members_of_member? ht)
    rw [h₂.mem_following, h₁.mem_following]
    rintro ⟨⟨hf, -⟩, hne⟩
    -- an edge that is left was there before and is not the one that the block severs
    rcases hv with hold | ⟨hc, huser⟩
    · exact hb u v hold hf
    · rw [userOn_of_sessionOn hs, Option.some.injEq] at huser
      exact hne ⟨(Command.block.inj hc).symm, huser.symm⟩
  | _ =>
    rw [following_execute h nofun nofun]
    exact hb u v (hv.resolve_right fun ⟨hc, _⟩ => nomatch hc)

theorem BlocksHold.logout (hb : d.BlocksHold) (c : ConnectionId) : (d.logout c).BlocksHold := by
  have hk₁ : Keeps Account.blockedBy d (d.logout c) := keeps_logout (fun _ => rfl) d c
  have hk₂ : Keeps Account.following d (d.logout c) := keeps_logout (fun _ => rfl) d c
  intro u v hv
  rw [blockedBy, hk₁.listed] at hv
  rw [following, hk₂.listed]
  exact hb u v hv

theorem BlocksHold.invariant :
    Directory.Invariant fun d => (d.Coherent ∧ d.Mirrored) ∧ d.BlocksHold where
  execute := fun ⟨⟨hd, hm⟩, hb⟩ h => ⟨Mirrored.invariant.execute ⟨hd, hm⟩ h, hb.execute hm hd h⟩
  logout := fun ⟨hdm, hb⟩ c => ⟨Mirrored.invariant.logout hdm c, hb.logout c⟩

end Directory

/-! ### Blocks over a run -/

namespace Hub

theorem mem_blockedBy_step {h : Hub} (hh : h.Linked) (hd : h.service.directory.Coherent)
    {e : Event} (he : e.isOperation) (u v : String) :
    v ∈ (h.step e).service.directory.blockedBy u ↔
      v ∈ h.service.directory.blockedBy u ∨ h.Issues e v (.block u) := by
  unfold Issues
  have hturn := h.turn hh he
  generalize h.carriedOut e = x at hturn ⊢
  generalize (h.step e).service = s at hturn ⊢
  cases hturn with
  | carriedOut hc hx =>
    refine (Directory.mem_blockedBy_execute hd hx u v).trans (or_congr_right ?_)
    constructor
    · rintro ⟨rfl, huser⟩
      exact ⟨_, rfl, huser⟩
    · rintro ⟨_, heq, huser⟩
      cases heq
      exact ⟨rfl, huser⟩
  | ended c =>
    have hk : Directory.Keeps Account.blockedBy h.service.directory
        (h.service.directory.logout c) := Directory.keeps_logout (fun _ => rfl) _ c
    simp [Directory.blockedBy, hk.listed]
  | _ => simp [Service.send]

/-- The blocks recorded after a run are those recorded before and those of the run. -/
theorem mem_blockedBy_run {h : Hub} (hh : h.Linked) (hd : h.service.directory.Coherent)
    {es : List Event} (hes : ∀ e ∈ es, e.isOperation) (u v : String) :
    v ∈ (h.run es).service.directory.blockedBy u ↔
      v ∈ h.service.directory.blockedBy u ∨ ∃ m ∈ h.moments es, m.1.Issues m.2 v (.block u) := by
  induction es generalizing h with
  | nil => simp
  | cons e es ih =>
    have he : e.isOperation := hes e List.mem_cons_self
    rw [run_cons, ih (hh.step e) (Directory.Coherent.invariant.step hd e)
      fun e' he' => hes e' (List.mem_cons_of_mem _ he'), mem_blockedBy_step hh hd he, or_assoc]
    simp

/-- A BLOCK that is carried out concerns two members. -/
theorem Issues.step_block {h : Hub} (hh : h.Linked) (hd : h.service.directory.Coherent)
    {e : Event} {x y : String} (hi : h.Issues e x (.block y)) :
    x ∈ h.service.directory.members ∧ y ∈ h.service.directory.members ∧
      (h.step e).service.directory = h.service.directory.block (.member x) (.member y) := by
  obtain ⟨c, hx, huser⟩ := hi
  obtain ⟨effect, hok, hstep⟩ := step_of_carriedOut hh hx
  obtain ⟨id, blocker, target, hs, ht, rfl⟩ := executeBlock_eq_ok_iff.mp hok
  obtain ⟨rfl, hblocker, -⟩ := hd.of_sessionOn hs
  obtain rfl : blocker.name = x := by
    rwa [Directory.userOn_of_sessionOn hs, Option.some.injEq] at huser
  refine ⟨Directory.mem_members_of_member? hblocker,
    Directory.mem_members_of_member? ht, ?_⟩
  rw [hstep]
  rfl

/-- A BLOCK that is carried out can be carried out again at once. -/
theorem Issues.again {h : Hub} (hh : h.Linked) (hd : h.service.directory.Coherent)
    {e : Event} {x y : String} (hi : h.Issues e x (.block y)) :
    (h.step e).Issues e x (.block y) := by
  obtain ⟨hx, hy, hstep⟩ := hi.step_block hh hd
  have hd' : (h.step e).service.directory.Coherent := Directory.Coherent.invariant.step hd e
  obtain ⟨c, hcarried, huser⟩ := hi
  obtain ⟨rfl, hc, -⟩ := (carriedOut_eq_some_iff hh).mp hcarried
  -- the session and both members are still there, and a BLOCK asks for nothing else
  have hsession : (h.step (.message c (.command (.block y)))).service.directory.sessions[c]?
      = some (.member x) := by
    rw [hstep, Directory.sessions_block]
    exact hd.userOn_eq_some_iff.mp huser
  obtain ⟨_, blocker, heq, hblocker, -⟩ := hd'.member hsession
  cases heq
  have hk : Directory.Keeps Account.identity h.service.directory
      (h.step (.message c (.command (.block y)))).service.directory := by
    rw [hstep]
    exact Directory.keeps_block (fun _ _ => rfl) (fun _ _ => rfl) (fun _ _ => rfl) _ _ _
  obtain ⟨target, ht⟩ := Directory.mem_members_iff.mp (hk.mem_members_iff.mpr hy)
  refine ⟨c, (carriedOut_eq_some_iff (hh.step _)).mpr ⟨rfl, ?_, ?_⟩,
    hd'.userOn_eq_some_iff.mpr hsession⟩
  · rwa [size_links_message]
  · have hs := Directory.sessionOn_eq_some_iff.mpr ⟨hsession, hblocker⟩
    exact ⟨_, executeBlock_eq_ok_iff.mpr ⟨_, blocker, target, hs, ht, rfl⟩⟩

end Hub

/-- **Blocks are permanent and effective.**  After a run of operations `v` is listed as
having blocked `u` exactly if at some moment of the run a BLOCK of `u` by `v` was
carried out, and then `u` does not follow `v`.  A BLOCK of `y` by `x` that is carried
out takes away the edges between the two and no others, is recorded with `y` and
changes no other record, and carried out again at once it changes nothing. -/
theorem blocks_permanent (today : Date) (filter : ContentFilter) (es : List Event)
    (hes : ∀ e ∈ es, e.isOperation) :
    let h := (Hub.start today filter).run es
    let d := h.service.directory
    (∀ u v : String, v ∈ d.blockedBy u ↔
      ∃ m ∈ (Hub.start today filter).moments es, m.1.Issues m.2 v (.block u)) ∧
    (∀ u v : String, v ∈ d.blockedBy u → v ∉ d.following u ∧ u ∉ d.followers v) ∧
    (∀ (e : Event) (x y : String), h.Issues e x (.block y) →
      let d' := (h.step e).service.directory
      (∀ u v : String, v ∈ d'.following u ↔
        v ∈ d.following u ∧ ¬ (u = x ∧ v = y) ∧ ¬ (u = y ∧ v = x)) ∧
      (∀ u v : String, v ∈ d'.followers u ↔
        v ∈ d.followers u ∧ ¬ (u = x ∧ v = y) ∧ ¬ (u = y ∧ v = x)) ∧
      (∀ u v : String, v ∈ d'.blockedBy u ↔ v ∈ d.blockedBy u ∨ (u = y ∧ v = x)) ∧
      (h.step e).Issues e x (.block y) ∧ ((h.step e).step e).service.directory = d') := by
  intro h d
  have hstart : (Hub.start today filter).Linked := .start today filter
  have hh : h.Linked := hstart.run es
  obtain ⟨⟨hd, hm⟩, hb⟩ : (d.Coherent ∧ d.Mirrored) ∧ d.BlocksHold :=
    Directory.BlocksHold.invariant.run
      ⟨⟨.empty today, .empty today⟩, .empty today⟩ es
  refine ⟨?_, ?_, ?_⟩
  · intro u v
    have hnone : v ∉ (Hub.start today filter).service.directory.blockedBy u := by
      simp [Hub.start, Hub.ofDirectory]
    exact (Hub.mem_blockedBy_run hstart (.empty today) hes u v).trans (or_iff_right hnone)
  · intro u v hv
    have hnot := hb u v hv
    exact ⟨hnot, fun hf => hnot ((hm.mirror u v).mpr hf)⟩
  · intro e x y hi d'
    obtain ⟨hx, hy, hstep⟩ := hi.step_block hh hd
    obtain ⟨d₁, h₁, h₂⟩ := hm.severs_block hd.toFiled hx hy
    have hfollowing : ∀ u v : String, v ∈ d'.following u ↔
        v ∈ d.following u ∧ ¬ (u = x ∧ v = y) ∧ ¬ (u = y ∧ v = x) := by
      intro u v
      rw [show d' = _ from hstep, h₂.mem_following, h₁.mem_following, and_assoc]
    have hfollowers : ∀ u v : String, v ∈ d'.followers u ↔
        v ∈ d.followers u ∧ ¬ (u = x ∧ v = y) ∧ ¬ (u = y ∧ v = x) := by
      intro u v
      rw [show d' = _ from hstep, h₂.mem_followers, h₁.mem_followers, and_assoc,
        and_comm (a := ¬ (u = y ∧ v = x))]
    have hblocked : ∀ u v : String, v ∈ d'.blockedBy u ↔ v ∈ d.blockedBy u ∨ (u = y ∧ v = x) := by
      intro u v
      rw [show d' = _ from hstep]
      exact Directory.mem_blockedBy_block hd.toFiled hx hy u v
    have hagain := hi.again hh hd
    refine ⟨hfollowing, hfollowers, hblocked, hagain, ?_⟩
    have hd' : d'.Coherent := Directory.Coherent.invariant.step hd e
    obtain ⟨hx', -, hstep'⟩ := hagain.step_block (hh.step e) hd'
    rw [hstep']
    -- the first BLOCK has left nothing to do for the second
    refine Directory.block_eq_self hd'.toFiled hx' ?_ ?_ ?_
    · exact (hblocked y x).mpr (.inr ⟨rfl, rfl⟩)
    · exact fun hf => ((hfollowing x y).mp hf).2.1 ⟨rfl, rfl⟩
    · exact fun hf => ((hfollowing y x).mp hf).2.2 ⟨rfl, rfl⟩

/-- Alice and Bob follow each other until Alice blocks Bob. -/
def estrangement : List Event :=
  [.connect, .connect,
    .message 0 (.command (.register "alice" "a" ⟨1, 1, 2000⟩)),
    .message 0 (.command (.register "bob" "b" ⟨1, 1, 2000⟩)),
    .message 0 (.command (.login "alice" "a" 0x31)),
    .message 1 (.command (.login "bob" "b" 0x31)),
    .message 0 (.command (.follow true "bob")),
    .message 1 (.command (.follow true "alice")),
    .message 0 (.command (.block "bob"))]

/-- The block of Bob is recorded and he does not follow Alice any more; Bob can block
Alice in turn, and to do so twice is to do so once. -/
theorem blocks_permanent_estrangement :
    let h := (Hub.start ⟨2024, 1, 1⟩ {}).run estrangement
    let e : Event := .message 1 (.command (.block "alice"))
    (∀ e ∈ estrangement, e.isOperation) ∧
      (∃ m ∈ (Hub.start ⟨2024, 1, 1⟩ {}).moments estrangement,
        m.1.Issues m.2 "alice" (.block "bob")) ∧
      "alice" ∉ h.service.directory.following "bob" ∧ h.Issues e "bob" (.block "alice") ∧
      ((h.step e).step e).service.directory = (h.step e).service.directory := by
  intro h e
  have hes : ∀ e ∈ estrangement, e.isOperation := by decide
  obtain ⟨hrecorded, hholds, hagain⟩ := blocks_permanent ⟨2024, 1, 1⟩ {} estrangement hes
  have hblocked : "alice" ∈ h.service.directory.blockedBy "bob" := by decide +kernel
  have hissues : h.Issues e "bob" (.block "alice") := ⟨1, by decide +kernel, by decide +kernel⟩
  exact ⟨hes, (hrecorded _ _).mp hblocked, (hholds _ _ hblocked).1, hissues,
    (hagain e _ _ hissues).2.2.2.2⟩

end Microblog
