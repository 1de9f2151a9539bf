import Mathlib.Combinatorics.Enumerative.DoubleCounting
import Microblog.Proofs.Sessions

/-!
# The follow graph

That one user follows another is written down twice, in the account of the one as
somebody followed and in the account of the other as a follower.  Here the two are
shown to say the same after every run.

The two are read through `Directory.following` and `Directory.followers`, which are
empty for names that nobody has.  So "following and followers are converse" also says
that all of them are registered.

## Main definitions

* `Directory.following`, `Directory.followers`, `Directory.blockedBy` — how a member
  stands to others.
* `Directory.Mirrored` — following and followers are converse, and nobody follows
  himself.
* `Directory.Links`, `Directory.Severs` — one edge more or less, on both sides.

## Main results

* `Directory.links_follow?`, `Directory.severs_unfollow?`, `Directory.severs_block` —
  what operations do to the graph.
* `Directory.Mirrored.invariant` — every command keeps both sides alike.
* `Directory.Mirrored.sum_followers` — there are as many followers as users followed.
* `followGraph_mirrored` — **the follow graph is mirrored** after every run.
-/

namespace Microblog

/-- A set of usernames has no name twice. -/
theorem nodup_toList_names (names : Names) : names.toList.Nodup := by
  refine names.distinct_toList.imp fun hne heq => ?_
  exact hne (Std.LawfulEqCmp.compare_eq_iff_eq.mpr heq)

namespace Directory

/-- The names on one of the lists of a member's account; none if there is no such
member. -/
def listed (d : Directory) (list : Account → Names) (user : String) : Names :=
  ((d.member? user).map list).getD ∅

/-- The users that a member follows. -/
abbrev following (d : Directory) : String → Names := d.listed Account.following

/-- The users that follow a member. -/
abbrev followers (d : Directory) : String → Names := d.listed Account.followers

/-- The users that have blocked a member. -/
abbrev blockedBy (d : Directory) : String → Names := d.listed Account.blockedBy

section

variable {d d' : Directory} {list : Account → Names} {user : String}

theorem listed_of_member? {a : Account} (ha : d.member? user = some a) :
    d.listed list user = list a := by
  rw [listed, ha]
  rfl

@[simp] theorem listed_empty (today : Date) (list : Account → Names) (user : String) :
    listed { today } list user = ∅ := by
  simp [listed, member?]

/-- Only members list anybody. -/
theorem exists_member?_of_mem_listed {name : String} (h : name ∈ d.listed list user) :
    ∃ a, d.member? user = some a := by
  cases ha : d.member? user with
  | none => simp [listed, ha] at h
  | some a => exact ⟨a, rfl⟩

/-- A new member stands to nobody in any way. -/
theorem listed_register {password : String} {born : BirthDate}
    (h : d.register user password born = .ok d')
    (hlist : ∀ name password number age, list { name, password, number, age } = ∅) :
    d'.listed list = d.listed list := by
  funext other
  rw [listed, member?_register h]
  split
  · next hu =>
    rw [hu, listed, member?_eq_none (register_eq_ok_iff.mp h).1]
    exact hlist _ _ _ _
  · rfl

theorem Keeps.listed (h : Keeps list d d') : d'.listed list = d.listed list :=
  funext fun user => congrArg (Option.getD · ∅) (h.map_key user)

theorem listed_update (f : Account → Account) (hf : ∀ a, list (f a) = list a) (id : AccountId) :
    (d.update id f).listed list = d.listed list :=
  (keeps_update hf d id).listed

/-- One name more on the list of one member. -/
theorem mem_listed_update_insert {x y : String} {f : Account → Account}
    (hf : ∀ a, list (f a) = (list a).insert y) (hx : x ∈ d.members) (u v : String) :
    v ∈ (d.update (.member x) f).listed list u ↔ v ∈ d.listed list u ∨ (u = x ∧ v = y) := by
  rw [listed, member?_update]
  by_cases hu : u = x
  · subst hu
    obtain ⟨a, ha⟩ := mem_members_iff.mp hx
    rw [if_pos rfl, listed_of_member? ha, ha, Option.map_some, Option.map_some, Option.getD_some,
      hf, Std.ExtTreeSet.mem_insert, Std.LawfulEqCmp.compare_eq_iff_eq]
    simp [or_comm, eq_comm]
  · rw [if_neg (by simpa using Ne.symm hu), ← listed]
    simp [hu]

/-- One name less on the list of one member. -/
theorem mem_listed_update_erase {x y : String} {f : Account → Account}
    (hf : ∀ a, list (f a) = (list a).erase y) (u v : String) :
    v ∈ (d.update (.member x) f).listed list u ↔ v ∈ d.listed list u ∧ ¬ (u = x ∧ v = y) := by
  rw [listed, member?_update]
  by_cases hu : u = x
  · subst hu
    rw [if_pos rfl]
    cases ha : d.member? u with
    | none => simp [listed, ha]
    | some a =>
      rw [listed_of_member? ha, Option.map_some, Option.map_some, Option.getD_some, hf,
        Std.ExtTreeSet.mem_erase, Ne, Std.LawfulEqCmp.compare_eq_iff_eq]
      simp [and_comm, eq_comm]
  · rw [if_neg (by simpa using Ne.symm hu), ← listed]
    simp [hu]

end

/-! ### One edge more, one edge less -/

/-- On both sides there is one edge more, from `x` to `y`. -/
structure Links (d d' : Directory) (x y : String) : Prop where
  /-- The one lists the other as followed. -/
  mem_following : ∀ u v, v ∈ d'.following u ↔ v ∈ d.following u ∨ (u = x ∧ v = y)
  /-- The other lists the one as a follower. -/
  mem_followers : ∀ u v, v ∈ d'.followers u ↔ v ∈ d.followers u ∨ (u = y ∧ v = x)

/-- On both sides there is no edge from `x` to `y` any more. -/
structure Severs (d d' : Directory) (x y : String) : Prop where
  /-- The one does not list the other as followed. -/
  mem_following : ∀ u v, v ∈ d'.following u ↔ v ∈ d.following u ∧ ¬ (u = x ∧ v = y)
  /-- The other does not list the one as a follower. -/
  mem_followers : ∀ u v, v ∈ d'.followers u ↔ v ∈ d.followers u ∧ ¬ (u = y ∧ v = x)

/-- Only the graph before matters. -/
theorem Severs.of_listed_eq {d d₀ d' : Directory} {x y : String} (h : d₀.Severs d' x y)
    (h₁ : d₀.following = d.following) (h₂ : d₀.followers = d.followers) : d.Severs d' x y where
  mem_following := by
    rw [← h₁]
    exact h.mem_following
  mem_followers := by
    rw [← h₂]
    exact h.mem_followers

theorem links_update {d : Directory} {x y : String} (hx : x ∈ d.members) (hy : y ∈ d.members) :
    d.Links ((d.update (.member x) (Account.startFollowing y)).update (.member y)
      (Account.gainFollower x)) x y where
  mem_following := by
    intro u v
    rw [following, listed_update (Account.gainFollower x) fun _ => rfl]
    exact mem_listed_update_insert (fun _ => rfl) hx u v
  mem_followers := by
    intro u v
    rw [followers, mem_listed_update_insert (f := Account.gainFollower x) (fun _ => rfl)
      (mem_members_update.mpr hy), listed_update (Account.startFollowing y) fun _ => rfl]

theorem severs_update (d : Directory) (x y : String) :
    d.Severs ((d.update (.member x) (Account.stopFollowing y)).update (.member y)
      (Account.loseFollower x)) x y where
  mem_following := by
    intro u v
    rw [following, listed_update (Account.loseFollower x) fun _ => rfl]
    exact mem_listed_update_erase (fun _ => rfl) u v
  mem_followers := by
    intro u v
    rw [followers, mem_listed_update_erase (f := Account.loseFollower x) fun _ => rfl,
      listed_update (Account.stopFollowing y) fun _ => rfl]

/-- An accepted FOLLOW adds an edge that was not there and that no block forbids. -/
theorem links_follow? {d d' : Directory} (hd : d.Filed) {x y : String}
    (h : d.follow? (.member x) y = some d') :
    x ≠ y ∧ y ∉ d.blockedBy x ∧ y ∉ d.following x ∧ d.Links d' x y := by
  obtain ⟨a, b, ha, hb, hblock, hnumber, hnew, rfl⟩ := follow?_eq_some_iff.mp h
  have hxy : x ≠ y := fun heq => hnumber ((hd.number_eq_iff ha hb).mpr heq)
  rw [hd.name_eq hb] at hblock hnew ⊢
  rw [hd.name_eq ha]
  refine ⟨hxy, ?_, ?_, links_update (mem_members_of_member? ha) (mem_members_of_member? hb)⟩
  · rwa [blockedBy, listed_of_member? ha]
  · rwa [following, listed_of_member? ha]

theorem severs_unfollow? {d d' : Directory} (hd : d.Filed) {x y : String}
    (h : d.unfollow? (.member x) y = some d') : d.Severs d' x y := by
  obtain ⟨a, b, ha, hb, -, -, rfl⟩ := unfollow?_eq_some_iff.mp h
  rw [hd.name_eq hb, hd.name_eq ha]
  exact severs_update d x y

theorem unlink?_eq_none {d : Directory} (hd : d.Filed) {x y : String}
    (hxy : y ∉ d.following x) : d.unlink? (.member x) (.member y) = none := by
  rw [Option.eq_none_iff_forall_ne_some]
  intro d' h
  obtain ⟨a, b, ha, hb, hmem, -⟩ := unlink?_eq_some_iff.mp h
  rw [hd.name_eq hb] at hmem
  exact hxy (by rwa [following, listed_of_member? ha])

/-- Other commands leave alone how users stand to one another. -/
theorem listed_execute {d : Directory} {list : Account → Names}
    (hties : ∀ a b : Account, a.ties = b.ties → list a = list b)
    (hnew : ∀ name password number age, list { name, password, number, age } = ∅)
    {filter : ContentFilter} {accepts : ConnectionId → Bool} {c : ConnectionId}
    {command : Command} {e : Effect} (h : command.execute d filter accepts c = .ok e)
    (hfollow : ∀ direction name, command ≠ .follow direction name)
    (hblock : ∀ name, command ≠ .block name) : e.directory.listed list = d.listed list := by
  cases command with
  | register name password born =>
    obtain ⟨d', hd', rfl⟩ := executeRegister_eq_ok_iff.mp h
    exact listed_register hd' hnew
  | follow direction name => exact absurd rfl (hfollow direction name)
  | block name => exact absurd rfl (hblock name)
  | _ =>
    have hk : Keeps list d e.directory :=
      keeps_execute h nofun fun _ hf _ => by cases hf <;> exact hties _ _ rfl
    exact hk.listed

theorem following_execute {d : Directory} {filter : ContentFilter}
    {accepts : ConnectionId → Bool} {c : ConnectionId} {command : Command} {e : Effect}
    (h : command.execute d filter accepts c = .ok e)
    (hfollow : ∀ direction name, command ≠ .follow direction name)
    (hblock : ∀ name, command ≠ .block name) : e.directory.following = d.following :=
  listed_execute (fun _ _ ht => congrArg Prod.fst ht) (fun _ _ _ _ => rfl) h hfollow hblock

theorem followers_execute {d : Directory} {filter : ContentFilter}
    {accepts : ConnectionId → Bool} {c : ConnectionId} {command : Command} {e : Effect}
    (h : command.execute d filter accepts c = .ok e)
    (hfollow : ∀ direction name, command ≠ .follow direction name)
    (hblock : ∀ name, command ≠ .block name) : e.directory.followers = d.followers :=
  listed_execute (fun _ _ ht => congrArg (fun t => t.2.1) ht) (fun _ _ _ _ => rfl) h hfollow hblock

/-! ### Both sides say the same -/

/-- Following and followers are converse, and nobody follows himself. -/
structure Mirrored (d : Directory) : Prop where
  /-- One user follows another exactly if the other lists the one as a follower. -/
  mirror : ∀ u v, v ∈ d.following u ↔ u ∈ d.followers v
  /-- Nobody follows himself. -/
  irrefl : ∀ u, u ∉ d.following u

namespace Mirrored

variable {d d' : Directory}

theorem empty (today : Date) : Mirrored { today } := by
  constructor <;> intros <;> simp

theorem of_listed_eq (hm : d.Mirrored) (h₁ : d'.following = d.following)
    (h₂ : d'.followers = d.followers) : d'.Mirrored := by
  constructor
  · intro u v
    rw [h₁, h₂]
    exact hm.mirror u v
  · intro u
    rw [h₁]
    exact hm.irrefl u

theorem of_links (hm : d.Mirrored) {x y : String} (hxy : x ≠ y) (h : d.Links d' x y) :
    d'.Mirrored := by
  constructor
  · intro u v
    rw [h.mem_following, h.mem_followers, hm.mirror u v, and_comm]
  · intro u
    rw [h.mem_following]
    rintro (hu | ⟨rfl, rfl⟩)
    · exact hm.irrefl u hu
    · exact hxy rfl

theorem of_severs (hm : d.Mirrored) {x y : String} (h : d.Severs d' x y) : d'.Mirrored := by
  constructor
  · intro u v
    rw [h.mem_following, h.mem_followers, hm.mirror u v, and_comm (a := u = x)]
  · intro u
    rw [h.mem_following]
    exact fun hu => hm.irrefl u hu.1

/-- Where there is no edge, severing it changes nothing. -/
theorem severs_self (hm : d.Mirrored) {x y : String} (hxy : y ∉ d.following x) :
    d.Severs d x y := by
  constructor
  · intro u v
    refine ⟨fun hv => ⟨hv, ?_⟩, And.left⟩
    rintro ⟨rfl, rfl⟩
    exact hxy hv
  · intro v u
    refine ⟨fun hu => ⟨hu, ?_⟩, And.left⟩
    rintro ⟨rfl, rfl⟩
    exact hxy ((hm.mirror u v).mpr hu)

/-- The edge is looked for on one side only, and that is enough. -/
theorem severs_getD_unlink? (hm : d.Mirrored) (hd : d.Filed) {x y : String}
    (hx : x ∈ d.members) (hy : y ∈ d.members) :
    d.Severs ((d.unlink? (.member x) (.member y)).getD d) x y := by
  obtain ⟨a, ha⟩ := mem_members_iff.mp hx
  obtain ⟨b, hb⟩ := mem_members_iff.mp hy
  have hlist : d.following x = a.following := listed_of_member? ha
  by_cases hxy : y ∈ d.following x
  · have hsome : d.unlink? (.member x) (.member y) = some _ :=
      unlink?_eq_some_iff.mpr ⟨a, b, ha, hb, by rwa [hd.name_eq hb, ← hlist], rfl⟩
    rw [hsome, hd.name_eq ha, hd.name_eq hb]
    exact severs_update d x y
  · rw [unlink?_eq_none hd hxy]
    exact hm.severs_self hxy

/-- A block severs both edges, one after the other. -/
theorem severs_block (hm : d.Mirrored) (hd : d.Filed) {x y : String} (hx : x ∈ d.members)
    (hy : y ∈ d.members) :
    ∃ d₁, d.Severs d₁ x y ∧ d₁.Severs (d.block (.member x) (.member y)) y x := by
  obtain ⟨a, ha⟩ := mem_members_iff.mp hx
  obtain ⟨b, hb⟩ := mem_members_iff.mp hy
  -- recording the block leaves the graph alone
  let d₀ := d.update (.member y) (Account.addBlock a.name)
  have hfollowing : d₀.following = d.following :=
    listed_update (Account.addBlock a.name) (fun _ => rfl) _
  have hfollowers : d₀.followers = d.followers :=
    listed_update (Account.addBlock a.name) (fun _ => rfl) _
  have hm₀ : d₀.Mirrored := hm.of_listed_eq hfollowing hfollowers
  have hd₀ : d₀.Filed :=
    hd.of_keeps (keeps_update (f := Account.addBlock a.name) (fun _ => rfl) d _)
  simp only [block, account?_member, ha, hb]
  split
  · next hnumber =>
    obtain rfl : x = y := (hd.number_eq_iff ha hb).mp hnumber
    -- whoever blocks himself has no edge to himself to lose
    have hs : d₀.Severs d₀ x x := hm₀.severs_self (hm₀.irrefl x)
    exact ⟨d₀, hs.of_listed_eq hfollowing hfollowers, hs⟩
  · let d₁ := (d₀.unlink? (.member x) (.member y)).getD d₀
    have hs : d₀.Severs d₁ x y :=
      hm₀.severs_getD_unlink? hd₀ (mem_members_update.mpr hx) (mem_members_update.mpr hy)
    have hk : Keeps Account.identity d₀ d₁ :=
      keeps_getD_unlink? (fun _ _ => rfl) (fun _ _ => rfl)
    refine ⟨d₁, hs.of_listed_eq hfollowing hfollowers, ?_⟩
    exact (hm₀.of_severs hs).severs_getD_unlink? (hd₀.of_keeps hk)
      (hk.mem_members_iff.mpr (mem_members_update.mpr hy))
      (hk.mem_members_iff.mpr (mem_members_update.mpr hx))

theorem logout (hm : d.Mirrored) (c : ConnectionId) : (d.logout c).Mirrored := by
  have hfollowing : (d.logout c).following = d.following :=
    (keeps_logout (fun _ => rfl) d c).listed
  have hfollowers : (d.logout c).followers = d.followers :=
    (keeps_logout (fun _ => rfl) d c).listed
  exact hm.of_listed_eq hfollowing hfollowers

theorem execute (hm : d.Mirrored) (hd : d.Coherent) {filter : ContentFilter}
    {accepts : ConnectionId → Bool} {c : ConnectionId} {command : Command} {e : Effect}
    (h : command.execute d filter accepts c = .ok e) : e.directory.Mirrored := by
  cases command with
  | follow direction name =>
    obtain ⟨id, a, d', hs, hd', rfl⟩ := executeFollow_eq_ok_iff.mp h
    obtain ⟨rfl, -, -⟩ := hd.of_sessionOn hs
    cases direction with
    | true =>
      obtain ⟨hne, -, -, hl⟩ := links_follow? hd.toFiled hd'
      exact hm.of_links hne hl
    | false => exact hm.of_severs (severs_unfollow? hd.toFiled hd')
  | block name =>
    obtain ⟨id, blocker, target, hs, ht, rfl⟩ := executeBlock_eq_ok_iff.mp h
    obtain ⟨rfl, hb, -⟩ := hd.of_sessionOn hs
    obtain ⟨d₁, h₁, h₂⟩ := hm.severs_block hd.toFiled (mem_members_of_member? hb)
      (mem_members_of_member? ht)
    exact (hm.of_severs h₁).of_severs h₂
  | _ => exact hm.of_listed_eq (following_execute h nofun nofun) (followers_execute h nofun nofun)

theorem invariant : Directory.Invariant fun d => d.Coherent ∧ d.Mirrored where
  execute := fun ⟨hd, hm⟩ h => ⟨hd.execute h, hm.execute hd h⟩
  logout := fun ⟨hd, hm⟩ c => ⟨hd.logout c, hm.logout c⟩

/-- Who is followed, or follows, is registered. -/
theorem mem_members (hm : d.Mirrored) {u v : String} (h : v ∈ d.following u ∨ v ∈ d.followers u) :
    v ∈ d.members := by
  rcases h with h | h
  · exact mem_members_iff.mpr (exists_member?_of_mem_listed ((hm.mirror u v).mp h))
  · exact mem_members_iff.mpr (exists_member?_of_mem_listed ((hm.mirror v u).mpr h))

/-- The members on a list are as many as the list is long. -/
theorem card_filter_mem {names : Names} {members : Finset String}
    (h : ∀ v ∈ names, v ∈ members) : (members.filter fun v => v ∈ names).card = names.size := by
  have heq : (members.filter fun v => v ∈ names) = names.toList.toFinset := by
    ext v
    rw [Finset.mem_filter, List.mem_toFinset, Std.ExtTreeSet.mem_toList]
    exact ⟨And.right, fun hv => ⟨h v hv, hv⟩⟩
  rw [heq, List.toFinset_card_of_nodup (nodup_toList_names names), Std.ExtTreeSet.length_toList]

/-- **As many followers as users followed**: both sides count the edges. -/
theorem sum_followers (hm : d.Mirrored) :
    (d.members.keys.map fun u => (d.followers u).size).sum
      = (d.members.keys.map fun u => (d.following u).size).sum := by
  have hnodup : d.members.keys.Nodup := Std.ExtTreeMap.nodup_keys
  let members := d.members.keys.toFinset
  let edge (u v : String) : Prop := v ∈ d.following u
  have hfollowing : ∀ u, (members.bipartiteAbove edge u).card = (d.following u).size := by
    intro u
    refine card_filter_mem fun v hv => ?_
    rw [List.mem_toFinset, Std.ExtTreeMap.mem_keys]
    exact hm.mem_members (.inl hv)
  have hfollowers : ∀ v, (members.bipartiteBelow edge v).card = (d.followers v).size := by
    intro v
    simp only [Finset.bipartiteBelow, edge, hm.mirror]
    refine card_filter_mem fun u hu => ?_
    rw [List.mem_toFinset, Std.ExtTreeMap.mem_keys]
    exact hm.mem_members (.inr hu)
  rw [← List.sum_toFinset _ hnodup, ← List.sum_toFinset _ hnodup]
  simp only [← hfollowing, ← hfollowers]
  exact (Finset.sum_card_bipartiteAbove_eq_sum_card_bipartiteBelow _).symm

end Mirrored

end Directory

/-- **The follow graph is mirrored.**  After every run, whatever commands it is made of,
one user is listed as followed by another exactly if the other is listed as a follower
of the one; nobody follows himself; only registered users are listed; and there are as
many followers as users followed. -/
theorem followGraph_mirrored (today : Date) (filter : ContentFilter) (es : List Event) :
    let d := ((Hub.start today filter).run es).service.directory
    (∀ u v : String, v ∈ d.following u ↔ u ∈ d.followers v) ∧
    (∀ u : String, u ∉ d.following u ∧ u ∉ d.followers u) ∧
    (∀ u v : String, v ∈ d.following u ∨ v ∈ d.followers u → v ∈ d.members) ∧
    (d.members.keys.map fun u => (d.followers u).size).sum
      = (d.members.keys.map fun u => (d.following u).size).sum := by
  intro d
  have hm : d.Mirrored :=
    (Directory.Mirrored.invariant.run ⟨.empty today, .empty today⟩ es).2
  refine ⟨hm.mirror, fun u => ⟨hm.irrefl u, ?_⟩, fun u v => hm.mem_members, hm.sum_followers⟩
  rw [← hm.mirror]
  exact hm.irrefl u

end Microblog
