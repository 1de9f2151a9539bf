import Microblog.Proofs.Unfolding

/-!
# Following and no longer following

To follow somebody and to stop following are each other's inverse.  Whichever of the two is
carried out, the other one is accepted right after it, and the directory is then exactly what
it was before.

That nothing is left behind takes more than to look at what the two do.  The entry on the list
of followers is put there and taken away without a look, so it must not have been there before
a user follows, and must have been before he stops; it is the graph's being mirrored that says
so.  And a user who has stopped following can follow again because nobody follows a user who
has blocked him.

## Main definitions

* `Directory.setFollow?` — an edge of the follow graph is put in or taken out.

## Main results

* `Directory.exists_follow?_iff`, `Directory.exists_unfollow?_iff` — when that can be done.
* `Directory.setFollow?_setFollow?` — **the one undoes the other.**
* `follow_unfollow_inverse` — the same for the commands, after every run.
-/

namespace Microblog

/-! ### Names -/

namespace Names

variable {names : Names} {name : String}

/-- A name that was not there can be put in and taken out again. -/
theorem erase_insert (h : name ∉ names) : (names.insert name).erase name = names := by
  refine Std.ExtTreeSet.ext_mem fun other => ?_
  rw [Std.ExtTreeSet.mem_erase, Std.ExtTreeSet.mem_insert, ne_eq,
    Std.LawfulEqCmp.compare_eq_iff_eq]
  constructor
  · rintro ⟨hne, heq | hother⟩
    · exact absurd heq hne
    · exact hother
  · intro hother
    exact ⟨fun heq => h (heq ▸ hother), .inr hother⟩

/-- A name that was there can be taken out and put in again. -/
theorem insert_erase (h : name ∈ names) : (names.erase name).insert name = names := by
  refine Std.ExtTreeSet.ext_mem fun other => ?_
  rw [Std.ExtTreeSet.mem_insert, Std.ExtTreeSet.mem_erase, ne_eq,
    Std.LawfulEqCmp.compare_eq_iff_eq]
  constructor
  · rintro (heq | ⟨-, hother⟩)
    · exact heq ▸ h
    · exact hother
  · intro hother
    by_cases heq : name = other
    · exact .inl heq
    · exact .inr ⟨heq, hother⟩

end Names

namespace Account

variable {a : Account} {name : String}

theorem stopFollowing_startFollowing (h : name ∉ a.following) :
    (a.startFollowing name).stopFollowing name = a := by
  rw [startFollowing, stopFollowing, Names.erase_insert h]

theorem startFollowing_stopFollowing (h : name ∈ a.following) :
    (a.stopFollowing name).startFollowing name = a := by
  rw [stopFollowing, startFollowing, Names.insert_erase h]

theorem loseFollower_gainFollower (h : name ∉ a.followers) :
    (a.gainFollower name).loseFollower name = a := by
  rw [gainFollower, loseFollower, Names.erase_insert h]

theorem gainFollower_loseFollower (h : name ∈ a.followers) :
    (a.loseFollower name).gainFollower name = a := by
  rw [loseFollower, gainFollower, Names.insert_erase h]

end Account

namespace Directory

variable {d d' : Directory} {x y : String}

/-! ### Changes that are undone -/

/-- Of changes to two accounts it does not matter which comes first. -/
theorem update_update_comm (d : Directory) {id other : AccountId} (hne : id ≠ other)
    (f g : Account → Account) :
    (d.update id f).update other g = (d.update other g).update id f := by
  refine ext_account? (fun third => ?_) (by simp) (by simp) (by simp) (by simp)
  simp only [account?_update]
  by_cases hid : id = third
  · subst hid
    simp [hne.symm]
  · simp [hid]

theorem account?_update_left {id other : AccountId} (hne : id ≠ other) {f g : Account → Account}
    {a : Account} (ha : d.account? id = some a) :
    ((d.update id f).update other g).account? id = some (f a) := by
  rw [account?_update, if_neg hne.symm, account?_update, if_pos rfl, ha, Option.map_some]

theorem account?_update_right {id other : AccountId} (hne : id ≠ other) {f g : Account → Account}
    {b : Account} (hb : d.account? other = some b) :
    ((d.update id f).update other g).account? other = some (g b) := by
  rw [account?_update, if_pos rfl, account?_update, if_neg hne, hb, Option.map_some]

/-- Two accounts are changed and then changed back. -/
theorem update_undone {id other : AccountId} (hne : id ≠ other) {f f' g g' : Account → Account}
    (hf : ∀ a, d.account? id = some a → f' (f a) = a)
    (hg : ∀ b, d.account? other = some b → g' (g b) = b) :
    (((d.update id f).update other g).update id f').update other g' = d := by
  calc (((d.update id f).update other g).update id f').update other g'
      = (((d.update id f).update id f').update other g).update other g' := by
        rw [update_update_comm _ hne f' g]
    _ = (d.update id (f' ∘ f)).update other (g' ∘ g) := by rw [update_update, update_update]
    _ = d.update other (g' ∘ g) := by rw [update_eq_self (f := f' ∘ f) hf]
    _ = d := update_eq_self hg

/-! ### When an edge can be put in or taken out -/

/-- A user can follow the members that he does not follow and that have not blocked him, other
than himself. -/
theorem exists_follow?_iff (hd : d.Filed) (hx : x ∈ d.members) :
    (∃ d', d.follow? (.member x) y = some d') ↔
      y ∈ d.members ∧ y ≠ x ∧ y ∉ d.following x ∧ y ∉ d.blockedBy x := by
  obtain ⟨a, ha⟩ := mem_members_iff.mp hx
  rw [following, blockedBy, listed_of_member? ha, listed_of_member? ha]
  constructor
  · rintro ⟨d', h⟩
    obtain ⟨a', b, ha', hb, hfree, hnumber, hnew, -⟩ := follow?_eq_some_iff.mp h
    obtain rfl : a = a' := Option.some.inj (ha.symm.trans ha')
    rw [hd.name_eq hb] at hfree hnew
    refine ⟨mem_members_of_member? hb, ?_, hnew, hfree⟩
    rintro rfl
    exact hnumber ((hd.number_eq_iff ha hb).mpr rfl)
  · rintro ⟨hy, hne, hnew, hfree⟩
    obtain ⟨b, hb⟩ := mem_members_iff.mp hy
    have hnumber : a.number ≠ b.number := fun heq => hne ((hd.number_eq_iff ha hb).mp heq).symm
    rw [← hd.name_eq hb] at hnew hfree
    exact ⟨_, follow?_eq_some_iff.mpr ⟨a, b, ha, hb, hfree, hnumber, hnew, rfl⟩⟩

/-- A user can stop following whom he follows. -/
theorem exists_unfollow?_iff (hd : d.Filed) (hm : d.Mirrored) :
    (∃ d', d.unfollow? (.member x) y = some d') ↔ y ∈ d.following x := by
  constructor
  · rintro ⟨d', h⟩
    obtain ⟨a, b, ha, hb, -, hmem, -⟩ := unfollow?_eq_some_iff.mp h
    rwa [following, listed_of_member? ha, ← hd.name_eq hb]
  · intro hf
    have hne : x ≠ y := by
      rintro rfl
      exact hm.irrefl x hf
    obtain ⟨b, hb⟩ := mem_members_iff.mp (hm.mem_members (.inl hf))
    obtain ⟨a, ha⟩ := exists_member?_of_mem_listed hf
    have hnumber : a.number ≠ b.number := fun heq => hne ((hd.number_eq_iff ha hb).mp heq)
    rw [following, listed_of_member? ha, ← hd.name_eq hb] at hf
    exact ⟨_, unfollow?_eq_some_iff.mpr ⟨a, b, ha, hb, hnumber, hf, rfl⟩⟩

/-! ### The one undoes the other -/

/-- The edge from `x` to `y` is put in, or taken out. -/
def setFollow? (d : Directory) (direction : Bool) (x y : String) : Option Directory :=
  if direction then d.follow? (.member x) y else d.unfollow? (.member x) y

theorem sessions_setFollow? {direction : Bool} (h : d.setFollow? direction x y = some d') :
    d'.sessions = d.sessions := by
  cases direction with
  | true => exact sessions_follow? h
  | false => exact sessions_unfollow? h

theorem unfollow?_follow? (hd : d.Filed) (hm : d.Mirrored)
    (h : d.follow? (.member x) y = some d') : d'.unfollow? (.member x) y = some d := by
  obtain ⟨hxy, -, hnew, -⟩ := links_follow? hd h
  obtain ⟨a, b, ha, hb, -, hnumber, hfollowing, rfl⟩ := follow?_eq_some_iff.mp h
  have hne : AccountId.member x ≠ .member y := fun heq => hxy (AccountId.member.inj heq)
  -- as `x` did not follow `y`, it was not listed as a follower either
  have hfollowers : a.name ∉ b.followers := by
    rw [hm.mirror, followers, listed_of_member? hb] at hnew
    rwa [hd.name_eq ha]
  refine unfollow?_eq_some_iff.mpr ⟨a.startFollowing b.name, b.gainFollower a.name,
    account?_update_left hne ha, account?_update_right hne hb, hnumber,
    Std.ExtTreeSet.mem_insert_self, (update_undone hne ?_ ?_).symm⟩
  · intro a' ha'
    obtain rfl : a = a' := Option.some.inj (ha.symm.trans ha')
    exact Account.stopFollowing_startFollowing hfollowing
  · intro b' hb'
    obtain rfl : b = b' := Option.some.inj (hb.symm.trans hb')
    exact Account.loseFollower_gainFollower hfollowers

theorem follow?_unfollow? (hd : d.Filed) (hm : d.Mirrored) (hblocks : d.BlocksHold)
    (h : d.unfollow? (.member x) y = some d') : d'.follow? (.member x) y = some d := by
  have hf : y ∈ d.following x := (exists_unfollow?_iff hd hm).mp ⟨d', h⟩
  obtain ⟨a, b, ha, hb, hnumber, hfollowing, rfl⟩ := unfollow?_eq_some_iff.mp h
  have hxy : x ≠ y := fun heq => hnumber ((hd.number_eq_iff ha hb).mpr heq)
  have hne : AccountId.member x ≠ .member y := fun heq => hxy (AccountId.member.inj heq)
  -- whom `x` follows has not blocked `x`, and lists `x` as a follower
  have hblocked : d.blockedBy x = a.blockedBy := listed_of_member? ha
  have hfree : b.name ∉ a.blockedBy := by
    rw [← hblocked, hd.name_eq hb]
    exact fun hmem => hblocks x y hmem hf
  have hfollowers : a.name ∈ b.followers := by
    rw [hm.mirror, followers, listed_of_member? hb] at hf
    rwa [hd.name_eq ha]
  refine follow?_eq_some_iff.mpr ⟨a.stopFollowing b.name, b.loseFollower a.name,
    account?_update_left hne ha, account?_update_right hne hb, hfree, hnumber, ?_,
    (update_undone hne ?_ ?_).symm⟩
  · simp [Account.stopFollowing, Account.loseFollower]
  · intro a' ha'
    obtain rfl : a = a' := Option.some.inj (ha.symm.trans ha')
    exact Account.startFollowing_stopFollowing hfollowing
  · intro b' hb'
    obtain rfl : b = b' := Option.some.inj (hb.symm.trans hb')
    exact Account.gainFollower_loseFollower hfollowers

/-- **The one undoes the other.** -/
theorem setFollow?_setFollow? (hd : d.Filed) (hm : d.Mirrored) (hblocks : d.BlocksHold)
    {direction : Bool} (h : d.setFollow? direction x y = some d') :
    d'.setFollow? (!direction) x y = some d := by
  cases direction with
  | true => exact unfollow?_follow? hd hm h
  | false => exact follow?_unfollow? hd hm hblocks h

end Directory

/-! ### The commands -/

namespace Hub

variable {h : Hub} {c : ConnectionId} {actor target : String} {direction : Bool}

/-- A FOLLOW, in whichever direction, is what is done to the edge from its user. -/
theorem carriedOut_follow_iff (hh : h.Linked) (hd : h.service.directory.Coherent)
    (hc : c < h.links.size) (hactor : h.service.directory.userOn c = some actor) :
    h.carriedOut (.message c (.command (.follow direction target)))
        = some (c, .follow direction target) ↔
      ∃ d', h.service.directory.setFollow? direction actor target = some d' := by
  obtain ⟨⟨id, a⟩, hs, rfl⟩ := Option.map_eq_some_iff.mp hactor
  obtain ⟨rfl, -, -⟩ := hd.of_sessionOn hs
  rw [carriedOut_eq_some_iff hh, and_iff_right rfl, and_iff_right hc]
  constructor
  · rintro ⟨e, he⟩
    obtain ⟨id, a', d', hs', hd', -⟩ := executeFollow_eq_ok_iff.mp he
    cases hs.symm.trans hs'
    exact ⟨d', hd'⟩
  · rintro ⟨d', hd'⟩
    exact ⟨_, executeFollow_eq_ok_iff.mpr ⟨_, a, d', hs, hd', rfl⟩⟩

theorem directory_step_follow (hh : h.Linked) (hd : h.service.directory.Coherent)
    (hactor : h.service.directory.userOn c = some actor)
    (hx : h.carriedOut (.message c (.command (.follow direction target)))
      = some (c, .follow direction target)) {d' : Directory}
    (hd' : h.service.directory.setFollow? direction actor target = some d') :
    (h.step (.message c (.command (.follow direction target)))).service.directory = d' := by
  obtain ⟨⟨id, a⟩, hs, rfl⟩ := Option.map_eq_some_iff.mp hactor
  obtain ⟨rfl, -, -⟩ := hd.of_sessionOn hs
  obtain ⟨e, he, hstep⟩ := step_of_carriedOut hh hx
  obtain ⟨id, a', d'', hs', hd'', rfl⟩ := executeFollow_eq_ok_iff.mp he
  cases hs.symm.trans hs'
  rw [hstep]
  exact Option.some.inj (hd''.symm.trans hd')

end Hub

/-- **Following and no longer following undo each other.**  Take any run, any user who is logged
in after it and any name.  The user's FOLLOW of the name is accepted exactly if it is that of a
member, other than the user, whom the user does not follow and who has not had a BLOCK of the
user accepted before; to stop following is accepted exactly if the user follows the name.
Whichever of the two is accepted, the other one is accepted right after it, and the directory
is then what it was before both. -/
theorem follow_unfollow_inverse (today : Date) (filter : ContentFilter) (es : List Event)
    {c : ConnectionId} {actor : String}
    (hactor : ((Hub.start today filter).run es).service.directory.userOn c = some actor)
    (target : String) :
    let start := Hub.start today filter
    let h := start.run es
    let d := h.service.directory
    let e (direction : Bool) : Event := .message c (.command (.follow direction target))
    (h.carriedOut (e true) = some (c, .follow true target) ↔
      target ∈ d.members ∧ target ≠ actor ∧ target ∉ d.following actor ∧
        ¬ ∃ m ∈ start.moments (start.unfold es), m.1.Issues m.2 target (.block actor)) ∧
    (h.carriedOut (e false) = some (c, .follow false target) ↔ target ∈ d.following actor) ∧
    ∀ direction : Bool, h.carriedOut (e direction) = some (c, .follow direction target) →
      (h.step (e direction)).carriedOut (e !direction) = some (c, .follow (!direction) target) ∧
      ((h.step (e direction)).step (e !direction)).service.directory = d := by
  intro start h d e
  have hh : h.Linked := (Hub.Linked.start today filter).run es
  obtain ⟨⟨hd, hm⟩, hblocks⟩ : (d.Coherent ∧ d.Mirrored) ∧ d.BlocksHold :=
    Directory.BlocksHold.invariant.run ⟨⟨.empty today, .empty today⟩, .empty today⟩ es
  have hc : c < h.links.size := Hub.lt_size_of_userOn hactor
  obtain ⟨_, a, heq, ha, -⟩ := hd.member (hd.userOn_eq_some_iff.mp hactor)
  cases heq
  refine ⟨?_, ?_, fun direction hx => ?_⟩
  · refine (Hub.carriedOut_follow_iff hh hd hc hactor).trans
      ((Directory.exists_follow?_iff hd.toFiled (Directory.mem_members_of_member? ha)).trans ?_)
    have hblocked : target ∈ d.blockedBy actor ↔ _ :=
      Hub.mem_blockedBy_unfold today filter es actor target
    rw [hblocked]
  · exact (Hub.carriedOut_follow_iff hh hd hc hactor).trans
      (Directory.exists_unfollow?_iff hd.toFiled hm)
  · obtain ⟨d', hd'⟩ := (Hub.carriedOut_follow_iff hh hd hc hactor).mp hx
    have hback : d'.setFollow? (!direction) actor target = some d :=
      Directory.setFollow?_setFollow? hd.toFiled hm hblocks hd'
    have hstep : (h.step (e direction)).service.directory = d' :=
      Hub.directory_step_follow hh hd hactor hx hd'
    -- the user is still logged in on `c` when the second command arrives
    have hh' : (h.step (e direction)).Linked := hh.step _
    have hcoherent : (h.step (e direction)).service.directory.Coherent :=
      Directory.Coherent.invariant.step hd _
    have hactor' : (h.step (e direction)).service.directory.userOn c = some actor := by
      rw [hcoherent.userOn_eq_some_iff, hstep, Directory.sessions_setFollow? hd']
      exact hd.userOn_eq_some_iff.mp hactor
    have hc' : c < (h.step (e direction)).links.size := by rwa [Hub.size_links_message]
    rw [← hstep] at hback
    have hx' := (Hub.carriedOut_follow_iff hh' hcoherent hc' hactor').mpr ⟨d, hback⟩
    exact ⟨hx', Hub.directory_step_follow hh' hcoherent hactor' hx' hback⟩

/-- Alice follows Bob and is followed by him.  Carol has blocked her. -/
def secondThoughts : List Event :=
  [.connect, .connect, .connect,
    .message 0 (.command (.register "alice" "a" ⟨1, 1, 2000⟩)),
    .message 1 (.command (.register "bob" "b" ⟨1, 1, 2000⟩)),
    .message 2 (.command (.register "carol" "c" ⟨1, 1, 2000⟩)),
    .message 0 (.command (.login "alice" "a" 0x31)),
    .message 1 (.command (.login "bob" "b" 0x31)),
    .message 2 (.command (.login "carol" "c" 0x31)),
    .message 0 (.command (.follow true "bob")),
    .message 1 (.command (.follow true "alice")),
    .bytes 2 (Command.block "alice").encode]

/-- Alice can stop following Bob and then follow him again, after which all is as before.  She
cannot follow Carol, on account of the BLOCK. -/
theorem follow_unfollow_inverse_secondThoughts :
    let start := Hub.start ⟨2024, 1, 1⟩ {}
    let h := start.run secondThoughts
    let e (direction : Bool) : Event := .message 0 (.command (.follow direction "bob"))
    h.service.directory.userOn 0 = some "alice" ∧
      h.carriedOut (e false) = some (0, .follow false "bob") ∧
      (h.step (e false)).carriedOut (e true) = some (0, .follow true "bob") ∧
      ((h.step (e false)).step (e true)).service.directory = h.service.directory ∧
      ∃ m ∈ start.moments (start.unfold secondThoughts), m.1.Issues m.2 "carol" (.block "alice") := by
  have halice : ((Hub.start ⟨2024, 1, 1⟩ {}).run secondThoughts).service.directory.userOn 0
      = some "alice" := by decide +kernel
  obtain ⟨-, hleaves, hundone⟩ :=
    follow_unfollow_inverse ⟨2024, 1, 1⟩ {} secondThoughts halice "bob"
  have hx : ((Hub.start ⟨2024, 1, 1⟩ {}).run secondThoughts).carriedOut
        (.message 0 (.command (.follow false "bob"))) = some (0, .follow false "bob") :=
    hleaves.mpr (by decide +kernel)
  obtain ⟨hreturns, hsame⟩ := hundone false hx
  refine ⟨halice, hx, hreturns, hsame, ?_⟩
  -- nothing but a BLOCK can be the reason why Carol cannot be followed
  have hcarol := (follow_unfollow_inverse ⟨2024, 1, 1⟩ {} secondThoughts halice "carol").1
  by_contra hfree
  have hrefused : ((Hub.start ⟨2024, 1, 1⟩ {}).run secondThoughts).carriedOut
      (.message 0 (.command (.follow true "carol"))) ≠ some (0, .follow true "carol") := by
    decide +kernel
  exact hrefused (hcarol.mpr ⟨by decide +kernel, by decide, by decide +kernel, hfree⟩)

end Microblog
