import Microblog.Proofs.Dispatch
import Microblog.Proofs.Handlers
import Microblog.Proofs.Intake
import Microblog.Proofs.WholeBuffer

/-!
# The audience of a post

A post goes to the followers of its author and to the members that it mentions.  Both are
told here without the scanner and without lists: who follows by the follow graph, and who is
mentioned by how the post is spelled.

The audience is put together from the followers, in the order in which they happen to be
found, and from those mentioned, each of which is added unless it is there already.  In which
order the followers are found makes no difference to what the post does.

## Main definitions

* `Mentioned` — a name is mentioned in a text.
* `Directory.recipients` — the audience, from the followers in a given order.
* `Handler.postTo` — the handler of a POST, likewise.

## Main results

* `mem_mentions_iff` — the scanner finds exactly the names that are mentioned.
* `Directory.recipients_eq` — nobody is added who is there already.
* `post_reaches_audience` — **a post reaches its audience, each member of it once.**
-/

namespace Microblog

/-! ### Mentions -/

/-- Some piece of the text between blanks has the name, which is not empty, after its first
`@`. -/
def Mentioned (content name : String) : Prop :=
  name ≠ "" ∧ ∃ piece ∈ content.toList.splitOn ' ', ∃ front : List Char,
    '@' ∉ front ∧ piece = front ++ '@' :: name.toList

/-- What a piece mentions stands behind its first `@`. -/
theorem mention_eq_iff {piece name : List Char} (hname : name ≠ []) :
    mention piece = name ↔ ∃ front, '@' ∉ front ∧ piece = front ++ '@' :: name := by
  induction piece with
  | nil => simpa [mention] using hname.symm
  | cons c piece ih =>
    by_cases hc : c = '@'
    · subst hc
      have hmention : mention ('@' :: piece) = piece := by simp [mention]
      rw [hmention]
      constructor
      · rintro rfl
        exact ⟨[], List.not_mem_nil, rfl⟩
      · rintro ⟨front, hfront, heq⟩
        -- the first character is an `@`, so nothing can stand in front of it
        cases front with
        | nil => exact (List.cons.inj heq).2
        | cons c' front => exact absurd (List.mem_cons.mpr (.inl (List.cons.inj heq).1)) hfront
    · have hmention : mention (c :: piece) = mention piece := by simp [mention, hc]
      rw [hmention, ih]
      constructor
      · rintro ⟨front, hfront, rfl⟩
        exact ⟨c :: front, by simp [hfront, Ne.symm hc], rfl⟩
      · rintro ⟨front, hfront, heq⟩
        cases front with
        | nil => exact absurd (List.cons.inj heq).1 hc
        | cons c' front =>
          exact ⟨front, fun h => hfront (List.mem_cons_of_mem c' h), (List.cons.inj heq).2⟩

/-- **The names that are found are those that are mentioned.** -/
theorem mem_mentions_iff {content name : String} :
    name ∈ mentions content ↔ Mentioned content name := by
  rw [mentions, List.mem_eraseDups, Text.pieces_eq_splitOn, Mentioned]
  constructor
  · intro hmem
    obtain ⟨chars, hchars, rfl⟩ := List.mem_map.mp hmem
    obtain ⟨hfound, hne⟩ := List.mem_filter.mp hchars
    have hchars : chars ≠ [] := by simpa using hne
    obtain ⟨piece, hpiece, hmention⟩ := List.mem_map.mp hfound
    obtain ⟨front, hfront, heq⟩ := (mention_eq_iff hchars).mp hmention
    refine ⟨?_, piece, hpiece, front, hfront, ?_⟩
    · rwa [Ne, ← String.toList_eq_nil_iff, String.toList_ofList]
    · rwa [String.toList_ofList]
  · rintro ⟨hname, piece, hpiece, front, hfront, heq⟩
    have hchars : name.toList ≠ [] := by rwa [Ne, String.toList_eq_nil_iff]
    have hmention : mention piece = name.toList := (mention_eq_iff hchars).mpr ⟨front, hfront, heq⟩
    refine List.mem_map.mpr ⟨name.toList, List.mem_filter.mpr ⟨?_, by simpa using hchars⟩, ?_⟩
    · exact List.mem_map.mpr ⟨piece, hpiece, hmention⟩
    · exact String.ofList_toList

instance (content name : String) : Decidable (Mentioned content name) :=
  decidable_of_iff _ mem_mentions_iff

/-! ### Recipients, one after another -/

namespace Directory

/-- Whom a post reaches, from the followers of its author.  One after another the names that
it mentions are added, if they are those of members and not there already. -/
def recipients (d : Directory) (followers : List String) (content : String) : List String :=
  (mentions content).foldl
    (fun names name => if name ∉ names ∧ name ∈ d.members then names ++ [name] else names) followers

/-- A name that is added is looked for in the whole list, but only the names that were there at
first can be in its way, since none comes twice. -/
theorem foldl_recipients (d : Directory) {names : List String} (hnames : names.Nodup)
    (found : List String) :
    names.foldl (fun names name =>
        if name ∉ names ∧ name ∈ d.members then names ++ [name] else names) found
      = found ++ names.filter fun name => name ∉ found ∧ name ∈ d.members := by
  induction names generalizing found with
  | nil => simp
  | cons name names ih =>
    obtain ⟨hname, hnames⟩ := List.nodup_cons.mp hnames
    rw [List.foldl_cons]
    by_cases hadded : name ∉ found ∧ name ∈ d.members
    · have hothers : (names.filter fun other => other ∉ found ++ [name] ∧ other ∈ d.members)
          = names.filter fun other => other ∉ found ∧ other ∈ d.members := by
        refine List.filter_congr fun other hother => ?_
        have hne : other ≠ name := ne_of_mem_of_not_mem hother hname
        simp [hne]
      rw [if_pos hadded, ih hnames, List.filter_cons_of_pos (by simpa using hadded), hothers,
        List.append_assoc, List.singleton_append]
    · rw [if_neg hadded, ih hnames, List.filter_cons_of_neg (by simpa using hadded)]

/-- **Nobody is added who is there already.** -/
theorem recipients_eq (d : Directory) (followers : List String) (content : String) :
    d.recipients followers content
      = followers ++ (mentions content).filter fun name => name ∉ followers ∧ name ∈ d.members :=
  d.foldl_recipients (nodup_mentions content) followers

/-- The followers may be found in any order. -/
theorem recipients_perm (d : Directory) {author : Account} {order : List String}
    (hnodup : order.Nodup) (horder : ∀ user, user ∈ order ↔ user ∈ author.followers)
    (content : String) : (d.recipients order content).Perm (d.audience author content) := by
  have hperm : order.Perm author.followers.toList := by
    refine (List.perm_ext_iff_of_nodup hnodup (nodup_toList_names _)).mpr fun user => ?_
    rw [horder, Std.ExtTreeSet.mem_toList]
  rw [recipients_eq, audience]
  simp only [horder]
  exact hperm.append_right _

end Directory

/-! ### The followers in any order -/

namespace Handler

/-- A post reaches its audience and enters the history.  The followers of its author are found
in the order `followers`. -/
def postTo (c : ConnectionId) (ack : Ack) (followers : List String) (content : String) :
    Handler Unit := do
  let (_, author) ← currentUser c
  let n : Notification := ⟨.post, author.name, content⟩
  deliverAll n ((← directory).recipients followers content)
  change fun d => d.record n
  discard <| send c (.ack ack)

theorem postTo_eq (s : Desk) {c : ConnectionId} {ack : Ack} {id : AccountId} {author : Account}
    (h : s.service.directory.sessionOn c = some (id, author)) (followers : List String)
    (content : String) :
    postTo c ack followers content s
      = s.outcome c (.ok (s.service.directory.dispatch s.service.switchboard.accepts c ack
          ⟨.post, author.name, content⟩
          (s.service.directory.recipients followers content))) := by
  simp only [postTo, bind_apply, currentUser_apply, directory_apply, deliverAll_apply,
    change_apply, discard_send_apply, h]
  rw [Directory.dispatch, Desk.outcome_after, Desk.change_after, Desk.send_after]

end Handler

/-! ### The audience -/

namespace Directory

variable {d : Directory} {author : Account}

/-- The audience of a post has each follower of its author and each member that is mentioned
once, and nobody else. -/
theorem count_audience_eq (hm : d.Mirrored) (ha : d.member? author.name = some author)
    (content : String) :
    (d.audience author content).count = fun user =>
      if user ∈ d.members ∧ (author.name ∈ d.following user ∨ Mentioned content user) then 1
      else 0 := by
  funext user
  have hmember : author.name ∈ d.following user → user ∈ d.members := fun hf =>
    hm.mem_members (.inr ((hm.mirror _ _).mp hf))
  simp only [count_audience hm ha, mem_mentions_iff]
  by_cases hu : user ∈ d.members
  · simp [hu]
  · have hnot : author.name ∉ d.following user := fun hf => hu (hmember hf)
    simp [hu, hnot]

end Directory

/-- **A post reaches its audience, each member of it once.**  Take any run, any user who is
logged in after it and any text.  A POST of it is carried out.  One copy of the notification is
for each member that follows the author or whose name some piece of the text between blanks has
after its first `@`, and none for anybody else, so that the author gets one exactly if the text
mentions him.  Exactly this notification enters the history, and nothing else changes in the
directory.  And the handler that goes through the followers of the author in any other order
leaves the very same service behind. -/
theorem post_reaches_audience (today : Date) (filter : ContentFilter) (es : List Event)
    {c : ConnectionId} {author : String}
    (hauthor : ((Hub.start today filter).run es).service.directory.userOn c = some author)
    (content : String) :
    let h := (Hub.start today filter).run es
    let d := h.service.directory
    let e : Event := .message c (.command (.post content))
    h.carriedOut e = some (c, .post content) ∧
    h.service.Dispatches (h.step e).service ⟨.post, author, content⟩
      (fun user =>
        if user ∈ d.members ∧ (author ∈ d.following user ∨ Mentioned content user) then 1 else 0)
      c ⟨.post, .empty⟩ ∧
    (author ∈ d.members ∧ (author ∈ d.following author ∨ Mentioned content author) ↔
      Mentioned content author) ∧
    ∀ followers : List String, followers.Nodup →
      (∀ user, user ∈ followers ↔ user ∈ d.followers author) →
      Handler.postTo c ⟨.post, .empty⟩ followers content { service := h.service }
        = .ok () { service := (h.step e).service } := by
  intro h d e
  have hh : h.Linked := (Hub.Linked.start today filter).run es
  obtain ⟨hd, hm⟩ : d.Coherent ∧ d.Mirrored :=
    Directory.Mirrored.invariant.run ⟨.empty today, .empty today⟩ es
  have hc : c < h.links.size := Hub.lt_size_of_userOn hauthor
  obtain ⟨⟨id, a⟩, hsession, rfl⟩ := Option.map_eq_some_iff.mp hauthor
  obtain ⟨-, ha, -⟩ := hd.of_sessionOn hsession
  have hok : (Command.post content).execute d h.service.filter h.service.switchboard.accepts c
      = .ok _ := executePost_eq_dispatch hsession content
  obtain ⟨hx, hstep⟩ := Hub.carriedOut_of_ok hh hc hok
  refine ⟨hx, ?_, ?_, fun followers hnodup hfollowers => ?_⟩
  · rw [hstep, ← d.count_audience_eq hm ha]
    exact h.service.dispatches_apply c _ _ hd _
  · have hself : a.name ∉ d.following a.name := hm.irrefl _
    simp [hself, Directory.mem_members_of_member? ha]
  · have hperm : (d.recipients followers content).Perm (d.audience a content) := by
      refine d.recipients_perm hnodup (fun user => ?_) content
      rw [hfollowers, Directory.followers, Directory.listed_of_member? ha]
    rw [Handler.postTo_eq _ hsession, hstep, Desk.outcome]
    exact congrArg (fun service => EStateM.Result.ok () (Desk.mk service false))
      (h.service.apply_dispatch_of_perm c _ _ hperm)

/-- Bob and Carol follow Alice, and Dave does not.  Carol has left. -/
def premiere : List Event :=
  [.connect, .connect, .connect, .connect,
    .message 0 (.command (.register "alice" "a" ⟨1, 1, 2000⟩)),
    .message 1 (.command (.register "bob" "b" ⟨1, 1, 2000⟩)),
    .message 2 (.command (.register "carol" "c" ⟨1, 1, 2000⟩)),
    .message 3 (.command (.register "dave" "d" ⟨1, 1, 2000⟩)),
    .message 0 (.command (.login "alice" "a" 0x31)),
    .message 1 (.command (.login "bob" "b" 0x31)),
    .message 2 (.command (.login "carol" "c" 0x31)),
    .message 3 (.command (.login "dave" "d" 0x31)),
    .message 1 (.command (.follow true "alice")),
    .message 2 (.command (.follow true "alice")),
    .disconnect 2]

/-- Bob and Dave each get the post once, though it mentions them twice and Bob follows Alice
besides; one copy waits for Carol, and Alice, who is mentioned too, gets one before the
acknowledgement.  If Carol is found before Bob it is all the same. -/
theorem post_reaches_audience_premiere :
    let h := (Hub.start ⟨2024, 1, 1⟩ {}).run premiere
    let content := "@dave @bob,bob @bob see@dave me@alice @eve @"
    let e : Event := .message 0 (.command (.post content))
    let n : Notification := ⟨.post, "alice", content⟩
    let added := h.service.switchboard.added (h.step e).service.switchboard
    h.service.directory.userOn 0 = some "alice" ∧ h.carriedOut e = some (0, .post content) ∧
      added 0 = [.reply (.notification n), .reply (.ack ⟨.post, .empty⟩)] ∧
      added 1 = [.reply (.notification n)] ∧ added 3 = [.reply (.notification n)] ∧
      (h.step e).service.directory.pending (.member "carol") = [n] ∧
      Handler.postTo 0 ⟨.post, .empty⟩ ["carol", "bob"] content { service := h.service }
        = .ok () { service := (h.step e).service } := by
  intro h content e n added
  have huser : h.service.directory.userOn 0 = some "alice" := by decide +kernel
  obtain ⟨hx, hdispatches, -, horder⟩ :=
    post_reaches_audience ⟨2024, 1, 1⟩ {} premiere huser content
  have hfollowers : (h.service.directory.followers "alice").toList = ["bob", "carol"] := by
    decide +kernel
  refine ⟨huser, hx, ?_, ?_, ?_, ?_, horder ["carol", "bob"] (by decide) fun user => ?_⟩
  · exact (hdispatches.added 0).trans (by decide +kernel)
  · exact (hdispatches.added 1).trans (by decide +kernel)
  · exact (hdispatches.added 3).trans (by decide +kernel)
  · rw [Directory.pending, Directory.account?_member, hdispatches.member? "carol"]
    decide +kernel
  · rw [← Std.ExtTreeSet.mem_toList, hfollowers]
    simp [or_comm]

end Microblog
