import Microblog.Proofs.Intake
import Microblog.Proofs.Registration
import Microblog.Proofs.Rejections

/-!
# Asking for statistics

A STAT goes through the names that it lists twice.  First all of them are looked up, and one
that is nobody's is enough to refuse the whole; who has blocked whom makes no difference then.
After that those who have blocked the caller are left out, and there is an entry for each name
that is left, as often and in the order in which the names are listed.

A LOGSTAT lists nobody and finds the members by itself, sorted by number.  It tells the same as
a STAT of all members in the order of registration.

## Main results

* `Directory.lookup_eq_ok`, `Directory.mem_members_of_lookup` — looking up all names or none.
* `Hub.step_stat`, `Hub.step_stat_of_refused` — what becomes of a STAT.
* `Directory.Enrolls.getElem?_roll` — the members in the order of registration.
* `stat_all_or_nothing` — **a STAT is all or nothing on names, and then filtered.**
-/

namespace Microblog

/-! ### Looking up names -/

namespace Directory

variable {d : Directory} {names : List String}

/-- If all names are those of members, their accounts are found. -/
theorem lookup_eq_ok (h : ∀ name ∈ names, name ∈ d.members) :
    d.lookup names = .ok (names.filterMap d.member?) := by
  induction names with
  | nil => rfl
  | cons name names ih =>
    obtain ⟨a, ha⟩ := mem_members_iff.mp (h name List.mem_cons_self)
    rw [lookup_cons, ha, List.filterMap_cons_some ha,
      ih fun other hother => h other (List.mem_cons_of_mem name hother)]
    rfl

/-- Accounts are found for members only. -/
theorem mem_members_of_lookup {accounts : List Account} (h : d.lookup names = .ok accounts) :
    ∀ name ∈ names, name ∈ d.members := by
  induction names generalizing accounts with
  | nil => exact fun _ => nofun
  | cons name names ih =>
    rw [lookup_cons] at h
    split at h
    · cases h
    · next a ha =>
      cases hothers : d.lookup names with
      | error why =>
        rw [hothers] at h
        cases h
      | ok others =>
        rintro other hother
        rcases List.mem_cons.mp hother with rfl | hother
        · exact mem_members_of_member? ha
        · exact ih hothers other hother

/-- The members are listed at the places of their numbers. -/
theorem Enrolls.getElem?_roll {today : Date} {registrations : List Registration}
    (h : d.Enrolls today registrations) (hd : d.Filed) (k : Nat) (name : String) :
    d.roll[k]? = some name ↔ ∃ a, d.member? name = some a ∧ a.number = k := by
  constructor
  · intro hk
    rw [← Array.getElem?_toList, h.roll_eq, List.getElem?_map] at hk
    obtain ⟨r, hr, rfl⟩ := Option.map_eq_some_iff.mp hk
    obtain ⟨a, ha, hidentity⟩ := h.member hr
    exact ⟨a, ha, congrArg (fun key => key.2.2.1) hidentity⟩
  · rintro ⟨a, ha, rfl⟩
    exact hd.roll_eq ha

theorem Enrolls.mem_members_of_mem_roll {today : Date} {registrations : List Registration}
    (h : d.Enrolls today registrations) (hd : d.Filed) :
    ∀ name ∈ d.roll.toList, name ∈ d.members := by
  intro name hname
  obtain ⟨k, hk⟩ := List.getElem?_of_mem hname
  rw [Array.getElem?_toList, h.getElem?_roll hd] at hk
  obtain ⟨a, ha, -⟩ := hk
  exact mem_members_of_member? ha

end Directory

/-! ### What becomes of a STAT -/

/-- A STAT is refused to whoever is not logged in, and if it lists a name that is nobody's. -/
theorem exists_executeStat_eq_error {d : Directory} {c : ConnectionId} {ack : Ack}
    {names : List String} (h : d.userOn c = none ∨ ∃ name ∈ names, name ∉ d.members) :
    ∃ why, executeStat d c ack names = .error why := by
  cases hx : executeStat d c ack names with
  | error why => exact ⟨why, rfl⟩
  | ok e =>
    obtain ⟨id, caller, accounts, hs, hl, -⟩ := executeStat_eq_ok_iff.mp hx
    rcases h with hnone | ⟨name, hname, hnobody⟩
    · rw [Directory.userOn_of_sessionOn hs] at hnone
      cases hnone
    · exact absurd (Directory.mem_members_of_lookup hl name hname) hnobody

namespace Hub

variable {h : Hub} {c : ConnectionId} {names : List String}

theorem step_stat_of_refused (hh : h.Linked) (hc : c < h.links.size)
    (hrefused : h.service.directory.userOn c = none ∨
      ∃ name ∈ names, name ∉ h.service.directory.members) :
    h.step (.message c (.command (.stat names)))
      = { h with service := h.service.send c (.error .stat) } := by
  have hexecute : ∃ why, executeStat h.service.directory c (Command.stat names).ack names
      = .error why := exists_executeStat_eq_error hrefused
  obtain ⟨why, hwhy⟩ := hexecute
  exact step_of_refused hh (Array.getElem?_eq_getElem hc) hwhy

/-- A STAT of members tells the caller about those who have not blocked him. -/
theorem step_stat (hh : h.Linked) (hd : h.service.directory.Filed) (hc : c < h.links.size)
    {id : AccountId} {caller : Account}
    (hcaller : h.service.directory.sessionOn c = some (id, caller))
    (hnames : ∀ name ∈ names, name ∈ h.service.directory.members) :
    h.step (.message c (.command (.stat names)))
      = { h with
          service := h.service.send c (.ack ⟨.stat, .stats
            (((names.filter (· ∉ caller.blockedBy)).filterMap h.service.directory.member?).map
              h.service.directory.statsOf)⟩) } := by
  refine step_of_answer hh (Array.getElem?_eq_getElem hc) (Service.effect_of_ok
    (executeStat_eq_ok_iff.mpr ⟨id, caller, _, hcaller, Directory.lookup_eq_ok hnames, ?_⟩))
  rw [Directory.filterMap_member?_filter hd (· ∉ caller.blockedBy)]
  rfl

end Hub

/-- **A STAT is all or nothing on names, and then filtered.**  Take any run and any connection
that was opened in it.  A STAT from there, of whatever names, is answered and has no other
effect.  The answer is an ERROR exactly if nobody is logged in there or some name listed is
nobody's.  Otherwise it is an ACK with one entry for each name listed, in this order and as
often, but for the names of those who have blocked the caller.  The roll has all members at the
places of their numbers, and to ask for it is to ask for everybody: the LOGSTAT of the same
caller gets the same entries, and they are what comes of filtering the accounts and sorting them
by number, in whatever order they are found, while there are fewer of them than numbers. -/
theorem stat_all_or_nothing (today : Date) (filter : ContentFilter) (es : List Event)
    {c : ConnectionId} (hc : c < ((Hub.start today filter).run es).links.size) :
    let h := (Hub.start today filter).run es
    let d := h.service.directory
    let answers (command : Command) (answer : Reply) : Prop :=
      h.step (.message c (.command command)) = { h with service := h.service.send c answer }
    (∀ names : List String, ∃ answer : Reply, answers (.stat names) answer ∧
      (answer = .error .stat ↔ d.userOn c = none ∨ ∃ name ∈ names, name ∉ d.members) ∧
      ∀ caller, d.userOn c = some caller → (∀ name ∈ names, name ∈ d.members) →
        ∃ entries, answer = .ack ⟨.stat, .stats entries⟩ ∧
          List.Forall₂ (fun name entry => ∃ a, d.member? name = some a ∧ entry = d.statsOf a)
            (names.filter (· ∉ d.blockedBy caller)) entries) ∧
    (∀ (k : Nat) (name : String), d.roll[k]? = some name ↔
      ∃ a, d.member? name = some a ∧ a.number = k) ∧
    ∀ caller account, d.userOn c = some caller → d.member? caller = some account →
      ∃ entries : List Stats, answers (.stat d.roll.toList) (.ack ⟨.stat, .stats entries⟩) ∧
        answers .logStat (.ack ⟨.logStat, .stats entries⟩) ∧
        (d.roll.size < 2 ^ 64 → ∀ order : List Account, order.Nodup →
          (∀ a, a ∈ order ↔ ∃ name, d.member? name = some a) →
          entries = (Directory.listing order account).map d.statsOf) := by
  intro h d answers
  have hh : h.Linked := (Hub.Linked.start today filter).run es
  obtain ⟨⟨hd, -⟩, registrations, hroll⟩ : (d.Coherent ∧ d.Mirrored) ∧
      ∃ registrations, d.Enrolls today registrations :=
    (Directory.Enrolls.invariant today).run
      ⟨⟨.empty today, .empty today⟩, [], .empty today⟩ es
  refine ⟨fun names => ?_, hroll.getElem?_roll hd.toFiled, fun caller account huser haccount => ?_⟩
  · by_cases hrefused : d.userOn c = none ∨ ∃ name ∈ names, name ∉ d.members
    · refine ⟨.error .stat, Hub.step_stat_of_refused hh hc hrefused, iff_of_true rfl hrefused, ?_⟩
      intro caller huser hnames
      -- nobody can be both logged in and not, or a member and not
      rcases hrefused with hnone | ⟨name, hname, hnobody⟩
      · rw [huser] at hnone
        cases hnone
      · exact absurd (hnames name hname) hnobody
    · obtain ⟨hlogged, hnames⟩ := not_or.mp hrefused
      obtain ⟨user, huser⟩ := Option.ne_none_iff_exists'.mp hlogged
      obtain ⟨⟨id, a⟩, hs, rfl⟩ := Option.map_eq_some_iff.mp huser
      have hmembers : ∀ name ∈ names, name ∈ d.members := fun name hname =>
        not_not.mp fun hnobody => hnames ⟨name, hname, hnobody⟩
      have hblocked : d.blockedBy a.name = a.blockedBy :=
        Directory.listed_of_member? (hd.of_sessionOn hs).2.1
      refine ⟨_, Hub.step_stat hh hd.toFiled hc hs hmembers, iff_of_false nofun hrefused, ?_⟩
      intro caller hcaller _
      obtain rfl : a.name = caller := Option.some.inj (huser.symm.trans hcaller)
      rw [hblocked]
      exact ⟨_, rfl, Directory.forall₂_statsOf fun name hname =>
        hmembers name (List.mem_filter.mp hname).1⟩
  · obtain ⟨⟨id, a⟩, hs, rfl⟩ := Option.map_eq_some_iff.mp huser
    obtain rfl : a = account := Option.some.inj ((hd.of_sessionOn hs).2.1.symm.trans haccount)
    refine ⟨(d.visibleTo a).map d.statsOf,
      Hub.step_stat hh hd.toFiled hc hs (hroll.mem_members_of_mem_roll hd.toFiled),
      (Hub.step_logStat hh hc hs).2, fun hfew order hnodup horder => ?_⟩
    have hlength : registrations.length < 2 ^ 64 := by
      rwa [← Array.length_toList, hroll.roll_eq, List.length_map] at hfew
    rw [hroll.listing_eq hd.toFiled hlength hnodup horder]

/-- Carol, who registered first, has blocked Alice. -/
def census : List Event :=
  [.connect, .connect,
    .message 0 (.command (.register "carol" "c" ⟨1, 1, 2000⟩)),
    .message 0 (.command (.register "bob" "b" ⟨1, 1, 2000⟩)),
    .message 0 (.command (.register "alice" "a" ⟨1, 1, 2000⟩)),
    .message 0 (.command (.login "alice" "a" 0x31)),
    .message 1 (.command (.login "carol" "c" 0x31)),
    .bytes 1 (Command.block "alice").encode]

/-- Alice is told about Bob twice if she asks for him twice, and nothing about Carol.  To ask for
Carol together with a stranger is refused.  The roll begins with Carol, and Alice gets the same
for it as for a LOGSTAT, which sorts what it finds even if that is the other way round. -/
theorem stat_all_or_nothing_census :
    let h := (Hub.start ⟨2024, 1, 1⟩ {}).run census
    let d := h.service.directory
    let answers (command : Command) (answer : Reply) : Prop :=
      h.step (.message 0 (.command command)) = { h with service := h.service.send 0 answer }
    0 < h.links.size ∧ answers (.stat ["carol", "eve"]) (.error .stat) ∧
      (∃ entries, entries.length = 2 ∧
        answers (.stat ["bob", "carol", "bob"]) (.ack ⟨.stat, .stats entries⟩)) ∧
      d.roll[0]? = some "carol" ∧
      ∃ (alice : Account) (entries : List Stats), d.member? "alice" = some alice ∧
        answers (.stat d.roll.toList) (.ack ⟨.stat, .stats entries⟩) ∧
        answers .logStat (.ack ⟨.logStat, .stats entries⟩) ∧
        entries = (Directory.listing d.accounts.reverse alice).map d.statsOf := by
  have hc : 0 < ((Hub.start ⟨2024, 1, 1⟩ {}).run census).links.size := by decide +kernel
  have huser : ((Hub.start ⟨2024, 1, 1⟩ {}).run census).service.directory.userOn 0
      = some "alice" := by decide +kernel
  obtain ⟨hstat, hroll, hall⟩ := stat_all_or_nothing ⟨2024, 1, 1⟩ {} census hc
  refine ⟨hc, ?_, ?_, ?_, ?_⟩
  · obtain ⟨answer, hanswer, hrefused, -⟩ := hstat ["carol", "eve"]
    rwa [hrefused.mpr (.inr ⟨"eve", by decide, by decide +kernel⟩)] at hanswer
  · obtain ⟨answer, hanswer, -, hentries⟩ := hstat ["bob", "carol", "bob"]
    obtain ⟨entries, rfl, hforall⟩ := hentries "alice" huser (by decide +kernel)
    exact ⟨entries, hforall.length_eq.symm.trans (by decide +kernel), hanswer⟩
  · have hfirst : (((Hub.start ⟨2024, 1, 1⟩ {}).run census).service.directory.member? "carol").map
        Account.number = some 0 := by decide +kernel
    exact (hroll 0 "carol").mpr (Option.map_eq_some_iff.mp hfirst)
  · obtain ⟨alice, halice⟩ : ∃ a, ((Hub.start ⟨2024, 1, 1⟩ {}).run census).service.directory.member?
        "alice" = some a := Option.isSome_iff_exists.mp (by decide +kernel)
    have hfiled : ((Hub.start ⟨2024, 1, 1⟩ {}).run census).service.directory.Filed :=
      (Directory.Coherent.invariant.run (Directory.Coherent.empty _) census).toFiled
    obtain ⟨entries, hanswer, hlog, hsorted⟩ := hall "alice" alice huser halice
    refine ⟨alice, entries, halice, hanswer, hlog,
      hsorted (by decide +kernel) _ (by decide +kernel) fun a => ?_⟩
    rw [List.mem_reverse, Directory.mem_accounts hfiled]

end Microblog
