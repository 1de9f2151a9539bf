import Mathlib.Data.List.Forall2
import Mathlib.Data.List.Induction
import Microblog.Proofs.Authentication
import Microblog.Proofs.Confinement

/-!
# The order of registration

Users are numbered in the order of registration.  An account has its number from a counter that
only an accepted REGISTER advances, keeps it, and is listed by it.  So the users can be put in
their order without being kept in it: whatever comes out of the directory in whatever order is
filtered and sorted by number, and the result is the same as if the order had been kept.

The numbers are words of 64 bits where accounts are compared.  As long as there were fewer
registrations than there are such words, no two accounts have the same.

## Main definitions

* `Registration`, `Hub.registrations` — the REGISTERs of a run that were accepted.
* `Account.seq`, `Directory.listing` — accounts sorted by number.
* `Directory.Enrolls` — the members are those of some registrations.
* `Directory.Remembers` — whoever was a member is one, and is the same.

## Main results

* `Directory.Enrolls.run` — the members are those who registered in a run.
* `Hub.remembers_run` — whoever is a member stays one and does not change.
* `Directory.Enrolls.listing_eq` — it does not matter in which order accounts are found.
* `registration_unique_permanent_ordered` — **registration is unique, permanent and ordered.**
-/

namespace Microblog

/-- What somebody registers with. -/
structure Registration where
  /-- The name. -/
  name : String
  /-- The password. -/
  password : String
  /-- The date of birth. -/
  born : BirthDate
  deriving DecidableEq, Repr

namespace Hub

/-- The registration that an event carries out. -/
def registration? (h : Hub) (e : Event) : Option Registration :=
  match h.carriedOut e with
  | some (_, .register name password born) => some ⟨name, password, born⟩
  | _ => none

/-- The registrations of a run, in order. -/
def registrations (h : Hub) (es : List Event) : List Registration :=
  (h.moments es).filterMap fun m => m.1.registration? m.2

theorem registrations_concat (h : Hub) (es : List Event) (e : Event) :
    h.registrations (es ++ [e]) = h.registrations es ++ ((h.run es).registration? e).toList := by
  have hlast : [(h.run es, e)].filterMap (fun m => m.1.registration? m.2)
      = ((h.run es).registration? e).toList := by
    rw [List.filterMap_cons, List.filterMap_nil]
    cases (h.run es).registration? e <;> rfl
  rw [registrations, moments_append, List.filterMap_append, registrations, moments_cons,
    moments_nil, hlast]

end Hub

/-! ### One event -/

/-- Ages are always taken on the same day. -/
theorem Command.Scope.today_eq {command : Command} {filter : ContentFilter} {c : ConnectionId}
    {d d' : Directory} (h : command.Scope filter c d d') : d'.today = d.today := by
  cases command with
  | register name password born =>
    obtain ⟨-, -, -, heq⟩ := h
    rw [heq]
  | login name password captcha =>
    unfold Scope at h
    exact h.today_eq
  | logout => exact Directory.Releases.today_eq h
  | follow direction name =>
    obtain ⟨caller, -, halters⟩ := h
    exact halters.today_eq
  | post content =>
    obtain ⟨id, author, -, halters⟩ := h
    exact halters.today_eq
  | pm name content =>
    obtain ⟨author, -, halters⟩ := h
    exact halters.today_eq
  | logStat => rw [h]
  | stat names => rw [h]
  | block name =>
    obtain ⟨caller, -, halters⟩ := h
    exact halters.today_eq

/-- **What an event does to the members.**  It carries out a registration, or leaves the members
as they are. -/
theorem Hub.register_or_keeps {h : Hub} (hh : h.Linked) (hd : h.service.directory.Coherent)
    (hm : h.service.directory.Mirrored) {e : Event} (he : e.isOperation) :
    (h.step e).service.directory.today = h.service.directory.today ∧
      match h.registration? e with
      | some r =>
        h.service.directory.register r.name r.password r.born = .ok (h.step e).service.directory
      | none => h.service.directory.Keeps Account.identity (h.step e).service.directory := by
  have hturn := h.turn hh he
  rw [Hub.registration?]
  generalize h.carriedOut e = x at hturn ⊢
  generalize (h.step e).service = s at hturn ⊢
  cases hturn with
  | @carriedOut c command effect hc hx =>
    refine ⟨(command.scope_execute hd hm hx).today_eq, ?_⟩
    cases command with
    | register name password born =>
      obtain ⟨d', hd', rfl⟩ := executeRegister_eq_ok_iff.mp hx
      exact hd'
    | _ => exact Directory.keeps_execute hx nofun fun _ hf _ => by cases hf <;> rfl
  | ended c =>
    exact ⟨(Directory.releases_logout hd c).today_eq, Directory.keeps_logout (fun _ => rfl) _ c⟩
  | _ => exact ⟨rfl, .refl _ _⟩

/-! ### The members after a run -/

/-- The members of a directory are those of some registrations, numbered in their order, with
the age on a given day. -/
structure Directory.Enrolls (today : Date) (registrations : List Registration) (d : Directory) :
    Prop where
  /-- Ages are those on this day. -/
  today_eq : d.today = today
  /-- Nobody else is a member. -/
  roll_eq : d.roll.toList = registrations.map Registration.name
  /-- Each has an account, under the name and with the number that is next. -/
  member : ∀ {k : Nat} {r : Registration}, registrations[k]? = some r →
    ∃ a, d.member? r.name = some a ∧ a.identity = (r.name, r.password, k, ageOn today r.born)

namespace Directory.Enrolls

variable {today : Date} {registrations : List Registration} {d d' : Directory}

theorem empty (today : Date) : Enrolls today [] { today } where
  today_eq := rfl
  roll_eq := rfl
  member := by
    intro k r hr
    cases hr

theorem of_keeps (h : d.Enrolls today registrations) (htoday : d'.today = d.today)
    (hk : d.Keeps Account.identity d') : d'.Enrolls today registrations where
  today_eq := htoday.trans h.today_eq
  roll_eq := by rw [hk.roll_eq, h.roll_eq]
  member := by
    intro k r hr
    obtain ⟨a, ha, hidentity⟩ := h.member hr
    obtain ⟨a', ha', heq⟩ := hk.exists_member? ha
    exact ⟨a', ha', heq.trans hidentity⟩

theorem register (h : d.Enrolls today registrations) {r : Registration}
    (hr : d.register r.name r.password r.born = .ok d') :
    d'.Enrolls today (registrations ++ [r]) := by
  have hmember := member?_register hr
  obtain ⟨hnew, heq⟩ := register_eq_ok_iff.mp hr
  have hsize : d.roll.size = registrations.length := by
    rw [← Array.length_toList, h.roll_eq, List.length_map]
  refine ⟨?_, ?_, ?_⟩
  · rw [heq]
    exact h.today_eq
  · rw [heq, List.map_append, ← h.roll_eq]
    exact Array.toList_push
  · intro k r' hr'
    rw [List.getElem?_append] at hr'
    split at hr'
    · obtain ⟨a, ha, hidentity⟩ := h.member hr'
      -- the new name is nobody's so far
      have hne : r'.name ≠ r.name := fun hname => hnew (hname ▸ mem_members_of_member? ha)
      rw [hmember, if_neg hne]
      exact ⟨a, ha, hidentity⟩
    · next hk =>
      -- nothing comes behind the new one
      obtain ⟨hlast, rfl⟩ : k - registrations.length = 0 ∧ r = r' := by
        rw [List.getElem?_singleton] at hr'
        split at hr'
        · next hlast => exact ⟨hlast, Option.some.inj hr'⟩
        · cases hr'
      have hkey : k = d.roll.size := by omega
      refine ⟨_, hmember r.name ▸ if_pos rfl, ?_⟩
      rw [hkey, ← h.today_eq]
      rfl

/-- Whoever has registered is a member, and nobody else is. -/
theorem mem_members_iff (h : d.Enrolls today registrations) (hd : d.Filed) {name : String} :
    name ∈ d.members ↔ ∃ r ∈ registrations, r.name = name := by
  constructor
  · intro hname
    obtain ⟨a, ha⟩ := Directory.mem_members_iff.mp hname
    have hmem : name ∈ d.roll.toList := by
      rw [Array.mem_toList_iff]
      exact Array.mem_of_getElem? (hd.roll_eq ha)
    rw [h.roll_eq] at hmem
    exact List.mem_map.mp hmem
  · rintro ⟨r, hr, rfl⟩
    obtain ⟨k, hk⟩ := List.getElem?_of_mem hr
    obtain ⟨a, ha, -⟩ := h.member hk
    exact mem_members_of_member? ha

/-- **One event more.**  If it carries out a registration there is one member more. -/
theorem step {h : Hub} (henrolls : h.service.directory.Enrolls today registrations)
    (hh : h.Linked) (hd : h.service.directory.Coherent) (hm : h.service.directory.Mirrored)
    {e : Event} (he : ∀ c bs, e ≠ .bytes c bs) :
    (h.step e).service.directory.Enrolls today (registrations ++ (h.registration? e).toList) := by
  rcases Hub.isOperation_or_broadcast he with he | ⟨m, rfl⟩
  · obtain ⟨htoday, hchange⟩ := Hub.register_or_keeps hh hd hm he
    cases hr : h.registration? e with
    | none =>
      rw [hr] at hchange
      rw [Option.toList_none, List.append_nil]
      exact henrolls.of_keeps htoday hchange
    | some r =>
      rw [hr] at hchange
      exact henrolls.register hchange
  · have hnone : h.registration? (.broadcast m) = none := rfl
    rw [hnone, Option.toList_none, List.append_nil]
    exact henrolls

/-- **The members are those who registered in a run**, if nothing is left to read in it. -/
theorem run_of_ne_bytes (today : Date) (filter : ContentFilter) {es : List Event}
    (hes : ∀ e ∈ es, ∀ c bs, e ≠ .bytes c bs) :
    let start := Hub.start today filter
    (start.run es).service.directory.Enrolls today (start.registrations es) := by
  intro start
  induction es using List.reverseRecOn with
  | nil => exact .empty today
  | append_singleton es e ih =>
    have hes' : ∀ e ∈ es, ∀ c bs, e ≠ .bytes c bs := fun e' he' =>
      hes e' (List.mem_append_left _ he')
    have he : ∀ c bs, e ≠ .bytes c bs := hes e (List.mem_append_right _ List.mem_cons_self)
    have hh : (start.run es).Linked := (Hub.Linked.start today filter).run es
    obtain ⟨hd, hm⟩ : (start.run es).service.directory.Coherent ∧
        (start.run es).service.directory.Mirrored :=
      Directory.Mirrored.invariant.run ⟨.empty today, .empty today⟩ es
    rw [Hub.registrations_concat, Hub.run_append]
    exact (ih hes').step hh hd hm he

/-- **The members are those who registered in a run.** -/
theorem run (today : Date) (filter : ContentFilter) {es : List Event}
    (hes : ∀ e ∈ es, e.isOperation) :
    let start := Hub.start today filter
    (start.run es).service.directory.Enrolls today (start.registrations es) :=
  run_of_ne_bytes today filter fun e he => Event.ne_bytes_of_isOperation (hes e he)

/-- Whatever happens, the members are those of some registrations. -/
theorem invariant (today : Date) : Directory.Invariant fun d =>
    (d.Coherent ∧ d.Mirrored) ∧ ∃ registrations, d.Enrolls today registrations where
  execute := by
    rintro d filter accepts c command e ⟨⟨hd, hm⟩, registrations, h⟩ hx
    refine ⟨Mirrored.invariant.execute ⟨hd, hm⟩ hx, ?_⟩
    have htoday : e.directory.today = d.today := (command.scope_execute hd hm hx).today_eq
    cases command with
    | register name password born =>
      obtain ⟨d', hd', rfl⟩ := executeRegister_eq_ok_iff.mp hx
      exact ⟨_, h.register (r := ⟨name, password, born⟩) hd'⟩
    | _ =>
      have hk : d.Keeps Account.identity e.directory :=
        keeps_execute hx nofun fun _ hf _ => by cases hf <;> rfl
      exact ⟨registrations, h.of_keeps htoday hk⟩
  logout := by
    rintro d ⟨⟨hd, hm⟩, registrations, h⟩ c
    refine ⟨Mirrored.invariant.logout ⟨hd, hm⟩ c, registrations, ?_⟩
    exact h.of_keeps (releases_logout hd c).today_eq (keeps_logout (fun _ => rfl) d c)

end Directory.Enrolls

/-- Whoever was a member is one, and goes by the same name, password, number and age. -/
def Directory.Remembers (d₀ d : Directory) : Prop :=
  ∀ name a, d₀.member? name = some a → ∃ a', d.member? name = some a' ∧ a'.identity = a.identity

theorem Directory.Remembers.of_keeps {d₀ d d' : Directory} (h : d₀.Remembers d)
    (hk : d.Keeps Account.identity d') : d₀.Remembers d' := by
  intro name a ha
  obtain ⟨b, hb, hidentity⟩ := h name a ha
  obtain ⟨a', ha', heq⟩ := hk.exists_member? hb
  exact ⟨a', ha', heq.trans hidentity⟩

theorem Directory.Remembers.register {d₀ d d' : Directory} (h : d₀.Remembers d)
    {user password : String} {born : BirthDate} (hd' : d.register user password born = .ok d') :
    d₀.Remembers d' := by
  intro name a ha
  obtain ⟨b, hb, hidentity⟩ := h name a ha
  have hne : name ≠ user := by
    rintro rfl
    exact (register_eq_ok_iff.mp hd').1 (mem_members_of_member? hb)
  rw [member?_register hd', if_neg hne]
  exact ⟨b, hb, hidentity⟩

theorem Directory.Remembers.invariant (d₀ : Directory) : Directory.Invariant d₀.Remembers where
  execute := by
    intro d filter accepts c command e hd hx
    cases command with
    | register user password born =>
      obtain ⟨d', hd', rfl⟩ := executeRegister_eq_ok_iff.mp hx
      exact hd.register hd'
    | _ => exact hd.of_keeps (keeps_execute hx nofun fun _ hf _ => by cases hf <;> rfl)
  logout := fun {d} hd c => hd.of_keeps (keeps_logout (fun _ => rfl) d c)

/-- **Whoever is a member stays one and does not change.** -/
theorem Hub.remembers_run (h : Hub) (es : List Event) :
    h.service.directory.Remembers (h.run es).service.directory :=
  (Directory.Remembers.invariant h.service.directory).run (fun _ a ha => ⟨a, ha, rfl⟩) es

/-! ### Listing -/

/-- The number of an account as a word, by which accounts are sorted. -/
def Account.seq (a : Account) : UInt64 := a.number.toUInt64

theorem Account.toNat_seq {a : Account} (h : a.number < 2 ^ 64) : a.seq.toNat = a.number :=
  UInt64.toNat_ofNat_of_lt' h

namespace Directory

/-- Of some accounts those that have not blocked the caller, by number. -/
def listing (order : List Account) (caller : Account) : List Account :=
  (order.filter fun a => a.name ∉ caller.blockedBy).mergeSort fun a b => a.seq ≤ b.seq

theorem pairwise_listing (order : List Account) (caller : Account) :
    (listing order caller).Pairwise fun a b => a.seq ≤ b.seq := by
  have hsorted : (listing order caller).Pairwise fun a b => decide (a.seq ≤ b.seq) = true := by
    refine List.pairwise_mergeSort (fun a b c hab hbc => ?_) (fun a b => ?_) _
    · exact decide_eq_true (UInt64.le_trans (of_decide_eq_true hab) (of_decide_eq_true hbc))
    · rw [Bool.or_eq_true, decide_eq_true_iff, decide_eq_true_iff]
      exact UInt64.le_total a.seq b.seq
  exact hsorted.imp fun hab => of_decide_eq_true hab

/-- The accounts of all members, in the order of registration. -/
def accounts (d : Directory) : List Account := d.roll.toList.filterMap d.member?

variable {d : Directory}

theorem mem_accounts (hd : d.Filed) {a : Account} :
    a ∈ d.accounts ↔ ∃ name, d.member? name = some a := by
  rw [accounts, List.mem_filterMap]
  constructor
  · rintro ⟨name, -, ha⟩
    exact ⟨name, ha⟩
  · rintro ⟨name, ha⟩
    refine ⟨name, ?_, ha⟩
    rw [Array.mem_toList_iff]
    exact Array.mem_of_getElem? (hd.roll_eq ha)

/-- Names can be left out before the accounts are looked up, or their accounts after it. -/
theorem filterMap_member?_filter (hd : d.Filed) (p : String → Prop) [DecidablePred p]
    (names : List String) :
    (names.filter p).filterMap d.member?
      = (names.filterMap d.member?).filter fun a => p a.name := by
  rw [List.filterMap_filter, List.filter_filterMap]
  refine congrArg (List.filterMap · names) (funext fun name => ?_)
  cases ha : d.member? name with
  | none => simp
  | some a => simp [Option.filter, hd.name_eq ha]

theorem visibleTo_eq_filter (hd : d.Filed) (caller : Account) :
    d.visibleTo caller = d.accounts.filter fun a => a.name ∉ caller.blockedBy :=
  filterMap_member?_filter hd (· ∉ caller.blockedBy) d.roll.toList

/-- Where each account has the number that is next, they have all numbers from the first. -/
theorem map_number_filterMap {rs : List Registration} {n : Nat}
    (h : ∀ {k : Nat} {r : Registration}, rs[k]? = some r →
      ∃ a, d.member? r.name = some a ∧ a.number = n + k) :
    ((rs.map Registration.name).filterMap d.member?).map Account.number
      = List.range' n rs.length := by
  induction rs generalizing n with
  | nil => rfl
  | cons r rs ih =>
    obtain ⟨a, ha, hn⟩ := h (List.getElem?_cons_zero (l := rs) (a := r))
    have hrest : ((rs.map Registration.name).filterMap d.member?).map Account.number
        = List.range' (n + 1) rs.length := by
      refine ih fun {k r'} hr' => ?_
      obtain ⟨b, hb, hnext⟩ := h (k := k + 1) hr'
      exact ⟨b, hb, by omega⟩
    rw [List.map_cons, List.filterMap_cons_some ha, List.map_cons, List.length_cons,
      List.range'_succ, hn, Nat.add_zero, hrest]

/-- There is an entry for each of some members. -/
theorem forall₂_statsOf {names : List String} (h : ∀ name ∈ names, name ∈ d.members) :
    List.Forall₂ (fun name entry => ∃ a, d.member? name = some a ∧ entry = d.statsOf a) names
      ((names.filterMap d.member?).map d.statsOf) := by
  induction names with
  | nil => exact .nil
  | cons name names ih =>
    obtain ⟨a, ha⟩ := mem_members_iff.mp (h name List.mem_cons_self)
    rw [List.filterMap_cons_some ha, List.map_cons]
    exact .cons ⟨a, ha, rfl⟩ (ih fun other hother => h other (List.mem_cons_of_mem _ hother))

namespace Enrolls

variable {today : Date} {registrations : List Registration}

/-- The accounts are numbered from zero. -/
theorem map_number_accounts (h : d.Enrolls today registrations) :
    d.accounts.map Account.number = List.range registrations.length := by
  rw [accounts, h.roll_eq, List.range_eq_range']
  refine map_number_filterMap fun {k r} hr => ?_
  obtain ⟨a, ha, hidentity⟩ := h.member hr
  refine ⟨a, ha, ?_⟩
  rw [Nat.zero_add]
  exact congrArg (fun key => key.2.2.1) hidentity

theorem number_lt (h : d.Enrolls today registrations) {a : Account} (ha : a ∈ d.accounts) :
    a.number < registrations.length := by
  have hmem := List.mem_map_of_mem (f := Account.number) ha
  rw [h.map_number_accounts] at hmem
  exact List.mem_range.mp hmem

/-- The numbers fit into words, if there are few enough of them. -/
theorem toNat_seq (h : d.Enrolls today registrations) (hfew : registrations.length < 2 ^ 64)
    {a : Account} (ha : a ∈ d.accounts) : a.seq.toNat = a.number :=
  Account.toNat_seq (Nat.lt_trans (h.number_lt ha) hfew)

/-- Two accounts with one number are one account. -/
theorem eq_of_seq_eq (h : d.Enrolls today registrations) (hfew : registrations.length < 2 ^ 64)
    {a b : Account} (ha : a ∈ d.accounts) (hb : b ∈ d.accounts) (hseq : a.seq = b.seq) : a = b := by
  have hnumbers : (d.accounts.map Account.number).Nodup := by
    rw [h.map_number_accounts]
    exact List.nodup_range
  refine List.inj_on_of_nodup_map hnumbers ha hb ?_
  rw [← h.toNat_seq hfew ha, ← h.toNat_seq hfew hb, hseq]

theorem pairwise_accounts (h : d.Enrolls today registrations)
    (hfew : registrations.length < 2 ^ 64) : d.accounts.Pairwise fun a b => a.seq ≤ b.seq := by
  have hlt : d.accounts.Pairwise fun a b => a.number < b.number := by
    rw [← List.pairwise_map, h.map_number_accounts]
    exact List.pairwise_lt_range
  refine hlt.imp_of_mem fun {a b} ha hb hab => ?_
  rw [UInt64.le_iff_toNat_le, h.toNat_seq hfew ha, h.toNat_seq hfew hb]
  exact Nat.le_of_lt hab

/-- There is one account for each registration, in order, those of users who have blocked the
caller left out. -/
theorem forall₂_visibleTo (h : d.Enrolls today registrations) (caller : Account) :
    List.Forall₂ (fun r entry => ∃ a, d.member? r.name = some a ∧ entry = d.statsOf a)
      (registrations.filter fun r => r.name ∉ caller.blockedBy)
      ((d.visibleTo caller).map d.statsOf) := by
  rw [visibleTo, h.roll_eq, List.filter_map]
  refine List.forall₂_map_left_iff.mp (forall₂_statsOf fun name hname => ?_)
  obtain ⟨r, hr, rfl⟩ := List.mem_map.mp hname
  obtain ⟨k, hk⟩ := List.getElem?_of_mem (List.mem_filter.mp hr).1
  obtain ⟨a, ha, -⟩ := h.member hk
  exact mem_members_of_member? ha

/-- **It does not matter in which order accounts are found.**  Sorted by number they are in the
order of registration, if there are fewer of them than numbers. -/
theorem listing_eq (h : d.Enrolls today registrations) (hd : d.Filed)
    (hfew : registrations.length < 2 ^ 64) {order : List Account} (hnodup : order.Nodup)
    (hmem : ∀ a, a ∈ order ↔ ∃ name, d.member? name = some a) (caller : Account) :
    listing order caller = d.visibleTo caller := by
  have hfound : order.Perm d.accounts := by
    have haccounts : (d.accounts.map Account.number).Nodup := by
      rw [h.map_number_accounts]
      exact List.nodup_range
    refine (List.perm_ext_iff_of_nodup hnodup haccounts.of_map).mpr fun a => ?_
    rw [hmem, mem_accounts hd]
  have hperm : (listing order caller).Perm (d.visibleTo caller) := by
    rw [visibleTo_eq_filter hd]
    exact (List.mergeSort_perm _ _).trans (hfound.filter _)
  have hsorted : (d.visibleTo caller).Pairwise fun a b => a.seq ≤ b.seq := by
    rw [visibleTo_eq_filter hd]
    exact (h.pairwise_accounts hfew).filter _
  have hantisymm : ∀ a b, a ∈ listing order caller → b ∈ d.visibleTo caller →
      a.seq ≤ b.seq → b.seq ≤ a.seq → a = b := by
    intro a b ha hb hab hba
    have haccount : ∀ x ∈ d.visibleTo caller, x ∈ d.accounts := by
      intro x hx
      rw [visibleTo_eq_filter hd] at hx
      exact (List.mem_filter.mp hx).1
    exact h.eq_of_seq_eq hfew (haccount a (hperm.mem_iff.mp ha)) (haccount b hb)
      (UInt64.le_antisymm hab hba)
  exact List.Perm.eq_of_pairwise hantisymm (pairwise_listing order caller) hsorted hperm

end Enrolls

end Directory

namespace Hub

variable {h : Hub} {c : ConnectionId}

/-- A name can be registered if it is nobody's. -/
theorem carriedOut_register_iff (hh : h.Linked) (hc : c < h.links.size) {name password : String}
    {born : BirthDate} :
    h.carriedOut (.message c (.command (.register name password born)))
        = some (c, .register name password born) ↔ name ∉ h.service.directory.members := by
  rw [carriedOut_eq_some_iff hh, and_iff_right rfl, and_iff_right hc]
  constructor
  · rintro ⟨effect, hok⟩
    obtain ⟨d', hd', -⟩ := executeRegister_eq_ok_iff.mp hok
    exact (Directory.register_eq_ok_iff.mp hd').1
  · intro hnew
    exact ⟨_, executeRegister_eq_ok_iff.mpr ⟨_, Directory.register_eq_ok_iff.mpr ⟨hnew, rfl⟩, rfl⟩⟩

/-- Every user can ask for the statistics of everybody who has not blocked him. -/
theorem step_logStat (hh : h.Linked) (hc : c < h.links.size) {id : AccountId} {caller : Account}
    (hcaller : h.service.directory.sessionOn c = some (id, caller)) :
    h.carriedOut (.message c (.command .logStat)) = some (c, .logStat) ∧
      h.step (.message c (.command .logStat))
        = { h with
            service := h.service.send c (.ack ⟨.logStat, .stats
              ((h.service.directory.visibleTo caller).map h.service.directory.statsOf)⟩) } := by
  constructor
  · exact (carriedOut_eq_some_iff hh).mpr
      ⟨rfl, hc, _, executeLogStat_eq_ok_iff.mpr ⟨id, caller, hcaller, rfl⟩⟩
  · exact step_of_answer hh (Array.getElem?_eq_getElem hc)
      (Service.effect_of_ok (executeLogStat_eq_ok_iff.mpr ⟨id, caller, hcaller, rfl⟩))

end Hub

/-- **Registration is unique, permanent and ordered.**  Take any run of operations in which fewer
than 2⁶⁴ registrations were accepted.  A REGISTER from a connection that was opened is accepted
exactly if nobody has registered that name.  Whoever has registered is a member, with the
password given then, the age on that day, and as number the count of those who registered
before; nobody else is a member, and no two members have one number.  Whatever happens later,
nobody who is a member ceases to be one, or changes name, password, number or age.  And every
user gets an ACK for a LOGSTAT, with one entry for each member who has not blocked the user, in
the order of registration; it is the list that comes of sorting the accounts by number, in
whatever order they are found. -/
theorem registration_unique_permanent_ordered (today : Date) (filter : ContentFilter)
    {es : List Event} (hes : ∀ e ∈ es, e.isOperation)
    (hfew : ((Hub.start today filter).registrations es).length < 2 ^ 64) :
    let start := Hub.start today filter
    let h := start.run es
    let d := h.service.directory
    let registered := start.registrations es
    (∀ c < h.links.size, ∀ name password born,
      h.carriedOut (.message c (.command (.register name password born)))
          = some (c, .register name password born) ↔ ∀ r ∈ registered, r.name ≠ name) ∧
    (∀ k r, registered[k]? = some r → ∃ a, d.member? r.name = some a ∧ a.name = r.name ∧
      a.password = r.password ∧ a.seq.toNat = k ∧ a.age = ageOn today r.born) ∧
    (∀ name, name ∈ d.members ↔ ∃ r ∈ registered, r.name = name) ∧
    (∀ x y a b, d.member? x = some a → d.member? y = some b → a.seq = b.seq → x = y) ∧
    (∀ more, d.Remembers (h.run more).service.directory) ∧
    ∀ c id caller, d.sessionOn c = some (id, caller) →
      let e : Event := .message c (.command .logStat)
      ∃ entries : List Stats,
        h.carriedOut e = some (c, .logStat) ∧
        (h.step e).service = h.service.send c (.ack ⟨.logStat, .stats entries⟩) ∧
        List.Forall₂ (fun r entry => ∃ a, d.member? r.name = some a ∧ entry = d.statsOf a)
          (registered.filter fun r => r.name ∉ caller.blockedBy) entries ∧
        ∀ order : List Account, order.Nodup →
          (∀ a, a ∈ order ↔ ∃ name, d.member? name = some a) →
          (Directory.listing order caller).map d.statsOf = entries := by
  intro start h d registered
  have hh : h.Linked := (Hub.Linked.start today filter).run es
  have hd : d.Coherent := Directory.Coherent.invariant.run (Directory.Coherent.empty today) es
  have henrolls : d.Enrolls today registered := Directory.Enrolls.run today filter hes
  refine ⟨fun c hc name password born => ?_, fun k r hr => ?_,
    fun name => henrolls.mem_members_iff hd.toFiled, fun x y a b ha hb hseq => ?_,
    h.remembers_run, fun c id caller hcaller => ?_⟩
  · rw [Hub.carriedOut_register_iff hh hc, henrolls.mem_members_iff hd.toFiled]
    constructor
    · exact fun hnew r hr hname => hnew ⟨r, hr, hname⟩
    · rintro hnobody ⟨r, hr, hname⟩
      exact hnobody r hr hname
  · obtain ⟨a, ha, hidentity⟩ := henrolls.member hr
    have haccount : a ∈ d.accounts := (Directory.mem_accounts hd.toFiled).mpr ⟨r.name, ha⟩
    obtain ⟨hname, hpassword, hnumber, hage⟩ : a.name = r.name ∧ a.password = r.password ∧
        a.number = k ∧ a.age = ageOn today r.born := by
      simpa [Account.identity] using hidentity
    exact ⟨a, ha, hname, hpassword, (henrolls.toNat_seq hfew haccount).trans hnumber, hage⟩
  · have hsame := henrolls.eq_of_seq_eq hfew
      ((Directory.mem_accounts hd.toFiled).mpr ⟨x, ha⟩)
      ((Directory.mem_accounts hd.toFiled).mpr ⟨y, hb⟩) hseq
    rw [← hd.name_eq ha, ← hd.name_eq hb, hsame]
  · intro e
    have hopen : c < h.links.size :=
      Hub.lt_size_of_userOn (Directory.userOn_of_sessionOn hcaller)
    obtain ⟨hx, hstep⟩ := Hub.step_logStat hh hopen hcaller
    refine ⟨_, hx, congrArg Hub.service hstep, henrolls.forall₂_visibleTo caller,
      fun order hnodup hmem => ?_⟩
    rw [henrolls.listing_eq hd.toFiled hfew hnodup hmem]

/-- Carol, Alice and Bob register, and somebody else who asks for Carol's name is refused.  Alice
and Bob log in, and Bob blocks Alice. -/
def rollCall : List Event :=
  [.connect, .connect,
    .message 0 (.command (.register "carol" "c" ⟨1, 1, 2000⟩)),
    .message 0 (.command (.register "alice" "a" ⟨1, 1, 1990⟩)),
    .message 1 (.command (.register "carol" "x" ⟨1, 1, 1980⟩)),
    .message 1 (.command (.register "bob" "b" ⟨1, 1, 1980⟩)),
    .message 0 (.command (.login "alice" "a" 0x31)),
    .message 1 (.command (.login "bob" "b" 0x31)),
    .message 1 (.command (.block "alice"))]

/-- Bob is the third, whatever was refused in between, and nobody else can have his name.  Alice
is told of Carol and of herself, in this order. -/
theorem registration_unique_permanent_ordered_rollCall :
    let start := Hub.start ⟨2024, 1, 1⟩ {}
    let h := start.run rollCall
    let asked : Event := .message 0 (.command .logStat)
    (∀ e ∈ rollCall, e.isOperation) ∧ (start.registrations rollCall).length < 2 ^ 64 ∧
      start.registrations rollCall =
        [⟨"carol", "c", ⟨1, 1, 2000⟩⟩, ⟨"alice", "a", ⟨1, 1, 1990⟩⟩, ⟨"bob", "b", ⟨1, 1, 1980⟩⟩] ∧
      (∃ a, h.service.directory.member? "bob" = some a ∧ a.password = "b" ∧ a.seq.toNat = 2) ∧
      (∀ password born, h.carriedOut (.message 0 (.command (.register "bob" password born)))
        ≠ some (0, .register "bob" password born)) ∧
      h.service.switchboard.added (h.step asked).service.switchboard 0 =
        [.reply (.ack ⟨.logStat, .stats [⟨24, 0, 0, 0⟩, ⟨34, 0, 0, 0⟩]⟩)] := by
  dsimp only
  have hes : ∀ e ∈ rollCall, e.isOperation := by decide
  have hregistered : (Hub.start ⟨2024, 1, 1⟩ {}).registrations rollCall =
      [⟨"carol", "c", ⟨1, 1, 2000⟩⟩, ⟨"alice", "a", ⟨1, 1, 1990⟩⟩, ⟨"bob", "b", ⟨1, 1, 1980⟩⟩] := by
    decide +kernel
  have hfew : ((Hub.start ⟨2024, 1, 1⟩ {}).registrations rollCall).length < 2 ^ 64 := by
    rw [hregistered]
    decide
  obtain ⟨haccepted, hnumbers, -⟩ :=
    registration_unique_permanent_ordered ⟨2024, 1, 1⟩ {} hes hfew
  rw [hregistered] at haccepted hnumbers
  refine ⟨hes, hfew, hregistered, ?_, fun password born hx => ?_, by decide +kernel⟩
  · obtain ⟨a, ha, -, hpassword, hseq, -⟩ := hnumbers 2 ⟨"bob", "b", ⟨1, 1, 1980⟩⟩ rfl
    exact ⟨a, ha, hpassword, hseq⟩
  · have hopen : 0 < ((Hub.start ⟨2024, 1, 1⟩ {}).run rollCall).links.size := by decide +kernel
    exact (haccepted 0 hopen "bob" password born).mp hx ⟨"bob", "b", ⟨1, 1, 1980⟩⟩ (by decide) rfl

end Microblog
