import Microblog.Account
import Microblog.Age
import Microblog.Error
import Microblog.Mention

/-!
# The directory

The directory knows all users.  It keeps the accounts of the members under their
names, the order in which they registered, the sessions by connection, and
everything that was ever posted or written.

An account is addressed by an `AccountId`.  A member's is the name.  An account may
also be held as a guest's, which no name leads to: it takes part in whatever it is
addressed for, but it is not registered.

Every operation that changes accounts goes through `Directory.update`, and every
look at one through `Directory.account?`; `account?_update` says how they agree.

## Main definitions

* `AccountId`, `Directory`, `Directory.account?`, `Directory.update`.
* `Directory.register` — a new member.
* `Directory.login`, `Directory.logout` — the beginning and the end of a session.
* `Directory.follow?`, `Directory.unfollow?`, `Directory.block` — the follow graph.
* `Directory.deliver`, `Directory.deliverAll` — notifications on their way.
* `Directory.visibleTo`, `Directory.statsOf` — what is published about users.
-/

namespace Microblog

/-- Which account. -/
inductive AccountId where
  /-- The account of the member with this name. -/
  | member (name : String)
  /-- The account of a guest, by its number in the order of being added. -/
  | guest (index : Nat)
  deriving DecidableEq, Repr, Inhabited

/-- All users, and what they said. -/
structure Directory where
  /-- The day on which ages are taken. -/
  today : Date
  /-- The accounts of the members, by name. -/
  members : Std.ExtTreeMap String Account := ∅
  /-- The names of the members in the order of registration. -/
  roll : Array String := #[]
  /-- The accounts of the guests. -/
  guests : Array Account := #[]
  /-- The sessions, by connection. -/
  sessions : Std.ExtTreeMap ConnectionId AccountId := ∅
  /-- Every accepted post and private message, the oldest first. -/
  history : Array Notification := #[]
  deriving DecidableEq, Inhabited

namespace Directory

/-! ### Accounts -/

/-- The account of a member. -/
def member? (d : Directory) (name : String) : Option Account := d.members[name]?

/-- The account that `id` addresses. -/
def account? (d : Directory) : AccountId → Option Account
  | .member name => d.member? name
  | .guest index => d.guests[index]?

/-- The directory with the account that `id` addresses changed by `f`. -/
def update (d : Directory) (id : AccountId) (f : Account → Account) : Directory :=
  match id with
  | .member name => { d with members := d.members.modify name f }
  | .guest index => { d with guests := d.guests.modify index f }

@[simp] theorem account?_member (d : Directory) (name : String) :
    d.account? (.member name) = d.member? name := rfl

/-- Only the account addressed is changed. -/
theorem account?_update (d : Directory) (id other : AccountId) (f : Account → Account) :
    (d.update id f).account? other
      = if id = other then (d.account? other).map f else d.account? other := by
  cases id <;> cases other <;>
    simp [account?, member?, update, Std.ExtTreeMap.getElem?_modify, Array.getElem?_modify]
  split <;> simp_all

@[simp] theorem today_update (d : Directory) (id : AccountId) (f : Account → Account) :
    (d.update id f).today = d.today := by cases id <;> rfl

@[simp] theorem roll_update (d : Directory) (id : AccountId) (f : Account → Account) :
    (d.update id f).roll = d.roll := by cases id <;> rfl

@[simp] theorem sessions_update (d : Directory) (id : AccountId) (f : Account → Account) :
    (d.update id f).sessions = d.sessions := by cases id <;> rfl

@[simp] theorem history_update (d : Directory) (id : AccountId) (f : Account → Account) :
    (d.update id f).history = d.history := by cases id <;> rfl

/-- How many members there are. -/
def memberCount (d : Directory) : Nat := d.members.size

/-- A new member.  The number is the count of those who registered before. -/
def register (d : Directory) (name password : String) (born : BirthDate) :
    Except Rejection Directory :=
  if name ∈ d.members then .error (.usernameTaken name)
  else
    let account : Account :=
      { name, password, number := d.roll.size, age := ageOn d.today born }
    .ok { d with members := d.members.insert name account, roll := d.roll.push name }

/-- A new guest, and how to address it. -/
def addGuest (d : Directory) (account : Account) : AccountId × Directory :=
  (.guest d.guests.size, { d with guests := d.guests.push account })

/-! ### Sessions -/

/-- The account that has a session on `c`, and how to address it. -/
def sessionOn (d : Directory) (c : ConnectionId) : Option (AccountId × Account) := do
  let id ← d.sessions[c]?
  let account ← d.account? id
  return (id, account)

/-- How many connections have a session. -/
def sessionCount (d : Directory) : Nat := d.sessions.size

/-- The notifications that wait for the user that `id` addresses. -/
def pending (d : Directory) (id : AccountId) : List Notification :=
  ((d.account? id).map Account.pending).getD []

/-- The account `id` gets a session on `c`. -/
def login (d : Directory) (id : AccountId) (c : ConnectionId) : Directory :=
  let d := d.update id (Account.connect c)
  { d with sessions := d.sessions.insert c id }

/-- The session on `c` ends, if there is one. -/
def logout (d : Directory) (c : ConnectionId) : Directory :=
  match d.sessions[c]? with
  | none => d
  | some id =>
    let d := d.update id Account.disconnect
    { d with sessions := d.sessions.erase c }

/-! ### The follow graph -/

/-- The account `follower` no longer follows the account `followed`; nothing if it
did not. -/
def unlink? (d : Directory) (follower followed : AccountId) : Option Directory := do
  let a ← d.account? follower
  let b ← d.account? followed
  if b.name ∈ a.following then
    some ((d.update follower (Account.stopFollowing b.name)).update followed
      (Account.loseFollower a.name))
  else none

/-- The user of `actor` follows the member `target`.  This is refused where there
is no such member, where the member is the user, has blocked the user, or is
followed already. -/
def follow? (d : Directory) (actor : AccountId) (target : String) : Option Directory := do
  let a ← d.account? actor
  let b ← d.member? target
  if b.name ∈ a.blockedBy ∨ a.number = b.number ∨ b.name ∈ a.following then none
  else
    some ((d.update actor (Account.startFollowing b.name)).update (.member target)
      (Account.gainFollower a.name))

/-- The user of `actor` stops following the member `target`.  This is refused
where the member is the user or is not followed. -/
def unfollow? (d : Directory) (actor : AccountId) (target : String) : Option Directory := do
  let a ← d.account? actor
  let b ← d.member? target
  if a.number = b.number then none else d.unlink? actor (.member target)

/-- The user of `blocker` blocks the user of `target`.  Neither follows the other
any more. -/
def block (d : Directory) (blocker target : AccountId) : Directory :=
  match d.account? blocker, d.account? target with
  | some a, some b =>
    let d := d.update target (Account.addBlock a.name)
    if a.number = b.number then d
    else
      let d := (d.unlink? blocker target).getD d
      (d.unlink? target blocker).getD d
  | _, _ => d

/-! ### Notifications -/

/-- A notification for the user that `id` addresses, given which connections take
anything: the connection that it is sent to, if any, and the directory after it. -/
def deliver (d : Directory) (accepts : ConnectionId → Bool) (n : Notification)
    (id : AccountId) : Option ConnectionId × Directory :=
  match (d.account? id).bind fun a => a.liveOn accepts with
  | some c => (some c, d)
  | none => (none, d.update id (Account.queue n))

/-- A notification for each of the members named: the connections that it is sent
to, in the order of the names, and the directory after it. -/
def deliverAll (d : Directory) (accepts : ConnectionId → Bool) (n : Notification) :
    List String → List ConnectionId × Directory
  | [] => ([], d)
  | name :: names =>
    let first := d.deliver accepts n (.member name)
    let others := first.2.deliverAll accepts n names
    (first.1.toList ++ others.1, others.2)

/-- Whom a post reaches: the followers of its author, and the members mentioned in
it that do not follow the author. -/
def audience (d : Directory) (author : Account) (content : String) : List String :=
  author.followers.toList ++
    (mentions content).filter fun name => name ∉ author.followers ∧ name ∈ d.members

/-- The directory with one notification more in its history. -/
def record (d : Directory) (n : Notification) : Directory :=
  { d with history := d.history.push n }

/-! ### Statistics -/

/-- How many posts a user wrote. -/
def postCount (d : Directory) (name : String) : Nat :=
  d.history.countP fun n => n.kind = .post ∧ n.author = name

/-- A count as it is published: at most 65535. -/
def published (n : Nat) : UInt16 := (min n 0xFFFF).toUInt16

/-- The statistics of a user. -/
def statsOf (d : Directory) (a : Account) : Stats where
  age := a.age
  posts := published (d.postCount a.name)
  followers := published a.followers.size
  following := published a.following.size

/-- The members that have not blocked a user, in the order of registration. -/
def visibleTo (d : Directory) (caller : Account) : List Account :=
  (d.roll.toList.filter fun name => name ∉ caller.blockedBy).filterMap d.member?

end Directory

end Microblog
