import Microblog.Proofs.CommandStream
import Microblog.Proofs.ReplyStream
import Microblog.Proofs.Sessions

/-!
# Commands that were read are answered legibly

U+0000 cannot get in from the wire.  The decoder ends a field at a zero byte and reads no
other bytes as U+0000, so the texts of the commands that it completes have none.  The
accounts and the history then hold nothing but such texts, and the filter adds only its
placeholder to them.  Hence the replies to such commands are legible: their texts have no
U+0000 either, and an acknowledgement is what its command calls for.

## Main definitions

* `Decoder.NulFree`, `Account.NulFree`, `Directory.NulFree` — no U+0000 in what is kept.

## Main results

* `Decoder.NulFree.step` — a decoder completes no command with U+0000.
* `Directory.NulFree.execute` — such commands bring none into the directory.
* `legible_execute` — and their replies are legible.
-/

namespace Microblog

open Text Wire

/-! ### The decoder -/

namespace Wire

/-- The texts of a frame that have been read. -/
def OpenFrame.texts : OpenFrame → List String
  | registerName | loginName | followName _ | postContent | pmRecipient | statNames
  | blockName => []
  | registerPassword username | loginPassword username | pmContent username => [username]
  | registerDate username password | loginCaptcha username password => [username, password]

/-- No text that has been read has U+0000, and the field under way has no zero byte. -/
def Decoder.NulFree : Decoder → Prop
  | field frame read => (∀ s ∈ frame.texts, Text.NulFree s) ∧ (0 : UInt8) ∉ read
  | idle | code _ | direction => True

/-- The names of a `STAT` field have characters of the field, at least one and no bar. -/
theorem mem_usernames {list name : String} (h : name ∈ usernames list) :
    name ≠ "" ∧ '|' ∉ name.toList ∧ name.toList ⊆ list.toList := by
  obtain ⟨piece, hpiece, rfl⟩ := List.mem_map.mp h
  obtain ⟨hmem, hne⟩ := List.mem_filter.mp hpiece
  obtain ⟨hsubset, hnotMem⟩ := mem_pieces hmem
  rw [String.toList_ofList]
  exact ⟨by simpa using hne, hnotMem, hsubset⟩

/-- The end of a field adds a text without U+0000. -/
theorem OpenFrame.nulFree_close {frame : OpenFrame} (hframe : ∀ s ∈ frame.texts, NulFree s)
    {bs : Bytes} (hbs : (0 : UInt8) ∉ bs) :
    match frame.close bs with
    | .inl next => ∀ s ∈ next.texts, NulFree s
    | .inr c => ∀ s ∈ c.texts, NulFree s := by
  have hdecode : NulFree (Utf8.decode bs) := Utf8.nulFree_decode hbs
  cases frame with
  | statNames => exact fun name hname hnul => hdecode ((mem_usernames hname).2.2 hnul)
  | _ => simp_all [close, texts, Command.texts]

/-- **A decoder completes no command with U+0000.** -/
theorem Decoder.NulFree.step {d : Decoder} (hd : d.NulFree) (b : UInt8) :
    (d.step b).1.NulFree ∧ ∀ c, (d.step b).2 = some c → ∀ s ∈ c.texts, Text.NulFree s := by
  have hnone : ∀ c : Command, none = some c → ∀ s ∈ c.texts, Text.NulFree s := by
    intro c hc
    cases hc
  cases d with
  | idle =>
    unfold Decoder.step
    dsimp only
    split <;> exact ⟨trivial, hnone⟩
  | code hi =>
    have hbegin : ∀ o, (begin o).1.NulFree ∧
        ∀ c, (begin o).2 = some c → ∀ s ∈ c.texts, Text.NulFree s := by
      rintro (_ | ⟨⟨⟩⟩) <;> simp [begin, Decoder.NulFree, OpenFrame.texts, Command.texts]
    exact hbegin (Opcode.ofCode? (ofBytes hi b))
  | direction => exact ⟨⟨List.forall_mem_nil _, List.not_mem_nil⟩, hnone⟩
  | field frame read =>
    obtain ⟨hframe, hread⟩ := hd
    by_cases hb : b = terminator
    · have hreverse : (0 : UInt8) ∉ read.reverse := by rwa [List.mem_reverse]
      have hclose := OpenFrame.nulFree_close hframe hreverse
      rw [hb, step_terminator, afterField]
      cases hc : frame.close read.reverse with
      | inl next =>
        rw [hc] at hclose
        exact ⟨⟨hclose, List.not_mem_nil⟩, hnone⟩
      | inr c =>
        rw [hc] at hclose
        refine ⟨trivial, fun c' hc' => ?_⟩
        cases hc'
        exact hclose
    · have hstep : (field frame read).step b = (field frame (b :: read), none) := if_neg hb
      rw [hstep]
      refine ⟨⟨hframe, ?_⟩, hnone⟩
      rw [List.mem_cons, not_or]
      exact ⟨Ne.symm hb, hread⟩

end Wire

/-! ### The directory -/

/-- The texts of an account that may go out one day, or be compared with texts that come
in. -/
def Account.words (a : Account) : String × String × List Notification :=
  (a.name, a.password, a.pending)

/-- No text of the account has U+0000. -/
structure Account.NulFree (a : Account) : Prop where
  /-- The name has none. -/
  name : Text.NulFree a.name
  /-- The password has none. -/
  password : Text.NulFree a.password
  /-- What waits has none. -/
  pending : ∀ n ∈ a.pending, n.NulFree

theorem Account.NulFree.of_words_eq {a a' : Account} (ha : a.NulFree) (h : a.words = a'.words) :
    a'.NulFree := by
  have hname : a.name = a'.name := congrArg (fun w => w.1) h
  have hpassword : a.password = a'.password := congrArg (fun w => w.2.1) h
  have hpending : a.pending = a'.pending := congrArg (fun w => w.2.2) h
  exact ⟨hname ▸ ha.name, hpassword ▸ ha.password, hpending ▸ ha.pending⟩

namespace Directory

/-- No text that the directory keeps has U+0000. -/
structure NulFree (d : Directory) : Prop where
  /-- The accounts have none. -/
  account : ∀ {name a}, d.member? name = some a → a.NulFree
  /-- The history has none. -/
  history : ∀ n ∈ d.history, n.NulFree

namespace NulFree

variable {d d' : Directory}

theorem empty (today : Date) : NulFree { today } := by
  constructor
  · intro name a ha
    simp [member?] at ha
  · intro n hn
    simp at hn

theorem of_keeps (hd : d.NulFree) (h : Keeps Account.words d d')
    (hhistory : d'.history = d.history) : d'.NulFree where
  account := by
    intro name a' ha'
    obtain ⟨a, ha, heq⟩ := h.member? ha'
    exact (hd.account ha).of_words_eq heq
  history := hhistory ▸ hd.history

/-- A change that puts no U+0000 into an account. -/
theorem update (hd : d.NulFree) (id : AccountId) {f : Account → Account}
    (hf : ∀ a, a.NulFree → (f a).NulFree) : (d.update id f).NulFree where
  account := by
    intro name a' ha'
    rw [member?_update] at ha'
    split at ha'
    · obtain ⟨a, ha, rfl⟩ := Option.map_eq_some_iff.mp ha'
      exact hf a (hd.account ha)
    · exact hd.account ha'
  history := history_update d id f ▸ hd.history

theorem register (hd : d.NulFree) {name password : String} {born : BirthDate}
    (hname : Text.NulFree name) (hpassword : Text.NulFree password)
    (h : d.register name password born = .ok d') : d'.NulFree where
  account := by
    intro other a ha
    rw [member?_register h] at ha
    split at ha
    · rw [← Option.some.inj ha]
      exact ⟨hname, hpassword, nofun⟩
    · exact hd.account ha
  history := by
    obtain ⟨-, rfl⟩ := register_eq_ok_iff.mp h
    exact hd.history

theorem login (hd : d.NulFree) (id : AccountId) (c : ConnectionId) : (d.login id c).NulFree := by
  have hupdate : (d.update id (Account.connect c)).NulFree :=
    hd.update id fun a ha => ⟨ha.name, ha.password, nofun⟩
  exact ⟨hupdate.account, hupdate.history⟩

theorem deliver (hd : d.NulFree) {n : Notification} (hn : n.NulFree)
    (accepts : ConnectionId → Bool) (id : AccountId) : (d.deliver accepts n id).2.NulFree := by
  unfold Directory.deliver
  split
  · exact hd
  · refine hd.update id fun a ha => ⟨ha.name, ha.password, fun m hm => ?_⟩
    rcases List.mem_append.mp hm with hm | hm
    · exact ha.pending m hm
    · rwa [List.mem_singleton.mp hm]

theorem deliverAll (hd : d.NulFree) {n : Notification} (hn : n.NulFree)
    (accepts : ConnectionId → Bool) (names : List String) :
    (d.deliverAll accepts n names).2.NulFree := by
  induction names generalizing d with
  | nil => exact hd
  | cons name names ih => exact ih (hd.deliver hn accepts (.member name))

theorem record (hd : d.NulFree) {n : Notification} (hn : n.NulFree) : (d.record n).NulFree where
  account := hd.account
  history := by
    intro m hm
    rcases Array.mem_push.mp hm with hm | rfl
    · exact hd.history m hm
    · exact hn

theorem logout (hd : d.NulFree) (c : ConnectionId) : (d.logout c).NulFree :=
  hd.of_keeps (keeps_logout (fun _ => rfl) d c) (history_logout d c)

/-- What the user of a connection says. -/
theorem notification (hd : d.NulFree) (hcoherent : d.Coherent) {c : ConnectionId} {id : AccountId}
    {author : Account} (h : d.sessionOn c = some (id, author)) (kind : NotificationKind)
    {content : String} (hcontent : Text.NulFree content) :
    Notification.NulFree ⟨kind, author.name, content⟩ :=
  ⟨(hd.account (hcoherent.of_sessionOn h).2.1).name, hcontent⟩

end NulFree

end Directory

/-! ### Commands -/

section

variable {d : Directory} {filter : ContentFilter} {accepts : ConnectionId → Bool}
  {c : ConnectionId} {command : Command} {e : Effect}

/-- **Commands without U+0000 bring none into the directory.** -/
theorem Directory.NulFree.execute (hd : d.NulFree) (hcoherent : d.Coherent)
    (hplaceholder : Text.NulFree filter.placeholder)
    (hcommand : ∀ s ∈ command.texts, Text.NulFree s)
    (h : command.execute d filter accepts c = .ok e) : e.directory.NulFree := by
  cases command with
  | register name password born =>
    obtain ⟨d', hd', rfl⟩ := executeRegister_eq_ok_iff.mp h
    have hname : Text.NulFree name := hcommand _ (by simp [Command.texts])
    have hpassword : Text.NulFree password := hcommand _ (by simp [Command.texts])
    exact hd.register hname hpassword hd'
  | login name password captcha =>
    obtain ⟨-, -, a, -, -, -, rfl⟩ := executeLogin_eq_ok_iff.mp h
    exact hd.login (.member name) c
  | post content =>
    obtain ⟨id, author, hauthor, rfl⟩ := executePost_eq_ok_iff.mp h
    have hcontent : Text.NulFree content := hcommand _ (by simp [Command.texts])
    have hn := hd.notification hcoherent hauthor .post hcontent
    exact (hd.deliverAll hn accepts _).record hn
  | pm name content =>
    obtain ⟨id, author, recipient, hauthor, -, -, rfl⟩ := executePm_eq_ok_iff.mp h
    have hcontent : Text.NulFree content := hcommand _ (by simp [Command.texts])
    have hn := hd.notification hcoherent hauthor .pm (nulFree_apply hplaceholder hcontent)
    exact (hd.deliver hn accepts _).record hn
  | _ =>
    exact hd.of_keeps (keeps_execute h (by simp) fun _ hf _ => by cases hf <;> rfl)
      (history_execute h (by simp) (by simp))

/-- The acknowledgement that a command calls for is of the kind that its opcode calls for. -/
theorem Command.legible_ack (hcommand : ∀ s ∈ command.texts, NulFree s) :
    command.ack.Legible := by
  cases command with
  | follow direction username =>
    exact hcommand username (by simp [texts])
  | _ => trivial

/-- **The replies to commands without U+0000 are legible.** -/
theorem legible_execute (hd : d.NulFree) (hcoherent : d.Coherent)
    (hplaceholder : NulFree filter.placeholder) (hcommand : ∀ s ∈ command.texts, NulFree s)
    (h : command.execute d filter accepts c = .ok e) : ∀ item ∈ e.outgoing, item.2.Legible := by
  intro item hitem
  cases Command.sends_of_mem_outgoing h hitem with
  | ack => exact Command.legible_ack hcommand
  | stats entries hbody =>
    -- only commands that ask for statistics get them
    cases command with
    | logStat => trivial
    | stat names => trivial
    | _ => cases hbody
  | waiting ha hn => exact (hd.account ha).pending _ hn
  | post reader hauthor =>
    have hcontent := hcommand _ List.mem_cons_self
    exact hd.notification hcoherent hauthor .post hcontent
  | pm reader hauthor =>
    have hcontent := hcommand _ (List.mem_cons_of_mem _ List.mem_cons_self)
    exact hd.notification hcoherent hauthor .pm (nulFree_apply hplaceholder hcontent)

end

end Microblog
