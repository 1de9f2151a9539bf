import Mathlib.Data.List.Forall2
import Microblog.Proofs.Blanks
import Microblog.Proofs.Slices
import Microblog.Proofs.WholeBuffer

/-!
# How a command may be typed

A user types the name of a command, in small and capital letters as they come, and the words
that belong to it.  In front of each word stands a space, and other blanks may stand behind
that space and at both ends of the line.  However the line is spaced, the client makes the
same command of it.  Where words are missing, it says how the command is to be typed.

What a line spells is said here without trimming or searching: the line is put together from
the words, the gaps and the blanks, and `Command.ofLine` has to find the words again.

## Main definitions

* `Keyword` — the name of a command, in small and capital letters.
* `Follows` — a text behind a gap, or no text at all.
* `Spells` — what stands behind the name of a command when it is typed.
* `IsTyped` — a line with the name of a command, what stands behind it, and blanks around both.
* `Opcode.wordsNeeded` — how many words a command needs.

## Main results

* `Command.ofLine_of_isTyped` — the name of a command leads to its words.
* `Spells.ofWords_eq`, `Command.ofWords_of_length_lt` — what the words give, and what they give
  where one is missing.
* `typed_lines_read` — **a line is read for its words, however it is spaced.**
-/

namespace Microblog

open Text

/-! ### What is typed -/

/-- The name of the command `o`, each letter small or capital. -/
def Keyword (o : Opcode) (k : List Char) : Prop :=
  List.Forall₂ (fun c capital => c = capital ∨ c = capital.toLower) k o.name.toList

instance (o : Opcode) (k : List Char) : Decidable (Keyword o k) :=
  inferInstanceAs (Decidable (List.Forall₂ _ k o.name.toList))

/-- The text `content` behind a gap.  Where there is no gap there is no text. -/
def Follows (args content : List Char) : Prop :=
  (args = [] ∧ content = []) ∨ ∃ gap, IsGap gap ∧ IsBare content ∧ args = gap ++ content

/-- What stands behind the name of a command when it is typed.  Behind the words of most
commands anything can follow; a post and a private message end with a text, and a list of
names has bars between them. -/
inductive Spells : List Char → Command → Prop where
  | register {cs tail username password date : List Char}
    (hwords : Words [username, password, date] cs) (htail : IsTail tail) :
    Spells (cs ++ tail) (.register (String.ofList username) (String.ofList password)
      (.ofField (Utf8.encode (String.ofList date))))
  | login {cs tail username password word : List Char} {captcha : UInt8}
    (hwords : Words [username, password, word] cs) (htail : IsTail tail)
    (hcaptcha : (Utf8.encode (String.ofList word)).head? = some captcha) :
    Spells (cs ++ tail) (.login (String.ofList username) (String.ofList password) captcha)
  | logout {tail : List Char} (htail : IsTail tail) : Spells tail .logout
  | follow {cs tail direction username : List Char}
    (hwords : Words [direction, username] cs) (htail : IsTail tail) :
    Spells (cs ++ tail) (.follow (direction = ['0']) (String.ofList username))
  | post {args content : List Char} (hcontent : Follows args content) :
    Spells args (.post (String.ofList content))
  | pm {cs args username content : List Char} (hwords : Words [username] cs)
    (hcontent : Follows args content) :
    Spells (cs ++ args) (.pm (String.ofList username) (String.ofList content))
  | logStat {tail : List Char} (htail : IsTail tail) : Spells tail .logStat
  | stat {args list : List Char} {names : List (List Char)} (hlist : Follows args list)
    (hne : list ≠ []) (hnames : List.Forall₂ Trims (list.splitOn '|') names) :
    Spells args (.stat ((names.filter (· ≠ [])).map String.ofList))
  | block {cs tail username : List Char} (hwords : Words [username] cs) (htail : IsTail tail) :
    Spells (cs ++ tail) (.block (String.ofList username))

/-- The line is the name of the command `o` and then `args`, with blanks around them. -/
def IsTyped (o : Opcode) (args : List Char) (line : String) : Prop :=
  ∃ before k after, Blanks before ∧ Keyword o k ∧ Blanks after ∧
    line = String.ofList (before ++ (k ++ args) ++ after)

/-- How many words a command needs.  The list of names counts as one, and a post can be
empty. -/
def Opcode.wordsNeeded : Opcode → Nat
  | register | login => 3
  | follow => 2
  | pm | stat | block => 1
  | _ => 0

/-- A command that needs words can be typed. -/
theorem Opcode.isServerOnly_eq_false_of_wordsNeeded {o : Opcode} (h : 0 < o.wordsNeeded) :
    o.isServerOnly = false := by
  cases o <;> first | rfl | cases h

/-! ### The name of the command -/

/-- The names of commands have capital letters only. -/
theorem Opcode.capital_of_mem_name (o : Opcode) :
    ∀ c ∈ o.name.toList, isBlank c = false ∧ isBlank c.toLower = false ∧
      c.toUpper = c ∧ c.toLower.toUpper = c := by
  have hall : (o.name.toList.all fun c => !isBlank c && (!isBlank c.toLower &&
      (c.toUpper == c && c.toLower.toUpper == c))) = true := by
    cases o <;> decide
  simpa using hall

/-- However its letters are typed, a name has no blanks and the same capitals. -/
theorem Keyword.letters {o : Opcode} {k : List Char} (h : Keyword o k) :
    (∀ c ∈ k, isBlank c = false) ∧ k.map Char.toUpper = o.name.toList := by
  have hcapitals := o.capital_of_mem_name
  rw [Keyword] at h
  generalize o.name.toList = name at h hcapitals
  induction h with
  | nil => exact ⟨List.forall_mem_nil _, rfl⟩
  | cons hletter _ ih =>
    obtain ⟨⟨hblank, hsmallBlank, hupper, hsmallUpper⟩, hrest⟩ :=
      List.forall_mem_cons.mp hcapitals
    obtain ⟨hblanks, hmap⟩ := ih hrest
    rw [List.forall_mem_cons, List.map_cons, hmap]
    obtain rfl | rfl := hletter
    · exact ⟨⟨hblank, hblanks⟩, by rw [hupper]⟩
    · exact ⟨⟨hsmallBlank, hblanks⟩, by rw [hsmallUpper]⟩

theorem Opcode.name_ne_empty (o : Opcode) : o.name ≠ "" := by cases o <;> decide

theorem Keyword.isWord {o : Opcode} {k : List Char} (h : Keyword o k) : IsWord k := by
  refine ⟨?_, h.letters.1⟩
  rintro rfl
  exact o.name_ne_empty (by simpa using h.letters.2.symm)

theorem Opcode.ofName?_name {o : Opcode} (h : o.isServerOnly = false) :
    Opcode.ofName? o.name = some o := by
  cases o <;> first | rfl | cases h

namespace Command

/-- **The name of a command leads to its words**, which are trimmed. -/
theorem ofLine_of_isTyped {o : Opcode} (ho : o.isServerOnly = false) {args : List Char}
    (hargs : IsTail args) {line : String} (h : IsTyped o args line) :
    ofLine line = ofWords o (trim args.tail) := by
  obtain ⟨before, k, after, hbefore, hk, hafter, rfl⟩ := h
  have hsplit : firstWord (trim (before ++ (k ++ args) ++ after)) = (k, trim args.tail) := by
    rw [trim_append_right hafter, firstWord_trim hbefore hk.isWord hargs]
  simp only [ofLine, String.toList_ofList, hsplit, hk.letters.2, String.ofList_toList,
    if_neg o.name_ne_empty, Opcode.ofName?_name ho]

end Command

/-! ### The words -/

theorem Follows.isTail {args content : List Char} (h : Follows args content) : IsTail args := by
  obtain ⟨rfl, -⟩ | ⟨_, ⟨blanks, -, rfl⟩, -, rfl⟩ := h
  · exact .inl rfl
  · exact .inr ⟨_, List.cons_append⟩

/-- A text is kept as it is. -/
theorem Follows.trim_tail {args content : List Char} (h : Follows args content) :
    trim args.tail = content := by
  obtain ⟨rfl, rfl⟩ | ⟨_, ⟨blanks, hblanks, rfl⟩, hbare, rfl⟩ := h
  · rfl
  · rw [List.cons_append, List.tail_cons, trim_append_left hblanks, hbare.trim_eq]

theorem Spells.isTail {args : List Char} {c : Command} (h : Spells args c) : IsTail args := by
  cases h with
  | register hwords htail | login hwords htail _ | follow hwords htail | block hwords htail =>
    exact hwords.isTail_append htail
  | logout htail | logStat htail => exact htail
  | post hcontent => exact hcontent.isTail
  | pm hwords hcontent => exact hwords.isTail_append hcontent.isTail
  | stat hlist _ _ => exact hlist.isTail

/-- The names of a list are what trimming leaves of its parts. -/
theorem listedNames_eq {list : List Char} {names : List (List Char)}
    (h : List.Forall₂ Trims (list.splitOn '|') names) :
    listedNames list = (names.filter (· ≠ [])).map String.ofList := by
  have hnames : (list.splitOn '|').map trim = names := by
    rw [← List.forall₂_eq_eq_eq, List.forall₂_map_left_iff]
    exact h.imp fun _ _ => trims_iff.mp
  rw [listedNames, pieces_eq_splitOn, hnames]
  congr 2
  funext name
  cases name <;> rfl

/-- **What the words give**: the command that they spell. -/
theorem Spells.ofWords_eq {args : List Char} {c : Command} (h : Spells args c) :
    Command.ofWords c.opcode (trim args.tail) = .ok c := by
  cases h with
  | register hwords htail =>
    obtain ⟨_, husername, hwords, hfirst⟩ := hwords.firstWord_cons htail
    obtain ⟨_, hpassword, hwords, hsecond⟩ := hwords.firstWord_cons htail
    obtain ⟨_, hdate, -, hthird⟩ := hwords.firstWord_cons htail
    simp [Command.opcode, Command.ofWords, hfirst, hsecond, hthird, husername, hpassword, hdate]
  | login hwords htail hcaptcha =>
    obtain ⟨_, husername, hwords, hfirst⟩ := hwords.firstWord_cons htail
    obtain ⟨_, hpassword, hwords, hsecond⟩ := hwords.firstWord_cons htail
    obtain ⟨_, hword, -, hthird⟩ := hwords.firstWord_cons htail
    simp [Command.opcode, Command.ofWords, hfirst, hsecond, hthird, husername, hpassword, hword,
      hcaptcha]
  | follow hwords htail =>
    obtain ⟨_, hdirection, hwords, hfirst⟩ := hwords.firstWord_cons htail
    obtain ⟨_, husername, -, hsecond⟩ := hwords.firstWord_cons htail
    simp [Command.opcode, Command.ofWords, hfirst, hsecond, hdirection, husername]
  | block hwords htail =>
    obtain ⟨_, husername, -, hfirst⟩ := hwords.firstWord_cons htail
    simp [Command.opcode, Command.ofWords, hfirst, husername]
  | pm hwords hcontent =>
    obtain ⟨_, husername, hend, hfirst⟩ := hwords.firstWord_cons hcontent.isTail
    cases hend
    rw [List.nil_append, hcontent.trim_tail] at hfirst
    simp [Command.opcode, Command.ofWords, hfirst, husername]
  | post hcontent => rw [hcontent.trim_tail]; rfl
  | stat hlist hne hnames =>
    rw [hlist.trim_tail, Command.opcode, Command.ofWords, if_neg hne, listedNames_eq hnames]
  | logout _ | logStat _ => rfl

namespace Command

/-- Where a word is missing nothing is made of the others. -/
theorem ofWords_of_length_lt {o : Opcode} {ws : List (List Char)} {cs : List Char}
    (hwords : Words ws cs) (hmissing : ws.length < o.wordsNeeded) :
    ofWords o (trim cs.tail) = .error (.missingWord o) := by
  obtain ⟨_, hsecondWords, hfirst⟩ := hwords.firstWord_eq
  obtain ⟨_, hthirdWords, hsecond⟩ := hsecondWords.firstWord_eq
  obtain ⟨_, -, hthird⟩ := hthirdWords.firstWord_eq
  -- where the words end too soon, the last that is needed is taken to be empty
  cases o with
  | register | login =>
    have hend : ws.tail.tail = [] :=
      List.eq_nil_of_length_eq_zero (by grind [Opcode.wordsNeeded])
    simp [ofWords, hfirst, hsecond, hthird, hend]
  | follow =>
    have hend : ws.tail = [] := List.eq_nil_of_length_eq_zero (by grind [Opcode.wordsNeeded])
    simp [ofWords, hfirst, hsecond, hend]
  | pm | block =>
    have hend : ws = [] := List.eq_nil_of_length_eq_zero (by grind [Opcode.wordsNeeded])
    simp [ofWords, hfirst, hend]
  | stat =>
    have hend : ws = [] := List.eq_nil_of_length_eq_zero (by grind [Opcode.wordsNeeded])
    subst hend
    cases hwords
    rfl
  | post | logout | logStat | notification | ack | error =>
    exact absurd hmissing (Nat.not_lt_zero _)

end Command

/-- **A line is read for its words, however it is spaced.**  Every step of the reading has a
result, on any line.  The command that a line spells is the command that the client makes of
it.  Where a word is missing the client says how the command is to be typed. -/
theorem typed_lines_read (line : String) :
    (Command.ofLine? line).run = some (Command.ofLine line) ∧
    (∀ args c, IsTyped c.opcode args line → Spells args c → Command.ofLine line = .ok c) ∧
    (∀ o ws args, IsTyped o args line → Words ws args → ws.length < o.wordsNeeded →
      Command.ofLine line = .error (.missingWord o) ∧
      (Error.protocol (.missingWord o)).message = "Protocol error: usage: " ++ o.form) := by
  refine ⟨Command.ofLine?_eq line, fun args c htyped hspells => ?_,
    fun o ws args htyped hwords hmissing => ⟨?_, rfl⟩⟩
  · rw [Command.ofLine_of_isTyped c.isServerOnly_opcode hspells.isTail htyped, hspells.ofWords_eq]
  · have ho : o.isServerOnly = false :=
      Opcode.isServerOnly_eq_false_of_wordsNeeded (Nat.zero_lt_of_lt hmissing)
    rw [Command.ofLine_of_isTyped ho hwords.isTail htyped,
      Command.ofWords_of_length_lt hwords hmissing]

/-- A captcha that begins with a letter of two bytes, blanks of many sorts and words too many;
a list with empty names; and a user who is missing. -/
theorem typed_lines_read_spaced :
    Command.ofLine "\u3000logIn \u00A0ada  né éa at once\t" = .ok (.login "ada" "né" 0xC3) ∧
      Command.ofLine "Stat  ada | |né\u3000|" = .ok (.stat ["ada", "né"]) ∧
      Command.ofLine " follow 0 " = .error (.missingWord .follow) := by
  have hlogin : Words [['a', 'd', 'a'], ['n', 'é'], ['é', 'a']] _ :=
    .cons ⟨['\u00A0'], by decide, rfl⟩ (by decide) <|
      .cons ⟨[' '], by decide, rfl⟩ (by decide) <| .cons ⟨[], by decide, rfl⟩ (by decide) .nil
  have hlist : Follows _ ['a', 'd', 'a', ' ', '|', ' ', '|', 'n', 'é', '\u3000', '|'] :=
    .inr ⟨_, ⟨[' '], by decide, rfl⟩, by decide, rfl⟩
  have hnames : List.Forall₂ Trims
      (['a', 'd', 'a', ' ', '|', ' ', '|', 'n', 'é', '\u3000', '|'].splitOn '|')
      [['a', 'd', 'a'], [], ['n', 'é'], []] := by decide
  have hfollow : Words [['0']] _ := .cons ⟨[], by decide, rfl⟩ (by decide) .nil
  refine ⟨?_, ?_, ?_⟩
  · exact (typed_lines_read _).2.1 _ _
      ⟨['\u3000'], ['l', 'o', 'g', 'I', 'n'], ['\t'], by decide, by decide, by decide, by decide⟩
      (.login hlogin (.inr ⟨['a', 't', ' ', 'o', 'n', 'c', 'e'], rfl⟩) rfl)
  · exact (typed_lines_read _).2.1 _ _
      ⟨[], ['S', 't', 'a', 't'], [], by decide, by decide, by decide, by decide⟩
      (.stat hlist (by decide) hnames)
  · exact ((typed_lines_read _).2.2 .follow _ _
      ⟨[' '], ['f', 'o', 'l', 'l', 'o', 'w'], [' '], by decide, by decide, by decide, by decide⟩
      hfollow (by decide)).1

end Microblog
