import Mathlib.Data.List.TakeWhile
import Microblog.CommandLine
import Microblog.Proofs.CommandStream

/-!
# What is typed and what is read

A client makes a command of the line that its user typed, writes it as a frame, and the
server reads the frame.  The words of a line are not checked: a direction, a captcha, a date
or a list of names may be anything.  Yet what the words become can be written and read back,
with one exception.  A date in which other characters stand for digits may have a day, a
month or a year that needs more places than there are, and then another date is read.

## Main definitions

* `Command.reread` — the command that is read where a command was written.
* `ReadAsTyped` — the server reads the command that the client made of a line.

## Main results

* `Command.nulFree_of_ofLine`, `Command.tractable_of_ofLine` — what a line can give.
* `readAsTyped_iff` — **what is typed is what is read, up to dates that do not fit.**
-/

namespace Microblog

open Text Wire

/-! ### The words of a line -/

section

variable {cs : List Char}

theorem trimStart_subset : trimStart cs ⊆ cs := (List.dropWhile_sublist _).subset

theorem trim_subset : trim cs ⊆ cs := fun _ hc =>
  trimStart_subset (List.mem_reverse.mp (trimStart_subset (List.mem_reverse.mp hc)))

theorem firstWord_fst_subset : (firstWord cs).1 ⊆ cs := fun _ hc =>
  trimStart_subset ((List.takeWhile_sublist _).subset hc)

theorem firstWord_snd_subset : (firstWord cs).2 ⊆ cs := fun _ hc =>
  trimStart_subset ((List.dropWhile_sublist _).subset (List.mem_of_mem_drop (trimStart_subset hc)))

end

/-- The names of a list have characters of the list, at least one and no bar. -/
theorem mem_listedNames {cs : List Char} {name : String} (h : name ∈ listedNames cs) :
    name ≠ "" ∧ '|' ∉ name.toList ∧ name.toList ⊆ cs := by
  obtain ⟨chars, hchars, rfl⟩ := List.mem_map.mp h
  obtain ⟨hmem, hne⟩ := List.mem_filter.mp hchars
  obtain ⟨piece, hpiece, rfl⟩ := List.mem_map.mp hmem
  rw [String.toList_ofList]
  obtain ⟨hsubset, hnotMem⟩ := mem_pieces hpiece
  refine ⟨?_, fun hbar => hnotMem (trim_subset hbar), fun c hc => hsubset (trim_subset hc)⟩
  simpa using hne

/-- A text that is not empty begins with a byte other than zero. -/
theorem headD_encode_ne_zero {cs : List Char} (hne : cs ≠ []) (hnul : '\x00' ∉ cs) :
    (Utf8.encode (String.ofList cs)).headD 0 ≠ 0 := by
  have hzero : (0 : UInt8) ∉ Utf8.encode (String.ofList cs) :=
    Utf8.zero_notMem_encode (nulFree_ofList.mpr hnul)
  cases hbytes : Utf8.encode (String.ofList cs) with
  | nil => exact absurd (by simpa using Utf8.encode_eq_nil_iff.mp hbytes) hne
  | cons b bs =>
    rintro rfl
    exact hzero (hbytes ▸ List.mem_cons_self)

namespace Command

/-! ### What a line can give -/

/-- The date of a registration fits its places. -/
def DateFits : Command → Prop
  | register _ _ birthDate => birthDate.Fits
  | _ => True

/-- The command that is read where a command was written: a registration has the date that
its field stands for. -/
def reread : Command → Command
  | register username password birthDate =>
    register username password (.ofField (Utf8.encode birthDate.text))
  | c => c

theorem reread_eq_iff {c : Command} : c.reread = c ↔ c.DateFits := by
  cases c with
  | register username password birthDate =>
    rw [reread, register.injEq]
    simp only [true_and]
    exact BirthDate.ofField_encode_text_iff
  | _ => exact iff_of_true rfl trivial

section

variable {o : Opcode} {cs : List Char} {c : Command}

/-- The texts of a command are words of the line. -/
theorem nulFree_of_ofWords (hcs : '\x00' ∉ cs) (h : ofWords o cs = .ok c) :
    ∀ s ∈ c.texts, NulFree s := by
  have hfirst : NulFree (String.ofList (firstWord cs).1) :=
    nulFree_ofList.mpr fun hc => hcs (firstWord_fst_subset hc)
  have hrest : NulFree (String.ofList (firstWord cs).2) :=
    nulFree_ofList.mpr fun hc => hcs (firstWord_snd_subset hc)
  have hsecond : NulFree (String.ofList (firstWord (firstWord cs).2).1) :=
    nulFree_ofList.mpr fun hc => hcs (firstWord_snd_subset (firstWord_fst_subset hc))
  cases o with
  | register | login =>
    simp only [ofWords] at h
    split at h <;> cases h
    simp [texts, hfirst, hsecond]
  | follow =>
    simp only [ofWords] at h
    split at h <;> cases h
    simpa [texts] using hsecond
  | post =>
    cases h
    simpa [texts, nulFree_ofList] using hcs
  | pm =>
    simp only [ofWords] at h
    split at h <;> cases h
    simp [texts, hfirst, hrest]
  | stat =>
    simp only [ofWords] at h
    split at h <;> cases h
    exact fun name hname hc => hcs ((mem_listedNames hname).2.2 hc)
  | block =>
    simp only [ofWords] at h
    split at h <;> cases h
    simpa [texts] using hfirst
  | logout | logStat => cases h; simp [texts]
  | notification | ack | error => cases h

/-- All but the date fits its field. -/
theorem tractable_of_ofWords (hcs : '\x00' ∉ cs) (h : ofWords o cs = .ok c) (hdate : c.DateFits) :
    c.Tractable := by
  cases o with
  | register =>
    simp only [ofWords] at h
    split at h <;> cases h
    exact hdate
  | login =>
    simp only [ofWords] at h
    split at h
    · cases h
    · next hwords =>
      cases h
      rw [not_or, not_or] at hwords
      refine headD_encode_ne_zero hwords.2.2 fun hc => hcs ?_
      exact firstWord_snd_subset (firstWord_snd_subset (firstWord_fst_subset hc))
  | stat =>
    simp only [ofWords] at h
    split at h <;> cases h
    exact fun name hname => ⟨(mem_listedNames hname).1, (mem_listedNames hname).2.1⟩
  | follow | pm | block =>
    simp only [ofWords] at h
    split at h <;> cases h
    trivial
  | post | logout | logStat => cases h; trivial
  | notification | ack | error => cases h

variable {line : String}

/-- A line is the name of a command with words behind it, which are part of the line. -/
theorem exists_ofWords_of_ofLine (h : ofLine line = .ok c) :
    ∃ o cs, ofWords o cs = .ok c ∧ cs ⊆ line.toList := by
  simp only [ofLine] at h
  split at h
  · cases h
  · split at h
    · next o _ => exact ⟨o, _, h, fun _ hc => trim_subset (firstWord_snd_subset hc)⟩
    · cases h

theorem nulFree_of_ofLine (hline : NulFree line) (h : ofLine line = .ok c) :
    ∀ s ∈ c.texts, NulFree s := by
  obtain ⟨o, cs, ho, hsub⟩ := exists_ofWords_of_ofLine h
  exact nulFree_of_ofWords (fun hc => hline (hsub hc)) ho

theorem tractable_of_ofLine (hline : NulFree line) (h : ofLine line = .ok c) (hdate : c.DateFits) :
    c.Tractable := by
  obtain ⟨o, cs, ho, hsub⟩ := exists_ofWords_of_ofLine h
  exact tractable_of_ofWords (fun hc => hline (hsub hc)) ho hdate

/-- **What the server makes of a line.** -/
theorem feed_encode_of_ofLine (hline : NulFree line) (h : ofLine line = .ok c) :
    Decoder.idle.feed c.encode = (.idle, [c.reread]) := by
  have htext : ∀ s ∈ c.texts, NulFree s := nulFree_of_ofLine hline h
  have hrun : Parser.frame.run (c.encode ++ []) = some (some c.reread, []) := by
    by_cases hdate : c.DateFits
    · rw [reread_eq_iff.mpr hdate]
      exact Parser.run_frame_encode ⟨htext, tractable_of_ofLine hline h hdate⟩ []
    · -- only the date of a registration may not fit
      cases c with
      | register username password birthDate =>
        exact Parser.run_frame_register (htext _ (by simp [texts])) (htext _ (by simp [texts])) _ _
      | _ => exact absurd trivial hdate
  exact Decoder.feed_of_run_frame hrun

end

end Command

/-- Whatever command the client makes of the line, the server reads it, and nothing else. -/
def ReadAsTyped (line : String) : Prop :=
  ∀ c, Command.ofLine line = .ok c → Decoder.idle.feed c.encode = (.idle, [c])

/-- **What is typed is what is read, up to dates that do not fit.**  Whatever command the
client makes of a line without U+0000, the server reads one command from its frame and waits
for the next.  It is the same command, unless it is a registration with a day or a month of
more than two digits or a year of more than four: then it has another date. -/
theorem readAsTyped_iff {line : String} (hline : NulFree line) :
    (∀ c, Command.ofLine line = .ok c →
      Decoder.idle.feed c.encode = (.idle, [c.reread]) ∧ (c.reread = c ↔ c.DateFits)) ∧
    (ReadAsTyped line ↔ ∀ username password birthDate,
      Command.ofLine line = .ok (.register username password birthDate) → birthDate.Fits) := by
  refine ⟨fun c hc => ⟨Command.feed_encode_of_ofLine hline hc, Command.reread_eq_iff⟩, ?_⟩
  constructor
  · intro hread username password birthDate hc
    have hsame := (Command.feed_encode_of_ofLine hline hc).symm.trans (hread _ hc)
    have hreread := List.singleton_inj.mp (congrArg Prod.snd hsame)
    exact Command.reread_eq_iff.mp hreread
  · intro hfits c hc
    have hdate : c.DateFits := by
      cases c with
      | register username password birthDate => exact hfits _ _ _ hc
      | _ => trivial
    rw [Command.feed_encode_of_ofLine hline hc, Command.reread_eq_iff.mpr hdate]

/-- A registration typed with blanks of all sorts and a date with strokes in it. -/
theorem readAsTyped_iff_ada :
    let line := "\u3000register  ada né\t 10/12/1815 "
    NulFree line ∧ Command.ofLine line = .ok (.register "ada" "né\t" ⟨10, 12, 1815⟩) ∧
      ReadAsTyped line := by
  intro line
  have hline : NulFree line := by decide
  have hc : Command.ofLine line = .ok (.register "ada" "né\t" ⟨10, 12, 1815⟩) := by decide
  refine ⟨hline, hc, (readAsTyped_iff hline).2.mpr ?_⟩
  rintro username password birthDate h
  rw [hc] at h
  cases h
  decide

/-- The letters of a date that has yet to be filled in stand for great digits, and the date
of the frame has a place too many. -/
theorem not_readAsTyped_letters :
    let line := "REGISTER a b xx-01-2000"
    NulFree line ∧ Command.ofLine line = .ok (.register "a" "b" ⟨792, 1, 2000⟩) ∧
      Decoder.idle.feed (Command.register "a" "b" ⟨792, 1, 2000⟩).encode
        = (.idle, [.register "a" "b" ⟨79, 2530, 56592⟩]) ∧
      ¬ ReadAsTyped line := by
  intro line
  have hc : Command.ofLine line = .ok (.register "a" "b" ⟨792, 1, 2000⟩) := by decide
  have hread : Decoder.idle.feed (Command.register "a" "b" ⟨792, 1, 2000⟩).encode
      = (.idle, [.register "a" "b" ⟨79, 2530, 56592⟩]) := by decide
  refine ⟨by decide, hc, hread, fun h => ?_⟩
  have hsame := hread.symm.trans (h _ hc)
  revert hsame
  decide

end Microblog
