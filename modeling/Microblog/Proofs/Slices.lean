import Mathlib.Data.List.TakeWhile
import Microblog.CommandLine
import Microblog.Text.Slice

/-!
# Reading a line by its bytes

A word is cut from a line by the number of bytes in front of the space behind it, and a
captcha is the byte at place 0 of its word.  A cut inside a character or beyond the end of the
line has no result, and neither has a place in a word without bytes.  Read in this way, step
by step, with no result as soon as one step has none, every line gives what `Command.ofLine`
says of it: a space is a character of one byte, so a line can be cut on both of its sides, and
a word that is missing is noticed before its first byte is asked for.

## Main definitions

* `firstWord?` — the first word of a line and what follows it, by cutting.
* `Command.ofWords?`, `Command.ofLine?` — the command of a line, by cutting.

## Main results

* `Command.ofLine?_eq` — every step on any line has a result.
-/

namespace Microblog

open Text

/-- The first word of a line, and what follows it: the parts before and behind the first
space. -/
def firstWord? (cs : List Char) : Option (List Char × List Char) :=
  let line := trimStart cs
  match position? ' ' line with
  | none => some (line, [])
  | some n => do
    let word ← cutAt? line n
    let rest ← cutAt? line (n + 1)
    return (word.1, trimStart rest.2)

/-- What is left of a text from the first occurrence of a character on. -/
theorem exists_dropWhile_ne_eq_cons {c : Char} {cs : List Char} (h : c ∈ cs) :
    ∃ rest, cs.dropWhile (· ≠ c) = c :: rest := by
  induction cs with
  | nil => cases h
  | cons d cs ih =>
    by_cases hd : d = c
    · exact ⟨cs, by simp [hd]⟩
    · simpa [hd] using ih ((List.mem_cons.mp h).resolve_left (Ne.symm hd))

/-- Cutting at the first space has a result: it is one byte, with a cut on either side. -/
theorem firstWord?_eq (cs : List Char) : firstWord? cs = some (firstWord cs) := by
  simp only [firstWord?, firstWord, position?_eq]
  generalize trimStart cs = line
  by_cases hspace : ' ' ∈ line
  · obtain ⟨rest, hrest⟩ := exists_dropWhile_ne_eq_cons hspace
    have hline : line.takeWhile (· ≠ ' ') ++ ' ' :: rest = line := by
      rw [← hrest, List.takeWhile_append_dropWhile]
    have hbefore : cutAt? line (byteLength (line.takeWhile (· ≠ ' ')))
        = some (line.takeWhile (· ≠ ' '), ' ' :: rest) :=
      cutAt?_eq_some_iff.mpr ⟨hline, rfl⟩
    have hbehind : cutAt? line (byteLength (line.takeWhile (· ≠ ' ')) + 1)
        = some (line.takeWhile (· ≠ ' ') ++ [' '], rest) :=
      cutAt?_eq_some_iff.mpr ⟨by rw [List.append_assoc, List.singleton_append, hline],
        byteLength_append _ _⟩
    rw [if_pos hspace, hrest]
    simp only [hbefore, hbehind]
    rfl
  · have hall : ∀ c ∈ line, decide (c ≠ ' ') = true := by
      intro c hc
      rw [decide_eq_true_eq]
      rintro rfl
      exact hspace hc
    rw [if_neg hspace, List.takeWhile_eq_self_iff.mpr hall, List.dropWhile_eq_nil_iff.mpr hall]
    rfl

/-- A command needs all of these words. -/
def Opcode.require (o : Opcode) (words : List (List Char)) : ExceptT ProtocolFault Option Unit :=
  if [] ∈ words then throw (.missingWord o) else pure ()

/-- The command `o` with the words `cs`, word after word. -/
def Command.ofWords? (o : Opcode) (cs : List Char) : ExceptT ProtocolFault Option Command := do
  match o with
  | .register =>
    let (username, cs) ← firstWord? cs
    let (password, cs) ← firstWord? cs
    let (date, _) ← firstWord? cs
    o.require [username, password, date]
    return .register (String.ofList username) (String.ofList password)
      (.ofField (Utf8.encode (String.ofList date)))
  | .login =>
    let (username, cs) ← firstWord? cs
    let (password, cs) ← firstWord? cs
    let (captcha, _) ← firstWord? cs
    o.require [username, password, captcha]
    let byte ← ((Utf8.encode (String.ofList captcha))[0]? : Option UInt8)
    return .login (String.ofList username) (String.ofList password) byte
  | .follow =>
    let (direction, cs) ← firstWord? cs
    let (username, _) ← firstWord? cs
    o.require [direction, username]
    return .follow (direction = ['0']) (String.ofList username)
  | .post => return .post (String.ofList cs)
  | .pm =>
    let (username, content) ← firstWord? cs
    o.require [username]
    return .pm (String.ofList username) (String.ofList content)
  | .stat =>
    o.require [cs]
    return .stat (listedNames cs)
  | .block =>
    let (username, _) ← firstWord? cs
    o.require [username]
    return .block (String.ofList username)
  | .logout => return .logout
  | .logStat => return .logStat
  | .notification | .ack | .error => throw (.unknownCommand o.name)

/-- The command of a line, word after word. -/
def Command.ofLine? (line : String) : ExceptT ProtocolFault Option Command := do
  let (keyword, cs) ← firstWord? (trim line.toList)
  let keyword := String.ofList (keyword.map Char.toUpper)
  if keyword = "" then throw .emptyCommand
  else match Opcode.ofName? keyword with
    | some o => ofWords? o cs
    | none => throw (.unknownCommand keyword)

/-- Taking a word goes on with the word and what follows it. -/
theorem firstWord?_bind {α : Type} (cs : List Char)
    (f : List Char × List Char → ExceptT ProtocolFault Option α) :
    (liftM (firstWord? cs) >>= f) = f (firstWord cs) := by
  rw [firstWord?_eq]
  rfl

theorem Opcode.require_bind {α : Type} (o : Opcode) (words : List (List Char))
    (f : Unit → ExceptT ProtocolFault Option α) :
    (o.require words >>= f) = if [] ∈ words then throw (.missingWord o) else f () := by
  rw [require]
  split <;> rfl

/-- A word that is there has a first byte. -/
theorem getElem?_zero_encode {w : List Char} (h : w ≠ []) :
    (Utf8.encode (String.ofList w))[0]? = some ((Utf8.encode (String.ofList w)).headD 0) := by
  cases hbytes : Utf8.encode (String.ofList w) with
  | cons b bs => rfl
  | nil => exact absurd (by simpa using Utf8.encode_eq_nil_iff.mp hbytes) h

namespace Command

/-- Every step on the words of a command has a result. -/
theorem ofWords?_eq (o : Opcode) (cs : List Char) :
    (ofWords? o cs).run = some (ofWords o cs) := by
  cases o with
  | login =>
    simp only [ofWords?, ofWords, firstWord?_bind, Opcode.require_bind, List.mem_cons,
      List.not_mem_nil, or_false, @eq_comm _ []]
    split
    · rfl
    · next hwords =>
      rw [not_or, not_or] at hwords
      rw [getElem?_zero_encode hwords.2.2]
      rfl
  | register | follow | pm | stat | block =>
    simp only [ofWords?, ofWords, firstWord?_bind, Opcode.require_bind, List.mem_cons,
      List.not_mem_nil, or_false, @eq_comm _ []]
    split <;> rfl
  | _ => rfl

/-- **Every step on any line has a result**, and the command of the line comes out. -/
theorem ofLine?_eq (line : String) : (ofLine? line).run = some (ofLine line) := by
  simp only [ofLine?, ofLine, firstWord?_bind]
  split
  · rfl
  · cases Opcode.ofName? (String.ofList ((firstWord (trim line.toList)).1.map Char.toUpper)) with
    | none => rfl
    | some o => exact ofWords?_eq o _

end Command

end Microblog
