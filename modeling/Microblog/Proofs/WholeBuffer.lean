import Microblog.Proofs.Registers

/-!
# Commands read from a whole buffer

Given all bytes of a stream at once, commands are read by looking at the front: the code
says which fields follow, and a field ends at the next zero byte.  `Parser` says this with
no state but the bytes that are left, and without a step for each byte.  A decoder, which
sees one byte at a time and may be stopped anywhere, finds the same.

## Main definitions

* `Parser.raw`, `Parser.body`, `Parser.frame` — a field, what follows a code, a frame.
* `Parser.parseFrom` — the commands in a buffer, with the places of their last bytes.
* `Decoder.resume` — what a stream gives after a step.
* `Decoder.Agrees` — after a step the decoder reads on as a parser does.

## Main results

* `Decoder.scan_field` — within a field a decoder reads up to the next zero byte.
* `Decoder.scan_frame` — at the beginning of a frame it reads that frame.
* `decoder_reads_frames` — **decoder and parser find the same commands at the same places.**
-/

namespace Microblog

namespace Text

/-- Cutting a text at a character is core's splitting. -/
theorem pieces_eq_splitOn (sep : Char) (cs : List Char) : pieces sep cs = cs.splitOn sep := by
  induction cs with
  | nil => simp
  | cons c cs ih =>
    rw [List.splitOn_cons_eq_if_modifyHead]
    by_cases hc : c = sep
    · subst hc
      simp [ih]
    · rw [pieces_cons_of_ne hc, ih, if_neg (by simpa using hc)]
      cases h : cs.splitOn sep with
      | nil => exact absurd h (List.splitOn_ne_nil sep cs)
      | cons first others => rfl

end Text

namespace Wire

open Text

/-- Two bytes are read as a number with the high byte first. -/
theorem toNat_ofBytes (hi lo : UInt8) : (ofBytes hi lo).toNat = 256 * hi.toNat + lo.toNat := by
  have hhi : hi.toNat < 256 := hi.toNat_lt
  have hlo : lo.toNat < 2 ^ 8 := lo.toNat_lt
  have hshift : (hi.toUInt16 <<< 8).toNat = hi.toNat <<< 8 := by
    have hlt : hi.toNat <<< 8 < 2 ^ 16 := by rw [Nat.shiftLeft_eq]; omega
    rw [UInt16.toNat_shiftLeft, UInt8.toNat_toUInt16]
    exact Nat.mod_eq_of_lt hlt
  rw [ofBytes, UInt16.toNat_or, hshift, UInt8.toNat_toUInt16,
    ← Nat.shiftLeft_add_eq_or_of_lt hlo, Nat.shiftLeft_eq]
  omega

/-- The two bytes of a number are read as that number. -/
theorem ofBytes_word (n : UInt16) : ofBytes (n >>> 8).toUInt8 n.toUInt8 = n := by
  have hn : n.toNat < 65536 := n.toNat_lt
  refine UInt16.toNat_inj.mp ?_
  rw [toNat_ofBytes]
  simp only [UInt16.toNat_toUInt8, UInt16.toNat_shiftRight, Nat.shiftRight_eq_div_pow]
  simp
  omega

/-! ### The parser -/

/-- What reads from the front of bytes: a value and the bytes behind it, or nothing if
the bytes end too early. -/
abbrev Parser (α : Type) := StateT Bytes Option α

namespace Parser

/-- One byte. -/
def byte : Parser UInt8
  | [] => none
  | b :: bs => some (b, bs)

/-- The bytes up to the next zero byte, which is read with them. -/
def raw : Parser Bytes
  | [] => none
  | b :: bs => if b = 0 then some ([], bs) else (raw bs).map fun r => (b :: r.1, r.2)

/-- A text, whatever its bytes are. -/
def text : Parser String := do
  let bs ← raw
  return Utf8.decode bs

/-- What follows a code.  Nothing is read behind a code that no command has. -/
def body (code : Nat) : Parser (Option Command) :=
  match code with
  | 1 => do
    let username ← text
    let password ← text
    let date ← raw
    return some (.register username password (.ofField date))
  | 2 => do
    let username ← text
    let password ← text
    let captcha ← raw
    return some (.login username password (captcha.getLast?.getD 0))
  | 3 => return some .logout
  | 4 => do
    let direction ← byte
    let username ← text
    return some (.follow (direction = 0) username)
  | 5 => do
    let content ← text
    return some (.post content)
  | 6 => do
    let username ← text
    let content ← text
    return some (.pm username content)
  | 7 => return some .logStat
  | 8 => do
    let list ← text
    return some (.stat (((list.toList.splitOn '|').filter (· ≠ [])).map String.ofList))
  | 12 => do
    let username ← text
    return some (.block username)
  | _ => return none

/-- A frame: the command that it is, or nothing if its code is that of no command. -/
def frame : Parser (Option Command) := do
  let hi ← byte
  let lo ← byte
  body (256 * hi.toNat + lo.toNat)

/-- What a parser leaves is the end of what it was given. -/
def Trims {α : Type} (p : Parser α) : Prop :=
  ∀ bs a rest, p.run bs = some (a, rest) → rest <:+ bs

theorem Trims.pure {α : Type} (a : α) : Trims (Pure.pure a) := by
  intro bs a' rest h
  cases h
  exact List.suffix_rfl

theorem Trims.bind {α β : Type} {p : Parser α} {f : α → Parser β} (hp : Trims p)
    (hf : ∀ a, Trims (f a)) : Trims (p >>= f) := by
  intro bs b rest h
  rw [StateT.run_bind] at h
  obtain ⟨⟨a, mid⟩, ha, hb⟩ := Option.bind_eq_some_iff.mp h
  exact (hf a mid b rest hb).trans (hp bs a mid ha)

theorem trims_byte : Trims byte := by
  intro bs a rest h
  cases bs with
  | nil => cases h
  | cons b bs =>
    cases h
    exact List.suffix_cons _ _

theorem trims_raw : Trims raw := by
  intro bs
  induction bs with
  | nil =>
    intro a rest h
    cases h
  | cons b bs ih =>
    intro a rest h
    simp only [StateT.run, raw] at h
    split at h
    · cases h
      exact List.suffix_cons _ _
    · obtain ⟨r, hr, heq⟩ := Option.map_eq_some_iff.mp h
      cases heq
      exact (ih _ _ hr).trans (List.suffix_cons b bs)

theorem trims_text : Trims text := trims_raw.bind fun _ => .pure _

theorem trims_body (code : Nat) : Trims (body code) := by
  unfold body
  split
  · exact trims_text.bind fun _ => trims_text.bind fun _ => trims_raw.bind fun _ => .pure _
  · exact trims_text.bind fun _ => trims_text.bind fun _ => trims_raw.bind fun _ => .pure _
  · exact .pure _
  · exact trims_byte.bind fun _ => trims_text.bind fun _ => .pure _
  · exact trims_text.bind fun _ => .pure _
  · exact trims_text.bind fun _ => trims_text.bind fun _ => .pure _
  · exact .pure _
  · exact trims_text.bind fun _ => .pure _
  · exact trims_text.bind fun _ => .pure _
  · exact .pure _

/-- A frame with its first byte taken off. -/
theorem run_frame_cons (b : UInt8) (bs : Bytes) :
    frame.run (b :: bs) = (byte >>= fun lo => body (256 * b.toNat + lo.toNat)).run bs := rfl

/-- A frame is not empty. -/
theorem length_lt_of_run_frame {bs rest : Bytes} {command : Option Command}
    (h : frame.run bs = some (command, rest)) : rest.length < bs.length := by
  cases bs with
  | nil => cases h
  | cons b bs =>
    rw [run_frame_cons] at h
    have hsuffix : rest <:+ bs := trims_byte.bind (fun _ => trims_body _) bs command rest h
    exact Nat.lt_succ_of_le hsuffix.length_le

/-- The commands in `bs`, the first byte of which is byte number `n` of the stream, each
with the number of its last byte, and whether `bs` ends between two frames.  Between
frames separators are skipped. -/
def parseFrom (n : Nat) (bs : Bytes) : List (Nat × Command) × Bool :=
  match bs with
  | [] => ([], true)
  | b :: bs =>
    if b = separator then parseFrom (n + 1) bs
    else
      match h : frame.run (b :: bs) with
      | none => ([], false)
      | some (command, rest) =>
        have := length_lt_of_run_frame h
        let next := n + ((b :: bs).length - rest.length)
        ((command.map fun c => (next - 1, c)).toList ++ (parseFrom next rest).1,
          (parseFrom next rest).2)
termination_by bs.length
decreasing_by
  · exact Nat.lt_succ_self _
  · exact this

theorem parseFrom_nil (n : Nat) : parseFrom n [] = ([], true) := by rw [parseFrom]

theorem parseFrom_separator (n : Nat) (bs : Bytes) :
    parseFrom n (separator :: bs) = parseFrom (n + 1) bs := by
  rw [parseFrom, if_pos rfl]

theorem parseFrom_of_none {b : UInt8} {bs : Bytes} (hb : b ≠ separator)
    (h : frame.run (b :: bs) = none) (n : Nat) : parseFrom n (b :: bs) = ([], false) := by
  rw [parseFrom, if_neg hb]
  split
  · rfl
  · next h' => cases h.symm.trans h'

theorem parseFrom_of_some {b : UInt8} {bs used rest : Bytes} {command : Option Command}
    (hb : b ≠ separator) (h : frame.run (b :: bs) = some (command, rest))
    (hbs : bs = used ++ rest) (n : Nat) :
    parseFrom n (b :: bs) =
      ((command.map fun c => (n + used.length, c)).toList
          ++ (parseFrom (n + used.length + 1) rest).1,
        (parseFrom (n + used.length + 1) rest).2) := by
  have hnext : n + ((b :: bs).length - rest.length) = n + used.length + 1 := by
    rw [hbs, List.length_cons, List.length_append]
    omega
  rw [parseFrom, if_neg hb]
  split
  · next h' => cases h.symm.trans h'
  · next h' =>
    cases h.symm.trans h'
    simp only [hnext, Nat.add_sub_cancel]

/-- A text is read as its bytes are. -/
theorem text_bind {α : Type} (k : String → Parser α) :
    text >>= k = raw >>= fun bs => k (Utf8.decode bs) := by
  simp [text]

end Parser

/-! ### The decoder agrees -/

namespace Decoder

/-- What a stream gives from its byte number `n` on, given what the step at that byte
gave and the bytes behind it. -/
def resume (r : Decoder × Option Command) (n : Nat) (bs : Bytes) :
    Decoder × List (Nat × Command) :=
  ((r.1.scan (n + 1) bs).1, (r.2.map fun c => (n, c)).toList ++ (r.1.scan (n + 1) bs).2)

theorem scan_cons_eq_resume (d : Decoder) (n : Nat) (b : UInt8) (bs : Bytes) :
    d.scan n (b :: bs) = resume (d.step b) n bs := scan_cons d n b bs

theorem resume_none (d : Decoder) (n : Nat) (bs : Bytes) :
    resume (d, none) n bs = d.scan (n + 1) bs := rfl

/-- After a step the decoder reads on as a parser does.  If the parser lacks bytes, the
decoder finds nothing and is left within the frame.  Otherwise the decoder completes, with
the last byte that the parser takes, what the parser gives. -/
def Agrees (r : Decoder × Option Command) (p : Parser (Option Command)) : Prop :=
  ∀ n bs, match p.run bs with
    | none => (resume r n bs).1.isIdle = false ∧ (resume r n bs).2 = []
    | some (command, rest) => ∃ used, bs = used ++ rest ∧
      resume r n bs = resume (idle, command) (n + used.length) rest

/-- The frame is complete. -/
theorem Agrees.pure (command : Option Command) : Agrees (idle, command) (Pure.pure command) :=
  fun _ _ => ⟨[], rfl, rfl⟩

/-- A byte that both read. -/
theorem Agrees.byte {d : Decoder} {k : UInt8 → Parser (Option Command)}
    (hd : d.isIdle = false) (h : ∀ b, Agrees (d.step b) (k b)) :
    Agrees (d, none) (Parser.byte >>= k) := by
  intro n bs
  rw [resume_none, StateT.run_bind]
  cases bs with
  | nil => exact ⟨hd, rfl⟩
  | cons b bs =>
    have hb := h b (n + 1) bs
    rw [scan_cons_eq_resume]
    change match (k b).run bs with
      | none => _
      | some (command, rest) => _
    cases hp : (k b).run bs with
    | none => rwa [hp] at hb
    | some r =>
      rw [hp] at hb
      obtain ⟨used, rfl, hscan⟩ := hb
      refine ⟨b :: used, rfl, ?_⟩
      rw [hscan, List.length_cons, Nat.add_right_comm, Nat.add_assoc]

/-- What the step at the end of a field gives. -/
def afterField (frame : OpenFrame) (bs : Bytes) : Decoder × Option Command :=
  match frame.close bs with
  | .inl next => (field next [], none)
  | .inr c => (idle, some c)

theorem step_terminator (frame : OpenFrame) (read : Bytes) :
    (field frame read).step terminator = afterField frame read.reverse := by
  change (if terminator = terminator then afterField frame read.reverse
    else (field frame (terminator :: read), none)) = _
  exact if_pos rfl

/-- Within a field a decoder reads up to the next zero byte. -/
theorem scan_field (frame : OpenFrame) (read : Bytes) (n : Nat) (bs : Bytes) :
    match Parser.raw.run bs with
    | none => (field frame read).scan n bs = (field frame (bs.reverse ++ read), [])
    | some (content, rest) => bs = content ++ terminator :: rest ∧
      (field frame read).scan n bs =
        resume (afterField frame (read.reverse ++ content)) (n + content.length) rest := by
  induction bs generalizing read n with
  | nil => rfl
  | cons b bs ih =>
    rw [scan_cons_eq_resume]
    by_cases hb : b = terminator
    · subst hb
      refine ⟨rfl, ?_⟩
      rw [List.append_nil, step_terminator]
      rfl
    · have hraw : Parser.raw.run (b :: bs)
          = (Parser.raw.run bs).map fun r => (b :: r.1, r.2) := if_neg hb
      have hstep : (field frame read).step b = (field frame (b :: read), none) := if_neg hb
      have ih := ih (b :: read) (n + 1)
      rw [hraw, hstep, resume_none]
      cases hr : Parser.raw.run bs with
      | none =>
        rw [hr] at ih
        simpa using ih
      | some r =>
        rw [hr] at ih
        obtain ⟨hbs, hscan⟩ := ih
        refine ⟨congrArg (b :: ·) hbs, ?_⟩
        rw [hscan, List.reverse_cons, List.append_assoc, List.singleton_append,
          List.length_cons, Nat.add_right_comm, Nat.add_assoc]

/-- A field that both read. -/
theorem Agrees.field {frame : OpenFrame} {k : Bytes → Parser (Option Command)}
    (h : ∀ bs, Agrees (afterField frame bs) (k bs)) :
    Agrees (field frame [], none) (Parser.raw >>= k) := by
  intro n bs
  have hfield := scan_field frame [] (n + 1) bs
  rw [resume_none, StateT.run_bind]
  cases hr : Parser.raw.run bs with
  | none =>
    rw [hr] at hfield
    dsimp only at hfield ⊢
    rw [hfield]
    exact ⟨rfl, rfl⟩
  | some r =>
    obtain ⟨content, mid⟩ := r
    rw [hr] at hfield
    obtain ⟨rfl, hscan⟩ := hfield
    have hrest := h content (n + 1 + content.length) mid
    rw [hscan, List.reverse_nil, List.nil_append]
    change match (k content).run mid with
      | none => _
      | some (command, rest) => _
    cases hp : (k content).run mid with
    | none => rwa [hp] at hrest
    | some s =>
      rw [hp] at hrest
      obtain ⟨used, rfl, hresume⟩ := hrest
      have hlength : n + 1 + content.length + used.length
          = n + (content ++ terminator :: used).length := by
        rw [List.length_append, List.length_cons]
        omega
      refine ⟨content ++ terminator :: used, by simp, ?_⟩
      rw [hresume, hlength]

/-- A text that both read. -/
theorem Agrees.text {frame : OpenFrame} {k : String → Parser (Option Command)}
    (h : ∀ bs, Agrees (afterField frame bs) (k (Utf8.decode bs))) :
    Agrees (Decoder.field frame [], none) (Parser.text >>= k) := by
  rw [Parser.text_bind]
  exact .field h

/-- The names of a `STAT` are the parts between the bars that are not empty. -/
theorem usernames_eq (s : String) :
    usernames s = ((s.toList.splitOn '|').filter (· ≠ [])).map String.ofList := by
  rw [usernames, pieces_eq_splitOn]
  congr 2
  funext name
  cases name <;> rfl

/-- After a code in use both read the body that belongs to it. -/
theorem agrees_begin_some (o : Opcode) :
    Agrees (begin (some o)) (Parser.body o.code.toNat) := by
  cases o with
  | register => exact .text fun _ => .text fun _ => .field fun _ => .pure _
  | login => exact .text fun _ => .text fun _ => .field fun _ => .pure _
  | logout => exact .pure _
  | follow => exact .byte rfl fun _ => .text fun _ => .pure _
  | post => exact .text fun _ => .pure _
  | pm => exact .text fun _ => .text fun _ => .pure _
  | logStat => exact .pure _
  | stat =>
    refine .text fun bs => ?_
    rw [← usernames_eq]
    exact .pure _
  | block => exact .text fun _ => .pure _
  | notification => exact .pure _
  | ack => exact .pure _
  | error => exact .pure _

/-- After any code both read what belongs to it. -/
theorem agrees_begin (code : UInt16) :
    Agrees (begin (Opcode.ofCode? code)) (Parser.body code.toNat) := by
  cases ho : Opcode.ofCode? code with
  | some o =>
    rw [← Opcode.ofCode?_eq_some_iff.mp ho]
    exact agrees_begin_some o
  | none =>
    -- the parser has a case of its own only for codes in use
    have hbody : Parser.body code.toNat = Pure.pure none := by
      have hne : ∀ o : Opcode, code.toNat ≠ o.code.toNat := by
        intro o h
        rw [UInt16.toNat_inj.mp h, Opcode.ofCode?_code] at ho
        cases ho
      unfold Parser.body
      split
      · next h => exact absurd h (hne .register)
      · next h => exact absurd h (hne .login)
      · next h => exact absurd h (hne .logout)
      · next h => exact absurd h (hne .follow)
      · next h => exact absurd h (hne .post)
      · next h => exact absurd h (hne .pm)
      · next h => exact absurd h (hne .logStat)
      · next h => exact absurd h (hne .stat)
      · next h => exact absurd h (hne .block)
      · rfl
    rw [hbody]
    exact .pure none

/-- **At the beginning of a frame a decoder reads that frame.** -/
theorem scan_frame {b : UInt8} (hb : b ≠ separator) (n : Nat) (bs : Bytes) :
    match Parser.frame.run (b :: bs) with
    | none => (idle.scan n (b :: bs)).1.isIdle = false ∧ (idle.scan n (b :: bs)).2 = []
    | some (command, rest) => ∃ used, bs = used ++ rest ∧
      idle.scan n (b :: bs) = resume (idle, command) (n + used.length) rest := by
  have hstep : idle.step b = (code b, none) := if_neg hb
  have hcode : Agrees (code b, none)
      (Parser.byte >>= fun lo => Parser.body (256 * b.toNat + lo.toNat)) := by
    refine .byte rfl fun lo => ?_
    rw [← toNat_ofBytes]
    exact agrees_begin (ofBytes b lo)
  rw [Parser.run_frame_cons, scan_cons_eq_resume, hstep]
  exact hcode n bs

/-- Between frames a decoder reads what the parser reads. -/
theorem scan_eq_parseFrom (n : Nat) (bs : Bytes) :
    ((idle.scan n bs).2, (idle.scan n bs).1.isIdle) = Parser.parseFrom n bs := by
  -- frames are read whole, so the induction is on how many bytes are left
  induction hlength : bs.length using Nat.strongRecOn generalizing n bs with
  | ind length ih =>
    subst hlength
    cases bs with
    | nil => rw [Parser.parseFrom_nil]; rfl
    | cons b bs =>
      by_cases hb : b = separator
      · subst hb
        rw [Parser.parseFrom_separator, ← ih bs.length (Nat.lt_succ_self _) (n + 1) bs rfl]
        rfl
      · have hframe := scan_frame hb n bs
        cases hp : Parser.frame.run (b :: bs) with
        | none =>
          rw [hp] at hframe
          rw [Parser.parseFrom_of_none hb hp, hframe.1, hframe.2]
        | some r =>
          obtain ⟨command, rest⟩ := r
          rw [hp] at hframe
          obtain ⟨used, hbs, hscan⟩ := hframe
          have hlt : rest.length < (b :: bs).length := Parser.length_lt_of_run_frame hp
          have hrest := ih rest.length hlt (n + used.length + 1) rest rfl
          rw [hscan, Parser.parseFrom_of_some hb hp hbs, ← hrest]
          rfl

end Decoder

end Wire

open Wire

/-- **A decoder finds what a parser of the whole buffer finds.**  The commands that a new
decoder completes, the place of the byte that completes each, and whether the decoder is
idle in the end, are those that the parser gives; and the same holds of a decoder that
keeps its state in registers shared by all frames. -/
theorem decoder_reads_frames (bs : Bytes) :
    ((Decoder.idle.scan 0 bs).2, (Decoder.idle.scan 0 bs).1.isIdle) = Parser.parseFrom 0 bs ∧
      ((Registers.scan {} 0 bs).2, (Registers.scan {} 0 bs).1.isIdle)
        = Parser.parseFrom 0 bs := by
  have hdecoder := Decoder.scan_eq_parseFrom 0 bs
  obtain ⟨hfound, hidle⟩ := Registers.scan_eq 0 bs
  exact ⟨hdecoder, by rw [hfound, hidle, hdecoder]⟩

/-- An unknown code is dropped, a separator within a frame is data, and the last frame is
not complete. -/
example : Parser.parseFrom 0 [separator, 0, 9, 0, 4, separator, 0x61, 0, 0, 3, 0] =
    ([(7, .follow false "a"), (9, .logout)], false) := by cbv

end Microblog
