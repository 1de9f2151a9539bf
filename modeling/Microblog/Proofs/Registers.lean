import Microblog.Wire.Registers

/-!
# The registers do what the decoder does

The registers are shared by all kinds of frame, so what one of them holds depends on the
frame under way, and what the last frame left in it must not matter.  `Registers.Holds`
says, for each situation of a decoder, what the registers hold then.  One byte keeps it,
and so the two read every stream in the same way.

## Main definitions

* `Registers.Holds` — the registers hold what the decoder has read.

## Main results

* `Registers.Holds.step` — one byte keeps that, and completes the same command.
* `Registers.scan_eq` — **registers and decoder find the same commands at the same places.**
-/

namespace Microblog.Wire.Registers

open Text

/-- The registers hold what the decoder has read of the frame under way, and all that it
does not need is as it was at first. -/
inductive Holds : Registers → Decoder → Prop where
  /-- Between frames. -/
  | idle : Holds {} .idle
  /-- After the first byte of a code. -/
  | code (hi : UInt8) : Holds { code := (hi, 0), codeLength := 1 } (.code hi)
  /-- Before the raw byte of a `FOLLOW`. -/
  | direction (code : UInt8 × UInt8) :
      Holds { code, codeLength := 2, opcode := some .follow } .direction
  /-- Within the username of a `REGISTER`. -/
  | registerName (code : UInt8 × UInt8) (read : Bytes) (hread : terminator ∉ read) :
      Holds { code, codeLength := 2, opcode := some .register, first := read.reverse }
        (.field .registerName read)
  /-- Within the password of a `REGISTER`: the username is in the same buffer. -/
  | registerPassword (code : UInt8 × UInt8) (username read : Bytes)
      (husername : terminator ∉ username) :
      Holds
        { code, codeLength := 2, opcode := some .register, separators := 1
          first := username ++ terminator :: read.reverse }
        (.field (.registerPassword (Utf8.decode username)) read)
  /-- Within the date of a `REGISTER`. -/
  | registerDate (code : UInt8 × UInt8) (username password read : Bytes)
      (husername : terminator ∉ username) :
      Holds
        { code, codeLength := 2, opcode := some .register, separators := 2
          first := username ++ terminator :: password, second := read.reverse }
        (.field (.registerDate (Utf8.decode username) (Utf8.decode password)) read)
  /-- Within the username of a `LOGIN`. -/
  | loginName (code : UInt8 × UInt8) (read : Bytes) :
      Holds { code, codeLength := 2, opcode := some .login, first := read.reverse }
        (.field .loginName read)
  /-- Within the password of a `LOGIN`. -/
  | loginPassword (code : UInt8 × UInt8) (username read : Bytes) :
      Holds
        { code, codeLength := 2, opcode := some .login, separators := 1
          first := username, second := read.reverse }
        (.field (.loginPassword (Utf8.decode username)) read)
  /-- Within the captcha of a `LOGIN`: only its last byte is kept. -/
  | loginCaptcha (code : UInt8 × UInt8) (username password read : Bytes) :
      Holds
        { code, codeLength := 2, opcode := some .login, separators := 2
          first := username, second := password, spare := read.head?.getD 0 }
        (.field (.loginCaptcha (Utf8.decode username) (Utf8.decode password)) read)
  /-- Within the username of a `FOLLOW`. -/
  | followName (code : UInt8 × UInt8) (direction : UInt8) (read : Bytes) :
      Holds
        { code, codeLength := 2, opcode := some .follow, separators := 1
          first := read.reverse, spare := direction }
        (.field (.followName (direction = 0)) read)
  /-- Within the content of a `POST`. -/
  | postContent (code : UInt8 × UInt8) (read : Bytes) :
      Holds { code, codeLength := 2, opcode := some .post, first := read.reverse }
        (.field .postContent read)
  /-- Within the recipient of a `PM`. -/
  | pmRecipient (code : UInt8 × UInt8) (read : Bytes) :
      Holds { code, codeLength := 2, opcode := some .pm, first := read.reverse }
        (.field .pmRecipient read)
  /-- Within the content of a `PM`. -/
  | pmContent (code : UInt8 × UInt8) (username read : Bytes) :
      Holds
        { code, codeLength := 2, opcode := some .pm, separators := 1
          first := username, second := read.reverse }
        (.field (.pmContent (Utf8.decode username)) read)
  /-- Within the usernames of a `STAT`. -/
  | statNames (code : UInt8 × UInt8) (read : Bytes) :
      Holds { code, codeLength := 2, opcode := some .stat, first := read.reverse }
        (.field .statNames read)
  /-- Within the username of a `BLOCK`. -/
  | blockName (code : UInt8 × UInt8) (read : Bytes) :
      Holds { code, codeLength := 2, opcode := some .block, first := read.reverse }
        (.field .blockName read)

/-- What a step of the registers gives, and what one of the decoder does. -/
def Matches (r : Registers × Option Command) (r' : Decoder × Option Command) : Prop :=
  Holds r.1 r'.1 ∧ r.2 = r'.2

theorem Holds.isIdle {s : Registers} {d : Decoder} (h : Holds s d) : s.isIdle = d.isIdle := by
  cases h <;> rfl

/-- The two parts of the first buffer of a `REGISTER`. -/
theorem takeWhile_append_terminator {username : Bytes} (h : terminator ∉ username)
    (password : Bytes) :
    (username ++ terminator :: password).takeWhile (· ≠ terminator) = username ∧
      (username ++ terminator :: password).dropWhile (· ≠ terminator) = terminator :: password := by
  have hall : ∀ b ∈ username, decide (b ≠ terminator) = true := by
    intro b hb
    simp only [decide_eq_true_eq]
    rintro rfl
    exact h hb
  constructor
  · rw [List.takeWhile_append_of_pos hall]
    simp
  · rw [List.dropWhile_append_of_pos hall]
    simp

/-- The code is in. -/
theorem matches_begin (hi lo : UInt8) :
    Matches (begin { code := (hi, lo), codeLength := 2 })
      (Decoder.begin (Opcode.ofCode? (ofBytes hi lo))) := by
  unfold begin
  dsimp only
  cases Opcode.ofCode? (ofBytes hi lo) with
  | none => exact ⟨.idle, rfl⟩
  | some o =>
    cases o with
    | register => exact ⟨.registerName (hi, lo) [] List.not_mem_nil, rfl⟩
    | login => exact ⟨.loginName (hi, lo) [], rfl⟩
    | logout => exact ⟨.idle, rfl⟩
    | follow => exact ⟨.direction (hi, lo), rfl⟩
    | post => exact ⟨.postContent (hi, lo) [], rfl⟩
    | pm => exact ⟨.pmRecipient (hi, lo) [], rfl⟩
    | logStat => exact ⟨.idle, rfl⟩
    | stat => exact ⟨.statNames (hi, lo) [], rfl⟩
    | block => exact ⟨.blockName (hi, lo) [], rfl⟩
    | notification => exact ⟨.idle, rfl⟩
    | ack => exact ⟨.idle, rfl⟩
    | error => exact ⟨.idle, rfl⟩

/-- The zero byte at the end of a field. -/
theorem Holds.step_terminator {s : Registers} {frame : OpenFrame} {read : Bytes}
    (h : Holds s (.field frame read)) :
    Matches (s.step terminator) ((Decoder.field frame read).step terminator) := by
  cases h with
  | registerName code read hread =>
    exact ⟨.registerPassword code read.reverse [] (by rwa [List.mem_reverse]), rfl⟩
  | registerPassword code username read husername =>
    exact ⟨.registerDate code username read.reverse [] husername, rfl⟩
  | registerDate code username password read husername =>
    obtain ⟨hfirst, hsecond⟩ := takeWhile_append_terminator husername password
    refine ⟨.idle, ?_⟩
    change some (Command.register (Utf8.decode _) (Utf8.decode _) _) = _
    rw [hfirst, hsecond]
    rfl
  | loginName code read => exact ⟨.loginPassword code read.reverse [], rfl⟩
  | loginPassword code username read => exact ⟨.loginCaptcha code username read.reverse [], rfl⟩
  | loginCaptcha code username password read =>
    refine ⟨.idle, ?_⟩
    change some (Command.login _ _ (read.head?.getD 0)) = _
    rw [← List.getLast?_reverse]
    rfl
  | followName code direction read => exact ⟨.idle, rfl⟩
  | postContent code read => exact ⟨.idle, rfl⟩
  | pmRecipient code read => exact ⟨.pmContent code read.reverse [], rfl⟩
  | pmContent code username read => exact ⟨.idle, rfl⟩
  | statNames code read => exact ⟨.idle, rfl⟩
  | blockName code read => exact ⟨.idle, rfl⟩

/-- Any other byte of a field. -/
theorem Holds.step_of_ne {s : Registers} {frame : OpenFrame} {read : Bytes}
    (h : Holds s (.field frame read)) {b : UInt8} (hb : b ≠ terminator) :
    Matches (s.step b) ((Decoder.field frame read).step b) := by
  have hdecoder : (Decoder.field frame read).step b = (.field frame (b :: read), none) := if_neg hb
  rw [hdecoder]
  cases h with
  | registerName code read hread =>
    have hread' : terminator ∉ b :: read := List.not_mem_cons_of_ne_of_not_mem (Ne.symm hb) hread
    simpa [Matches, Registers.step, clear, body, register, pushFirst, hb]
      using Holds.registerName code (b :: read) hread'
  | registerPassword code username read husername =>
    simpa [Matches, Registers.step, clear, body, register, pushFirst, hb]
      using Holds.registerPassword code username (b :: read) husername
  | registerDate code username password read husername =>
    simpa [Matches, Registers.step, clear, body, register, pushSecond, hb]
      using Holds.registerDate code username password (b :: read) husername
  | loginName code read =>
    simpa [Matches, Registers.step, clear, body, login, pushFirst, hb]
      using Holds.loginName code (b :: read)
  | loginPassword code username read =>
    simpa [Matches, Registers.step, clear, body, login, pushSecond, hb]
      using Holds.loginPassword code username (b :: read)
  | loginCaptcha code username password read =>
    simpa [Matches, Registers.step, clear, body, login, hb]
      using Holds.loginCaptcha code username password (b :: read)
  | followName code direction read =>
    simpa [Matches, Registers.step, clear, body, follow, pushFirst, hb]
      using Holds.followName code direction (b :: read)
  | postContent code read =>
    simpa [Matches, Registers.step, clear, body, single, pushFirst, hb]
      using Holds.postContent code (b :: read)
  | pmRecipient code read =>
    simpa [Matches, Registers.step, clear, body, pm, pushFirst, hb]
      using Holds.pmRecipient code (b :: read)
  | pmContent code username read =>
    simpa [Matches, Registers.step, clear, body, pm, pushSecond, hb]
      using Holds.pmContent code username (b :: read)
  | statNames code read =>
    simpa [Matches, Registers.step, clear, body, single, pushFirst, hb]
      using Holds.statNames code (b :: read)
  | blockName code read =>
    simpa [Matches, Registers.step, clear, body, single, pushFirst, hb]
      using Holds.blockName code (b :: read)

/-- **One byte keeps what the registers hold, and completes the same command.** -/
theorem Holds.step {s : Registers} {d : Decoder} (h : Holds s d) (b : UInt8) :
    Matches (s.step b) (d.step b) := by
  cases d with
  | idle =>
    cases h
    by_cases hb : b = separator
    · subst hb
      exact ⟨.idle, rfl⟩
    · simpa [Matches, Registers.step, Decoder.step, hb] using Holds.code b
  | code hi =>
    cases h
    exact matches_begin hi b
  | direction =>
    cases h with
    | direction code => exact ⟨.followName code b [], rfl⟩
  | field frame read =>
    by_cases hb : b = terminator
    · subst hb
      exact h.step_terminator
    · exact h.step_of_ne hb

/-- Registers that hold what a decoder has read find what it finds. -/
theorem Holds.scan {s : Registers} {d : Decoder} (h : Holds s d) (n : Nat) (bs : Bytes) :
    Holds (s.scan n bs).1 (d.scan n bs).1 ∧ (s.scan n bs).2 = (d.scan n bs).2 := by
  induction bs generalizing s d n with
  | nil => exact ⟨h, rfl⟩
  | cons b bs ih =>
    obtain ⟨hholds, hcommand⟩ := h.step b
    obtain ⟨hrest, hfound⟩ := ih hholds (n + 1)
    rw [Decoder.scan_cons, Registers.scan]
    refine ⟨hrest, ?_⟩
    rw [hcommand, hfound]

/-- **Registers and decoder find the same commands at the same places**, and are idle at
the same times. -/
theorem scan_eq (n : Nat) (bs : Bytes) :
    (scan {} n bs).2 = (Decoder.idle.scan n bs).2 ∧
      (scan {} n bs).1.isIdle = (Decoder.idle.scan n bs).1.isIdle := by
  obtain ⟨hholds, hfound⟩ := Holds.idle.scan n bs
  exact ⟨hfound, hholds.isIdle⟩

end Microblog.Wire.Registers
