import Microblog.Proofs.CommandStream

/-!
# Logins and the frames behind them

A stream of frames has no other signs of where a frame ends than the frames themselves, so
each has to be left exactly at its end: if a frame is left too early or too late, what comes
behind it is read out of step, and the command of the frame itself does not show it.

In a `LOGIN` a byte stands between two bytes that end fields, and it may be any byte.  But
it is read as a field is, so that a zero byte ends the frame in the place of the one behind
it, which is then taken for the first byte of a code.

## Main definitions

* `KeepsStep` — a frame that is read as it was written and left at its end, whatever follows.

## Main results

* `Decoder.scan_login_zero` — what becomes of a stream behind a zero captcha.
* `login_keepsStep_iff` — **a login keeps the stream in step unless its captcha is zero.**
-/

namespace Microblog

open Text Wire

namespace Wire

/-- The frame of a command is read as this command, with its own last byte, and whatever
follows is read as if a new decoder began with it. -/
def KeepsStep (c : Command) : Prop :=
  ∀ (n : Nat) (bs : Bytes), Decoder.idle.scan n (c.encode ++ bs) =
    ((Decoder.idle.scan (n + c.encode.length) bs).1,
      (n + c.encode.length - 1, c) :: (Decoder.idle.scan (n + c.encode.length) bs).2)

section

variable {username password : String}

namespace Parser

/-- A zero captcha ends its field and with it the frame. -/
theorem run_frame_login_zero (hname : NulFree username) (hpassword : NulFree password)
    (bs : Bytes) :
    frame.run ((Command.login username password 0).encode ++ bs) =
      some (some (.login username password 0), terminator :: bs) := by
  have hbody : (Command.login username password 0).body
      = field username ++ field password ++ ([] ++ terminator :: [terminator]) := rfl
  rw [run_frame_eq_body, hbody]
  change (text >>= fun _ => text >>= fun _ => raw >>= fun _ => pure _).run _ = _
  rw [List.append_assoc, List.append_assoc, run_text_bind hname, run_text_bind hpassword,
    List.append_assoc]
  exact run_raw_bind List.not_mem_nil _ (terminator :: bs)

end Parser

namespace Decoder

/-- **Behind a zero captcha the stream is read out of step.**  The login is found a byte too
early, and the byte that ends the frame is taken for the first byte of a code. -/
theorem scan_login_zero (hname : NulFree username) (hpassword : NulFree password) (n : Nat)
    (bs : Bytes) :
    let frame := (Command.login username password 0).encode
    idle.scan n (frame ++ bs) =
      (((code 0).scan (n + frame.length) bs).1,
        (n + frame.length - 2, .login username password 0)
          :: ((code 0).scan (n + frame.length) bs).2) := by
  intro frame
  obtain ⟨used, hframe⟩ : ∃ used, frame = used ++ [terminator] := by
    refine ⟨word 2 ++ (Wire.field username ++ Wire.field password ++ [0]), ?_⟩
    rw [List.append_assoc, List.append_assoc]
    rfl
  have hbs : frame ++ bs = used ++ terminator :: bs := by
    rw [hframe, List.append_assoc]
    rfl
  have hlength : frame.length = used.length + 1 := by
    rw [hframe, List.length_append, List.length_singleton]
  have hstep : idle.step terminator = (code 0, none) := rfl
  rw [scan_of_run_frame (Parser.run_frame_login_zero hname hpassword bs) hbs, scan_cons, hstep,
    hlength]
  rfl

end Decoder

theorem keepsStep_login_iff (hname : NulFree username) (hpassword : NulFree password)
    {captcha : UInt8} : KeepsStep (.login username password captcha) ↔ captcha ≠ 0 := by
  constructor
  · rintro hkeeps rfl
    -- the one decoder is idle in the end, and the other within a code
    have hscan := (hkeeps 0 []).symm.trans (Decoder.scan_login_zero hname hpassword 0 [])
    cases congrArg Prod.fst hscan
  · intro hne
    have hwritable : (Command.login username password captcha).Writable := by
      refine ⟨?_, hne⟩
      intro s hs
      rcases List.mem_cons.mp hs with rfl | hs
      · exact hname
      · rwa [List.mem_singleton.mp hs]
    exact Decoder.scan_encode hwritable

end

end Wire

/-- **A login keeps the stream in step unless its captcha is zero.**  With any other captcha
it is found with the last byte of its own frame, and whatever follows is read as a new
decoder would read it.  With a zero captcha it is found a byte earlier, and what follows is
read as if a code had begun with a zero byte. -/
theorem login_keepsStep_iff {username password : String} (hname : NulFree username)
    (hpassword : NulFree password) (captcha : UInt8) :
    (KeepsStep (.login username password captcha) ↔ captcha ≠ 0) ∧
      ∀ (n : Nat) (bs : Bytes),
        let frame := (Command.login username password 0).encode
        Decoder.idle.scan n (frame ++ bs) =
          (((Decoder.code 0).scan (n + frame.length) bs).1,
            (n + frame.length - 2, .login username password 0)
              :: ((Decoder.code 0).scan (n + frame.length) bs).2) :=
  ⟨keepsStep_login_iff hname hpassword, Decoder.scan_login_zero hname hpassword⟩

/-- Two texts, the second one with a character of two bytes, and a captcha. -/
theorem login_keepsStep_iff_ada :
    NulFree "ada" ∧ NulFree "né" ∧ KeepsStep (.login "ada" "né" 0x31) ∧
      ¬ KeepsStep (.login "ada" "né" 0) := by
  have hname : NulFree "ada" := by decide
  have hpassword : NulFree "né" := by decide
  refine ⟨hname, hpassword, ?_, ?_⟩
  · exact (login_keepsStep_iff hname hpassword 0x31).1.mpr (by decide)
  · exact fun h => (login_keepsStep_iff hname hpassword 0).1.mp h rfl

/-- A login with a zero captcha and a question behind it: the login is found with the byte
before its last, the last byte and the first of the question make a code that no command
has, and the question is not found. -/
theorem not_keepsStep_zeroCaptcha :
    let frame := (Command.login "a" "b" 0).encode
    Decoder.idle.scan 0 (frame ++ Command.logStat.encode)
        = (.code 7, [(frame.length - 2, .login "a" "b" 0)]) ∧
      ¬ KeepsStep (.login "a" "b" 0) := by
  intro frame
  have hscan : Decoder.idle.scan 0 (frame ++ Command.logStat.encode)
      = (.code 7, [(frame.length - 2, .login "a" "b" 0)]) := by decide
  refine ⟨hscan, fun h => ?_⟩
  rw [h] at hscan
  revert hscan
  decide

end Microblog
