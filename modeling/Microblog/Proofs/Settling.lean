import Microblog.Proofs.WholeBuffer

/-!
# Decoders come to rest

A decoder with registers that all kinds of frame share could go wrong in two ways.  It could
keep something of a frame that is over, which the next frame would then find; and it could
come into a state that no byte leads out of, as with a code whose frame has no body to read,
and swallow whatever follows.

Neither happens.  Between frames the registers are as they were at first, and within a frame
the code is that of a command with a body.  Each zero byte then ends something: a code, since
no code ends in one, the raw byte of a `FOLLOW`, or a field.  So zero bytes end every frame,
and no frame has more than three fields.

## Main definitions

* `Opcode.withBody` — the opcodes of commands with a body.
* `Registers.Sound` — what the registers hold in every state that bytes lead to.
* `Decoder.due`, `Decoder.owed` — how many zero bytes end the frame under way, and how many
  commands it gives.

## Main results

* `Registers.Holds.sound` — registers that do what a decoder does are sound.
* `Decoder.feed_zeros` — each zero byte brings the end of the frame nearer.
* `decoder_comes_to_rest` — **a decoder keeps nothing of a frame that is over, and at most
  three zero bytes end the one under way.**
-/

namespace Microblog

/-- The opcodes of commands with a body. -/
def Opcode.withBody : List Opcode := [.register, .login, .follow, .post, .pm, .stat, .block]

namespace Wire

/-! ### Zero bytes -/

/-- So many zero bytes. -/
def zeros (k : Nat) : Bytes := List.replicate k terminator

@[simp] theorem zeros_zero : zeros 0 = [] := rfl

theorem zeros_succ (k : Nat) : zeros (k + 1) = terminator :: zeros k := rfl

theorem zeros_add (j k : Nat) : zeros (j + k) = zeros j ++ zeros k :=
  List.replicate_append_replicate.symm

/-- No code ends in a zero byte. -/
theorem ofCode?_ofBytes_terminator (hi : UInt8) :
    Opcode.ofCode? (ofBytes hi terminator) = none := by
  cases h : Opcode.ofCode? (ofBytes hi terminator) with
  | none => rfl
  | some o =>
    have hcode := congrArg UInt16.toNat (Opcode.ofCode?_eq_some_iff.mp h)
    have hzero : terminator.toNat = 0 := rfl
    rw [toNat_ofBytes, hzero] at hcode
    have hrange : 0 < o.code.toNat ∧ o.code.toNat < 256 := by cases o <;> decide
    omega

/-- How many fields of the frame are still to end, this one included. -/
def OpenFrame.fieldsLeft : OpenFrame → Nat
  | registerName | loginName => 3
  | registerPassword _ | loginPassword _ | pmRecipient => 2
  | registerDate _ _ | loginCaptcha _ _ | pmContent _ => 1
  | followName _ | postContent | statNames | blockName => 1

/-- The end of a field leaves one field less, and none behind the last. -/
theorem OpenFrame.fieldsLeft_close (frame : OpenFrame) (bs : Bytes) :
    frame.fieldsLeft = (frame.close bs).elim fieldsLeft (fun _ => 0) + 1 := by
  cases frame <;> rfl

theorem OpenFrame.fieldsLeft_le (frame : OpenFrame) : frame.fieldsLeft ≤ 3 := by
  cases frame <;> simp [fieldsLeft]

namespace Decoder

/-- How many zero bytes end the frame under way. -/
def due : Decoder → Nat
  | idle => 0
  | code _ => 1
  | direction => 2
  | field frame _ => frame.fieldsLeft

/-- How many commands the frame under way gives, if zero bytes end it. -/
def owed : Decoder → Nat
  | idle | code _ => 0
  | direction | field _ _ => 1

theorem due_le (d : Decoder) : d.due ≤ 3 := by
  cases d with
  | idle => simp [due]
  | code hi => simp [due]
  | direction => simp [due]
  | field frame read => exact frame.fieldsLeft_le

theorem due_eq_zero_iff {d : Decoder} : d.due = 0 ↔ d = idle := by
  cases d with
  | idle => simp [due]
  | code hi => simp [due]
  | direction => simp [due]
  | field frame read => simp [due, frame.fieldsLeft_close read]

theorem owed_le (d : Decoder) : d.owed ≤ 1 := by
  cases d <;> simp [owed]

/-- Within a frame a zero byte brings its end one byte nearer, and gives the command that is
owed with the last. -/
theorem due_step_terminator {d : Decoder} (hd : d ≠ idle) :
    (d.step terminator).1.due + 1 = d.due ∧
      (d.step terminator).2.toList.length + (d.step terminator).1.owed = d.owed := by
  cases d with
  | idle => exact absurd rfl hd
  | code hi =>
    rw [step, ofCode?_ofBytes_terminator]
    exact ⟨rfl, rfl⟩
  | direction => exact ⟨rfl, rfl⟩
  | field frame read =>
    have hleft := frame.fieldsLeft_close read.reverse
    rw [step_terminator, afterField]
    cases hclose : frame.close read.reverse with
    | inl next =>
      rw [hclose] at hleft
      exact ⟨hleft.symm, rfl⟩
    | inr c =>
      rw [hclose] at hleft
      exact ⟨hleft.symm, rfl⟩

/-- **Each zero byte brings the end of the frame nearer**, until there is none under way. -/
theorem feed_zeros {d : Decoder} {k : Nat} (hk : k ≤ d.due) :
    (d.feed (zeros k)).1.due + k = d.due ∧
      (d.feed (zeros k)).2.length + (d.feed (zeros k)).1.owed = d.owed := by
  induction k generalizing d with
  | zero => simp
  | succ k ih =>
    have hd : d ≠ idle := by
      rintro rfl
      exact absurd hk (Nat.not_succ_le_zero k)
    obtain ⟨hdue, howed⟩ := due_step_terminator hd
    obtain ⟨hdueRest, howedRest⟩ := ih (d := (d.step terminator).1) (by omega)
    rw [zeros_succ, feed_cons]
    dsimp only
    rw [List.length_append]
    exact ⟨by omega, by omega⟩

/-- Behind them the decoder is between frames, and what was owed has been given. -/
theorem feed_zeros_due (d : Decoder) :
    (d.feed (zeros d.due)).1 = idle ∧ (d.feed (zeros d.due)).2.length = d.owed := by
  obtain ⟨hdue, howed⟩ := feed_zeros (Nat.le_refl d.due)
  have hidle : (d.feed (zeros d.due)).1 = idle := due_eq_zero_iff.mp (by omega)
  rw [hidle] at howed
  exact ⟨hidle, howed⟩

/-- Zero bytes alone are codes that no command has. -/
theorem feed_zeros_idle (k : Nat) :
    (idle.feed (zeros k)).2 = [] ∧ ((code terminator).feed (zeros k)).2 = [] := by
  have hidle : idle.step terminator = (code terminator, none) := rfl
  have hcode : (code terminator).step terminator = (idle, none) := rfl
  induction k with
  | zero => exact ⟨rfl, rfl⟩
  | succ k ih =>
    rw [zeros_succ, feed_cons, feed_cons, hidle, hcode]
    exact ⟨ih.2, ih.1⟩

/-- No number of zero bytes gives more than one command. -/
theorem length_feed_zeros_le (d : Decoder) (k : Nat) : (d.feed (zeros k)).2.length ≤ 1 := by
  have howed := d.owed_le
  rcases Nat.le_total k d.due with hk | hk
  · have hgiven := (feed_zeros hk).2
    omega
  · obtain ⟨more, rfl⟩ := Nat.exists_eq_add_of_le hk
    obtain ⟨hidle, hgiven⟩ := d.feed_zeros_due
    rw [zeros_add, feed_append, hidle, (feed_zeros_idle more).1, List.append_nil, hgiven]
    exact howed

end Decoder

/-! ### The registers -/

namespace Registers

/-- What the registers hold in every state that bytes lead to. -/
structure Sound (s : Registers) : Prop where
  /-- Between frames they are as they were at first. -/
  eq_of_isIdle : s.isIdle = true → s = {}
  /-- A code has two bytes. -/
  codeLength_le : s.codeLength ≤ 2
  /-- Once the code is in, it is that of a command with a body. -/
  exists_opcode : s.codeLength = 2 → ∃ o ∈ Opcode.withBody, s.opcode = some o
  /-- The separators are counted up to two. -/
  separators_le : s.separators.toNat ≤ 2

/-- Registers within the body of a command. -/
theorem Sound.of_body {s : Registers} {o : Opcode} (hlength : s.codeLength = 2)
    (hopcode : s.opcode = some o) (ho : o ∈ Opcode.withBody)
    (hseparators : s.separators.toNat ≤ 2) : Sound s where
  eq_of_isIdle := fun h => by
    rw [isIdle, hlength] at h
    contradiction
  codeLength_le := Nat.le_of_eq hlength
  exists_opcode := fun _ => ⟨o, ho, hopcode⟩
  separators_le := hseparators

/-- The count of separators has room for one more. -/
theorem Sound.toNat_separators_add_one {s : Registers} (h : Sound s) :
    (s.separators + 1).toNat = s.separators.toNat + 1 := by
  have hle := h.separators_le
  have hone : (1 : UInt8).toNat = 1 := rfl
  rw [UInt8.toNat_add, hone]
  exact Nat.mod_eq_of_lt (by omega)

variable {s : Registers} {d : Decoder}

/-- **Registers that do what a decoder does are sound.** -/
theorem Holds.sound (h : Holds s d) : Sound s := by
  cases h with
  | idle => exact ⟨fun _ => rfl, by decide, by decide, by decide⟩
  | code hi => exact ⟨(nomatch ·), Nat.le_succ 1, (nomatch ·), Nat.zero_le 2⟩
  -- in a body each case has its opcode and its count of separators written out
  | _ => exact .of_body rfl rfl (by decide) (Nat.le_of_ble_eq_true rfl)

/-- A command is owed once the code is in. -/
theorem Holds.owed_eq (h : Holds s d) : d.owed = if s.codeLength = 2 then 1 else 0 := by
  cases h <;> rfl

/-- Zero bytes do to the registers what they do to the decoder. -/
theorem Holds.scan_zeros (h : Holds s d) (k : Nat) :
    Holds (s.scan 0 (zeros k)).1 (d.feed (zeros k)).1 ∧
      (s.scan 0 (zeros k)).2 = (d.scan 0 (zeros k)).2 ∧
      (s.scan 0 (zeros k)).2.length = (d.feed (zeros k)).2.length := by
  obtain ⟨hholds, hfound⟩ := h.scan 0 (zeros k)
  refine ⟨hholds, hfound, ?_⟩
  rw [hfound, Decoder.feed, List.length_map]

/-- **Zero bytes end the frame under way**, as many as are due and no fewer. -/
theorem Holds.settles (h : Holds s d) :
    (∀ j < d.due, (s.scan 0 (zeros j)).1.isIdle = false) ∧ (s.scan 0 (zeros d.due)).1 = {} ∧
      (s.scan 0 (zeros d.due)).2.length = if s.codeLength = 2 then 1 else 0 := by
  refine ⟨fun j hj => ?_, ?_, ?_⟩
  · have hdue := (Decoder.feed_zeros (Nat.le_of_lt hj)).1
    have hne : (d.feed (zeros j)).1.due ≠ 0 := by omega
    rw [(h.scan_zeros j).1.isIdle]
    cases hrest : (d.feed (zeros j)).1 with
    | idle => exact absurd (congrArg Decoder.due hrest) hne
    | _ => rfl
  · have hholds := (h.scan_zeros d.due).1
    have hidle : (s.scan 0 (zeros d.due)).1.isIdle = true := by
      rw [hholds.isIdle, d.feed_zeros_due.1]
      rfl
    exact hholds.sound.eq_of_isIdle hidle
  · rw [(h.scan_zeros d.due).2.2, d.feed_zeros_due.2, h.owed_eq]

end Registers

end Wire

open Wire

/-- **A decoder keeps nothing of a frame that is over, and at most three zero bytes end the one
under way.**  In every state that bytes lead to, the registers between frames are as they were
at first; within a frame the code is that of a command with a body, and the separators are
counted up to two, so that there is room for one more.  From a state within a frame some number
of zero bytes, not more than three, leads back between frames, and fewer do not; they complete
one command if the code was in, and none otherwise, and no number of zero bytes completes more.
A decoder that keeps only what it needs does the same with each number of them. -/
theorem decoder_comes_to_rest (bs : Bytes) :
    let s := (Registers.scan {} 0 bs).1
    let d := (Decoder.idle.scan 0 bs).1
    s.Sound ∧ (s.separators + 1).toNat = s.separators.toNat + 1 ∧
    (s.isIdle = false → ∃ k, 0 < k ∧ k ≤ 3 ∧
      (∀ j < k, (s.scan 0 (zeros j)).1.isIdle = false) ∧ (s.scan 0 (zeros k)).1 = {} ∧
      (s.scan 0 (zeros k)).2.length = if s.codeLength = 2 then 1 else 0) ∧
    ∀ k, (s.scan 0 (zeros k)).2.length ≤ 1 ∧
      (s.scan 0 (zeros k)).1.isIdle = (d.scan 0 (zeros k)).1.isIdle ∧
      (s.scan 0 (zeros k)).2 = (d.scan 0 (zeros k)).2 := by
  intro s d
  have hholds : Registers.Holds s d := (Registers.Holds.idle.scan 0 bs).1
  refine ⟨hholds.sound, hholds.sound.toNat_separators_add_one, fun hbusy => ?_, fun k => ?_⟩
  · obtain ⟨hfewer, hrest, hgiven⟩ := hholds.settles
    have hdue : d.due ≠ 0 := by
      intro hzero
      rw [hholds.isIdle, Decoder.due_eq_zero_iff.mp hzero] at hbusy
      contradiction
    exact ⟨d.due, Nat.pos_of_ne_zero hdue, d.due_le, hfewer, hrest, hgiven⟩
  · obtain ⟨hrest, hfound, hlength⟩ := hholds.scan_zeros k
    refine ⟨?_, hrest.isIdle, hfound⟩
    rw [hlength]
    exact d.length_feed_zeros_le k

/-- A separator, a code that no command has, a whole `FOLLOW`, and the front of a `LOGIN`: the
decoder is within the first of three fields. -/
theorem decoder_comes_to_rest_halfLogin :
    let bs : Bytes := [separator, 0, 9, 0, 4, 1, 0x62, 0, 0, 2, 0x61, separator]
    let s := (Registers.scan {} 0 bs).1
    s.isIdle = false ∧ s.codeLength = 2 ∧
      ∃ k, 0 < k ∧ k ≤ 3 ∧ (s.scan 0 (zeros k)).1 = {} ∧ (s.scan 0 (zeros k)).2.length = 1 := by
  intro bs s
  have hbusy : s.isIdle = false := by decide
  have hlength : s.codeLength = 2 := by decide
  obtain ⟨k, hpos, hle, -, hrest, hgiven⟩ := (decoder_comes_to_rest bs).2.2.1 hbusy
  rw [if_pos hlength] at hgiven
  exact ⟨hbusy, hlength, k, hpos, hle, hrest, hgiven⟩

end Microblog
