import Microblog.Proofs.CommandLines
import Microblog.Proofs.Legibility
import Microblog.Proofs.LoginFrames

/-!
# What was read can be written again

Any bytes may be fed to a decoder, well formed or not, and what is no text is read as one with
replacement characters.  Whatever commands come of it are clean: a field ends at the first zero
byte, so its text has no U+0000, and the names of a `STAT` are what is left of its field without
the bars and the empty parts.  Clean commands are written and read again as they are, with two
exceptions that have nothing to do with texts: a date that does not fit its places, and the
captcha that ends its own field.

So reading and writing once brings a stream to a form that is not changed by doing it again.

## Main definitions

* `Command.Clean` — no U+0000, and names that can be told apart.
* `Command.FitsFrame` — date and captcha fit the frame.
* `rewritten` — the commands of a stream, written again.

## Main results

* `Decoder.NulFree.clean_of_mem_feed` — commands that are read are clean.
* `Command.Clean.feed_encode_eq_iff` — when a clean command is read as it is written.
* `decoded_reads_back` — **what was read can be written and read again.**
-/

namespace Microblog

open Text Wire

namespace Command

/-- No text has U+0000, and the names of a `STAT` can be told apart. -/
structure Clean (c : Command) : Prop where
  /-- No text has U+0000. -/
  nulFree : ∀ s ∈ c.texts, NulFree s
  /-- The names of a `STAT` are not empty and have no bar. -/
  separable : ∀ names, c = .stat names → ∀ name ∈ names, name ≠ "" ∧ '|' ∉ name.toList

/-- The date of a registration fits its places, and the captcha of a login does not end its
field. -/
def FitsFrame : Command → Prop
  | register _ _ birthDate => birthDate.Fits
  | login _ _ captcha => captcha ≠ 0
  | _ => True

instance : (c : Command) → Decidable c.FitsFrame
  | register _ _ birthDate => inferInstanceAs (Decidable birthDate.Fits)
  | login _ _ captcha => inferInstanceAs (Decidable (captcha ≠ 0))
  | stat _ | logout | logStat | follow .. | block _ | post _ | pm .. =>
    inferInstanceAs (Decidable True)

theorem Clean.writable {c : Command} (hc : c.Clean) (hfits : c.FitsFrame) : c.Writable where
  nulFree := hc.nulFree
  tractable := by
    cases c with
    | register username password birthDate => exact hfits
    | login username password captcha => exact hfits
    | stat names => exact hc.separable names rfl
    | _ => trivial

end Command

namespace Wire

/-! ### What is read is clean -/

/-- Only the field of a `STAT` gives a `STAT`. -/
theorem OpenFrame.eq_usernames_of_close {frame : OpenFrame} {bs : Bytes} {names : List String}
    (h : frame.close bs = .inr (.stat names)) : names = usernames (Utf8.decode bs) := by
  cases frame <;> cases h
  rfl

namespace Decoder

variable {d : Decoder} {c : Command}

/-- The code of a frame alone completes no `STAT`. -/
theorem begin_snd_ne_stat (o : Option Opcode) (names : List String) :
    (begin o).2 ≠ some (.stat names) := by
  cases o with
  | none => simp [begin]
  | some o => cases o <;> simp [begin]

/-- The names of a `STAT` that a decoder completes are those of its field. -/
theorem exists_usernames_of_step {b : UInt8} {names : List String}
    (h : (d.step b).2 = some (.stat names)) : ∃ list, names = usernames list := by
  cases d with
  | idle =>
    simp only [step] at h
    split at h <;> cases h
  | code hi => exact absurd h (begin_snd_ne_stat (Opcode.ofCode? (ofBytes hi b)) names)
  | direction => cases h
  | field frame read =>
    simp only [step] at h
    split at h
    · split at h
      · cases h
      · next hclose =>
        cases h
        exact ⟨_, OpenFrame.eq_usernames_of_close hclose⟩
    · cases h

theorem NulFree.clean_of_step (hd : d.NulFree) {b : UInt8} (h : (d.step b).2 = some c) :
    c.Clean where
  nulFree := (hd.step b).2 c h
  separable := by
    rintro names rfl name hname
    obtain ⟨list, rfl⟩ := exists_usernames_of_step h
    obtain ⟨hne, hbar, -⟩ := mem_usernames hname
    exact ⟨hne, hbar⟩

/-- **The commands that are read of any bytes are clean.** -/
theorem NulFree.clean_of_mem_feed (hd : d.NulFree) {bs : Bytes} (h : c ∈ (d.feed bs).2) :
    c.Clean := by
  induction bs generalizing d with
  | nil => cases h
  | cons b bs ih =>
    rw [feed_cons, List.mem_append, Option.mem_toList] at h
    rcases h with h | h
    · exact hd.clean_of_step h
    · exact ih (hd.step b).1 h

end Decoder

end Wire

/-! ### What is clean is read again -/

namespace Command

variable {c : Command}

theorem Clean.feed_encode (hc : c.Clean) (hfits : c.FitsFrame) :
    Decoder.idle.feed c.encode = (.idle, [c]) :=
  Decoder.feed_of_run_frame (Parser.run_frame_encode (hc.writable hfits) [])

/-- **A clean command is read as it is written exactly if date and captcha fit.** -/
theorem Clean.feed_encode_eq_iff (hc : c.Clean) :
    Decoder.idle.feed c.encode = (.idle, [c]) ↔ c.FitsFrame := by
  refine ⟨fun h => ?_, hc.feed_encode⟩
  cases c with
  | register username password birthDate =>
    -- the date that is read is the one that the field stands for
    have hname : NulFree username := hc.nulFree _ (by simp [texts])
    have hpassword : NulFree password := hc.nulFree _ (by simp [texts])
    have hread := Decoder.feed_of_run_frame
      (Parser.run_frame_register hname hpassword birthDate [])
    have hsame := List.singleton_inj.mp (congrArg Prod.snd (hread.symm.trans h))
    injection hsame with _ _ hdate
    exact BirthDate.ofField_encode_text_iff.mp hdate
  | login username password captcha =>
    have hname : NulFree username := hc.nulFree _ (by simp [texts])
    have hpassword : NulFree password := hc.nulFree _ (by simp [texts])
    rintro rfl
    -- behind a zero captcha the decoder is within a code
    have hscan := Decoder.scan_login_zero hname hpassword 0 []
    dsimp only at hscan
    rw [List.append_nil] at hscan
    rw [Decoder.feed, hscan] at h
    cases congrArg Prod.fst h
  | _ => trivial

end Command

/-- The commands that are read of some bytes, written again one behind the other. -/
def rewritten (bs : Bytes) : Bytes := (Decoder.idle.feed bs).2.flatMap Command.encode

/-- Frames one behind the other are read one by one. -/
theorem feed_flatMap_encode {cs : List Command} (h : ∀ c ∈ cs, c.Writable) :
    Decoder.idle.feed (cs.flatMap Command.encode) = (.idle, cs) := by
  have hstream : cs.flatMap Command.encode = stream (cs.map fun c => (0, c)) 0 := by
    simp [stream, List.flatMap_map]
  have hitems : ∀ item ∈ cs.map fun c => (0, c), item.2.Writable := by
    intro item hitem
    obtain ⟨c, hc, rfl⟩ := List.mem_map.mp hitem
    exact h c hc
  have hcommands : (cs.map fun c => (0, c)).map Prod.snd = cs := by
    rw [List.map_map]
    exact List.map_id cs
  rw [hstream, Decoder.feed, Decoder.scan_stream hitems, map_snd_places, hcommands]

/-- **What was read can be written and read again.**  Whatever bytes a new decoder is fed, each
command that it completes has no U+0000 in its texts, and the names of a `STAT` are not empty and
have no bar.  Its frame is read as this command, and leaves the decoder idle, exactly if it is no
registration with a date that does not fit its places and no login with a zero captcha.  If there
are none of these, the commands written again are read as the same commands, and to read and write
them once more changes no byte. -/
theorem decoded_reads_back (bs : Bytes) :
    (∀ c ∈ (Decoder.idle.feed bs).2, c.Clean ∧
      (Decoder.idle.feed c.encode = (.idle, [c]) ↔ c.FitsFrame)) ∧
    ((∀ c ∈ (Decoder.idle.feed bs).2, c.FitsFrame) →
      Decoder.idle.feed (rewritten bs) = (.idle, (Decoder.idle.feed bs).2) ∧
        rewritten (rewritten bs) = rewritten bs) := by
  have hclean : ∀ c ∈ (Decoder.idle.feed bs).2, c.Clean := fun c hc =>
    Decoder.NulFree.clean_of_mem_feed (d := .idle) trivial hc
  refine ⟨fun c hc => ⟨hclean c hc, (hclean c hc).feed_encode_eq_iff⟩, fun hfits => ?_⟩
  have hread : Decoder.idle.feed (rewritten bs) = (.idle, (Decoder.idle.feed bs).2) :=
    feed_flatMap_encode fun c hc => (hclean c hc).writable (hfits c hc)
  exact ⟨hread, congrArg (fun r => r.2.flatMap Command.encode) hread⟩

/-- A post with a byte that begins no character and one that breaks off, a list of names with
empty parts, an unknown code, and a frame that breaks off. -/
def garbled : Bytes :=
  [0x3B, 0, 5, 0xFF, 0x61, 0xE2, 0x82, 0, 0, 8, 0x7C, 0x61, 0x7C, 0x7C, 0xC3, 0xA9, 0, 0, 9, 0, 3, 0]

/-- They are read as commands that can be written, with replacement characters and without the
empty parts. -/
theorem decoded_reads_back_garbled :
    let cs : List Command := [.post "\uFFFDa\uFFFD", .stat ["a", "é"], .logout]
    (Decoder.idle.feed garbled).2 = cs ∧ (∀ c ∈ cs, c.FitsFrame) ∧
      (∀ c ∈ cs, c.Clean ∧ Decoder.idle.feed c.encode = (.idle, [c])) ∧
      Decoder.idle.feed (rewritten garbled) = (.idle, cs) ∧
      rewritten garbled ≠ garbled ∧ rewritten (rewritten garbled) = rewritten garbled := by
  intro cs
  have hread : (Decoder.idle.feed garbled).2 = cs := by decide +kernel
  have hfits : ∀ c ∈ cs, c.FitsFrame := by decide
  obtain ⟨heach, hall⟩ := decoded_reads_back garbled
  rw [hread] at heach hall
  obtain ⟨hagain, hfixed⟩ := hall hfits
  have hone : ∀ c ∈ cs, c.Clean ∧ Decoder.idle.feed c.encode = (.idle, [c]) := fun c hc =>
    ⟨(heach c hc).1, (heach c hc).2.mpr (hfits c hc)⟩
  exact ⟨hread, hfits, hone, hagain, by decide +kernel, hfixed⟩

end Microblog
