import Microblog.Proofs.BirthDates
import Microblog.Proofs.NulFree
import Microblog.Proofs.WholeBuffer

/-!
# Streams of commands

A client writes frame after frame, with separators between them as it likes, and the
stream is cut into chunks wherever it happens to be.  The decoder finds the commands
again, provided that each is `Writable`: its texts have no U+0000, which would end their
field, its date fits the places that a date has, its captcha is not the byte that ends a
field, and its names for `STAT` can be told apart.

For one frame this is read off the parser of whole buffers, which takes a frame apart as
the writer puts it together; for a stream it is an induction over its frames.

## Main definitions

* `Command.texts`, `Command.Writable` — the texts of a command, and what they must be.
* `stream`, `places` — frames with separators, and where the frames end.
* `Decoder.scanChunks` — many chunks, one after another.

## Main results

* `Parser.run_frame_encode` — a frame is read as the command that it was written for.
* `commands_round_trip` — **a stream of commands is read as it was written.**
-/

namespace Microblog

open Text Wire

namespace Command

/-- The texts that a command carries. -/
def texts : Command → List String
  | register username password _ | login username password _ => [username, password]
  | logout | logStat => []
  | follow _ username | block username => [username]
  | post content => [content]
  | pm username content => [username, content]
  | stat usernames => usernames

/-- What a command must be, apart from its texts, to be read as it is written. -/
def Tractable : Command → Prop
  | register _ _ birthDate => birthDate.Fits
  | login _ _ captcha => captcha ≠ 0
  | stat usernames => ∀ name ∈ usernames, name ≠ "" ∧ '|' ∉ name.toList
  | _ => True

instance : (c : Command) → Decidable c.Tractable
  | register _ _ birthDate => inferInstanceAs (Decidable birthDate.Fits)
  | login _ _ captcha => inferInstanceAs (Decidable (captcha ≠ 0))
  | stat usernames =>
    inferInstanceAs (Decidable (∀ name ∈ usernames, name ≠ "" ∧ '|' ∉ name.toList))
  | logout | logStat | follow .. | block _ | post _ | pm .. => inferInstanceAs (Decidable True)

/-- A command that is read as it is written. -/
structure Writable (c : Command) : Prop where
  /-- No text has U+0000. -/
  nulFree : ∀ s ∈ c.texts, NulFree s
  /-- Date, captcha and names fit their fields. -/
  tractable : c.Tractable

instance (c : Command) : Decidable c.Writable :=
  decidable_of_iff ((∀ s ∈ c.texts, NulFree s) ∧ c.Tractable)
    ⟨fun ⟨hn, ht⟩ => ⟨hn, ht⟩, fun ⟨hn, ht⟩ => ⟨hn, ht⟩⟩

end Command

namespace Wire

/-! ### One frame -/

/-- The names for a `STAT` can be told apart in the list that is written. -/
theorem usernames_intercalate {names : List String}
    (h : ∀ name ∈ names, name ≠ "" ∧ '|' ∉ name.toList) :
    usernames ("|".intercalate names) = names := by
  have hbar : ∀ name ∈ names.map String.toList, '|' ∉ name := by
    intro name hname
    obtain ⟨s, hs, rfl⟩ := List.mem_map.mp hname
    exact (h s hs).2
  have hne : ∀ name ∈ names.map String.toList, name ≠ [] := by
    intro name hname
    obtain ⟨s, hs, rfl⟩ := List.mem_map.mp hname
    simpa using (h s hs).1
  cases names with
  | nil => rfl
  | cons name names =>
    rw [Decoder.usernames_eq, String.toList_intercalate,
      show "|".toList = ['|'] from rfl, List.splitOn_intercalate '|' hbar (by simp),
      List.filter_eq_self.mpr (by simpa using hne)]
    simp

namespace Parser

/-- A field is read as the bytes that were written. -/
theorem run_raw_append {content : Bytes} (h : (0 : UInt8) ∉ content) (rest : Bytes) :
    raw.run (content ++ terminator :: rest) = some (content, rest) := by
  induction content with
  | nil => rfl
  | cons b content ih =>
    rw [List.mem_cons, not_or] at h
    have hraw : raw.run (b :: (content ++ terminator :: rest))
        = (raw.run (content ++ terminator :: rest)).map fun r => (b :: r.1, r.2) :=
      if_neg (Ne.symm h.1)
    rw [List.cons_append, hraw, ih h.2]
    rfl

theorem run_raw_bind {α : Type} {content : Bytes} (h : (0 : UInt8) ∉ content)
    (k : Bytes → Parser α) (rest : Bytes) :
    (raw >>= k).run (content ++ terminator :: rest) = (k content).run rest := by
  rw [StateT.run_bind, run_raw_append h]
  rfl

theorem run_text_bind {α : Type} {s : String} (h : NulFree s) (k : String → Parser α)
    (rest : Bytes) : (text >>= k).run (field s ++ rest) = (k s).run rest := by
  rw [text_bind, field, List.append_assoc, List.singleton_append,
    run_raw_bind (Utf8.zero_notMem_encode h), Utf8.decode_encode]

theorem run_byte_bind {α : Type} (k : UInt8 → Parser α) (b : UInt8) (rest : Bytes) :
    (byte >>= k).run (b :: rest) = (k b).run rest := rfl

/-- The code of a frame says what body there is. -/
theorem run_frame_eq_body (c : Command) (rest : Bytes) :
    frame.run (c.encode ++ rest) = (body c.opcode.code.toNat).run (c.body ++ rest) := by
  rw [Command.encode, word, List.append_assoc]
  change (body (256 * _ + _)).run _ = _
  rw [← toNat_ofBytes, ofBytes_word]
  rfl

/-- A registration is read with the date that its field stands for, which may be another. -/
theorem run_frame_register {username password : String} (hname : NulFree username)
    (hpassword : NulFree password) (birthDate : BirthDate) (rest : Bytes) :
    frame.run ((Command.register username password birthDate).encode ++ rest) =
      some (some (.register username password (.ofField (Utf8.encode birthDate.text))), rest) := by
  rw [run_frame_eq_body]
  change (text >>= fun _ => text >>= fun _ => raw >>= fun _ => pure _).run
    (field username ++ field password ++ field birthDate.text ++ rest) = _
  rw [List.append_assoc, List.append_assoc, run_text_bind hname, run_text_bind hpassword,
    field, List.append_assoc, List.singleton_append,
    run_raw_bind birthDate.zero_notMem_encode_text]
  rfl

/-- **A frame is read as the command that it was written for.** -/
theorem run_frame_encode {c : Command} (hc : c.Writable) (rest : Bytes) :
    frame.run (c.encode ++ rest) = some (some c, rest) := by
  have htext : ∀ s ∈ c.texts, NulFree s := hc.nulFree
  have hfits : c.Tractable := hc.tractable
  cases c with
  | register username password birthDate =>
    have hname : NulFree username := htext _ (by simp [Command.texts])
    have hpassword : NulFree password := htext _ (by simp [Command.texts])
    rw [run_frame_register hname hpassword, BirthDate.ofField_encode_text hfits]
  | login username password captcha =>
    have hname : NulFree username := htext _ (by simp [Command.texts])
    have hpassword : NulFree password := htext _ (by simp [Command.texts])
    have hcaptcha : (0 : UInt8) ∉ [captcha] := by simpa using Ne.symm hfits
    rw [run_frame_eq_body]
    change (text >>= fun _ => text >>= fun _ => raw >>= fun _ => pure _).run
      (field username ++ field password ++ ([captcha] ++ [terminator]) ++ rest) = _
    rw [List.append_assoc, List.append_assoc, run_text_bind hname, run_text_bind hpassword,
      List.append_assoc]
    exact run_raw_bind hcaptcha _ rest
  | logout => rfl
  | follow direction username =>
    have hname : NulFree username := htext _ (by simp [Command.texts])
    have hdirection : decide (directionByte direction = 0) = direction := by
      cases direction <;> rfl
    rw [run_frame_eq_body]
    change (byte >>= fun _ => text >>= fun _ => pure _).run
      (directionByte direction :: (field username ++ rest)) = _
    rw [run_byte_bind, run_text_bind hname, hdirection]
    rfl
  | post content =>
    have hcontent : NulFree content := htext _ (by simp [Command.texts])
    rw [run_frame_eq_body]
    change (text >>= fun _ => pure _).run (field content ++ rest) = _
    rw [run_text_bind hcontent]
    rfl
  | pm username content =>
    have hname : NulFree username := htext _ (by simp [Command.texts])
    have hcontent : NulFree content := htext _ (by simp [Command.texts])
    rw [run_frame_eq_body]
    change (text >>= fun _ => text >>= fun _ => pure _).run
      (field username ++ field content ++ rest) = _
    rw [List.append_assoc, run_text_bind hname, run_text_bind hcontent]
    rfl
  | logStat => rfl
  | stat names =>
    have hlist : NulFree ("|".intercalate names) := nulFree_intercalate (by decide) htext
    rw [run_frame_eq_body]
    change (text >>= fun _ => pure _).run (field ("|".intercalate names) ++ rest) = _
    rw [run_text_bind hlist, ← Decoder.usernames_eq, usernames_intercalate hfits]
    rfl
  | block username =>
    have hname : NulFree username := htext _ (by simp [Command.texts])
    rw [run_frame_eq_body]
    change (text >>= fun _ => pure _).run (field username ++ rest) = _
    rw [run_text_bind hname]
    rfl

end Parser

/-! ### Many frames -/

/-- Frames with separators: before each frame as many as are given with it, and `trailing`
behind the last. -/
def stream (items : List (Nat × Command)) (trailing : Nat) : Bytes :=
  items.flatMap (fun item => List.replicate item.1 separator ++ item.2.encode)
    ++ List.replicate trailing separator

/-- The commands of a stream whose first byte is byte number `n`, each with the number of
the last byte of its own frame. -/
def places (n : Nat) : List (Nat × Command) → List (Nat × Command)
  | [] => []
  | (separators, c) :: items =>
    let next := n + separators + c.encode.length
    (next - 1, c) :: places next items

namespace Decoder

/-- The decoder after the bytes of many chunks, the first of which is byte number `n` of
the stream, and the commands that they complete, each with the number of its last byte. -/
def scanChunks (d : Decoder) (n : Nat) : List Bytes → Decoder × List (Nat × Command)
  | [] => (d, [])
  | chunk :: chunks =>
    let first := d.scan n chunk
    let others := first.1.scanChunks (n + chunk.length) chunks
    (others.1, first.2 ++ others.2)

/-- How a stream is cut does not matter. -/
theorem scanChunks_eq_scan (d : Decoder) (n : Nat) (chunks : List Bytes) :
    d.scanChunks n chunks = d.scan n chunks.flatten := by
  induction chunks generalizing d n with
  | nil => rfl
  | cons chunk chunks ih => rw [scanChunks, ih, List.flatten_cons, scan_append]

/-- Separators are skipped. -/
theorem scan_separators (count n : Nat) (bs : Bytes) :
    idle.scan n (List.replicate count separator ++ bs) = idle.scan (n + count) bs := by
  induction count generalizing n with
  | zero => rfl
  | succ count ih =>
    have hstep : idle.step separator = (idle, none) := rfl
    rw [List.replicate_succ, List.cons_append, scan_cons_eq_resume, hstep, resume_none, ih,
      Nat.add_right_comm, Nat.add_assoc]

/-- What the parser finds in a frame the decoder finds, with the last of the bytes that the
parser takes. -/
theorem scan_of_run_frame {c found : Command} {bs used rest : Bytes}
    (hrun : Parser.frame.run (c.encode ++ bs) = some (some found, rest))
    (hbs : c.encode ++ bs = used ++ rest) (n : Nat) :
    idle.scan n (c.encode ++ bs) =
      ((idle.scan (n + used.length) rest).1,
        (n + used.length - 1, found) :: (idle.scan (n + used.length) rest).2) := by
  have hzero : (c.opcode.code >>> 8).toUInt8 = 0 := by
    have hall : ∀ o : Opcode, (o.code >>> 8).toUInt8 = 0 := by rintro ⟨⟩ <;> rfl
    exact hall c.opcode
  obtain ⟨tail, htail⟩ : ∃ tail, c.encode = 0 :: tail := by
    refine ⟨c.opcode.code.toUInt8 :: c.body, ?_⟩
    rw [← hzero]
    rfl
  have hscan := scan_frame (b := 0) (by decide) n (tail ++ bs)
  rw [htail, List.cons_append] at hrun hbs ⊢
  rw [hrun] at hscan
  obtain ⟨taken, htaken, hscan⟩ := hscan
  have heq : used = 0 :: taken := by
    rw [htaken, ← List.cons_append] at hbs
    exact (List.append_cancel_right hbs).symm
  rw [hscan, heq, List.length_cons]
  rfl

/-- What the parser makes of a whole frame is all that the decoder finds in it. -/
theorem feed_of_run_frame {c found : Command}
    (h : Parser.frame.run (c.encode ++ []) = some (some found, [])) :
    idle.feed c.encode = (idle, [found]) := by
  have hscan := scan_of_run_frame h rfl 0
  rw [List.append_nil] at hscan
  rw [feed, hscan]
  rfl

/-- The command of a frame is found with the last byte of the frame. -/
theorem scan_encode {c : Command} (hc : c.Writable) (n : Nat) (bs : Bytes) :
    idle.scan n (c.encode ++ bs) =
      ((idle.scan (n + c.encode.length) bs).1,
        (n + c.encode.length - 1, c) :: (idle.scan (n + c.encode.length) bs).2) :=
  scan_of_run_frame (Parser.run_frame_encode hc bs) rfl n

/-- A stream is read frame by frame. -/
theorem scan_stream {items : List (Nat × Command)} (h : ∀ item ∈ items, item.2.Writable)
    (n trailing : Nat) : idle.scan n (stream items trailing) = (idle, places n items) := by
  induction items generalizing n with
  | nil =>
    have hskip := scan_separators trailing n []
    rwa [List.append_nil] at hskip
  | cons item items ih =>
    obtain ⟨separators, c⟩ := item
    have hc : c.Writable := h _ List.mem_cons_self
    have hothers := fun n => ih (fun item hitem => h item (List.mem_cons_of_mem _ hitem)) n
    have hstream : stream ((separators, c) :: items) trailing
        = List.replicate separators separator ++ (c.encode ++ stream items trailing) := by
      simp [stream]
    rw [hstream, scan_separators, scan_encode hc, hothers]
    rfl

end Decoder

/-- The commands that are found are those of the stream, in their order. -/
theorem map_snd_places (items : List (Nat × Command)) (n : Nat) :
    (places n items).map Prod.snd = items.map Prod.snd := by
  induction items generalizing n with
  | nil => rfl
  | cons item items ih => rw [places, List.map_cons, List.map_cons, ih]

end Wire

/-- **A stream of commands is read as it was written.**  Whatever separators stand before,
between and behind the frames, and however the stream is cut into chunks, a new decoder
finds the commands that were written, in their order, each with the last byte of its own
frame, and is idle in the end. -/
theorem commands_round_trip {items : List (Nat × Command)}
    (h : ∀ item ∈ items, item.2.Writable) (trailing : Nat) {chunks : List Bytes}
    (hchunks : chunks.flatten = stream items trailing) :
    Decoder.idle.scanChunks 0 chunks = (.idle, places 0 items) ∧
      (Decoder.idle.scanChunks 0 chunks).2.map Prod.snd = items.map Prod.snd := by
  have hscan : Decoder.idle.scanChunks 0 chunks = (.idle, places 0 items) := by
    rw [Decoder.scanChunks_eq_scan, hchunks, Decoder.scan_stream h]
  refine ⟨hscan, ?_⟩
  rw [hscan, map_snd_places]

/-- A registration, a login and a question, with separators around them. -/
def introduction : List (Nat × Command) :=
  [(2, .register "ada" "né" ⟨10, 12, 815⟩), (0, .login "ada" "né" 0x31),
    (1, .stat ["ada", "bob"])]

/-- The introduction, cut within its first code and within its last name. -/
theorem commands_round_trip_introduction :
    let bytes := stream introduction 1
    let chunks := [bytes.take 3, (bytes.drop 3).take 40, bytes.drop 43]
    (∀ item ∈ introduction, item.2.Writable) ∧
      places 0 introduction = [(22, .register "ada" "né" ⟨10, 12, 815⟩),
        (34, .login "ada" "né" 0x31), (45, .stat ["ada", "bob"])] ∧
      Decoder.idle.scanChunks 0 chunks = (.idle, places 0 introduction) := by
  have hwritable : ∀ item ∈ introduction, item.2.Writable := by decide
  have hchunks : [(stream introduction 1).take 3, ((stream introduction 1).drop 3).take 40,
      (stream introduction 1).drop 43].flatten = stream introduction 1 := by decide
  exact ⟨hwritable, by decide, (commands_round_trip hwritable 1 hchunks).1⟩

end Microblog
