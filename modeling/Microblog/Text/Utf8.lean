/-!
# UTF-8

Every text crosses the wire as UTF-8.  Writing is core's encoding of each
character.  Reading accepts any bytes at all: what is no UTF-8 becomes the
replacement character, one for each maximal stretch of bytes that could still
have begun a character.

The reader looks at one byte at a time.  Between two bytes all it remembers is
`Pending`: how many bytes the character under way still lacks, the range that
the next of them must lie in, and the bits read so far.  The ranges after the
lead bytes `E0`, `ED`, `F0` and `F4` are narrower than the usual `80`–`BF`,
which keeps out overlong forms, surrogates and numbers beyond `10FFFF`.

## Main definitions

* `encode` — the bytes of a text.
* `Pending`, `step` — the state between two bytes, and what one byte does to it.
* `decode` — the text that any bytes stand for.
-/

namespace Microblog

/-- A stretch of raw bytes, as read from or written to a connection. -/
abbrev Bytes := List UInt8

namespace Text

/-- What stands for bytes that are no UTF-8. -/
def replacement : Char := '\uFFFD'

namespace Utf8

/-- The UTF-8 form of a text. -/
def encode (s : String) : Bytes := s.toList.flatMap String.utf8EncodeChar

@[simp] theorem encode_empty : encode "" = [] := rfl

theorem encode_ofList (cs : List Char) :
    encode (String.ofList cs) = cs.flatMap String.utf8EncodeChar := by
  simp [encode]

/-- The character under way between two bytes. -/
inductive Pending where
  /-- The next byte begins a character. -/
  | none
  /-- After the next byte, which must lie between `lo` and `hi`, `more` bytes are
  still missing; `bits` is the number read so far. -/
  | partway (more lo hi bits : Nat)
  deriving DecidableEq, Repr, Inhabited

/-- The state after the first byte of a character of several bytes; `none` for a
byte that begins no such character. -/
def lead (b : Nat) : Option Pending :=
  if b < 0xC2 then Option.none
  else if b < 0xE0 then some (.partway 0 0x80 0xBF (b - 0xC0))
  else if b = 0xE0 then some (.partway 1 0xA0 0xBF 0)
  else if b = 0xED then some (.partway 1 0x80 0x9F 0xD)
  else if b < 0xF0 then some (.partway 1 0x80 0xBF (b - 0xE0))
  else if b = 0xF0 then some (.partway 2 0x90 0xBF 0)
  else if b < 0xF4 then some (.partway 2 0x80 0xBF (b - 0xF0))
  else if b = 0xF4 then some (.partway 2 0x80 0x8F 4)
  else Option.none

/-- A byte where a character begins: the characters it completes, and the state
after it. -/
def start (b : Nat) : List Char × Pending :=
  if b < 0x80 then ([Char.ofNat b], .none)
  else match lead b with
    | some p => ([], p)
    | Option.none => ([replacement], .none)

/-- One byte of a text: the characters it completes, and the state after it.  A
byte that cannot go on with the character under way ends it as malformed and is
then read as a first byte. -/
def step (p : Pending) (b : Nat) : List Char × Pending :=
  match p with
  | .none => start b
  | .partway more lo hi bits =>
    if lo ≤ b ∧ b ≤ hi then
      match more with
      | 0 => ([Char.ofNat (bits * 64 + b % 64)], .none)
      | more + 1 => ([], .partway more 0x80 0xBF (bits * 64 + b % 64))
    else (replacement :: (start b).1, (start b).2)

/-- What a text that ends here still yields: a character that lacks bytes is
malformed. -/
def Pending.flush : Pending → List Char
  | .none => []
  | .partway .. => [replacement]

/-- The characters of `bs` read on from the state `p`, after `out`, whose last
character comes first. -/
def decodeFrom (out : List Char) (p : Pending) : Bytes → List Char
  | [] => out.reverseAux p.flush
  | b :: bs => decodeFrom ((step p b.toNat).1.reverseAux out) (step p b.toNat).2 bs

/-- The text that `bs` stands for. -/
def decode (bs : Bytes) : String := String.ofList (decodeFrom [] .none bs)

/-- What was read before only stands in front. -/
theorem decodeFrom_eq_reverse_append (out : List Char) (p : Pending) (bs : Bytes) :
    decodeFrom out p bs = out.reverse ++ decodeFrom [] p bs := by
  induction bs generalizing out p with
  | nil => simp [decodeFrom, List.reverseAux_eq]
  | cons b bs ih =>
    rw [decodeFrom, ih, decodeFrom, ih ((step p b.toNat).1.reverseAux [])]
    simp [List.reverseAux_eq]

@[simp] theorem decodeFrom_nil (p : Pending) : decodeFrom [] p [] = p.flush := rfl

theorem decodeFrom_cons (p : Pending) (b : UInt8) (bs : Bytes) :
    decodeFrom [] p (b :: bs) = (step p b.toNat).1 ++ decodeFrom [] (step p b.toNat).2 bs := by
  rw [decodeFrom, decodeFrom_eq_reverse_append]
  simp [List.reverseAux_eq]

@[simp] theorem decode_nil : decode [] = "" := rfl

theorem toList_decode (bs : Bytes) : (decode bs).toList = decodeFrom [] .none bs := by
  simp [decode]

theorem decodeFrom_ascii {v : Nat} (h : v < 0x80) (bs : Bytes) :
    decodeFrom [] .none (UInt8.ofNat v :: bs) = Char.ofNat v :: decodeFrom [] .none bs := by
  have hv : (UInt8.ofNat v).toNat = v := by simp; omega
  rw [decodeFrom_cons, hv]
  simp [step, start, h]

theorem decodeFrom_lead {v : Nat} {p : Pending} (hv : v < 256) (h : lead v = some p)
    (bs : Bytes) :
    decodeFrom [] .none (UInt8.ofNat v :: bs) = decodeFrom [] p bs := by
  have hb : (UInt8.ofNat v).toNat = v := by simp; omega
  have h80 : ¬ v < 0x80 := by intro h'; simp [lead, show v < 0xC2 by omega] at h
  rw [decodeFrom_cons, hb]
  simp [step, start, h80, h]

theorem decodeFrom_next {v more lo hi bits : Nat} (hv : v < 64) (hlo : lo ≤ v + 128)
    (hhi : v + 128 ≤ hi) (bs : Bytes) :
    decodeFrom [] (.partway (more + 1) lo hi bits) (UInt8.ofNat (v + 128) :: bs)
      = decodeFrom [] (.partway more 0x80 0xBF (bits * 64 + v)) bs := by
  have hb : (UInt8.ofNat (v + 128)).toNat = v + 128 := by simp; omega
  rw [decodeFrom_cons, hb]
  simp [step, hlo, hhi, show (v + 128) % 64 = v by omega]

theorem decodeFrom_last {v lo hi bits : Nat} (hv : v < 64) (hlo : lo ≤ v + 128)
    (hhi : v + 128 ≤ hi) (bs : Bytes) :
    decodeFrom [] (.partway 0 lo hi bits) (UInt8.ofNat (v + 128) :: bs)
      = Char.ofNat (bits * 64 + v) :: decodeFrom [] .none bs := by
  have hb : (UInt8.ofNat (v + 128)).toNat = v + 128 := by simp; omega
  rw [decodeFrom_cons, hb]
  simp [step, hlo, hhi, show (v + 128) % 64 = v by omega]

/-- The bytes of a character read as that character. -/
theorem decodeFrom_utf8EncodeChar (c : Char) (bs : Bytes) :
    decodeFrom [] .none (String.utf8EncodeChar c ++ bs) = c :: decodeFrom [] .none bs := by
  have hc : Char.ofNat c.val.toNat = c := Char.ofNat_toNat c
  have hv : c.val.toNat < 0xD800 ∨ 0xDFFF < c.val.toNat ∧ c.val.toNat < 0x110000 := c.valid
  simp only [String.utf8EncodeChar]
  generalize c.val.toNat = v at hc hv
  split
  · rw [List.cons_append, decodeFrom_ascii (by omega), hc, List.nil_append]
  split
  · have hl : lead (v / 64 % 32 + 192) = some (.partway 0 0x80 0xBF (v / 64)) := by
      grind [lead]
    simp only [List.cons_append, List.nil_append]
    rw [decodeFrom_lead (by omega) hl, decodeFrom_last (by omega) (by omega) (by omega),
      show v / 64 * 64 + v % 64 = v by omega, hc]
  split
  · obtain ⟨lo, hi, hl, h1, h2⟩ : ∃ lo hi,
        lead (v / 4096 % 16 + 224) = some (.partway 1 lo hi (v / 4096)) ∧
          lo ≤ v / 64 % 64 + 128 ∧ v / 64 % 64 + 128 ≤ hi := by
      by_cases h0 : v / 4096 = 0
      · exact ⟨0xA0, 0xBF, by simp [lead, h0], by omega, by omega⟩
      by_cases hd : v / 4096 = 13
      · exact ⟨0x80, 0x9F, by simp [lead, hd], by omega, by omega⟩
      · exact ⟨0x80, 0xBF, by grind [lead], by omega, by omega⟩
    simp only [List.cons_append, List.nil_append]
    rw [decodeFrom_lead (by omega) hl, decodeFrom_next (by omega) h1 h2,
      decodeFrom_last (by omega) (by omega) (by omega),
      show (v / 4096 * 64 + v / 64 % 64) * 64 + v % 64 = v by omega, hc]
  · obtain ⟨lo, hi, hl, h1, h2⟩ : ∃ lo hi,
        lead (v / 262144 % 8 + 240) = some (.partway 2 lo hi (v / 262144)) ∧
          lo ≤ v / 4096 % 64 + 128 ∧ v / 4096 % 64 + 128 ≤ hi := by
      by_cases h0 : v / 262144 = 0
      · exact ⟨0x90, 0xBF, by simp [lead, h0], by omega, by omega⟩
      by_cases h4 : v / 262144 = 4
      · exact ⟨0x80, 0x8F, by simp [lead, h4], by omega, by omega⟩
      · exact ⟨0x80, 0xBF, by grind [lead], by omega, by omega⟩
    simp only [List.cons_append, List.nil_append]
    rw [decodeFrom_lead (by omega) hl, decodeFrom_next (by omega) h1 h2,
      decodeFrom_next (by omega) (by omega) (by omega),
      decodeFrom_last (by omega) (by omega) (by omega),
      show ((v / 262144 * 64 + v / 4096 % 64) * 64 + v / 64 % 64) * 64 + v % 64 = v by omega, hc]

/-- **A written text reads back.** -/
@[simp] theorem decode_encode (s : String) : decode (encode s) = s := by
  have h : ∀ cs : List Char, decodeFrom [] .none (cs.flatMap String.utf8EncodeChar) = cs := by
    intro cs
    induction cs with
    | nil => rfl
    | cons c cs ih => rw [List.flatMap_cons, decodeFrom_utf8EncodeChar, ih]
  rw [decode, encode, h, String.ofList_toList]

/-- Only the empty text has no bytes. -/
theorem encode_eq_nil_iff {s : String} : encode s = [] ↔ s = "" := by
  refine ⟨fun h => ?_, fun h => h ▸ encode_empty⟩
  rw [← decode_encode s, h, decode_nil]

end Utf8

end Text

end Microblog
