import Microblog.Proofs.BirthDates

/-!
# What a date field stands for

A date is read from eight places of its field, and of other bytes nothing is read.  Where all
eight have decimal digits, or the field is over, the parts are the numbers that the digits
write.  Any other byte counts as its distance from the digit zero, around the circle of 256.
Then a day and a month are still small, but a year may be too great for sixteen bits; none of
the sums is too great for thirty-two.

## Main definitions

* `BirthDate.digitPlaces` — the places that are read.
* `BirthDate.decimalAt`, `BirthDate.residueAt` — what a decimal digit and what any byte counts
  as.

## Main results

* `BirthDate.toNat_ofField` — the parts of the date of any field.
* `BirthDate.ofFieldInWords?_eq_some` — no sum and no product overflows.
* `date_read_by_places` — **text and field of a date agree where they can.**
-/

namespace Microblog

namespace BirthDate

/-- The places of a field that have the digits of the day, the month and the year. -/
def digitPlaces : List Nat := [0, 1, 3, 4, 6, 7, 8, 9]

/-- The decimal digit at a place of a field, and zero where the field is over. -/
def decimalAt (field : Bytes) (i : Nat) : Nat := (field[i]?.map fun b => b.toNat - 0x30).getD 0

/-- What any byte at a place counts as, and zero where the field is over. -/
def residueAt (field : Bytes) (i : Nat) : Int :=
  (field[i]?.map fun b => ((b.toNat : Int) - 0x30) % 256).getD 0

/-! ### Single places -/

theorem digit_le (field : Bytes) (i : Nat) : digit field i ≤ 255 :=
  Nat.le_of_lt_succ (UInt8.toNat_lt _)

theorem digit_eq_residueAt (field : Bytes) (i : Nat) :
    (digit field i : Int) = residueAt field i := by
  rw [digit, residueAt]
  cases field[i]? with
  | none => rfl
  | some b =>
    have hb := b.toNat_lt
    have hzero : (0x30 : UInt8).toNat = 0x30 := rfl
    simp only [Option.getD_some, Option.map_some, UInt8.toNat_sub, hzero]
    omega

theorem digit_eq_decimalAt {field : Bytes} {i : Nat}
    (h : ∀ b ∈ field[i]?, 0x30 ≤ b ∧ b ≤ 0x39) : digit field i = decimalAt field i := by
  rw [digit, decimalAt]
  cases hget : field[i]? with
  | none => rfl
  | some b => exact UInt8.toNat_sub_of_le b 0x30 (h b hget).1

theorem decimalAt_le {field : Bytes} {i : Nat} (h : ∀ b ∈ field[i]?, 0x30 ≤ b ∧ b ≤ 0x39) :
    decimalAt field i ≤ 9 := by
  rw [decimalAt]
  cases hget : field[i]? with
  | none => exact Nat.zero_le 9
  | some b =>
    have hb : b.toNat ≤ 0x39 := UInt8.le_iff_toNat_le.mp (h b hget).2
    simp only [Option.map_some, Option.getD_some]
    omega

/-! ### The parts of a date -/

/-- **The parts of the date of any field.**  Only the year may be cut down. -/
theorem toNat_ofField (field : Bytes) :
    (ofField field).day.toNat = 10 * digit field 0 + digit field 1 ∧
    (ofField field).month.toNat = 10 * digit field 3 + digit field 4 ∧
    (ofField field).year.toNat =
      (1000 * digit field 6 + 100 * digit field 7 + 10 * digit field 8 + digit field 9)
        % 0x10000 := by
  have hpair : ∀ i j, (digit field i * 10 + digit field j).toUInt16.toNat
      = 10 * digit field i + digit field j := by
    intro i j
    have hi := digit_le field i
    have hj := digit_le field j
    have hlt : digit field i * 10 + digit field j < 0x10000 := by omega
    rw [Nat.mul_comm 10]
    exact UInt16.toNat_ofNat_of_lt' hlt
  refine ⟨hpair 0 1, hpair 3 4, ?_⟩
  rw [Nat.mul_comm 1000, Nat.mul_comm 100, Nat.mul_comm 10]
  exact UInt16.toNat_ofNat'

/-! ### In words of 32 bits -/

theorem toNat_ofNat_word {n : Nat} (h : n < 0x100000000) : (UInt32.ofNat n).toNat = n :=
  UInt32.toNat_ofNat_of_lt' h

theorem word?_eq_some {n : Nat} (h : n < 0x100000000) : word? n = some (.ofNat n) := if_pos h

theorem sum?_ofNat {m n : Nat} (h : m + n < 0x100000000) :
    sum? (.ofNat m) (.ofNat n) = some (.ofNat (m + n)) := by
  rw [sum?, toNat_ofNat_word (by omega), toNat_ofNat_word (by omega), word?_eq_some h]

theorem digitWord_eq (field : Bytes) (i : Nat) : digitWord field i = .ofNat (digit field i) := by
  have hle := digit_le field i
  rw [← UInt32.toNat_inj, toNat_ofNat_word (by omega)]
  exact UInt8.toNat_toUInt32 _

/-- A digit times its weight is a word. -/
theorem product?_digitWord (field : Bytes) (i : Nat) {weight : UInt32} {w : Nat}
    (hweight : weight.toNat = w) (hw : w ≤ 1000) :
    product? (digitWord field i) weight = some (.ofNat (digit field i * w)) := by
  have hle := digit_le field i
  have hproduct : digit field i * w ≤ 255 * 1000 := Nat.mul_le_mul hle hw
  rw [product?, digitWord_eq, toNat_ofNat_word (by omega), hweight, word?_eq_some (by omega)]

theorem twoDigits?_eq_some (field : Bytes) (i j : Nat) :
    twoDigits? field i j = some (.ofNat (digit field i * 10 + digit field j)) := by
  have hi := digit_le field i
  have hj := digit_le field j
  rw [twoDigits?, product?_digitWord field i (w := 10) rfl (by decide), digitWord_eq field j]
  exact sum?_ofNat (by omega)

theorem fourDigits?_eq_some (field : Bytes) (i j k l : Nat) :
    fourDigits? field i j k l =
      some (.ofNat (digit field i * 1000 + digit field j * 100 + digit field k * 10
        + digit field l)) := by
  have hi := digit_le field i
  have hj := digit_le field j
  have hk := digit_le field k
  have hl := digit_le field l
  rw [fourDigits?, product?_digitWord field i (w := 1000) rfl (by decide),
    product?_digitWord field j (w := 100) rfl (by decide),
    product?_digitWord field k (w := 10) rfl (by decide), digitWord_eq field l]
  simp only [Option.bind_eq_bind, Option.bind_some]
  rw [sum?_ofNat (by omega), Option.bind_some, sum?_ofNat (by omega), Option.bind_some,
    sum?_ofNat (by omega)]

/-- **No sum and no product overflows.** -/
theorem ofFieldInWords?_eq_some (field : Bytes) :
    ofFieldInWords? field = some (ofField field) := by
  rw [ofFieldInWords?, twoDigits?_eq_some, twoDigits?_eq_some, fourDigits?_eq_some]
  simp only [Option.bind_eq_bind, Option.bind_some, UInt32.toUInt16_ofNat']
  rfl

end BirthDate

open BirthDate

/-- **Text and field of a date agree where they can.**  A date that is written out is read as
that date exactly if its day and its month have at most two digits and its year at most four.
Where the places that are read have decimal digits, as far as the field goes, the parts are the
numbers that those digits write, whatever the other bytes are.  Of any bytes each counts as its
distance from the digit zero, modulo 256; no number on the way is too great for 32 bits, and only
a year can be cut down to sixteen. -/
theorem date_read_by_places (d : BirthDate) (field : Bytes) :
    let n := decimalAt field
    let r := residueAt field
    (ofField (Text.Utf8.encode d.text) = d ↔ d.Fits) ∧
    ((∀ i ∈ digitPlaces, ∀ b ∈ field[i]?, 0x30 ≤ b ∧ b ≤ 0x39) →
      (ofField field).day.toNat = 10 * n 0 + n 1 ∧ (ofField field).month.toNat = 10 * n 3 + n 4 ∧
      (ofField field).year.toNat = 1000 * n 6 + 100 * n 7 + 10 * n 8 + n 9) ∧
    ofFieldInWords? field = some (ofField field) ∧
    ((ofField field).day.toNat : Int) = 10 * r 0 + r 1 ∧
    ((ofField field).month.toNat : Int) = 10 * r 3 + r 4 ∧
    ((ofField field).year.toNat : Int) = (1000 * r 6 + 100 * r 7 + 10 * r 8 + r 9) % 0x10000 ∧
    ∃ wild : Bytes, ((ofField wild).year.toNat : Int) <
      1000 * residueAt wild 6 + 100 * residueAt wild 7 + 10 * residueAt wild 8
        + residueAt wild 9 := by
  intro n r
  obtain ⟨hday, hmonth, hyear⟩ := toNat_ofField field
  have hr : ∀ i, r i = (digit field i : Int) := fun i => (digit_eq_residueAt field i).symm
  refine ⟨ofField_encode_text_iff, fun hdigits => ?_, ofFieldInWords?_eq_some field, ?_, ?_, ?_,
    List.replicate 10 0x2F, by decide⟩
  · have hn : ∀ i ∈ digitPlaces, digit field i = n i ∧ n i ≤ 9 :=
      fun i hi => ⟨digit_eq_decimalAt (hdigits i hi), decimalAt_le (hdigits i hi)⟩
    simp only [digitPlaces, List.forall_mem_cons] at hn
    omega
  · rw [hr, hr]
    omega
  · rw [hr, hr]
    omega
  · rw [hr, hr, hr, hr]
    omega

/-- A field that is over after eight bytes, with a zero byte and one that begins no character
in the places of the separators. -/
theorem date_read_by_places_eightBytes :
    let field : Bytes := [0x30, 0x37, 0, 0x31, 0x31, 0xFF, 0x31, 0x39]
    (∀ i ∈ digitPlaces, ∀ b ∈ field[i]?, 0x30 ≤ b ∧ b ≤ 0x39) ∧
      (ofField field).day.toNat = 7 ∧ (ofField field).month.toNat = 11 ∧
      (ofField field).year.toNat = 1900 := by
  intro field
  have hdigits : ∀ i ∈ digitPlaces, ∀ b ∈ field[i]?, 0x30 ≤ b ∧ b ≤ 0x39 := by
    simp [digitPlaces, field]
  obtain ⟨hday, hmonth, hyear⟩ := (date_read_by_places ⟨7, 11, 1900⟩ field).2.1 hdigits
  exact ⟨hdigits, hday, hmonth, hyear⟩

end Microblog
