import Microblog.Text.Utf8

/-!
# Birth dates

A registration gives the date of birth as ten characters, `DD-MM-YYYY`.  The
reader looks only at the eight places of the digits: whatever stands between
them is ignored, a place beyond the end of the field counts as the digit zero,
and a byte that is no digit counts as its distance from the digit zero, modulo
256.  No date is refused, so day and month may be any numbers.

## Main definitions

* `BirthDate` — day, month and year.
* `BirthDate.ofField` — the date that the bytes of a field stand for.
* `BirthDate.text` — the date written out.
* `BirthDate.ofFieldInWords?` — the date of a field, worked out in words of 32 bits.
-/

namespace Microblog

/-- A date of birth, as the user gave it. -/
structure BirthDate where
  /-- The day of the month. -/
  day : UInt16
  /-- The month of the year. -/
  month : UInt16
  /-- The year. -/
  year : UInt16
  deriving DecidableEq, Repr, Inhabited

namespace BirthDate

/-- The digit at place `i` of a field. -/
def digit (field : Bytes) (i : Nat) : Nat := (field[i]?.getD 0x30 - 0x30).toNat

/-- The date that a field stands for. -/
def ofField (field : Bytes) : BirthDate where
  day := (digit field 0 * 10 + digit field 1).toUInt16
  month := (digit field 3 * 10 + digit field 4).toUInt16
  year :=
    (digit field 6 * 1000 + digit field 7 * 100 + digit field 8 * 10 + digit field 9).toUInt16

/-- A number in decimal digits, with zeros in front to make up `width` places. -/
def padded (width : Nat) (n : UInt16) : List Char :=
  (Nat.toDigits 10 n.toNat).leftpad width '0'

/-- A date written out: two places for day and month, four for the year, and more
where they do not suffice. -/
def text (d : BirthDate) : String :=
  String.ofList (padded 2 d.day ++ '-' :: (padded 2 d.month ++ '-' :: padded 4 d.year))

/-! ### In words of 32 bits -/

/-- The word that stands for a number, if one does. -/
def word? (n : Nat) : Option UInt32 := if n < UInt32.size then some (.ofNat n) else none

/-- The sum of two words, if it is a word. -/
def sum? (a b : UInt32) : Option UInt32 := word? (a.toNat + b.toNat)

/-- The product of two words, if it is a word. -/
def product? (a b : UInt32) : Option UInt32 := word? (a.toNat * b.toNat)

/-- The digit at place `i` of a field, as a word. -/
def digitWord (field : Bytes) (i : Nat) : UInt32 := (field[i]?.getD 0x30 - 0x30).toUInt32

/-- The number that two digits of a field make, if it and its parts are words. -/
def twoDigits? (field : Bytes) (i j : Nat) : Option UInt32 := do
  let tens ← product? (digitWord field i) 10
  sum? tens (digitWord field j)

/-- The number that four digits of a field make, if it and its parts are words. -/
def fourDigits? (field : Bytes) (i j k l : Nat) : Option UInt32 := do
  let thousands ← product? (digitWord field i) 1000
  let hundreds ← product? (digitWord field j) 100
  let tens ← product? (digitWord field k) 10
  sum? (← sum? (← sum? thousands hundreds) tens) (digitWord field l)

/-- The date that a field stands for, in words throughout until each part is cut down to
sixteen bits, or nothing if a sum or a product overflows. -/
def ofFieldInWords? (field : Bytes) : Option BirthDate := do
  let day ← twoDigits? field 0 1
  let month ← twoDigits? field 3 4
  let year ← fourDigits? field 6 7 8 9
  return ⟨day.toUInt16, month.toUInt16, year.toUInt16⟩

end BirthDate

end Microblog
