import Microblog.BirthDate

/-!
# Ages

A user's age is fixed at registration: the whole years since the date of birth,
up to the day that the directory takes for today.  Dates of birth are not
checked, so the day and month of one may be no date of the calendar; what counts
is only whether they come after today's.

## Main definitions

* `Date` — a day of the calendar.
* `Date.reached` — the birthday of this year has come.
* `ageOn` — the age on a day, between zero and 65535.
* `Date.InRange` — the days of a calendar with a first and a last year.
* `ageInWords?` — the age on a day, worked out in words of 32 bits.
-/

namespace Microblog

/-- A day of the calendar, with years before the first counted down from zero. -/
structure Date where
  /-- The year. -/
  year : Int
  /-- The month of the year. -/
  month : Nat
  /-- The day of the month. -/
  day : Nat
  deriving DecidableEq, Repr, Inhabited

/-- On the day `today` the birthday of this year has come. -/
def Date.reached (today : Date) (born : BirthDate) : Prop :=
  born.month.toNat < today.month ∨ born.month.toNat = today.month ∧ born.day.toNat ≤ today.day

instance (today : Date) (born : BirthDate) : Decidable (today.reached born) := by
  unfold Date.reached; infer_instance

/-- The whole years between a date of birth and a day; negative for births to come. -/
def yearsBetween (today : Date) (born : BirthDate) : Int :=
  today.year - born.year.toNat - if today.reached born then 0 else 1

/-- The age on a day: the whole years since birth, but at least zero and at most
65535. -/
def ageOn (today : Date) (born : BirthDate) : UInt16 :=
  (min (yearsBetween today born).toNat 0xFFFF).toUInt16

/-! ### In words of 32 bits -/

/-- A day of a calendar whose years are numbers of nineteen bits.  How many days each month has
does not matter here. -/
structure Date.InRange (d : Date) : Prop where
  /-- The year is not before the first. -/
  year_ge : -262144 ≤ d.year
  /-- The year is not after the last. -/
  year_le : d.year ≤ 262143
  /-- The month is one of twelve. -/
  month : 1 ≤ d.month ∧ d.month ≤ 12
  /-- No month has more days. -/
  day : 1 ≤ d.day ∧ d.day ≤ 31

instance (d : Date) : Decidable d.InRange :=
  decidable_of_iff ((-262144 ≤ d.year ∧ d.year ≤ 262143) ∧ (1 ≤ d.month ∧ d.month ≤ 12) ∧
      1 ≤ d.day ∧ d.day ≤ 31)
    ⟨fun ⟨⟨hge, hle⟩, hm, hd⟩ => ⟨hge, hle, hm, hd⟩,
      fun ⟨hge, hle, hm, hd⟩ => ⟨⟨hge, hle⟩, hm, hd⟩⟩

/-- The difference of two words, if it is a word. -/
def difference? (a b : Int32) : Option Int32 :=
  if Int32.minValue.toInt ≤ a.toInt - b.toInt ∧ a.toInt - b.toInt ≤ Int32.maxValue.toInt then
    some (a - b)
  else none

/-- A word cut down to sixteen bits, after it has been put between zero and 65535. -/
def clamped (years : Int32) : UInt16 :=
  (if years < 0 then 0 else if 0xFFFF < years then 0xFFFF else years).toUInt32.toUInt16

/-- The age on a day, in words throughout, or nothing if a difference overflows. -/
def ageInWords? (today : Date) (born : BirthDate) : Option UInt16 := do
  let month := UInt32.ofNat today.month
  let day := UInt32.ofNat today.day
  let years ← difference? (Int32.ofInt today.year) (Int32.ofNat born.year.toNat)
  let years ←
    if month < born.month.toUInt32 ∨ month = born.month.toUInt32 ∧ day < born.day.toUInt32 then
      difference? years 1
    else some years
  return clamped years

end Microblog
