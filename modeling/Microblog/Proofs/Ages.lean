import Mathlib.Data.Prod.Lex
import Mathlib.Order.Bounds.Basic
import Microblog.Age

/-!
# Ages by the calendar

The age on a day is found by subtracting years and looking whether the birthday of this year has
come.  By the calendar it is the greatest number of years after which the birthday has come, where
days are compared as the calendar compares them: by year, then by month, then by day.  This also
makes sense for dates of birth that are no days of a calendar, and for births to come.

In words of 32 bits the same comes out, since no day is far enough from a date of birth for a
difference to overflow.

## Main definitions

* `Date.calendar`, `BirthDate.anniversary` — days and birthdays in the order of the calendar.

## Main results

* `anniversary_le_calendar_iff` — which birthdays have come.
* `ageInWords?_eq_some` — no difference overflows.
* `age_is_whole_years` — **the age is the number of birthdays, and falls with the date of birth.**
-/

namespace Microblog

/-- A day in the order of the calendar. -/
def Date.calendar (d : Date) : ℤ ×ₗ ℕ ×ₗ ℕ := toLex (d.year, toLex (d.month, d.day))

/-- The birthday `n` years after a birth, in the order of the calendar. -/
def BirthDate.anniversary (born : BirthDate) (n : ℤ) : ℤ ×ₗ ℕ ×ₗ ℕ :=
  toLex (born.year.toNat + n, toLex (born.month.toNat, born.day.toNat))

section

variable {today : Date} {born later : BirthDate} {n : ℤ}

/-! ### Birthdays -/

/-- **A birthday has come exactly if it is not after as many years as there are between.** -/
theorem anniversary_le_calendar_iff :
    born.anniversary n ≤ today.calendar ↔ n ≤ yearsBetween today born := by
  have hbirthday : toLex (born.month.toNat, born.day.toNat) ≤ toLex (today.month, today.day)
      ↔ today.reached born := by
    rw [Prod.Lex.toLex_le_toLex]
    rfl
  rw [BirthDate.anniversary, Date.calendar, Prod.Lex.toLex_le_toLex, hbirthday, yearsBetween]
  dsimp only
  by_cases hreached : today.reached born
  · simp only [hreached, and_true, if_true]
    omega
  · simp only [hreached, and_false, or_false, if_false]
    omega

theorem isGreatest_yearsBetween (today : Date) (born : BirthDate) :
    IsGreatest {n : ℤ | born.anniversary n ≤ today.calendar} (yearsBetween today born) :=
  ⟨anniversary_le_calendar_iff.mpr le_rfl, fun _ hn => anniversary_le_calendar_iff.mp hn⟩

/-- Of two births the later one has its birthdays later. -/
theorem anniversary_le_anniversary (h : born.anniversary 0 ≤ later.anniversary 0) (n : ℤ) :
    born.anniversary n ≤ later.anniversary n := by
  simp only [BirthDate.anniversary, Prod.Lex.toLex_le_toLex] at h ⊢
  omega

/-! ### Between zero and 65535 -/

theorem toNat_ageOn (today : Date) (born : BirthDate) :
    ((ageOn today born).toNat : ℤ) = max 0 (min (yearsBetween today born) 65535) := by
  have hlt : min (yearsBetween today born).toNat 0xFFFF < 2 ^ 16 := by omega
  have hage : (ageOn today born).toNat = min (yearsBetween today born).toNat 0xFFFF :=
    UInt16.toNat_ofNat_of_lt' hlt
  rw [hage]
  omega

/-- Whoever was born earlier is not younger. -/
theorem ageOn_le_ageOn (today : Date) (h : born.anniversary 0 ≤ later.anniversary 0) :
    ageOn today later ≤ ageOn today born := by
  have hyears : yearsBetween today later ≤ yearsBetween today born :=
    (isGreatest_yearsBetween today later).mono (isGreatest_yearsBetween today born)
      fun n hn => (anniversary_le_anniversary h n).trans hn
  have hlater := toNat_ageOn today later
  have hborn := toNat_ageOn today born
  rw [UInt16.le_iff_toNat_le]
  omega

/-! ### In words of 32 bits -/

/-- A difference that is a word is found. -/
theorem difference?_eq_some {a b : Int32} (hge : -0x80000000 ≤ a.toInt - b.toInt)
    (hlt : a.toInt - b.toInt < 0x80000000) :
    ∃ c, difference? a b = some c ∧ c.toInt = a.toInt - b.toInt := by
  refine ⟨a - b, if_pos ⟨hge, Int.le_sub_one_of_lt hlt⟩, ?_⟩
  rw [Int32.toInt_sub]
  exact Int.bmod_eq_of_le (by omega) (by omega)

theorem clamped_eq (years : Int32) :
    clamped years = (min years.toInt.toNat 0xFFFF).toUInt16 := by
  have hzero : (0 : Int32).toInt = 0 := rfl
  have hmost : (0xFFFF : Int32).toInt = 0xFFFF := rfl
  unfold clamped
  split
  · next hneg =>
    rw [Int32.lt_iff_toInt_lt, hzero] at hneg
    rw [Int.toNat_of_nonpos (by omega)]
    rfl
  · next hnonneg =>
    rw [Int32.lt_iff_toInt_lt, hzero] at hnonneg
    split
    · next hgt =>
      rw [Int32.lt_iff_toInt_lt, hmost] at hgt
      rw [Nat.min_eq_right (by omega)]
      rfl
    · next hle =>
      rw [Int32.lt_iff_toInt_lt, hmost] at hle
      have hword : years.toUInt32.toNat = years.toInt.toNat :=
        Int32.toNat_toUInt32_of_le (Int32.le_iff_toInt_le.mpr (by omega))
      rw [Nat.min_eq_left (by omega), ← hword]
      rfl

/-- A comparison in words is one of numbers. -/
theorem not_reached_iff (h : today.InRange) (born : BirthDate) :
    (UInt32.ofNat today.month < born.month.toUInt32 ∨
      UInt32.ofNat today.month = born.month.toUInt32 ∧
        UInt32.ofNat today.day < born.day.toUInt32) ↔ ¬ today.reached born := by
  have hmonth : (UInt32.ofNat today.month).toNat = today.month :=
    UInt32.toNat_ofNat_of_lt' (Nat.lt_of_le_of_lt h.month.2 (by decide))
  have hday : (UInt32.ofNat today.day).toNat = today.day :=
    UInt32.toNat_ofNat_of_lt' (Nat.lt_of_le_of_lt h.day.2 (by decide))
  rw [UInt32.lt_iff_toNat_lt, UInt32.lt_iff_toNat_lt, ← UInt32.toNat_inj, hmonth, hday,
    UInt16.toNat_toUInt32, UInt16.toNat_toUInt32, Date.reached]
  omega

/-- **No difference overflows.** -/
theorem ageInWords?_eq_some (h : today.InRange) (born : BirthDate) :
    ageInWords? today born = some (ageOn today born) := by
  obtain ⟨hge, hle⟩ := And.intro h.year_ge h.year_le
  have hborn := born.year.toNat_lt
  have hyear : (Int32.ofInt today.year).toInt = today.year :=
    Int32.toInt_ofInt_of_le (by omega) (by omega)
  have hbirth : (Int32.ofNat born.year.toNat).toInt = born.year.toNat :=
    Int32.toInt_ofNat_of_lt (by omega)
  obtain ⟨years, hyears, hyearsInt⟩ := difference?_eq_some
    (a := Int32.ofInt today.year) (b := Int32.ofNat born.year.toNat) (by omega) (by omega)
  rw [hyear, hbirth] at hyearsInt
  have hone : (1 : Int32).toInt = 1 := rfl
  obtain ⟨fewer, hfewer, hfewerInt⟩ := difference?_eq_some (a := years) (b := 1)
    (by omega) (by omega)
  simp only [ageInWords?, not_reached_iff h, hyears, bind, Option.bind, ageOn, yearsBetween]
  by_cases hreached : today.reached born
  · simp only [hreached, not_true, if_false, if_true, clamped_eq, hyearsInt]
    simp
  · simp only [hreached, not_false_iff, if_false, if_true, clamped_eq, hfewer, hfewerInt, hyearsInt]
    rfl

end

/-- **The age is the number of birthdays that have come, between zero and 65535.**  By the
calendar the years between a date of birth and a day are the greatest number after which the
birthday is not after that day, whether or not the date of birth is a day of the calendar.  The
age is that number, cut down to what sixteen bits hold; in words of 32 bits it is found without
overflow on every day of the calendar; and on the same day nobody is younger than those who were
born later. -/
theorem age_is_whole_years (today : Date) (born : BirthDate) :
    IsGreatest {n : ℤ | born.anniversary n ≤ today.calendar} (yearsBetween today born) ∧
    ((ageOn today born).toNat : ℤ) = max 0 (min (yearsBetween today born) 65535) ∧
    (today.InRange → ageInWords? today born = some (ageOn today born)) ∧
    ∀ later : BirthDate, born.anniversary 0 ≤ later.anniversary 0 →
      ageOn today later ≤ ageOn today born :=
  ⟨isGreatest_yearsBetween today born, toNat_ageOn today born,
    fun h => ageInWords?_eq_some h born, fun _ h => ageOn_le_ageOn today h⟩

/-- On a leap day, those born on the day after it, which is none, have not had their birthday;
and on the first day of all nobody has. -/
theorem age_is_whole_years_leapDay :
    let today : Date := ⟨2024, 2, 29⟩
    let first : Date := ⟨-262144, 1, 1⟩
    let born : BirthDate := ⟨29, 2, 2000⟩
    let later : BirthDate := ⟨30, 2, 2000⟩
    let last : BirthDate := ⟨65535, 65535, 65535⟩
    today.InRange ∧ ageInWords? today born = some 24 ∧ ageInWords? today later = some 23 ∧
      first.InRange ∧ ageInWords? first last = some 0 ∧
      born.anniversary 0 ≤ later.anniversary 0 ∧ ageOn today later ≤ ageOn today born := by
  intro today first born later last
  have htoday : today.InRange := by decide
  have hfirst : first.InRange := by decide
  have hle : born.anniversary 0 ≤ later.anniversary 0 := by decide
  refine ⟨htoday, ?_, ?_, hfirst, ?_, hle, (age_is_whole_years today born).2.2.2 later hle⟩
  · exact (age_is_whole_years today born).2.2.1 htoday
  · exact (age_is_whole_years today later).2.2.1 htoday
  · exact (age_is_whole_years first last).2.2.1 hfirst

end Microblog
