import Microblog.BirthDate

/-!
# Dates that are read as they are written

The writer of a date gives each part as many places as it needs, and at least two or four;
the reader takes digits from fixed places.  So a date comes back exactly if its parts fit
the places that they have at least.

Everything rests on `leftpad_toDigits`: a number in decimal digits, padded to a width, is
the number without its last digit, padded to one place less, and then that digit.

## Main definitions

* `digitByte` — the byte of a decimal digit.
* `BirthDate.Fits` — the parts of a date fit their places.

## Main results

* `BirthDate.encode_text` — the ten bytes of a date.
* `BirthDate.ofField_encode_text` — a date that fits is read as it is written.
* `BirthDate.ofField_encode_text_iff` — and no other date is.
-/

namespace Microblog

/-- The byte of a decimal digit. -/
def digitByte (k : Nat) : UInt8 := UInt8.ofNat (0x30 + k)

/-- Decimal digits are single bytes. -/
theorem utf8EncodeChar_digitChar {k : Nat} (hk : k < 10) :
    String.utf8EncodeChar (Nat.digitChar k) = [digitByte k] := by
  have hall : ∀ k < 10, String.utf8EncodeChar (Nat.digitChar k) = [digitByte k] := by decide
  exact hall k hk

/-- The last digit of a padded number comes off its end. -/
theorem leftpad_toDigits {width : Nat} (hw : 0 < width) (n : Nat) :
    (Nat.toDigits 10 n).leftpad (width + 1) '0'
      = (Nat.toDigits 10 (n / 10)).leftpad width '0' ++ [Nat.digitChar (n % 10)] := by
  rw [Nat.toDigits_eq_if (by decide : 1 < 10) (n := n)]
  split
  · next hn =>
    have hzero : n / 10 = 0 := Nat.div_eq_of_lt hn
    have hpad : List.replicate width '0' = List.replicate (width - 1) '0' ++ ['0'] := by
      rw [← List.replicate_succ', Nat.sub_add_cancel hw]
    rw [hzero, Nat.mod_eq_of_lt hn, Nat.toDigits_of_lt_base (by decide : 0 < 10)]
    exact congrArg (· ++ [Nat.digitChar n]) hpad
  · have hlength : width + 1 - (Nat.toDigits 10 (n / 10) ++ [Nat.digitChar (n % 10)]).length
        = width - (Nat.toDigits 10 (n / 10)).length := by
      rw [List.length_append, List.length_singleton, Nat.add_sub_add_right]
    rw [List.leftpad, hlength, List.leftpad, List.append_assoc]

/-- A single digit needs no padding. -/
theorem leftpad_toDigits_one {n : Nat} (hn : n < 10) :
    (Nat.toDigits 10 n).leftpad 1 '0' = [Nat.digitChar n] := by
  rw [Nat.toDigits_of_lt_base hn]
  rfl

/-- A number in decimal digits. -/
theorem exists_toDigits_eq (n : Nat) :
    ∃ ks : List Nat, (∀ k ∈ ks, k < 10) ∧ Nat.toDigits 10 n = ks.map Nat.digitChar := by
  induction n using Nat.strongRecOn with
  | ind n ih =>
    rw [Nat.toDigits_eq_if (by decide : 1 < 10) (n := n)]
    split
    · next hn => exact ⟨[n], by simpa using hn, rfl⟩
    · obtain ⟨ks, hks, heq⟩ := ih (n / 10) (by omega)
      refine ⟨ks ++ [n % 10], ?_, by rw [heq, List.map_append]; rfl⟩
      intro k hk
      rcases List.mem_append.mp hk with hk | hk
      · exact hks k hk
      · rw [List.mem_singleton.mp hk]
        exact Nat.mod_lt n (by decide)

/-- Digits are written byte for byte. -/
theorem flatMap_utf8EncodeChar_digits {ks : List Nat} (h : ∀ k ∈ ks, k < 10) :
    (ks.map Nat.digitChar).flatMap String.utf8EncodeChar = ks.map digitByte := by
  induction ks with
  | nil => rfl
  | cons k ks ih =>
    rw [List.forall_mem_cons] at h
    rw [List.map_cons, List.flatMap_cons, utf8EncodeChar_digitChar h.1, ih h.2]
    rfl

namespace BirthDate

/-- Two digits. -/
theorem padded_two {n : UInt16} (hn : n.toNat < 100) :
    padded 2 n = [Nat.digitChar (n.toNat / 10), Nat.digitChar (n.toNat % 10)] := by
  have htens : n.toNat / 10 < 10 := by omega
  rw [padded, leftpad_toDigits (by decide), leftpad_toDigits_one htens]
  rfl

/-- Four digits. -/
theorem padded_four {n : UInt16} (hn : n.toNat < 10000) :
    padded 4 n = [Nat.digitChar (n.toNat / 10 / 10 / 10), Nat.digitChar (n.toNat / 10 / 10 % 10),
      Nat.digitChar (n.toNat / 10 % 10), Nat.digitChar (n.toNat % 10)] := by
  have hthousands : n.toNat / 10 / 10 / 10 < 10 := by omega
  rw [padded, leftpad_toDigits (by decide), leftpad_toDigits (by decide),
    leftpad_toDigits (by decide), leftpad_toDigits_one hthousands]
  rfl

/-- The parts of a date fit the places that they have. -/
structure Fits (d : BirthDate) : Prop where
  /-- The day has two digits. -/
  day_le : d.day ≤ 99
  /-- The month has two digits. -/
  month_le : d.month ≤ 99
  /-- The year has four digits. -/
  year_le : d.year ≤ 9999

instance (d : BirthDate) : Decidable d.Fits :=
  decidable_of_iff (d.day ≤ 99 ∧ d.month ≤ 99 ∧ d.year ≤ 9999)
    ⟨fun ⟨hd, hm, hy⟩ => ⟨hd, hm, hy⟩, fun ⟨hd, hm, hy⟩ => ⟨hd, hm, hy⟩⟩

theorem Fits.toNat_le {d : BirthDate} (hd : d.Fits) :
    d.day.toNat ≤ 99 ∧ d.month.toNat ≤ 99 ∧ d.year.toNat ≤ 9999 :=
  ⟨UInt16.le_iff_toNat_le.mp hd.day_le, UInt16.le_iff_toNat_le.mp hd.month_le,
    UInt16.le_iff_toNat_le.mp hd.year_le⟩

/-- The ten bytes of a date. -/
theorem encode_text {d : BirthDate} (hd : d.Fits) :
    Text.Utf8.encode d.text =
      [digitByte (d.day.toNat / 10), digitByte (d.day.toNat % 10), 0x2D,
        digitByte (d.month.toNat / 10), digitByte (d.month.toNat % 10), 0x2D,
        digitByte (d.year.toNat / 10 / 10 / 10), digitByte (d.year.toNat / 10 / 10 % 10),
        digitByte (d.year.toNat / 10 % 10), digitByte (d.year.toNat % 10)] := by
  obtain ⟨hday, hmonth, hyear⟩ := hd.toNat_le
  have hdash : String.utf8EncodeChar '-' = [0x2D] := by decide
  rw [text, padded_two (by omega), padded_two (by omega), padded_four (by omega),
    Text.Utf8.encode_ofList]
  simp only [List.cons_append, List.nil_append, List.flatMap_cons, List.flatMap_nil]
  repeat rw [utf8EncodeChar_digitChar (by omega)]
  simp only [hdash, List.cons_append, List.nil_append]

/-- A padded number is digits, and not fewer than its places. -/
theorem exists_padded_eq (width : Nat) (n : UInt16) :
    ∃ ks : List Nat, (∀ k ∈ ks, k < 10) ∧ padded width n = ks.map Nat.digitChar ∧
      width ≤ ks.length := by
  obtain ⟨ks, hks, heq⟩ := exists_toDigits_eq n.toNat
  refine ⟨List.replicate (width - ks.length) 0 ++ ks, ?_, ?_, ?_⟩
  · intro k hk
    rcases List.mem_append.mp hk with hk | hk
    · rw [List.eq_of_mem_replicate hk]
      decide
    · exact hks k hk
  · rw [padded, heq, List.leftpad, List.length_map, List.map_append, List.map_replicate]
    rfl
  · rw [List.length_append, List.length_replicate]
    omega

/-- The parts of a date as it is written: digits, whatever the date. -/
theorem exists_encode_text (d : BirthDate) :
    ∃ ds ms ys : List Nat, (∀ k ∈ ds, k < 10) ∧ (∀ k ∈ ms, k < 10) ∧ (∀ k ∈ ys, k < 10) ∧
      padded 2 d.day = ds.map Nat.digitChar ∧ padded 2 d.month = ms.map Nat.digitChar ∧
      2 ≤ ds.length ∧ 2 ≤ ms.length ∧ 4 ≤ ys.length ∧
      Text.Utf8.encode d.text =
        ds.map digitByte ++ 0x2D :: (ms.map digitByte ++ 0x2D :: ys.map digitByte) := by
  have hdash : String.utf8EncodeChar '-' = [0x2D] := by decide
  obtain ⟨ds, hds, hday, hdlen⟩ := exists_padded_eq 2 d.day
  obtain ⟨ms, hms, hmonth, hmlen⟩ := exists_padded_eq 2 d.month
  obtain ⟨ys, hys, hyear, hylen⟩ := exists_padded_eq 4 d.year
  refine ⟨ds, ms, ys, hds, hms, hys, hday, hmonth, hdlen, hmlen, hylen, ?_⟩
  rw [text, hday, hmonth, hyear, Text.Utf8.encode_ofList, List.flatMap_append, List.flatMap_cons,
    List.flatMap_append, List.flatMap_cons, flatMap_utf8EncodeChar_digits hds,
    flatMap_utf8EncodeChar_digits hms, flatMap_utf8EncodeChar_digits hys, hdash]
  rfl

/-- No byte of a date ends its field. -/
theorem zero_notMem_encode_text (d : BirthDate) : (0 : UInt8) ∉ Text.Utf8.encode d.text := by
  have hdigits : ∀ ks : List Nat, (∀ k ∈ ks, k < 10) → (0 : UInt8) ∉ ks.map digitByte := by
    intro ks hks hzero
    have hne : ∀ k < 10, digitByte k ≠ 0 := by decide
    obtain ⟨k, hk, heq⟩ := List.mem_map.mp hzero
    exact hne k (hks k hk) heq
  obtain ⟨ds, ms, ys, hds, hms, hys, -, -, -, -, -, henc⟩ := exists_encode_text d
  rw [henc]
  simp only [List.mem_append, List.mem_cons, not_or]
  exact ⟨hdigits ds hds, by decide, hdigits ms hms, by decide, hdigits ys hys⟩

/-- At the place of a digit the reader takes that digit. -/
theorem digit_of_getElem? {field : Bytes} {i k : Nat} (hk : k < 10)
    (h : field[i]? = some (digitByte k)) : digit field i = k := by
  have hall : ∀ k < 10, (digitByte k - 0x30).toNat = k := by decide
  rw [digit, h, Option.getD_some, hall k hk]

/-- **A date that fits is read as it is written.** -/
theorem ofField_encode_text {d : BirthDate} (hd : d.Fits) :
    ofField (Text.Utf8.encode d.text) = d := by
  obtain ⟨hday, hmonth, hyear⟩ := hd.toNat_le
  have hnumber : ∀ {n : Nat} {part : UInt16}, n = part.toNat → n.toUInt16 = part := by
    rintro n part rfl
    exact UInt16.ofNat_toNat
  rw [ofField, encode_text hd]
  congr 1
  · rw [digit_of_getElem? (k := d.day.toNat / 10) (by omega) rfl,
      digit_of_getElem? (k := d.day.toNat % 10) (by omega) rfl]
    exact hnumber (by omega)
  · rw [digit_of_getElem? (k := d.month.toNat / 10) (by omega) rfl,
      digit_of_getElem? (k := d.month.toNat % 10) (by omega) rfl]
    exact hnumber (by omega)
  · rw [digit_of_getElem? (k := d.year.toNat / 10 / 10 / 10) (by omega) rfl,
      digit_of_getElem? (k := d.year.toNat / 10 / 10 % 10) (by omega) rfl,
      digit_of_getElem? (k := d.year.toNat / 10 % 10) (by omega) rfl,
      digit_of_getElem? (k := d.year.toNat % 10) (by omega) rfl]
    exact hnumber (by omega)

/-- At the places of digits the reader takes digits. -/
theorem digit_lt {field front behind : Bytes} {ks : List Nat}
    (h : field = front ++ (ks.map digitByte ++ behind)) (hks : ∀ k ∈ ks, k < 10) (place : Nat)
    (hfrom : front.length ≤ place) (hto : place < front.length + ks.length) :
    digit field place < 10 := by
  have hi : place - front.length < ks.length := by omega
  have hk : ks[place - front.length] < 10 := hks _ (List.getElem_mem hi)
  have hget : field[place]? = some (digitByte ks[place - front.length]) := by
    rw [h, List.getElem?_append_right hfrom, List.getElem?_append_left (by rwa [List.length_map]),
      List.getElem?_map, List.getElem?_eq_getElem hi]
    rfl
  rw [digit_of_getElem? hk hget]
  exact hk

/-- What fits two places has two digits. -/
theorem length_of_padded_two {n : UInt16} {ks : List Nat} (h : padded 2 n = ks.map Nat.digitChar)
    (hn : n.toNat ≤ 99) : ks.length = 2 := by
  rw [← List.length_map (f := Nat.digitChar), ← h, padded_two (by omega)]
  rfl

/-- A part is not greater than the number that it is made of. -/
theorem toNat_le_of_toUInt16_eq {n bound : Nat} {part : UInt16} (h : n.toUInt16 = part)
    (hn : n ≤ bound) : part.toNat ≤ bound := by
  have hmod : n.toUInt16.toNat = n % 2 ^ 16 := UInt16.toNat_ofNat'
  rw [← h, hmod]
  exact Nat.le_trans (Nat.mod_le _ _) hn

/-- **A date is read as it is written exactly if it fits.**  The first two places have digits
of the day in any case; and only behind a day of two digits do those of the month stand where
they are looked for, and likewise the year. -/
theorem ofField_encode_text_iff {d : BirthDate} :
    ofField (Text.Utf8.encode d.text) = d ↔ d.Fits := by
  refine ⟨fun h => ?_, ofField_encode_text⟩
  obtain ⟨ds, ms, ys, hds, hms, hys, hday, hmonth, hdlen, hmlen, hylen, henc⟩ :=
    exists_encode_text d
  have hd : d.day.toNat ≤ 99 := by
    have hread : Text.Utf8.encode d.text
        = [] ++ (ds.map digitByte ++ 0x2D :: (ms.map digitByte ++ 0x2D :: ys.map digitByte)) := henc
    have h0 := digit_lt hread hds 0 (Nat.zero_le _) (by simp; omega)
    have h1 := digit_lt hread hds 1 (Nat.zero_le _) (by simp; omega)
    exact toNat_le_of_toUInt16_eq (congrArg day h) (by omega)
  have hdtwo : ds.length = 2 := length_of_padded_two hday hd
  have hm : d.month.toNat ≤ 99 := by
    have hread : Text.Utf8.encode d.text
        = (ds.map digitByte ++ [0x2D]) ++ (ms.map digitByte ++ 0x2D :: ys.map digitByte) := by
      rw [henc, List.append_assoc]
      rfl
    have hfront : (ds.map digitByte ++ [0x2D]).length = 3 := by simp [hdtwo]
    have h3 := digit_lt hread hms 3 (by omega) (by omega)
    have h4 := digit_lt hread hms 4 (by omega) (by omega)
    exact toNat_le_of_toUInt16_eq (congrArg month h) (by omega)
  have hmtwo : ms.length = 2 := length_of_padded_two hmonth hm
  have hy : d.year.toNat ≤ 9999 := by
    have hread : Text.Utf8.encode d.text
        = (ds.map digitByte ++ 0x2D :: (ms.map digitByte ++ [0x2D]))
          ++ (ys.map digitByte ++ []) := by
      rw [henc, List.append_nil, List.append_assoc, List.cons_append, List.append_assoc]
      rfl
    have hfront : (ds.map digitByte ++ 0x2D :: (ms.map digitByte ++ [0x2D])).length = 6 := by
      simp [hdtwo, hmtwo]
    have h6 := digit_lt hread hys 6 (by omega) (by omega)
    have h7 := digit_lt hread hys 7 (by omega) (by omega)
    have h8 := digit_lt hread hys 8 (by omega) (by omega)
    have h9 := digit_lt hread hys 9 (by omega) (by omega)
    exact toNat_le_of_toUInt16_eq (congrArg year h) (by omega)
  exact ⟨UInt16.le_iff_toNat_le.mpr hd, UInt16.le_iff_toNat_le.mpr hm,
    UInt16.le_iff_toNat_le.mpr hy⟩

end BirthDate

end Microblog
