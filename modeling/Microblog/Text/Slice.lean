/-!
# Slices of a text

A text is cut at a number of bytes.  That has a result only where a character ends: a
number beyond the text, or in the middle of a character, is no place to cut at.

## Main definitions

* `byteLength` — the number of bytes of a text.
* `position?` — the number of bytes in front of a character.
* `cutAt?` — the two parts of a text that is cut at a number of bytes.

## Main results

* `cutAt?_eq_some_iff` — a text is cut where a part of it ends, and nowhere else.
* `position?_eq` — in front of the first occurrence of a character stands what is not that
  character.
-/

namespace Microblog.Text

/-- The number of bytes of a text. -/
def byteLength : List Char → Nat
  | [] => 0
  | c :: cs => c.utf8Size + byteLength cs

@[simp] theorem byteLength_nil : byteLength [] = 0 := rfl

@[simp] theorem byteLength_cons (c : Char) (cs : List Char) :
    byteLength (c :: cs) = c.utf8Size + byteLength cs := rfl

theorem byteLength_append (cs ds : List Char) :
    byteLength (cs ++ ds) = byteLength cs + byteLength ds := by
  induction cs with
  | nil => simp
  | cons c cs ih => rw [List.cons_append, byteLength_cons, ih, byteLength_cons, Nat.add_assoc]

/-- The number of bytes in front of the first occurrence of a character. -/
def position? (c : Char) : List Char → Option Nat
  | [] => none
  | d :: cs => if d = c then some 0 else (position? c cs).map (d.utf8Size + ·)

/-- The two parts of a text that is cut at a number of bytes.  Only between two characters,
and at either end, can it be cut. -/
def cutAt? : List Char → Nat → Option (List Char × List Char)
  | [], n => if n = 0 then some ([], []) else none
  | c :: cs, n =>
    if n = 0 then some ([], c :: cs)
    else if n < c.utf8Size then none
    else (cutAt? cs (n - c.utf8Size)).map fun parts => (c :: parts.1, parts.2)

/-- A text is cut behind the bytes of any part that it begins with. -/
theorem cutAt?_append (cs ds : List Char) : cutAt? (cs ++ ds) (byteLength cs) = some (cs, ds) := by
  induction cs with
  | nil => cases ds <;> simp [cutAt?]
  | cons c cs ih =>
    have hsize : 0 < c.utf8Size := c.utf8Size_pos
    rw [List.cons_append, byteLength_cons, cutAt?, if_neg (by omega), if_neg (by omega),
      Nat.add_sub_cancel_left, ih]
    rfl

/-- **Where a text can be cut**: the parts are the text again, and the first of them has as
many bytes as were asked for. -/
theorem cutAt?_eq_some_iff {cs : List Char} {n : Nat} {parts : List Char × List Char} :
    cutAt? cs n = some parts ↔ parts.1 ++ parts.2 = cs ∧ byteLength parts.1 = n := by
  refine ⟨fun h => ?_, ?_⟩
  · induction cs generalizing n parts with
    | nil =>
      rw [cutAt?] at h
      split at h <;> cases h
      exact ⟨rfl, by simp_all⟩
    | cons c cs ih =>
      rw [cutAt?] at h
      split at h
      · next hn =>
        cases h
        exact ⟨rfl, hn.symm⟩
      · split at h
        · cases h
        · next hsize =>
          obtain ⟨tailParts, htail, rfl⟩ := Option.map_eq_some_iff.mp h
          obtain ⟨happend, hlength⟩ := ih htail
          refine ⟨?_, ?_⟩
          · rw [List.cons_append, happend]
          · rw [byteLength_cons, hlength]
            omega
  · rintro ⟨rfl, rfl⟩
    exact cutAt?_append _ _

-- the first character has two bytes
example : cutAt? ['é', '!'] 1 = none := by decide

/-- In front of the first occurrence of a character stands what is not that character. -/
theorem position?_eq (c : Char) (cs : List Char) :
    position? c cs = if c ∈ cs then some (byteLength (cs.takeWhile (· ≠ c))) else none := by
  induction cs with
  | nil => rfl
  | cons d cs ih =>
    rw [position?, ih]
    by_cases hd : d = c
    · simp [hd]
    · simp only [hd, Ne.symm hd, List.mem_cons, false_or, if_false, List.takeWhile_cons, ne_eq,
        not_false_eq_true, decide_true, if_true, byteLength_cons]
      split <;> rfl

end Microblog.Text
