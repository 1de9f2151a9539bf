/-!
# Blank characters

Command lines are trimmed by the Unicode property `White_Space`, which has
twenty-five characters, while words are separated by U+0020 alone.  Core's
`Char.isWhitespace` knows four of the twenty-five, so the property is listed
here.

## Main definitions

* `isBlank` — the characters of the property.
* `trimStart`, `trimEnd`, `trim` — a line without the blanks at its ends.
-/

namespace Microblog.Text

/-- The characters with the property `White_Space`. -/
def isBlank (c : Char) : Bool :=
  (0x09 ≤ c.toNat && c.toNat ≤ 0x0D) || c.toNat == 0x20 || c.toNat == 0x85 || c.toNat == 0xA0 ||
    c.toNat == 0x1680 || (0x2000 ≤ c.toNat && c.toNat ≤ 0x200A) || c.toNat == 0x2028 ||
    c.toNat == 0x2029 || c.toNat == 0x202F || c.toNat == 0x205F || c.toNat == 0x3000

@[simp] theorem isBlank_space : isBlank ' ' = true := by decide

/-- A line without the blanks in front. -/
def trimStart (cs : List Char) : List Char := cs.dropWhile isBlank

/-- A line without the blanks at its end. -/
def trimEnd (cs : List Char) : List Char := (trimStart cs.reverse).reverse

/-- A line without the blanks at either end. -/
def trim (cs : List Char) : List Char := trimEnd (trimStart cs)

@[simp] theorem trimStart_nil : trimStart [] = [] := rfl

theorem trimStart_cons (c : Char) (cs : List Char) :
    trimStart (c :: cs) = if isBlank c then trimStart cs else c :: cs := by
  simp only [trimStart, List.dropWhile_cons]

/-- Blanks in front of a line do not count. -/
theorem trimStart_append_of_forall_isBlank {gap : List Char} (h : ∀ c ∈ gap, isBlank c = true)
    (cs : List Char) : trimStart (gap ++ cs) = trimStart cs := by
  simp [trimStart, List.dropWhile_append_of_pos h]

end Microblog.Text
