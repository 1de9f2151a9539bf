/-!
# Redacted words

Private messages are searched for unwanted words, one word after another in the
order of their list.  Each occurrence is replaced by a placeholder; occurrences
of one word are taken from left to right and do not overlap.  What a word leaves
behind, placeholder included, is what the next word is searched for in.

## Main definitions

* `ContentFilter` — the words and the placeholder.
* `redact` — one word replaced throughout a text.
* `ContentFilter.apply` — a text after all replacements.
-/

namespace Microblog

/-- The rest of a text after `out`, whose last character comes first, with every
occurrence of `word` replaced.  The first `skip` characters belong to an occurrence
already replaced. -/
def redactFrom (word placeholder out : List Char) : Nat → List Char → List Char
  | _, [] => out.reverse
  | skip + 1, _ :: cs => redactFrom word placeholder out skip cs
  | 0, c :: cs =>
    if word.isPrefixOf (c :: cs) then
      redactFrom word placeholder (placeholder.reverse ++ out) (word.length - 1) cs
    else redactFrom word placeholder (c :: out) 0 cs

/-- A text with every occurrence of `word` replaced. -/
def redact (word placeholder cs : List Char) : List Char := redactFrom word placeholder [] 0 cs

theorem redactFrom_eq (word placeholder out : List Char) (skip : Nat) (cs : List Char) :
    redactFrom word placeholder out skip cs
      = out.reverse ++ redact word placeholder (cs.drop skip) := by
  induction cs generalizing out skip with
  | nil => simp [redact, redactFrom]
  | cons c cs ih =>
    cases skip with
    | succ skip => rw [redactFrom, ih, List.drop_succ_cons]
    | zero =>
      rw [redactFrom, List.drop_zero, redact, redactFrom]
      split
      · rw [ih, ih (placeholder.reverse ++ [])]
        simp
      · rw [ih, ih [c]]
        simp

@[simp] theorem redact_nil (word placeholder : List Char) : redact word placeholder [] = [] := rfl

/-- An occurrence at the front is replaced, and the search goes on behind it. -/
theorem redact_cons_of_isPrefix {word placeholder : List Char} {c : Char} {cs : List Char}
    (h : word <+: c :: cs) :
    redact word placeholder (c :: cs)
      = placeholder ++ redact word placeholder (cs.drop (word.length - 1)) := by
  rw [redact, redactFrom, if_pos (List.isPrefixOf_iff_prefix.mpr h), redactFrom_eq]
  simp

/-- A character at which no occurrence starts stays. -/
theorem redact_cons_of_not_isPrefix {word placeholder : List Char} {c : Char} {cs : List Char}
    (h : ¬ word <+: c :: cs) :
    redact word placeholder (c :: cs) = c :: redact word placeholder cs := by
  rw [redact, redactFrom, if_neg (fun h' => h (List.isPrefixOf_iff_prefix.mp h')), redactFrom_eq]
  simp

/-- Unwanted words, and what stands in their place. -/
structure ContentFilter where
  /-- The words, in the order in which they are searched for. -/
  words : List String := ["fuck", "dinner"]
  /-- What replaces an occurrence of a word. -/
  placeholder : String := "<filtered>"
  deriving DecidableEq, Repr, Inhabited

/-- A text without the unwanted words.  An empty word is not searched for. -/
def ContentFilter.apply (f : ContentFilter) (content : String) : String :=
  String.ofList <|
    (f.words.filter (· ≠ "")).foldl
      (fun cs word => redact word.toList f.placeholder.toList cs) content.toList

end Microblog
