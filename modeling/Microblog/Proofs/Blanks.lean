import Mathlib.Data.List.DropRight
import Mathlib.Data.List.TakeWhile
import Microblog.CommandLine

/-!
# Trimming and taking words

A trimmed text is what is left between two runs of blanks, and it neither begins nor ends
with one.  A word has no blanks at all, and where words follow each other they are set apart
by a space, with other blanks behind it or none.  The first word of such a text is taken
whether the text is trimmed before or not, and what it leaves, trimmed again, begins with the
next word.

## Main definitions

* `Blanks`, `IsBare` — nothing but blanks, and no blanks at the ends.
* `Trims` — a text with blanks around another one.
* `IsWord`, `IsGap`, `IsTail` — a word, what stands in front of the next one, and what may
  stand behind a word.
* `Words` — words with a gap in front of each.

## Main results

* `trims_iff` — what `trim` leaves is the bare text between two runs of blanks.
* `Words.firstWord_cons` — a word is taken from a trimmed text, and the words behind it are
  left.
-/

namespace Microblog

namespace Text

/-- Nothing but blanks. -/
def Blanks (cs : List Char) : Prop := ∀ c ∈ cs, isBlank c = true

/-- A text that neither begins nor ends with a blank. -/
def IsBare (cs : List Char) : Prop :=
  (∀ c ∈ cs.head?, isBlank c = false) ∧ (∀ c ∈ cs.getLast?, isBlank c = false)

/-- The text `cs` is the bare text `u` with blanks around it. -/
def Trims (cs u : List Char) : Prop :=
  IsBare u ∧ ∃ before after, Blanks before ∧ Blanks after ∧ cs = before ++ u ++ after

instance : DecidablePred Blanks := List.decidableBAll _

instance : DecidablePred IsBare := fun cs =>
  @instDecidableAnd _ _ (Option.decidableForallMem cs.head?) (Option.decidableForallMem cs.getLast?)

/-! ### Either end -/

theorem trimStart_eq_self {cs : List Char} (h : ∀ c ∈ cs.head?, isBlank c = false) :
    trimStart cs = cs := by
  cases cs with
  | nil => rfl
  | cons c cs => rw [trimStart_cons, h c rfl, if_neg Bool.false_ne_true]

theorem isBlank_head?_trimStart {cs : List Char} :
    ∀ c ∈ (trimStart cs).head?, isBlank c = false := by
  intro c hc
  have hnot := List.head?_dropWhile_not isBlank cs
  rw [trimStart] at hc
  rw [Option.mem_def.mp hc] at hnot
  simpa using hnot

theorem trimEnd_eq_rdropWhile (cs : List Char) : trimEnd cs = cs.rdropWhile isBlank := rfl

/-- The end of a text is trimmed first. -/
theorem trimEnd_cons (c : Char) (cs : List Char) :
    trimEnd (c :: cs) = if isBlank c ∧ trimEnd cs = [] then [] else c :: trimEnd cs := by
  simp only [trimEnd, trimStart, List.reverse_cons, List.dropWhile_append, List.isEmpty_iff,
    List.reverse_eq_nil_iff]
  by_cases hrest : List.dropWhile isBlank cs.reverse = [] <;> by_cases hc : isBlank c <;>
    simp [hrest, hc]

theorem trimEnd_eq_self {cs : List Char} (h : ∀ c ∈ cs.getLast?, isBlank c = false) :
    trimEnd cs = cs := by
  rw [trimEnd, trimStart_eq_self (by simpa using h), List.reverse_reverse]

theorem trimEnd_append_of_blanks {gap : List Char} (h : Blanks gap) (cs : List Char) :
    trimEnd (cs ++ gap) = trimEnd cs := by
  rw [trimEnd, List.reverse_append,
    trimStart_append_of_forall_isBlank fun c hc => h c (List.mem_reverse.mp hc)]
  rfl

/-- A character that is no blank stays, with all that stands in front of it. -/
theorem trimEnd_append_of_isBlank_eq_false {w : List Char} (h : ∀ c ∈ w, isBlank c = false)
    (cs : List Char) : trimEnd (w ++ cs) = w ++ trimEnd cs := by
  induction w with
  | nil => rfl
  | cons c w ih =>
    rw [List.forall_mem_cons] at h
    rw [List.cons_append, trimEnd_cons, ih h.2, if_neg (by simp [h.1]), List.cons_append]

/-- The ends can be trimmed in either order. -/
theorem trimStart_trimEnd (cs : List Char) : trimStart (trimEnd cs) = trim cs := by
  induction cs with
  | nil => rfl
  | cons c cs ih =>
    cases hc : isBlank c with
    | false =>
      have hkept : trimEnd (c :: cs) = c :: trimEnd cs := by
        rw [trimEnd_cons, if_neg (by simp [hc])]
      have hstart : ∀ ds, trimStart (c :: ds) = c :: ds := fun _ =>
        trimStart_eq_self (by simpa using hc)
      rw [trim, hstart, hkept, hstart]
    | true =>
      have hskip : trim (c :: cs) = trim cs := by rw [trim, trim, trimStart_cons, if_pos hc]
      rw [hskip, ← ih, trimEnd_cons]
      split
      · next hend => rw [hend.2]
      · rw [trimStart_cons, if_pos hc]

/-! ### Both ends -/

theorem trim_append_left {gap : List Char} (h : Blanks gap) (cs : List Char) :
    trim (gap ++ cs) = trim cs := by
  rw [trim, trimStart_append_of_forall_isBlank h, trim]

theorem trim_append_right {gap : List Char} (h : Blanks gap) (cs : List Char) :
    trim (cs ++ gap) = trim cs := by
  rw [← trimStart_trimEnd, trimEnd_append_of_blanks h, trimStart_trimEnd]

theorem IsBare.trim_eq {cs : List Char} (h : IsBare cs) : trim cs = cs := by
  rw [trim, trimStart_eq_self h.1, trimEnd_eq_self h.2]

theorem isBare_trim (cs : List Char) : IsBare (trim cs) := by
  refine ⟨?_, fun c hc => ?_⟩
  · rw [← trimStart_trimEnd]
    exact isBlank_head?_trimStart
  · rw [trim, trimEnd, List.getLast?_reverse] at hc
    exact isBlank_head?_trimStart c hc

/-- **What trimming leaves**: the bare text between two runs of blanks. -/
theorem trims_iff {cs u : List Char} : Trims cs u ↔ trim cs = u := by
  constructor
  · rintro ⟨hbare, before, after, hbefore, hafter, rfl⟩
    rw [List.append_assoc, trim_append_left hbefore, trim_append_right hafter, hbare.trim_eq]
  · rintro rfl
    refine ⟨isBare_trim cs, cs.takeWhile isBlank, (trimStart cs).rtakeWhile isBlank,
      fun c hc => List.mem_takeWhile_imp hc, fun c hc => List.mem_rtakeWhile_imp hc, ?_⟩
    rw [List.append_assoc, trim, trimEnd_eq_rdropWhile, List.rdropWhile_append_rtakeWhile,
      trimStart, List.takeWhile_append_dropWhile]

instance (cs u : List Char) : Decidable (Trims cs u) := decidable_of_iff _ trims_iff.symm

/-! ### Words -/

/-- Something without blanks. -/
def IsWord (w : List Char) : Prop := w ≠ [] ∧ ∀ c ∈ w, isBlank c = false

instance : DecidablePred IsWord := fun w =>
  @instDecidableAnd _ _ inferInstance (List.decidableBAll _ w)

/-- A space, and then any blanks. -/
def IsGap (cs : List Char) : Prop := ∃ blanks, Blanks blanks ∧ cs = ' ' :: blanks

/-- What can stand behind a word: nothing, or anything behind a space. -/
def IsTail (cs : List Char) : Prop := cs = [] ∨ ∃ rest, cs = ' ' :: rest

/-- The words `ws`, with a gap in front of each, make up the text. -/
inductive Words : List (List Char) → List Char → Prop where
  /-- No words. -/
  | nil : Words [] []
  /-- A gap and a word, and then more words. -/
  | cons {gap w : List Char} {ws : List (List Char)} {cs : List Char} (hgap : IsGap gap)
      (hword : IsWord w) (hrest : Words ws cs) : Words (w :: ws) (gap ++ (w ++ cs))

theorem IsWord.trimStart_append {w : List Char} (h : IsWord w) (cs : List Char) :
    trimStart (w ++ cs) = w ++ cs := by
  refine trimStart_eq_self fun c hc => ?_
  rw [List.head?_append_of_ne_nil _ h.1] at hc
  exact h.2 c (List.mem_of_mem_head? hc)

theorem Words.isTail_append {ws : List (List Char)} {cs : List Char} (h : Words ws cs)
    {tail : List Char} (htail : IsTail tail) : IsTail (cs ++ tail) := by
  cases h with
  | nil => exact htail
  | cons hgap _ _ =>
    obtain ⟨blanks, -, rfl⟩ := hgap
    exact .inr ⟨_, by rw [List.cons_append, List.cons_append]⟩

theorem Words.isTail {ws : List (List Char)} {cs : List Char} (h : Words ws cs) : IsTail cs := by
  simpa using h.isTail_append (.inl rfl)

theorem IsTail.trimEnd {cs : List Char} (h : IsTail cs) : IsTail (trimEnd cs) := by
  obtain rfl | ⟨rest, rfl⟩ := h
  · exact .inl rfl
  · rw [trimEnd_cons]
    split
    · exact .inl rfl
    · exact .inr ⟨_, rfl⟩

/-- What follows the space behind a word, whether its end was trimmed before or not. -/
theorem IsTail.trimStart_tail_trimEnd {cs : List Char} (h : IsTail cs) :
    trimStart (Text.trimEnd cs).tail = trim cs.tail := by
  obtain rfl | ⟨rest, rfl⟩ := h
  · rfl
  · rw [List.tail_cons, trimEnd_cons, ← trimStart_trimEnd]
    split
    · next hend => rw [hend.2, List.tail_nil]
    · rw [List.tail_cons]

end Text

open Text

/-- The first word of a text that begins with it. -/
theorem firstWord_append {w tail : List Char} (hw : IsWord w) (htail : IsTail tail) :
    firstWord (w ++ tail) = (w, trimStart tail.tail) := by
  have hspace : ∀ c ∈ w, decide (c ≠ ' ') = true := by
    intro c hc
    rw [decide_eq_true_eq]
    rintro rfl
    exact Bool.false_ne_true ((hw.2 ' ' hc).symm.trans isBlank_space)
  rw [firstWord, hw.trimStart_append, List.takeWhile_append_of_pos hspace,
    List.dropWhile_append_of_pos hspace]
  obtain rfl | ⟨rest, rfl⟩ := htail <;> simp

/-- The first word of a text with blanks around it. -/
theorem firstWord_trim {w tail blanks : List Char} (hblanks : Blanks blanks) (hw : IsWord w)
    (htail : IsTail tail) :
    firstWord (trim (blanks ++ (w ++ tail))) = (w, trim tail.tail) := by
  have htrim : trim (blanks ++ (w ++ tail)) = w ++ trimEnd tail := by
    rw [trim_append_left hblanks, ← trimStart_trimEnd, trimEnd_append_of_isBlank_eq_false hw.2,
      hw.trimStart_append]
  rw [htrim, firstWord_append hw htail.trimEnd, htail.trimStart_tail_trimEnd]

/-- **A word is taken** from a trimmed text, and the words behind it are left. -/
theorem Text.Words.firstWord_cons {w : List Char} {ws : List (List Char)} {cs tail : List Char}
    (h : Words (w :: ws) cs) (htail : IsTail tail) :
    ∃ rest, w ≠ [] ∧ Words ws rest ∧
      firstWord (trim (cs ++ tail).tail) = (w, trim (rest ++ tail).tail) := by
  cases h with
  | @cons gap _ _ rest hgap hword hrest =>
    obtain ⟨blanks, hblanks, rfl⟩ := hgap
    refine ⟨rest, hword.1, hrest, ?_⟩
    have hcs : (' ' :: blanks ++ (w ++ rest) ++ tail).tail = blanks ++ (w ++ (rest ++ tail)) := by
      simp
    rw [hcs, firstWord_trim hblanks hword (hrest.isTail_append htail)]

/-- Where there is no word the empty word is taken, and none are left. -/
theorem Text.Words.firstWord_eq {ws : List (List Char)} {cs : List Char} (h : Words ws cs) :
    ∃ rest, Words ws.tail rest ∧
      firstWord (trim cs.tail) = (ws.headD [], trim rest.tail) := by
  cases ws with
  | nil =>
    cases h
    exact ⟨[], .nil, rfl⟩
  | cons w ws =>
    obtain ⟨rest, -, hrest, htaken⟩ := h.firstWord_cons (.inl rfl)
    exact ⟨rest, hrest, by simpa using htaken⟩

end Microblog
