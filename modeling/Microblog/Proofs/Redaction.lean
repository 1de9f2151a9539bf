import Mathlib.Data.List.Infix
import Microblog.Config

/-!
# No unwanted word is left

Words are replaced one after another, so what has been put in the place of one word is part of
the text that is searched for the next.  That could bring back a word that was replaced before:
part of a placeholder and what is beside it may make up a word.  It cannot where no word has
the character that a placeholder begins with, or the one that it ends with.  Then every
occurrence of a word lies between two placeholders, or within one, and what lies between two
placeholders was there before.

## Main definitions

* `Apart` — a word that can share no character with either end of the placeholder.
* `ContentFilter.FoundIn` — a text that has a word of the filter.
* `ContentFilter.Separates` — a filter all of whose words are apart from the placeholder.

## Main results

* `redact_leftmost` — what is done to a text, by its leftmost occurrence of the word.
* `exists_infix_of_infix_redact` — what is found in a redacted text was there before, outside
  what was redacted.
* `no_filtered_word_left` — **no unwanted word is left**, and a second time changes nothing.
-/

namespace Microblog

variable {word placeholder : List Char}

/-! ### Occurrences -/

/-- A word that does not have the character `c` lies before it or behind it. -/
theorem infix_of_infix_append_cons {xs ys : List Char} {c : Char} (h : word <:+: xs ++ c :: ys)
    (hc : c ∉ word) : word <:+: xs ∨ word <:+: ys := by
  rcases List.infix_append_iff.mp h with hxs | hys | ⟨front, back, rfl, hfront, hback⟩
  · exact .inl hxs
  · rcases List.infix_cons_iff.mp hys with hprefix | hys
    · rcases List.prefix_cons_iff.mp hprefix with rfl | ⟨rest, rfl, -⟩
      · exact .inl List.nil_infix
      · exact absurd List.mem_cons_self hc
    · exact .inr hys
  · rcases List.prefix_cons_iff.mp hback with rfl | ⟨rest, rfl, -⟩
    · rw [List.append_nil]
      exact .inl hfront.isInfix
    · exact absurd (List.mem_append_right front List.mem_cons_self) hc

/-- The placeholder has some character, and the word has neither the first nor the last of them and
is no part of it. -/
structure Apart (word placeholder : List Char) : Prop where
  /-- There is a placeholder. -/
  ne_nil : placeholder ≠ []
  /-- The word does not have the first character. -/
  head : ∀ c ∈ placeholder.head?, c ∉ word
  /-- The word does not have the last character. -/
  last : ∀ c ∈ placeholder.getLast?, c ∉ word
  /-- The word is no part of it. -/
  not_infix : ¬ word <:+: placeholder

/-- A word that is apart from the placeholder lies before it or behind it. -/
theorem Apart.infix_or_infix (h : Apart word placeholder) {xs ys : List Char}
    (hword : word <:+: xs ++ placeholder ++ ys) : word <:+: xs ∨ word <:+: ys := by
  obtain ⟨hne, hhead, hlast, hout⟩ := h
  obtain ⟨first, rest, rfl⟩ := List.exists_cons_of_ne_nil hne
  have hfirst : first ∉ word := hhead first rfl
  rw [List.append_assoc] at hword
  rcases infix_of_infix_append_cons hword hfirst with hxs | hrest
  · exact .inl hxs
  · rcases List.eq_nil_or_concat' rest with rfl | ⟨middle, last, rfl⟩
    · exact .inr hrest
    · have hlast : last ∉ word := by
        refine hlast last ?_
        rw [← List.cons_append, List.getLast?_concat]
        rfl
      change word <:+: middle ++ [last] ++ ys at hrest
      rw [List.append_assoc] at hrest
      rcases infix_of_infix_append_cons hrest hlast with hmiddle | hys
      · -- the word would be a part of the placeholder
        exact absurd (hmiddle.trans ⟨[first], [last], by simp⟩) hout
      · exact .inr hys

/-! ### One word -/

/-- **A text is redacted from its leftmost occurrence of the word on.**  If there is none, it stays
as it is. -/
theorem redact_leftmost (hne : word ≠ []) (placeholder cs : List Char) :
    (¬ word <:+: cs ∧ redact word placeholder cs = cs) ∨
      ∃ front back, cs = front ++ word ++ back ∧ ¬ word <:+: front ∧
        redact word placeholder cs = front ++ placeholder ++ redact word placeholder back := by
  induction cs with
  | nil => exact .inl ⟨fun h => hne (List.infix_nil.mp h), redact_nil word placeholder⟩
  | cons c cs ih =>
    by_cases hprefix : word <+: c :: cs
    · obtain ⟨back, hback⟩ := hprefix
      obtain ⟨first, rest, rfl⟩ := List.exists_cons_of_ne_nil hne
      obtain ⟨rfl, rfl⟩ : first = c ∧ rest ++ back = cs := List.cons_eq_cons.mp hback
      right
      have hreplaced : redact (first :: rest) placeholder (first :: (rest ++ back)) = _ :=
        redact_cons_of_isPrefix ⟨back, rfl⟩
      refine ⟨[], back, rfl, fun h => hne (List.infix_nil.mp h), hreplaced.trans ?_⟩
      simp
    · have hstays : redact word placeholder (c :: cs) = _ := redact_cons_of_not_isPrefix hprefix
      rw [hstays]
      rcases ih with ⟨hfree, hsame⟩ | ⟨front, back, rfl, hfree, hredact⟩
      · left
        refine ⟨fun h => ?_, congrArg (c :: ·) hsame⟩
        exact (List.infix_cons_iff.mp h).elim hprefix hfree
      · right
        refine ⟨c :: front, back, rfl, fun h => ?_, congrArg (c :: ·) hredact⟩
        rcases List.infix_cons_iff.mp h with h | h
        · exact hprefix (h.trans ⟨word ++ back, by simp⟩)
        · exact hfree h

/-- **A word in the redacted text was there before, and not in one that was redacted.** -/
theorem exists_infix_of_infix_redact (hne : word ≠ []) {other : List Char}
    (hother : Apart other placeholder) {cs : List Char}
    (h : other <:+: redact word placeholder cs) :
    ∃ part, other <:+: part ∧ part <:+: cs ∧ ¬ word <:+: part := by
  induction hlength : cs.length using Nat.strongRecOn generalizing cs with
  | ind length ih =>
    rcases redact_leftmost hne placeholder cs with
      ⟨hfree, hsame⟩ | ⟨front, back, hcs, hfree, hredact⟩
    · rw [hsame] at h
      exact ⟨cs, h, List.infix_rfl, hfree⟩
    · rw [hredact] at h
      rcases hother.infix_or_infix h with hfront | hback
      · refine ⟨front, hfront, ?_, hfree⟩
        rw [hcs, List.append_assoc]
        exact (List.prefix_append _ _).isInfix
      · have hshorter : back.length < length := by
          have hpos : 0 < word.length := List.length_pos_iff.mpr hne
          rw [← hlength, hcs, List.length_append, List.length_append]
          omega
        obtain ⟨part, hpart, hwithin, hwithout⟩ := ih back.length hshorter hback rfl
        refine ⟨part, hpart, hwithin.trans ?_, hwithout⟩
        rw [hcs]
        exact (List.suffix_append _ _).isInfix

/-- The word itself is gone. -/
theorem not_infix_redact (hne : word ≠ []) (h : Apart word placeholder) (cs : List Char) :
    ¬ word <:+: redact word placeholder cs := by
  intro hword
  obtain ⟨part, hpart, -, hfree⟩ := exists_infix_of_infix_redact hne h hword
  exact hfree hpart

/-- No other word has come. -/
theorem infix_of_infix_redact (hne : word ≠ []) {other : List Char}
    (hother : Apart other placeholder) {cs : List Char}
    (h : other <:+: redact word placeholder cs) : other <:+: cs := by
  obtain ⟨part, hpart, hwithin, -⟩ := exists_infix_of_infix_redact hne hother h
  exact hpart.trans hwithin

/-- Where the word is not, nothing is changed. -/
theorem redact_eq_self (hne : word ≠ []) {cs : List Char} (h : ¬ word <:+: cs) :
    redact word placeholder cs = cs := by
  rcases redact_leftmost hne placeholder cs with ⟨-, hsame⟩ | ⟨front, back, rfl, -, -⟩
  · exact hsame
  · exact absurd ⟨front, back, rfl⟩ h

/-! ### One word after another -/

/-- A word that is redacted in its turn does not come back in the turn of another. -/
theorem not_infix_foldl_redact {words : List (List Char)} (hwords : ∀ word ∈ words, word ≠ [])
    (hword : Apart word placeholder) {cs : List Char} (h : word ∈ words ∨ ¬ word <:+: cs) :
    ¬ word <:+: words.foldl (fun cs word => redact word placeholder cs) cs := by
  induction words generalizing cs with
  | nil => exact h.resolve_left List.not_mem_nil
  | cons first words ih =>
    have hfirst : first ≠ [] := hwords first List.mem_cons_self
    have hrest : ∀ word ∈ words, word ≠ [] := fun w hw => hwords w (List.mem_cons_of_mem first hw)
    rw [List.foldl_cons]
    refine ih hrest ?_
    rcases h with hmem | hfree
    · rcases List.mem_cons.mp hmem with rfl | hmem
      · exact .inr (not_infix_redact hfirst hword cs)
      · exact .inl hmem
    · exact .inr fun hback => hfree (infix_of_infix_redact hfirst hword hback)

theorem foldl_redact_eq_self {words : List (List Char)} (hwords : ∀ word ∈ words, word ≠ [])
    {cs : List Char} (h : ∀ word ∈ words, ¬ word <:+: cs) :
    words.foldl (fun cs word => redact word placeholder cs) cs = cs := by
  induction words with
  | nil => rfl
  | cons first words ih =>
    have hfirst : first ≠ [] := hwords first List.mem_cons_self
    rw [List.foldl_cons, redact_eq_self hfirst (h first List.mem_cons_self)]
    exact ih (fun w hw => hwords w (List.mem_cons_of_mem first hw)) fun w hw =>
      h w (List.mem_cons_of_mem first hw)

/-! ### The filter -/

theorem apart_iff : Apart word placeholder
    ↔ placeholder ≠ [] ∧ placeholder.head?.all (· ∉ word) ∧ placeholder.getLast?.all (· ∉ word) ∧
      ¬ word <:+: placeholder := by
  simp only [Option.all_eq_true, decide_eq_true_eq]
  exact ⟨fun ⟨hne, hhead, hlast, hout⟩ => ⟨hne, hhead, hlast, hout⟩,
    fun ⟨hne, hhead, hlast, hout⟩ => ⟨hne, hhead, hlast, hout⟩⟩

instance (word placeholder : List Char) : Decidable (Apart word placeholder) :=
  decidable_of_iff' _ apart_iff

namespace ContentFilter

variable {f : ContentFilter} {content : String}

/-- The text has a word of the filter, other than the empty one. -/
def FoundIn (f : ContentFilter) (content : String) : Prop :=
  ∃ word ∈ f.words, word ≠ "" ∧ word.toList <:+: content.toList

/-- Every word but the empty one is apart from the placeholder. -/
def Separates (f : ContentFilter) : Prop :=
  ∀ word ∈ f.words, word ≠ "" → Apart word.toList f.placeholder.toList

instance (f : ContentFilter) : Decidable f.Separates :=
  inferInstanceAs (Decidable (∀ word ∈ f.words, _))

/-- The words that are searched for, in order. -/
def patterns (f : ContentFilter) : List (List Char) :=
  (f.words.filter (· ≠ "")).map String.toList

theorem mem_patterns {pattern : List Char} :
    pattern ∈ f.patterns ↔ ∃ word ∈ f.words, word ≠ "" ∧ word.toList = pattern := by
  simp [patterns, and_assoc]

theorem ne_nil_of_mem_patterns {pattern : List Char} (h : pattern ∈ f.patterns) : pattern ≠ [] := by
  obtain ⟨word, -, hne, rfl⟩ := mem_patterns.mp h
  exact fun hnil => hne (String.toList_eq_nil_iff.mp hnil)

theorem toList_apply (f : ContentFilter) (content : String) :
    (f.apply content).toList
      = f.patterns.foldl (fun cs word => redact word f.placeholder.toList cs) content.toList := by
  rw [apply, String.toList_ofList, patterns, List.foldl_map]

/-- A text that has none of the words stays as it is. -/
theorem apply_eq_self (h : ¬ f.FoundIn content) : f.apply content = content := by
  refine String.toList_inj.mp ?_
  rw [toList_apply]
  refine foldl_redact_eq_self (fun _ => ne_nil_of_mem_patterns) fun pattern hpattern hfound => ?_
  obtain ⟨word, hword, hne, rfl⟩ := mem_patterns.mp hpattern
  exact h ⟨word, hword, hne, hfound⟩

/-- No word is left. -/
theorem not_foundIn_apply (hf : f.Separates) (content : String) :
    ¬ f.FoundIn (f.apply content) := by
  rintro ⟨word, hword, hne, hfound⟩
  rw [toList_apply] at hfound
  have hpattern : word.toList ∈ f.patterns := mem_patterns.mpr ⟨word, hword, hne, rfl⟩
  exact not_infix_foldl_redact (fun _ => ne_nil_of_mem_patterns) (hf word hword hne)
    (.inl hpattern) hfound

end ContentFilter

/-- **No unwanted word is left.**  Take a filter whose words, the empty one apart, do not have the
first or the last character of the placeholder, which there is, and are no part of it.  What the
filter makes of a text has none of these words.  To apply it once more changes nothing, and neither
does it to apply it to a text that has none of the words.  The filter of a server that is told
nothing is such a filter. -/
theorem no_filtered_word_left :
    ({} : Config).filter.Separates ∧
    ∀ f : ContentFilter, f.Separates → ∀ content : String,
      ¬ f.FoundIn (f.apply content) ∧
      f.apply (f.apply content) = f.apply content ∧
      (¬ f.FoundIn content → f.apply content = content) := by
  refine ⟨by decide, fun f hf content => ?_⟩
  have hgone : ¬ f.FoundIn (f.apply content) := ContentFilter.not_foundIn_apply hf content
  exact ⟨hgone, ContentFilter.apply_eq_self hgone, ContentFilter.apply_eq_self⟩

/-- A filter with a word within another. -/
def menu : ContentFilter := { words := ["dinner", "", "inn"], placeholder := "[...]" }

/-- The first word is not there yet, and does not come about when the other is replaced. -/
theorem no_filtered_word_left_menu :
    menu.Separates ∧ menu.apply "dinninner" = "d[...][...]er" ∧
      ¬ menu.FoundIn "d[...][...]er" ∧ menu.apply "d[...][...]er" = "d[...][...]er" := by
  have hmenu : menu.Separates := by decide
  have happly : menu.apply "dinninner" = "d[...][...]er" := by decide +kernel
  obtain ⟨hgone, -, -⟩ := no_filtered_word_left.2 menu hmenu "dinninner"
  rw [happly] at hgone
  obtain ⟨-, -, hstays⟩ := no_filtered_word_left.2 menu hmenu "d[...][...]er"
  exact ⟨hmenu, happly, hgone, hstays hgone⟩

end Microblog
