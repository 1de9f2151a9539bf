/-!
# Pieces of a text

A list of names is written in one field with a bar between the names, and a post
is looked through word by word.  Both cut a text at every occurrence of one
character: `pieces sep` has one piece more than the text has separators, so the
text is the pieces joined by the separator again, and no piece holds it.

## Main definitions

* `pieces sep cs` — the parts of `cs` between the separators, empty parts included.

## Main results

* `pieces_of_notMem`, `pieces_append_cons` — where the first part ends.
* `mem_pieces` — what a part has of the text.
-/

namespace Microblog.Text

/-- The parts of a text between the occurrences of `sep`, from left to right.  A
separator at an end, or beside another, leaves an empty part. -/
def pieces (sep : Char) (cs : List Char) : List (List Char) :=
  let cut := cs.foldr
    (fun c (part : List Char × List (List Char)) =>
      if c = sep then ([], part.1 :: part.2) else (c :: part.1, part.2))
    ([], [])
  cut.1 :: cut.2

@[simp] theorem pieces_nil (sep : Char) : pieces sep [] = [[]] := rfl

/-- A separator in front starts a new part. -/
@[simp] theorem pieces_cons_self (sep : Char) (cs : List Char) :
    pieces sep (sep :: cs) = [] :: pieces sep cs := by
  simp [pieces]

/-- Any other character belongs to the first part. -/
theorem pieces_cons_of_ne {sep c : Char} (h : c ≠ sep) (cs : List Char) :
    pieces sep (c :: cs) = (c :: (pieces sep cs).headD []) :: (pieces sep cs).tail := by
  simp [pieces, h]

/-- A text without the separator is one part. -/
theorem pieces_of_notMem {sep : Char} {cs : List Char} (h : sep ∉ cs) :
    pieces sep cs = [cs] := by
  induction cs with
  | nil => rfl
  | cons c cs ih =>
    rw [List.mem_cons, not_or] at h
    rw [pieces_cons_of_ne (Ne.symm h.1), ih h.2]
    rfl

/-- The first part ends at the first separator. -/
theorem pieces_append_cons {sep : Char} {cs : List Char} (h : sep ∉ cs) (ds : List Char) :
    pieces sep (cs ++ sep :: ds) = cs :: pieces sep ds := by
  induction cs with
  | nil => simp
  | cons c cs ih =>
    rw [List.mem_cons, not_or] at h
    rw [List.cons_append, pieces_cons_of_ne (Ne.symm h.1), ih h.2]
    rfl

/-- A part has characters of the text only, and the separator is none of them. -/
theorem mem_pieces {sep : Char} {cs piece : List Char} (h : piece ∈ pieces sep cs) :
    piece ⊆ cs ∧ sep ∉ piece := by
  -- what is behind the first separator is a shorter text
  induction hlength : cs.length using Nat.strongRecOn generalizing cs with
  | ind length ih =>
    by_cases hsep : sep ∈ cs
    · obtain ⟨first, others, rfl, hfirst⟩ := List.eq_append_cons_of_mem hsep
      rw [pieces_append_cons hfirst, List.mem_cons] at h
      rcases h with rfl | h
      · exact ⟨List.subset_append_left _ _, hfirst⟩
      · have hlt : others.length < length := by
          rw [← hlength, List.length_append, List.length_cons]
          omega
        obtain ⟨hsubset, hpiece⟩ := ih _ hlt h rfl
        refine ⟨fun c hc => ?_, hpiece⟩
        exact List.mem_append_right _ (List.mem_cons_of_mem _ (hsubset hc))
    · rw [pieces_of_notMem hsep, List.mem_singleton] at h
      rw [h]
      exact ⟨List.Subset.refl _, hsep⟩

end Microblog.Text
