import Mathlib.Algebra.Group.Nat.Defs
import Microblog.ContentFilter
import Microblog.Text.Utf8

/-!
# Texts without U+0000

On the wire a text ends at the first zero byte, so only a text that writes no zero byte
comes back whole.  Such a text is one without U+0000: no other character has a zero byte
in its form.  And no other bytes than zero are ever read as U+0000, well formed or not,
which is not clear from the reader alone, since a number that is no character would be
one.  Hence `Pending.Proper`: whatever bytes complete a character under way, it is a
character, and it is not U+0000.

## Main definitions

* `NulFree` — a text without U+0000.
* `Utf8.Pending.Proper` — a character under way will be a character other than U+0000.

## Main results

* `Utf8.zero_mem_encode_iff` — what a text writes.
* `Utf8.nulFree_decode` — what any bytes are read as.
* `nulFree_apply` — a filter puts in nothing but its placeholder.
-/

namespace Microblog

namespace Text

/-- The text has no U+0000. -/
def NulFree (s : String) : Prop := '\x00' ∉ s.toList

instance (s : String) : Decidable (NulFree s) := inferInstanceAs (Decidable (¬ _))

theorem nulFree_ofList {cs : List Char} : NulFree (String.ofList cs) ↔ '\x00' ∉ cs := by
  rw [NulFree, String.toList_ofList]

theorem nulFree_append {s t : String} : NulFree (s ++ t) ↔ NulFree s ∧ NulFree t := by
  rw [NulFree, String.toList_append, List.mem_append, not_or]
  rfl

/-- Texts joined by one without U+0000. -/
theorem nulFree_intercalate {sep : String} (hsep : NulFree sep) {texts : List String}
    (h : ∀ s ∈ texts, NulFree s) : NulFree (sep.intercalate texts) := by
  induction texts with
  | nil => rw [String.intercalate_nil]; decide
  | cons s texts ih =>
    have hs : NulFree s := h s List.mem_cons_self
    have hothers := ih fun t ht => h t (List.mem_cons_of_mem _ ht)
    cases texts with
    | nil => rwa [String.intercalate_singleton]
    | cons t texts =>
      rw [String.intercalate_cons_cons, nulFree_append, nulFree_append]
      exact ⟨⟨hs, hsep⟩, hothers⟩

namespace Utf8

/-! ### Writing -/

/-- Only U+0000 has a zero byte in its form. -/
theorem zero_mem_utf8EncodeChar_iff {c : Char} :
    (0 : UInt8) ∈ String.utf8EncodeChar c ↔ c = '\x00' := by
  constructor
  · intro h
    have hmod : ∀ n, (0 : UInt8) = UInt8.ofNat n → n % 256 = 0 := by
      intro n hn
      simpa using (congrArg UInt8.toNat hn).symm
    have hzero : c.val.toNat = 0 := by
      -- of a form of several bytes each byte has its highest bit set
      simp only [String.utf8EncodeChar] at h
      generalize c.val.toNat = v at h ⊢
      split at h
      · have hbyte := hmod _ (List.mem_singleton.mp h)
        omega
      split at h
      · simp only [List.mem_cons, List.not_mem_nil, or_false] at h
        rcases h with h | h <;> (have hbyte := hmod _ h; omega)
      split at h
      · simp only [List.mem_cons, List.not_mem_nil, or_false] at h
        rcases h with h | h | h <;> (have hbyte := hmod _ h; omega)
      · simp only [List.mem_cons, List.not_mem_nil, or_false] at h
        rcases h with h | h | h | h <;> (have hbyte := hmod _ h; omega)
    rw [← Char.ofNat_toNat c, Char.toNat, hzero]
  · rintro rfl
    decide

/-- A text writes a zero byte exactly if it has U+0000. -/
theorem zero_mem_encode_iff {s : String} : (0 : UInt8) ∈ encode s ↔ ¬ NulFree s := by
  rw [encode, List.mem_flatMap, NulFree, Classical.not_not]
  constructor
  · rintro ⟨c, hc, hzero⟩
    rwa [zero_mem_utf8EncodeChar_iff.mp hzero] at hc
  · intro h
    exact ⟨_, h, zero_mem_utf8EncodeChar_iff.mpr rfl⟩

theorem zero_notMem_encode {s : String} (h : NulFree s) : (0 : UInt8) ∉ encode s :=
  fun hzero => zero_mem_encode_iff.mp hzero h

/-! ### Reading -/

/-- A number that is a character's, but not that of U+0000. -/
def IsProper (n : Nat) : Prop := n.isValidChar ∧ 0 < n

theorem IsProper.ofNat_ne {n : Nat} (h : IsProper n) : Char.ofNat n ≠ '\x00' := by
  intro heq
  have hn : (Char.ofNat n).toNat = n := by
    rw [Char.ofNat, dif_pos h.1]
    rfl
  rw [heq] at hn
  exact Nat.ne_of_lt h.2 hn

/-- Whatever bytes complete the character under way, it is one, and not U+0000. -/
def Pending.Proper : Pending → Prop
  | .none => True
  | .partway more lo hi bits => 0x80 ≤ lo ∧ hi ≤ 0xBF ∧ ∀ b rest, lo ≤ b → b ≤ hi →
      rest < 64 ^ more → IsProper ((bits * 64 + b % 64) * 64 ^ more + rest)

/-- After its first byte a character is under way that can only be a proper one. -/
theorem proper_lead {b : Nat} {p : Pending} (h : lead b = some p) : p.Proper := by
  have hproper : ∀ n, n < 0xD800 ∨ 0xDFFF < n ∧ n < 0x110000 → 0 < n → IsProper n :=
    fun _ => And.intro
  unfold lead at h
  split at h
  · cases h
  split at h
  · cases h
    refine ⟨Nat.le_refl _, Nat.le_refl _, fun b rest hlo hhi hrest => hproper _ ?_ ?_⟩ <;> omega
  split at h
  · cases h
    refine ⟨by omega, Nat.le_refl _, fun b rest hlo hhi hrest => hproper _ ?_ ?_⟩ <;> omega
  split at h
  · cases h
    refine ⟨Nat.le_refl _, by omega, fun b rest hlo hhi hrest => hproper _ ?_ ?_⟩ <;> omega
  split at h
  · cases h
    refine ⟨Nat.le_refl _, Nat.le_refl _, fun b rest hlo hhi hrest => hproper _ ?_ ?_⟩ <;> omega
  split at h
  · cases h
    refine ⟨by omega, Nat.le_refl _, fun b rest hlo hhi hrest => hproper _ ?_ ?_⟩ <;> omega
  split at h
  · cases h
    refine ⟨Nat.le_refl _, Nat.le_refl _, fun b rest hlo hhi hrest => hproper _ ?_ ?_⟩ <;> omega
  split at h
  · cases h
    refine ⟨Nat.le_refl _, by omega, fun b rest hlo hhi hrest => hproper _ ?_ ?_⟩ <;> omega
  · cases h

/-- A byte where a character begins. -/
theorem proper_start {b : Nat} (hb : b ≠ 0) :
    '\x00' ∉ (start b).1 ∧ (start b).2.Proper := by
  have hreplacement : '\x00' ∉ [replacement] := by decide
  unfold start
  split
  · next hascii =>
    have hchar : IsProper b := ⟨.inl (by omega), by omega⟩
    exact ⟨fun h => hchar.ofNat_ne (List.mem_singleton.mp h).symm, trivial⟩
  · cases hl : lead b with
    | some p => exact ⟨List.not_mem_nil, proper_lead hl⟩
    | none => exact ⟨hreplacement, trivial⟩

/-- A byte other than zero completes no U+0000, and what is under way stays proper. -/
theorem Pending.Proper.step {p : Pending} (hp : p.Proper) {b : Nat} (hb : b ≠ 0) :
    '\x00' ∉ (Utf8.step p b).1 ∧ (Utf8.step p b).2.Proper := by
  cases p with
  | none => exact proper_start hb
  | partway more lo hi bits =>
    obtain ⟨hlo, hhi, hnumber⟩ := hp
    by_cases hrange : lo ≤ b ∧ b ≤ hi
    · cases more with
      | zero =>
        have hchar : IsProper (bits * 64 + b % 64) := by
          simpa using hnumber b 0 hrange.1 hrange.2 (by decide)
        have hstep : Utf8.step (.partway 0 lo hi bits) b
            = ([Char.ofNat (bits * 64 + b % 64)], .none) := if_pos hrange
        rw [hstep]
        exact ⟨fun h => hchar.ofNat_ne (List.mem_singleton.mp h).symm, trivial⟩
      | succ more =>
        have hstep : Utf8.step (.partway (more + 1) lo hi bits) b
            = ([], .partway more 0x80 0xBF (bits * 64 + b % 64)) := if_pos hrange
        rw [hstep]
        refine ⟨List.not_mem_nil, Nat.le_refl _, Nat.le_refl _, ?_⟩
        intro b' rest _ _ hrest
        -- the next byte and the bytes behind it are what was behind this one
        have hbehind : b' % 64 * 64 ^ more + rest < 64 ^ (more + 1) := by
          have hdigit : b' % 64 + 1 ≤ 64 := Nat.mod_lt b' (by decide)
          calc b' % 64 * 64 ^ more + rest
              < b' % 64 * 64 ^ more + 64 ^ more := Nat.add_lt_add_left hrest _
            _ = (b' % 64 + 1) * 64 ^ more := (Nat.succ_mul _ _).symm
            _ ≤ 64 * 64 ^ more := Nat.mul_le_mul_right _ hdigit
            _ = 64 ^ (more + 1) := (Nat.pow_succ').symm
        have hwhole := hnumber b (b' % 64 * 64 ^ more + rest) hrange.1 hrange.2 hbehind
        have heq : ((bits * 64 + b % 64) * 64 + b' % 64) * 64 ^ more + rest
            = (bits * 64 + b % 64) * 64 ^ (more + 1) + (b' % 64 * 64 ^ more + rest) := by
          rw [Nat.add_mul, Nat.mul_assoc, ← Nat.pow_succ', Nat.add_assoc]
        rwa [heq]
    · have hstep : Utf8.step (.partway more lo hi bits) b
          = (replacement :: (start b).1, (start b).2) := if_neg hrange
      obtain ⟨hchars, hnext⟩ := proper_start hb
      rw [hstep]
      refine ⟨?_, hnext⟩
      rw [List.mem_cons, not_or]
      exact ⟨by decide, hchars⟩

theorem Pending.Proper.nul_notMem_decodeFrom {p : Pending} (hp : p.Proper) {bs : Bytes}
    (hbs : (0 : UInt8) ∉ bs) : '\x00' ∉ decodeFrom [] p bs := by
  induction bs generalizing p with
  | nil =>
    rw [decodeFrom_nil]
    cases p with
    | none => exact List.not_mem_nil
    | partway more lo hi bits =>
      change '\x00' ∉ [replacement]
      decide
  | cons b bs ih =>
    rw [List.mem_cons, not_or] at hbs
    have hb : b.toNat ≠ 0 := fun h => hbs.1 (UInt8.toNat_inj.mp h).symm
    obtain ⟨hchars, hnext⟩ := hp.step hb
    rw [decodeFrom_cons, List.mem_append, not_or]
    exact ⟨hchars, ih hnext hbs.2⟩

/-- **Bytes other than zero are never read as U+0000.** -/
theorem nulFree_decode {bs : Bytes} (h : (0 : UInt8) ∉ bs) : NulFree (decode bs) := by
  rw [NulFree, toList_decode]
  exact Pending.Proper.nul_notMem_decodeFrom (p := .none) trivial h

end Utf8

end Text

/-! ### Redaction -/

open Text

/-- Redaction leaves characters of the text and puts in those of the placeholder. -/
theorem mem_redact {word placeholder cs : List Char} {c : Char}
    (h : c ∈ redact word placeholder cs) : c ∈ placeholder ∨ c ∈ cs := by
  induction hlength : cs.length using Nat.strongRecOn generalizing cs with
  | ind length ih =>
    cases cs with
    | nil => cases h
    | cons d cs =>
      by_cases hw : word <+: d :: cs
      · rw [redact_cons_of_isPrefix hw, List.mem_append] at h
        rcases h with h | h
        · exact .inl h
        · have hlt : (cs.drop (word.length - 1)).length < length := by
            rw [← hlength, List.length_drop, List.length_cons]
            omega
          exact (ih _ hlt h rfl).imp_right fun hc =>
            List.mem_cons_of_mem _ (List.mem_of_mem_drop hc)
      · rw [redact_cons_of_not_isPrefix hw, List.mem_cons] at h
        rcases h with rfl | h
        · exact .inr List.mem_cons_self
        · have hlt : cs.length < length := by rw [← hlength]; exact Nat.lt_succ_self _
          exact (ih _ hlt h rfl).imp_right (List.mem_cons_of_mem _)

/-- **A filter puts in nothing but its placeholder.** -/
theorem nulFree_apply {filter : ContentFilter} (hplaceholder : NulFree filter.placeholder)
    {content : String} (hcontent : NulFree content) : NulFree (filter.apply content) := by
  have hfold : ∀ (words : List String) (cs : List Char), '\x00' ∉ cs →
      '\x00' ∉ words.foldl
        (fun cs word => redact word.toList filter.placeholder.toList cs) cs := by
    intro words
    induction words with
    | nil => exact fun cs hcs => hcs
    | cons word words ih =>
      intro cs hcs
      exact ih _ fun h => (mem_redact h).elim hplaceholder hcs
  rw [ContentFilter.apply, nulFree_ofList]
  exact hfold _ _ hcontent

end Microblog
