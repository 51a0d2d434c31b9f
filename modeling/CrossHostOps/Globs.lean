import CrossHostOps.CopyReview
import CrossHostOps.Inventory

/-!
The matchers of `oversight/review.rs` and of `config/inventory.rs` against the language of a
pattern.
-/

namespace CrossHostOps.Globs

open Text List

/-- What a character of a pattern stands for; `?` is a wildcard for the inventory only. -/
def StandsFor (inventory : Bool) (ch : Char) (piece : Str) : Prop :=
  if ch = '*' then True
  else if inventory ∧ ch = '?' then piece.length = 1
  else piece = [ch]

/-- The language of a pattern: texts in pieces, one for each of its characters. -/
def Denotes (inventory : Bool) (pattern text : Str) : Prop :=
  ∃ pieces, Forall₂ (StandsFor inventory) pattern pieces ∧ text = pieces.flatten

variable {inventory : Bool} {ch : Char} {pattern text : Str}

lemma denotes_nil : Denotes inventory [] text ↔ text = [] := by
  simp [Denotes]

lemma denotes_cons : Denotes inventory (ch :: pattern) text ↔
    ∃ piece rest, StandsFor inventory ch piece ∧ Denotes inventory pattern rest ∧
      text = piece ++ rest := by
  constructor
  · rintro ⟨_, h, rfl⟩
    obtain ⟨piece, pieces, hpiece, hpieces, rfl⟩ := forall₂_cons_left_iff.1 h
    exact ⟨piece, pieces.flatten, hpiece, ⟨pieces, hpieces, rfl⟩, flatten_cons⟩
  · rintro ⟨piece, _, hpiece, ⟨pieces, hpieces, rfl⟩, rfl⟩
    exact ⟨piece :: pieces, .cons hpiece hpieces, flatten_cons.symm⟩

/-- A star may take all that comes before some suffix. -/
lemma denotes_star : Denotes inventory ('*' :: pattern) text ↔
    ∃ rest, rest <:+ text ∧ Denotes inventory pattern rest := by
  rw [denotes_cons]
  constructor
  · rintro ⟨piece, rest, -, hrest, rfl⟩
    exact ⟨rest, suffix_append _ _, hrest⟩
  · rintro ⟨rest, ⟨piece, rfl⟩, hrest⟩
    exact ⟨piece, rest, trivial, hrest, rfl⟩

lemma denotes_wild : Denotes true ('?' :: pattern) text ↔
    text ≠ [] ∧ Denotes true pattern text.tail := by
  rw [denotes_cons]
  constructor
  · rintro ⟨piece, rest, hpiece, hrest, rfl⟩
    obtain ⟨c, rfl⟩ := length_eq_one_iff.1 (show piece.length = 1 from hpiece)
    exact ⟨by simp, hrest⟩
  · rintro ⟨hne, hrest⟩
    obtain ⟨c, text, rfl⟩ := exists_cons_of_ne_nil hne
    exact ⟨[c], text, rfl, hrest, rfl⟩

lemma denotes_literal (hstar : ch ≠ '*') (hwild : ¬ (inventory ∧ ch = '?')) :
    Denotes inventory (ch :: pattern) text ↔
      text.head? = some ch ∧ Denotes inventory pattern text.tail := by
  rw [denotes_cons]
  simp only [StandsFor, if_neg hstar, if_neg hwild]
  constructor
  · rintro ⟨_, rest, rfl, hrest, rfl⟩
    exact ⟨rfl, hrest⟩
  · rintro ⟨hhead, hrest⟩
    exact ⟨[ch], text.tail, rfl, hrest, (cons_head?_tail hhead).symm⟩

lemma review_iff : CopyReview.globMatch pattern text = true ↔ Denotes false pattern text := by
  induction pattern generalizing text with
  | nil => simp [CopyReview.globMatch, denotes_nil]
  | cons ch pattern ih =>
    rw [CopyReview.globMatch]
    split_ifs with hstar
    · rw [hstar, denotes_star, any_eq_true]
      simp [ih, mem_tails]
    · rw [denotes_literal hstar (by simp)]
      simp [ih]

lemma inventory_iff : Inventory.globMatch pattern text = true ↔ Denotes true pattern text := by
  induction pattern generalizing text with
  | nil => simp [Inventory.globMatch, denotes_nil]
  | cons ch pattern ih =>
    by_cases hstar : ch = '*'
    · rw [hstar, denotes_star, Inventory.globMatch, any_eq_true]
      simp [ih, mem_tails]
    by_cases hwild : ch = '?'
    · rw [hwild, denotes_wild, Inventory.globMatch]
      simp [ih]
    · rw [denotes_literal hstar (by simpa using hwild), Inventory.globMatch.eq_4 _ _ _ hstar hwild]
      simp [ih]

/-- **Both matchers accept the language of the pattern**, and nothing else. -/
theorem glob_match_exact (pattern text : Str) :
    (CopyReview.globMatch pattern text = true ↔ Denotes false pattern text) ∧
      (Inventory.globMatch pattern text = true ↔ Denotes true pattern text) :=
  ⟨review_iff, inventory_iff⟩

end CrossHostOps.Globs
