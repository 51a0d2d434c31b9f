import Mathlib.Data.List.Infix

/-!
Searching a list for a pattern, where the list arrives in pieces: which ends of what has arrived
may still grow into the pattern.
-/

namespace CrossHostOps.Search

open List

variable {α : Type}

/-- The pattern stands at position `p`. -/
def OccursAt (pat s : List α) (p : ℕ) : Prop := pat <+: s.drop p

/-- Occurrences of the pattern do not overlap. -/
def NonOverlapping (pat s : List α) : Prop :=
  ∀ p q, OccursAt pat s p → OccursAt pat s q → p < q → p + pat.length ≤ q

section Occurrences

variable {pat s t : List α} {p n : ℕ}

lemma OccursAt.append (h : OccursAt pat s p) (t : List α) : OccursAt pat (s ++ t) p := by
  unfold OccursAt
  rw [drop_append]
  exact h.trans (prefix_append _ _)

lemma occursAt_drop : OccursAt pat (s.drop n) p ↔ OccursAt pat s (n + p) := by
  rw [OccursAt, OccursAt, drop_drop]

/-- Inside `s`, `s ++ t` is searched like `s`. -/
lemma OccursAt.of_append (h : OccursAt pat (s ++ t) p) (hle : p + pat.length ≤ s.length) :
    OccursAt pat s p := by
  unfold OccursAt at h ⊢
  rw [drop_append_of_le_length (by omega)] at h
  refine prefix_of_prefix_length_le h (prefix_append _ _) ?_
  rw [length_drop]
  omega

lemma OccursAt.add_length_le (h : OccursAt pat s p) (hpat : pat ≠ []) :
    p + pat.length ≤ s.length := by
  have hlen := h.length_le
  have hpos := length_pos_iff.2 hpat
  rw [length_drop] at hlen
  omega

/-- An occurrence that reaches beyond `s` ends `s` with a beginning of the pattern. -/
lemma OccursAt.drop_eq_take (h : OccursAt pat (s ++ t) p) (hp : p ≤ s.length)
    (hover : s.length ≤ p + pat.length) : s.drop p = pat.take (s.length - p) := by
  unfold OccursAt at h
  rw [drop_append_of_le_length hp] at h
  have hlen : (s.drop p).length ≤ pat.length := by
    rw [length_drop]
    omega
  have hpre : s.drop p <+: pat := prefix_of_prefix_length_le (prefix_append _ _) h hlen
  rw [prefix_iff_eq_take.1 hpre, length_drop]

lemma NonOverlapping.drop (h : NonOverlapping pat s) (n : ℕ) : NonOverlapping pat (s.drop n) := by
  intro p q hp hq hlt
  have := h (n + p) (n + q) (occursAt_drop.1 hp) (occursAt_drop.1 hq) (by omega)
  omega

lemma NonOverlapping.of_append (h : NonOverlapping pat (s ++ t)) : NonOverlapping pat s :=
  fun p q hp hq hlt => h p q (hp.append t) (hq.append t) hlt

/-- Only positions inside the list need to be looked at. -/
lemma nonOverlapping_iff : NonOverlapping pat s ↔ ∀ q < s.length, ∀ p < q,
    OccursAt pat s p → OccursAt pat s q → p + pat.length ≤ q := by
  refine ⟨fun h q _ p hlt hp hq => h p q hp hq hlt, fun h p q hp hq hlt => ?_⟩
  by_cases hpat : pat = []
  · subst hpat
    exact hlt.le
  · have hle := hq.add_length_le hpat
    have hpos := length_pos_iff.2 hpat
    exact h q (by omega) p hlt hp hq

end Occurrences

/-- The piece in which the `n`-th element of a list lies. -/
lemma exists_piece {n : ℕ} {pieces : List (List α)} (hpos : 0 < n)
    (hn : n ≤ pieces.flatten.length) :
    ∃ before piece behind, pieces = before ++ piece :: behind ∧ before.flatten.length < n ∧
      n ≤ (before.flatten ++ piece).length := by
  induction pieces generalizing n with
  | nil =>
    rw [flatten_nil, length_nil] at hn
    omega
  | cons piece pieces ih =>
    by_cases hhere : n ≤ piece.length
    · exact ⟨[], piece, pieces, rfl, hpos, hhere⟩
    · rw [flatten_cons, length_append] at hn
      obtain ⟨before, p, behind, rfl, hlt, hle⟩ :=
        ih (n := n - piece.length) (by omega) (by omega)
      refine ⟨piece :: before, p, behind, rfl, ?_, ?_⟩
      · rw [flatten_cons, length_append]
        omega
      · rw [flatten_cons, append_assoc, length_append]
        omega

variable [DecidableEq α]

instance (pat s : List α) (p : ℕ) : Decidable (OccursAt pat s p) :=
  inferInstanceAs (Decidable (pat <+: s.drop p))

instance (pat s : List α) : Decidable (NonOverlapping pat s) :=
  decidable_of_iff' _ nonOverlapping_iff

/-- The first position of the pattern; an empty pattern is not found. -/
def findSubslice (pat : List α) : List α → Option ℕ
  | [] => none
  | x :: s => if pat ≠ [] ∧ pat <+: x :: s then some 0 else (findSubslice pat s).map (· + 1)

/-- The length of the longest end of `buf` that begins the pattern, without being all of it. -/
def partialSuffixMatch (buf pat : List α) : ℕ :=
  ((List.range (min buf.length (pat.length - 1) + 1)).reverse.find? fun len =>
    buf.drop (buf.length - len) = pat.take len).getD 0

variable {pat s t : List α} {p : ℕ}

lemma findSubslice_some (h : findSubslice pat s = some p) :
    pat ≠ [] ∧ OccursAt pat s p ∧ ∀ q < p, ¬ OccursAt pat s q := by
  induction s generalizing p with
  | nil => cases h
  | cons x s ih =>
    rw [findSubslice] at h
    split_ifs at h with hhere
    · cases h
      exact ⟨hhere.1, hhere.2, fun q hq => by omega⟩
    · obtain ⟨p', hp', rfl⟩ := Option.map_eq_some_iff.1 h
      obtain ⟨hpat, hocc, hfirst⟩ := ih hp'
      refine ⟨hpat, hocc, fun q hq hq' => ?_⟩
      cases q with
      | zero => exact hhere ⟨hpat, hq'⟩
      | succ q => exact hfirst q (by omega) hq'

lemma findSubslice_none (hpat : pat ≠ []) (h : findSubslice pat s = none) (p : ℕ) :
    ¬ OccursAt pat s p := by
  induction s generalizing p with
  | nil =>
    intro hocc
    exact hpat (by simpa [OccursAt] using hocc)
  | cons x s ih =>
    rw [findSubslice] at h
    split_ifs at h with hhere
    intro hocc
    cases p with
    | zero => exact hhere ⟨hpat, hocc⟩
    | succ p => exact ih (by simpa using h) p hocc

/-- An occurrence that comes first is the one found. -/
lemma findSubslice_eq (hpat : pat ≠ []) (hocc : OccursAt pat s p)
    (hfirst : ∀ q < p, ¬ OccursAt pat s q) : findSubslice pat s = some p := by
  cases hfind : findSubslice pat s with
  | none => exact absurd hocc (findSubslice_none hpat hfind p)
  | some p' =>
    obtain ⟨-, hocc', hfirst'⟩ := findSubslice_some hfind
    rcases Nat.lt_trichotomy p p' with hlt | rfl | hlt
    · exact absurd hocc (hfirst' p hlt)
    · rfl
    · exact absurd hocc' (hfirst p' hlt)

section Cut

variable {before after : List α}

/-- The first occurrence of the pattern, by what comes before it. -/
lemma findSubslice_cut (hpat : pat ≠ []) (hfirst : ∀ q < before.length,
    ¬ OccursAt pat (before ++ pat) q) (after : List α) :
    findSubslice pat (before ++ pat ++ after) = some before.length := by
  refine findSubslice_eq hpat ?_ fun q hq hocc => ?_
  · rw [append_assoc, OccursAt, drop_left]
    exact prefix_append pat after
  · refine hfirst q hq (hocc.of_append ?_)
    rw [length_append]
    omega

/-- Before its end has arrived the pattern is not found. -/
lemma findSubslice_none_of_short (hfirst : ∀ q < before.length,
    ¬ OccursAt pat (before ++ pat) q) (hpre : s <+: before ++ pat ++ after)
    (hlen : s.length < (before ++ pat).length) : findSubslice pat s = none := by
  cases hfind : findSubslice pat s with
  | none => rfl
  | some q =>
    obtain ⟨hpat, hocc, -⟩ := findSubslice_some hfind
    have hle := hocc.add_length_le hpat
    obtain ⟨b, hb⟩ := prefix_of_prefix_length_le hpre (prefix_append _ _) hlen.le
    rw [length_append] at hlen
    refine absurd ?_ (hfirst q (by omega))
    rw [← hb]
    exact hocc.append b

end Cut

/-- Without the pattern in `s`, only its end can have to do with an occurrence in `s ++ t`. -/
lemma findSubslice_append_of_none {old kept : List α} (hpat : pat ≠ [])
    (hnone : findSubslice pat (old ++ kept) = none) (hkept : old = [] ∨ pat.length ≤ kept.length)
    (t : List α) : findSubslice pat (old ++ kept ++ t) =
      (findSubslice pat (kept ++ t)).map (old.length + ·) := by
  have hshift : ∀ q, OccursAt pat (old ++ kept ++ t) (old.length + q) ↔
      OccursAt pat (kept ++ t) q := by
    intro q
    rw [← occursAt_drop, append_assoc, drop_left]
  have hlate : ∀ q, OccursAt pat (old ++ kept ++ t) q → old.length ≤ q := by
    intro q hq
    by_contra hlt
    have hnear : ¬ q + pat.length ≤ (old ++ kept).length :=
      fun hle => findSubslice_none hpat hnone q (hq.of_append hle)
    rw [length_append] at hnear
    rcases hkept with rfl | hle
    · rw [length_nil] at hlt
      omega
    · omega
  cases hfind : findSubslice pat (kept ++ t) with
  | none =>
    cases hfind' : findSubslice pat (old ++ kept ++ t) with
    | none => rfl
    | some q =>
      obtain ⟨-, hocc, -⟩ := findSubslice_some hfind'
      obtain ⟨r, rfl⟩ := Nat.exists_eq_add_of_le (hlate q hocc)
      exact absurd ((hshift r).1 hocc) (findSubslice_none hpat hfind r)
  | some p =>
    obtain ⟨-, hocc, hfirst⟩ := findSubslice_some hfind
    rw [Option.map_some]
    refine findSubslice_eq hpat ((hshift p).2 hocc) fun q hq hq' => ?_
    obtain ⟨r, rfl⟩ := Nat.exists_eq_add_of_le (hlate q hq')
    exact hfirst r (by omega) ((hshift r).1 hq')

lemma partialSuffixMatch_spec (buf pat : List α) :
    partialSuffixMatch buf pat ≤ buf.length ∧
      buf.drop (buf.length - partialSuffixMatch buf pat) =
        pat.take (partialSuffixMatch buf pat) := by
  unfold partialSuffixMatch
  cases hfind : (range (min buf.length (pat.length - 1) + 1)).reverse.find? fun len =>
      decide (buf.drop (buf.length - len) = pat.take len) with
  | none => simp
  | some len =>
    have hmem := mem_of_find?_eq_some hfind
    rw [mem_reverse, mem_range] at hmem
    exact ⟨by rw [Option.getD_some]; omega, by simpa using find?_some hfind⟩

/-- No longer end of `buf` begins the pattern. -/
lemma le_partialSuffixMatch {buf : List α} {len : ℕ} (hbuf : len ≤ buf.length)
    (hlen : len < pat.length) (h : buf.drop (buf.length - len) = pat.take len) :
    len ≤ partialSuffixMatch buf pat := by
  unfold partialSuffixMatch
  have hrange : len < min buf.length (pat.length - 1) + 1 := by omega
  generalize min buf.length (pat.length - 1) + 1 = n at hrange
  induction n with
  | zero => omega
  | succ n ih =>
    rw [range_succ, reverse_append, reverse_singleton, singleton_append, find?_cons]
    by_cases hn : buf.drop (buf.length - n) = pat.take n
    · simp only [hn, decide_true]
      rw [Option.getD_some]
      omega
    · have hne : len ≠ n := by
        rintro rfl
        exact hn h
      simp only [hn]
      exact ih (by omega)

/-- What may still become the pattern lies in the end that is kept. -/
lemma OccursAt.le_of_partialSuffixMatch (h : OccursAt pat (s ++ t) p) (hp : p ≤ s.length)
    (hover : s.length < p + pat.length) : s.length - partialSuffixMatch s pat ≤ p := by
  have hdrop := h.drop_eq_take hp (by omega)
  have hle : s.length - p ≤ partialSuffixMatch s pat := by
    refine le_partialSuffixMatch (by omega) (by omega) ?_
    rw [Nat.sub_sub_self hp, hdrop]
  omega

end CrossHostOps.Search
