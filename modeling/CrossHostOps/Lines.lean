import CrossHostOps.Text

/-!
How the lines and the trimmed ends of a text depend on its parts.
-/

namespace CrossHostOps.Text

open List

/-! ### Blank ends -/

variable {s t piece : Str} {c : Char}

lemma trim_of_forall (h : ∀ c ∈ s, isWhitespace c = false) : trim s = s := by
  have hstart : trimStart s = s := by
    unfold trimStart
    cases s with
    | nil => rfl
    | cons c s => rw [dropWhile_cons_of_neg (by simp [h c])]
  unfold trim
  rw [hstart, trimEnd, rdropWhile_eq_self_iff]
  intro hne
  simp [h _ (getLast_mem hne)]

lemma trimEnd_append_of_forall (h : ∀ c ∈ t, isWhitespace c = true) :
    trimEnd (s ++ t) = trimEnd s := by
  unfold trimEnd rdropWhile
  rw [reverse_append, dropWhile_append_of_pos (by simpa using h)]

lemma trimEnd_append (s : Str) (h : trimEnd t ≠ []) : trimEnd (s ++ t) = s ++ trimEnd t := by
  have hne : (t.reverse.dropWhile isWhitespace).isEmpty = false := by
    simpa [trimEnd] using h
  unfold trimEnd rdropWhile
  rw [reverse_append, dropWhile_append, hne]
  simp

lemma exists_eq_trimEnd_append (s : Str) :
    ∃ w, s = trimEnd s ++ w ∧ ∀ c ∈ w, isWhitespace c = true :=
  ⟨s.rtakeWhile isWhitespace, rdropWhile_append_rtakeWhile.symm,
    fun _ => mem_rtakeWhile_imp⟩

lemma trim_eq_nil_iff : trim s = [] ↔ ∀ c ∈ s, isWhitespace c = true := by
  unfold trim trimEnd trimStart
  rw [rdropWhile_eq_nil_iff]
  constructor
  · intro h c hc
    rw [← takeWhile_append_dropWhile (p := isWhitespace) (l := s)] at hc
    rcases mem_append.1 hc with hc | hc
    · exact mem_takeWhile_imp hc
    · exact h c hc
  · intro h c hc
    exact h c ((dropWhile_sublist _).subset hc)

lemma trim_append_of_blank (h : trim s = []) : trim (s ++ t) = trim t := by
  unfold trim trimStart
  rw [dropWhile_append_of_pos (trim_eq_nil_iff.1 h)]

lemma trimStart_append (h : trim s ≠ []) (t : Str) : trimStart (s ++ t) = trimStart s ++ t := by
  have hne : (s.dropWhile isWhitespace).isEmpty = false := by
    rw [isEmpty_eq_false_iff]
    intro hnil
    refine h ?_
    unfold trim trimStart
    rw [hnil]
    rfl
  unfold trimStart
  rw [dropWhile_append, hne]
  rfl

/-- Text before and after: the blanks between them stay. -/
lemma trim_append (hs : trim s ≠ []) (ht : trimEnd t ≠ []) :
    trim (s ++ t) = trimStart s ++ trimEnd t := by
  rw [trim, trimStart_append hs, trimEnd_append _ ht]

/-! ### Lines -/

/-- A line without the carriage return before its line feed. -/
def stripCr (l : Str) : Str := if l.getLast? = some '\r' then l.dropLast else l

lemma trim_stripCr (l : Str) : trim (stripCr l) = trim l := by
  unfold stripCr
  split
  next hlast =>
    have hl : l = l.dropLast ++ ['\r'] := (dropLast_append_getLast? _ hlast).symm
    by_cases hblank : trim l.dropLast = []
    · rw [hblank]
      nth_rewrite 1 [hl]
      rw [trim_append_of_blank hblank]
      rfl
    · have hcr : ∀ c ∈ ['\r'], isWhitespace c = true := by
        intro c hc
        rw [mem_singleton.1 hc]
        rfl
      nth_rewrite 2 [hl]
      rw [trim, trim, trimStart_append hblank, trimEnd_append_of_forall hcr]
  · rfl

lemma lines_append_newline (a b : Str) :
    lines (a ++ '\n' :: b) = (split '\n' a).map stripCr ++ lines b := by
  have hb : split '\n' b ≠ [] := splitOn_ne_nil _ _
  have hpieces : split '\n' (a ++ '\n' :: b) = split '\n' a ++ split '\n' b :=
    splitOn_append_cons_self _ _
  have hdrop : (split '\n' a ++ split '\n' b).dropLast = split '\n' a ++ (split '\n' b).dropLast :=
    dropLast_append_of_ne_nil hb
  have hlast : (split '\n' a ++ split '\n' b).getLast? = (split '\n' b).getLast? := by
    rw [getLast?_append_of_ne_nil _ hb]
  unfold lines
  dsimp only
  rw [hpieces, hlast, hdrop]
  cases (split '\n' b).getLast? with
  | none => exact map_append
  | some l =>
    cases l with
    | nil => exact map_append
    | cons c l =>
      dsimp only
      rw [map_append, append_assoc]
      rfl

lemma split_of_not_mem (h : '\n' ∉ s) : split '\n' s = [s] := splitOn_eq_singleton h

lemma lines_of_not_mem (h : '\n' ∉ s) (hne : s ≠ []) : lines s = [s] := by
  unfold lines
  rw [split_of_not_mem h]
  cases s with
  | nil => exact absurd rfl hne
  | cons c s => rfl

lemma lines_terminated (h : '\n' ∉ s) (rest : Str) :
    lines (s ++ '\n' :: rest) = stripCr s :: lines rest := by
  rw [lines_append_newline, split_of_not_mem h]
  rfl

lemma not_mem_of_mem_split (h : piece ∈ split c s) : c ∉ piece := by
  intro hc
  have hflat : c ∈ (split c s).flatten := mem_flatten.2 ⟨piece, h, hc⟩
  rw [flatten_split] at hflat
  simpa using of_mem_filter hflat

lemma mem_of_mem_split {x : Char} (h : piece ∈ split c s) (hx : x ∈ piece) : x ∈ s := by
  have hflat : x ∈ (split c s).flatten := mem_flatten.2 ⟨piece, h, hx⟩
  rw [flatten_split] at hflat
  exact mem_of_mem_filter hflat

lemma not_mem_of_mem_lines {l : Str} (h : l ∈ lines s) : '\n' ∉ l := by
  have hended : ∀ l ∈ (split '\n' s).dropLast.map stripCr, '\n' ∉ l := by
    intro l hl hc
    obtain ⟨piece, hpiece, rfl⟩ := mem_map.1 hl
    refine not_mem_of_mem_split (mem_of_mem_dropLast hpiece) ?_
    unfold stripCr at hc
    split at hc
    · exact mem_of_mem_dropLast hc
    · exact hc
  unfold lines at h
  dsimp only at h
  split at h
  · exact hended l h
  · exact hended l h
  next last hlast =>
    rcases mem_append.1 h with h | h
    · exact hended l h
    · rw [mem_singleton.1 h]
      exact not_mem_of_mem_split (mem_of_getLast? hlast)

lemma not_mem_lastPiece (c : Char) (s : Str) : c ∉ lastPiece c s := by
  intro h
  simpa using mem_rtakeWhile_imp h

/-- The lines of a text that goes on after `s`: those of `s` that are complete, then the lines of
what begins after its last line feed. -/
lemma exists_lines_append (s : Str) :
    ∃ ls, ∀ t, lines (s ++ t) = ls ++ lines (lastPiece '\n' s ++ t) := by
  have hs : s.rdropWhile (· != '\n') ++ lastPiece '\n' s = s := rdropWhile_append_rtakeWhile
  by_cases hnil : s.rdropWhile (· != '\n') = []
  · refine ⟨[], fun t => ?_⟩
    rw [hnil, nil_append] at hs
    rw [hs]
    rfl
  · have hlast : (s.rdropWhile (· != '\n')).getLast hnil = '\n' := by
      simpa using rdropWhile_last_not _ _ hnil
    have hdrop := dropLast_append_getLast hnil
    rw [hlast] at hdrop
    refine ⟨(split '\n' (s.rdropWhile (· != '\n')).dropLast).map stripCr, fun t => ?_⟩
    nth_rewrite 1 [← hs]
    nth_rewrite 1 [← hdrop]
    rw [← lines_append_newline]
    simp

end CrossHostOps.Text
