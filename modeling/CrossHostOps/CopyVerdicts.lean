import CrossHostOps.Globs

/-!
What the lists of `review_copy` say of other spellings of the same path, and of the path that an
upload into a directory writes: for given lists and paths, when the verdict is the same.
-/

namespace CrossHostOps.CopyReview

open Text Config Filepath Oversight Globs List

/-! ### What a pattern covers -/

/-- What a pattern covers: paths that start with its segments or have it as a segment, and with a
star those whose text, or a segment of it, is in its language. -/
def Covers (pattern path : Str) : Prop :=
  segments pattern <+: segments path ∨ pattern ∈ segments path ∨
    '*' ∈ pattern ∧
      (Denotes false pattern path ∨ ∃ seg ∈ segments path, Denotes false pattern seg)

def Listed (patterns : List Str) (sourceName path : Str) : Prop :=
  ∃ pattern ∈ patterns, Covers pattern path ∨ Covers pattern sourceName

/-- Both lists have both paths or neither; the allowlist does not matter for what is blocked. -/
def Alike (cfg : ReviewCopyConfig) (sourceName path path' : Str) : Prop :=
  (Listed cfg.blocklist sourceName path ↔ Listed cfg.blocklist sourceName path') ∧
    (Listed cfg.blocklist sourceName path ∨
      (Listed cfg.allowlist sourceName path ↔ Listed cfg.allowlist sourceName path'))

/-- Whatever the model would say, the review has the same outcome for both paths. -/
def SameVerdict (cfg : ReviewCopyConfig) (sourceName path path' : Str) : Prop :=
  ∀ llm, reviewCopy cfg llm path sourceName = reviewCopy cfg llm path' sourceName

/-- The lists have names only, that match a whole segment. -/
structure Bare (cfg : ReviewCopyConfig) : Prop where
  name : ∀ pattern ∈ cfg.blocklist ++ cfg.allowlist,
    pattern ≠ [] ∧ pattern ≠ dot ∧ '*' ∉ pattern ∧ '/' ∉ pattern

variable {pattern path path' sourceName name : Str} {cfg : ReviewCopyConfig}

lemma denotes_self (h : '*' ∉ pattern) : Denotes false pattern path ↔ path = pattern := by
  induction pattern generalizing path with
  | nil => exact denotes_nil
  | cons ch pattern ih =>
    rw [mem_cons, not_or] at h
    rw [denotes_literal (Ne.symm h.1) (by simp), ih h.2]
    cases path with
    | nil => simp
    | cons c path => simp

/-- The part of the matcher for a path and what is below it. -/
lemma below_iff :
    (pattern.isPrefixOf path && (path.drop pattern.length).head?.all (· = '/')) = true ↔
    path = pattern ∨ pattern ++ ['/'] <+: path := by
  rw [Bool.and_eq_true, isPrefixOf_iff_prefix]
  constructor
  · rintro ⟨⟨rest, rfl⟩, hrest⟩
    cases rest with
    | nil => exact .inl (append_nil _)
    | cons c rest =>
      obtain rfl : c = '/' := by simpa using hrest
      exact .inr ⟨rest, by simp⟩
  · rintro (rfl | ⟨rest, rfl⟩)
    · exact ⟨prefix_rfl, by simp⟩
    · exact ⟨⟨'/' :: rest, by simp⟩, by simp⟩

lemma intercalate_append {c : Char} {ls ms : List Str} (hls : ls ≠ []) (hms : ms ≠ []) :
    [c].intercalate (ls ++ ms) = [c].intercalate ls ++ c :: [c].intercalate ms := by
  induction ls with
  | nil => exact absurd rfl hls
  | cons l ls ih =>
    cases ls with
    | nil =>
      rw [singleton_append, intercalate_cons_of_ne_nil hms, intercalate_singleton, append_assoc]
      rfl
    | cons l' ls =>
      rw [cons_append, cons_append, intercalate_cons_cons, ← cons_append, ih (cons_ne_nil _ _),
        intercalate_cons_cons, append_assoc, append_assoc, append_assoc]

/-- A path and what is below it start with the same segments. -/
lemma below_iff_segments : path = pattern ∨ pattern ++ ['/'] <+: path ↔
    segments pattern <+: segments path := by
  have hjoin : ∀ text, ['/'].intercalate (segments text) = text := fun _ =>
    intercalate_splitOn '/'
  constructor
  · rintro (rfl | ⟨rest, rfl⟩)
    · exact prefix_rfl
    · rw [append_assoc, singleton_append]
      exact ⟨segments rest, (splitOn_append_cons_self ..).symm⟩
  · rintro ⟨rest, hrest⟩
    cases rest with
    | nil =>
      rw [append_nil] at hrest
      exact .inl ((hjoin path).symm.trans (hrest ▸ hjoin pattern))
    | cons seg rest =>
      refine .inr ⟨['/'].intercalate (seg :: rest), ?_⟩
      have hne : segments pattern ≠ [] := splitOn_ne_nil '/' pattern
      rw [← hjoin path, ← hrest, intercalate_append hne (cons_ne_nil _ _), hjoin, append_assoc,
        singleton_append]

lemma pathMatches_iff : pathMatches pattern path = true ↔ Covers pattern path := by
  rw [pathMatches, Bool.or_eq_true, Bool.or_eq_true, Bool.or_eq_true, below_iff,
    below_iff_segments, any_eq_true, any_eq_true, review_iff]
  simp only [decide_eq_true_eq, Bool.and_eq_true, exists_eq_right, or_assoc, review_iff]
  constructor
  · rintro (hglob | hbelow | hseg | ⟨seg, hseg, hstar, hglob⟩)
    · by_cases hstar : '*' ∈ pattern
      · exact .inr (.inr ⟨hstar, .inl hglob⟩)
      · exact .inl ((denotes_self hstar).1 hglob ▸ prefix_rfl)
    · exact .inl hbelow
    · exact .inr (.inl hseg)
    · exact .inr (.inr ⟨hstar, .inr ⟨seg, hseg, hglob⟩⟩)
  · rintro (hbelow | hseg | ⟨hstar, hglob | ⟨seg, hseg, hglob⟩⟩)
    · exact .inr (.inl hbelow)
    · exact .inr (.inr (.inl hseg))
    · exact .inl hglob
    · exact .inr (.inr (.inr ⟨seg, hseg, hstar, hglob⟩))

lemma matchesAny_iff (patterns : List Str) :
    matchesAny patterns path sourceName = true ↔ Listed patterns sourceName path := by
  simp only [matchesAny, any_eq_true, Bool.or_eq_true, pathMatches_iff, Listed]

lemma covers_name (hstar : '*' ∉ pattern) (hslash : '/' ∉ pattern) :
    Covers pattern path ↔ pattern ∈ segments path := by
  have hsegments : segments pattern = [pattern] := splitOn_eq_singleton hslash
  constructor
  · rintro (hbelow | hseg | ⟨hmem, -⟩)
    · rw [hsegments] at hbelow
      exact hbelow.subset (mem_singleton_self _)
    · exact hseg
    · exact absurd hmem hstar
  · exact fun hseg => .inr (.inl hseg)

/-! ### The verdicts -/

lemma listVerdict_eq_iff : listVerdict cfg path sourceName = listVerdict cfg path' sourceName ↔
    Alike cfg sourceName path path' := by
  simp only [Alike, ← matchesAny_iff, listVerdict]
  split_ifs with hblock hblock' hallow' hallow hblock' hallow' hblock' hallow' <;> simp_all

lemma sameVerdict_iff :
    SameVerdict cfg sourceName path path' ↔
      cfg.enable = false ∨ Alike cfg sourceName path path' := by
  rw [← listVerdict_eq_iff]
  cases henable : cfg.enable with
  | false => simp [SameVerdict, reviewCopy, henable]
  | true =>
    simp only [SameVerdict, reviewCopy, henable, if_true, Bool.true_eq_false,
      false_or]
    constructor
    · intro hsame
      -- a model that skips is told from every verdict of the lists
      have hskipped := hsame .skipped
      clear hsame
      cases hverdict : listVerdict cfg path sourceName <;>
        cases hverdict' : listVerdict cfg path' sourceName <;> simp_all
    · intro heq llm
      rw [heq]

/-! ### Lists of names -/

lemma mem_foldl_resolveSegment {absolute : Bool} {segs stack : List Str} (hsegs : dotdot ∉ segs)
    (hnil : name ≠ []) (hdot : name ≠ dot) :
    name ∈ segs.foldl (resolveSegment absolute) stack ↔ name ∈ segs ∨ name ∈ stack := by
  induction segs generalizing stack with
  | nil => simp
  | cons seg segs ih =>
    rw [mem_cons, not_or] at hsegs
    rw [foldl_cons, ih hsegs.2]
    simp only [resolveSegment, if_neg (Ne.symm hsegs.1)]
    split_ifs with hskip
    · have hne : name ≠ seg := by
        rintro rfl
        exact hskip.elim hnil hdot
      simp [hne]
    · rw [mem_cons, mem_cons, or_left_comm, or_assoc]

/-- Without `..` the names of a path are those of the file. -/
lemma mem_segments_of_sameFile (hsame : SameFile path path') (hpath : dotdot ∉ segments path)
    (hpath' : dotdot ∉ segments path') (hnil : name ≠ []) (hdot : name ≠ dot) :
    name ∈ segments path ↔ name ∈ segments path' := by
  have hresolved := congrArg (fun file => name ∈ file.2) hsame
  simp only [lexical] at hresolved
  rw [mem_foldl_resolveSegment hpath hnil hdot,
    mem_foldl_resolveSegment hpath' hnil hdot] at hresolved
  simpa using hresolved

/-- Lists of names do not depend on how a path without `..` is written. -/
lemma Bare.alike (hbare : Bare cfg) (hsame : SameFile path path')
    (hpath : dotdot ∉ segments path) (hpath' : dotdot ∉ segments path') :
    Alike cfg sourceName path path' := by
  have hlist : ∀ patterns, patterns ⊆ cfg.blocklist ++ cfg.allowlist →
      (Listed patterns sourceName path ↔ Listed patterns sourceName path') := by
    intro patterns hsub
    refine exists_congr fun pattern => and_congr_right fun hmem => or_congr_left ?_
    obtain ⟨hnil, hdot, hstar, hslash⟩ := hbare.name pattern (hsub hmem)
    rw [covers_name hstar hslash, covers_name hstar hslash]
    exact mem_segments_of_sameFile hsame hpath hpath' hnil hdot
  exact ⟨hlist _ (subset_append_left _ _), .inr (hlist _ (subset_append_right _ _))⟩

end CrossHostOps.CopyReview
