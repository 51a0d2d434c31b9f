import CrossHostOps.Filepath

/-!
`spec::parse_remote` of `filepath.rs`: a `host:path` operand of `xho cp`.

The operand is split at the last colon with the start of a path behind it. That colon stands
between the target and the path only as long as the path has none of its own.
-/

namespace CrossHostOps.RemoteOperands

open Text Filepath List

structure RemoteSpec where
  target : Str
  path : NormalizedPath
  deriving DecidableEq

/-- A drive letter, a colon and a separator. -/
def startsWithDrive (s : Str) : Bool :=
  s[0]?.any Char.isAlpha && s[1]? == some ':' && s[2]?.any fun sep => sep == '\\' || sep == '/'

def looksLikeUnambiguousPathStart (s : Str) : Bool :=
  s.head? == some '/' || s.head? == some '~' || startsWithDrive s

def isHostChar (c : Char) : Bool := c.isAlphanum || c ∈ ['.', '_', '-']

def isValidTarget (target : Str) : Bool :=
  target ≠ [] && target ≠ dot && target ≠ dotdot && '/' ∉ target && '\\' ∉ target &&
    (split ':' target).all fun seg => seg ≠ [] && seg.all isHostChar

/-- The loop of `parse_remote` over the colons: what stands in front of the last one that has the
start of a path behind it, and that path. -/
def boundary (best : Option (Str × Str)) (before : Str) : Str → Option (Str × Str)
  | [] => best
  | c :: rest =>
    boundary (if c = ':' ∧ looksLikeUnambiguousPathStart rest then some (before, rest) else best)
      (before ++ [c]) rest

def parseRemote (value : Str) : Option RemoteSpec :=
  -- a bare drive path is a local one
  if startsWithDrive value then none
  else do
    let (target, path) ← boundary none [] value
    if isValidTarget target ∧ path ≠ [] then some ⟨target, .fromStr path⟩ else none

structure Chain where
  segments : List Str
  ne_nil : segments ≠ []
  hosts : ∀ seg ∈ segments, seg ≠ [] ∧ ∀ c ∈ seg, isHostChar c = true

def Chain.text (t : Chain) : Str := [':'].intercalate t.segments

/-- A chain that is neither a directory nor a drive letter. -/
structure Target extends Chain where
  dot : toChain.text ≠ dot
  dotdot : toChain.text ≠ dotdot
  letter : ∀ c, toChain.text = [c] → c.isAlpha = false

/-- No colon of a path has the start of another path behind it. -/
def ColonsInert (path : Str) : Prop :=
  ∀ before behind, path = before ++ ':' :: behind → looksLikeUnambiguousPathStart behind = false

/-! ### The boundary -/

section boundary

variable {best : Option (Str × Str)} {before s : Str}

/-- Whatever has been found in front is given up for the rest. -/
lemma boundary_append (best : Option (Str × Str)) (before xs ys : Str) :
    ∃ best', boundary best before (xs ++ ys) = boundary best' (before ++ xs) ys := by
  induction xs generalizing best before with
  | nil => exact ⟨best, by simp⟩
  | cons c xs ih =>
    rw [cons_append, boundary]
    obtain ⟨best', hbest'⟩ := ih _ (before ++ [c])
    exact ⟨best', by rw [hbest', append_assoc, singleton_append]⟩

lemma ColonsInert.tail {c : Char} {rest : Str} (h : ColonsInert (c :: rest)) :
    ColonsInert rest := by
  rintro before behind rfl
  exact h (c :: before) behind rfl

lemma boundary_of_inert (h : ColonsInert s) : boundary best before s = best := by
  induction s generalizing best before with
  | nil => rfl
  | cons c rest ih =>
    have hstay : ¬(c = ':' ∧ looksLikeUnambiguousPathStart rest = true) := by
      rintro ⟨rfl, hstart⟩
      rw [h [] rest rfl] at hstart
      cases hstart
    rw [boundary, if_neg hstay, ih h.tail]

/-- A colon with the start of a path behind it takes the boundary into the rest. -/
lemma exists_boundary (best : Option (Str × Str)) (before : Str) (h : ¬ColonsInert s) :
    ∃ inner behind, boundary best before s = some (before ++ inner, behind) := by
  induction s generalizing best before with
  | nil =>
    refine absurd ?_ h
    intro inner behind hnil
    simp at hnil
  | cons c rest ih =>
    rw [boundary]
    by_cases hrest : ColonsInert rest
    · -- the first colon is the last of its kind
      have hhere : c = ':' ∧ looksLikeUnambiguousPathStart rest = true := by
        by_contra hno
        refine h fun inner behind hsplit => ?_
        cases inner with
        | nil =>
          obtain ⟨rfl, rfl⟩ := List.cons.inj hsplit
          simpa using hno
        | cons c' inner =>
          obtain ⟨-, rfl⟩ := List.cons.inj hsplit
          exact hrest inner behind rfl
      rw [if_pos hhere, boundary_of_inert hrest]
      exact ⟨[], rest, by simp⟩
    · obtain ⟨inner, behind, hfound⟩ := ih _ (before ++ [c]) hrest
      exact ⟨c :: inner, behind, by rw [hfound, append_assoc, singleton_append]⟩

end boundary

/-! ### Targets -/

lemma isHostChar_ne {c : Char} (h : isHostChar c = true) : c ≠ ':' ∧ c ≠ '/' ∧ c ≠ '\\' := by
  refine ⟨?_, ?_, ?_⟩ <;> rintro rfl <;> cases h

namespace Chain

variable (t : Chain)

lemma split_text : split ':' t.text = t.segments := by
  refine splitOn_intercalate ':' (fun seg hseg hcolon => ?_) t.ne_nil
  exact (isHostChar_ne ((t.hosts seg hseg).2 ':' hcolon)).1 rfl

lemma notMem_text {c : Char} (hcolon : c ≠ ':') (hhost : isHostChar c = false) : c ∉ t.text := by
  intro hmem
  have hpiece : c ∈ (split ':' t.text).flatten := by
    rw [flatten_split]
    exact mem_filter.2 ⟨hmem, by simpa using hcolon⟩
  rw [split_text] at hpiece
  obtain ⟨seg, hseg, hc⟩ := mem_flatten.1 hpiece
  rw [(t.hosts seg hseg).2 c hc] at hhost
  cases hhost

lemma text_ne_nil : t.text ≠ [] := by
  intro hnil
  have hsplit := t.split_text
  rw [hnil] at hsplit
  have hseg : ([] : Str) ∈ t.segments := by simp [← hsplit, split]
  exact (t.hosts [] hseg).1 rfl

end Chain

namespace Target

variable (t : Target)

lemma isValidTarget_text : isValidTarget t.text = true := by
  have hslash : '/' ∉ t.text := t.notMem_text (by decide) (by decide)
  have hbackslash : '\\' ∉ t.text := t.notMem_text (by decide) (by decide)
  simp only [isValidTarget, Bool.and_eq_true, decide_eq_true_eq, all_eq_true, t.split_text]
  refine ⟨⟨⟨⟨⟨t.text_ne_nil, t.dot⟩, t.dotdot⟩, hslash⟩, hbackslash⟩, fun seg hseg => ?_⟩
  exact t.hosts seg hseg

/-- A target of more than one letter does not make the operand a drive path. -/
lemma startsWithDrive_text (path : Str) : startsWithDrive (t.text ++ ':' :: path) = false := by
  have hslash : '/' ∉ t.text := t.notMem_text (by decide) (by decide)
  have hbackslash : '\\' ∉ t.text := t.notMem_text (by decide) (by decide)
  rcases htext : t.text with _ | ⟨c, _ | ⟨c', _ | ⟨c'', rest⟩⟩⟩
  · exact absurd htext t.text_ne_nil
  · simp [startsWithDrive, t.letter c htext]
  · simp [startsWithDrive]
  · rw [htext] at hslash hbackslash
    simp only [mem_cons, not_or] at hslash hbackslash
    have hsep : c'' ≠ '\\' ∧ c'' ≠ '/' := ⟨Ne.symm hbackslash.2.2.1, Ne.symm hslash.2.2.1⟩
    simp [startsWithDrive, hsep]

end Target

/-! ### Operands -/

/-- What an operand is parsed to, by where its boundary is found. -/
lemma parseRemote_eq {t : Target} {path target rest : Str}
    (hfound : boundary none [] (t.text ++ ':' :: path) = some (target, rest)) :
    parseRemote (t.text ++ ':' :: path) =
      if isValidTarget target ∧ rest ≠ [] then some ⟨target, .fromStr rest⟩ else none := by
  rw [parseRemote, t.startsWithDrive_text path, hfound]
  rfl

/-- **An operand is parsed back into its target and its path if, and only if, no colon of the path
has the start of another path behind it.** -/
theorem parse_remote_iff (t : Target) (path : Str)
    (hstart : looksLikeUnambiguousPathStart path = true) :
    parseRemote (t.text ++ ':' :: path) = some ⟨t.text, .fromStr path⟩ ↔ ColonsInert path := by
  obtain ⟨best, hbest⟩ := boundary_append none [] t.text (':' :: path)
  have hcolon : boundary none [] (t.text ++ ':' :: path) =
      boundary (some (t.text, path)) (t.text ++ [':']) path := by
    rw [hbest, boundary, if_pos ⟨rfl, hstart⟩, nil_append]
  by_cases hinert : ColonsInert path
  · have hpath : path ≠ [] := by
      rintro rfl
      cases hstart
    rw [boundary_of_inert hinert] at hcolon
    rw [parseRemote_eq hcolon, if_pos ⟨t.isValidTarget_text, hpath⟩]
    exact iff_of_true rfl hinert
  · obtain ⟨inner, behind, hfound⟩ := exists_boundary (some (t.text, path))
      (t.text ++ [':']) hinert
    rw [parseRemote_eq (hcolon.trans hfound)]
    refine iff_of_false (fun hsome => ?_) hinert
    split_ifs at hsome
    -- the target that is found is longer
    have htarget := congrArg RemoteSpec.target (Option.some.inj hsome)
    have hlength := congrArg length htarget
    simp at hlength

def gatewayHost : Target where
  segments := ["gw", "host"]
  ne_nil := by decide
  hosts := by
    simp only [List.forall_mem_cons, List.not_mem_nil, false_imp_iff, implies_true, and_true]
    exact ⟨⟨by decide, List.all_eq_true.1 (by decide)⟩, by decide, List.all_eq_true.1 (by decide)⟩
  dot := by decide
  dotdot := by decide
  letter := nofun

theorem parse_remote_chain :
    parseRemote "gw:host:/tmp/a:b" = some ⟨"gw:host", .fromStr "/tmp/a:b"⟩ := by
  refine (parse_remote_iff gatewayHost "/tmp/a:b".toList (by decide)).2 ?_
  intro before behind hpath
  have hcolon : "/tmp/a:b".toList[before.length]? = some ':' := by rw [hpath]; simp
  have hbehind : "/tmp/a:b".toList.drop (before.length + 1) = behind := by rw [hpath]; simp
  have hall : ∀ n < 8, "/tmp/a:b".toList[n]? = some ':' →
      looksLikeUnambiguousPathStart ("/tmp/a:b".toList.drop (n + 1)) = false := by decide
  rw [← hbehind]
  exact hall _ (List.getElem?_eq_some_iff.1 hcolon).1 hcolon

/-- A drive path with slashes loses its drive to the target, and a path with a colon in front of a
slash is no operand at all. -/
theorem parse_remote_differs :
    parseRemote "gw:host:C:/Users" = some ⟨"gw:host:C", .fromStr "/Users"⟩ ∧
      parseRemote "gw:host:/etc:/bin" = none := by
  decide

end CrossHostOps.RemoteOperands
