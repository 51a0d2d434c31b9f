import CrossHostOps.WirePaths

/-!
A local path through `from_local` and `to_local` of `filepath.rs`, as the root of a download goes
through `join_relative_path`. The pieces `..` are resolved on the way, but a path that leads above
its start has nothing left to resolve them against.
-/

namespace CrossHostOps.LocalPaths

open Text Filepath PosixTree LocalTree Containment WirePaths List

/-- Where a path leads from its start. -/
def course (p : PathBuf) : Course Str := Course.along ⟨0, []⟩ (p.segs.map stepOf)

/-- Wherever there are no links, and above the working directory as much as the path needs, `q`
leads to the place that `p` leads to. -/
def Follows (p q : PathBuf) : Prop :=
  ∀ fs : Volume, (∀ l, isLink (fs.tree l) = false) → (course p).up ≤ fs.cwd.length →
    ∀ follow l, fs.locate follow p = .ok l → fs.locate follow q = .ok l

/-- A path still leads to its place when it has been normalised, and so do the paths of entries
below it. -/
structure Survives (p : PathBuf) : Prop where
  itself : Follows p (NormalizedPath.fromLocal p).toLocal
  below : ∀ r : RelativePath, ReadsBack r.text →
    Follows (p.join r.path) (joinRelativePath p r.text)

/-- A path that is absolute or empty, or leads to a place below its start. -/
def Grounded (p : PathBuf) : Prop :=
  p.absolute = true ∨ p.segs = [] ∨ (course p).up = 0 ∧ (course p).names ≠ []
  deriving Decidable

/-! ### The normalised path -/

section normalised

variable {p : PathBuf} {ns : List Str} {c : Course Str}

lemma stepOf_eq_down {seg : Str} : stepOf seg = .down seg ↔ seg ≠ dot ∧ seg ≠ dotdot := by
  rw [stepOf]
  split_ifs with hdot hup
  · simp [hdot]
  · simp [hup]
  · simp [hdot, hup]

lemma map_stepOf (h : ∀ n ∈ ns, stepOf n = .down n) : ns.map stepOf = ns.map .down :=
  map_congr_left h

lemma names_along (segs : List Str) (h : ∀ n ∈ c.names, stepOf n = .down n) :
    ∀ n ∈ (c.along (segs.map stepOf)).names, stepOf n = .down n := by
  induction segs generalizing c with
  | nil => exact h
  | cons seg segs ih =>
    refine ih (c := c.step (stepOf seg)) fun n hn => ?_
    cases hstep : stepOf seg with
    | here =>
      rw [hstep] at hn
      exact h n hn
    | up =>
      rw [hstep] at hn
      by_cases hnames : c.names = []
      · rw [Course.step_up_of_nil hnames] at hn
        cases hn
      · rw [Course.step_up_of_ne_nil hnames] at hn
        exact h n (dropLast_subset _ hn)
    | down name =>
      have hname : name = seg := by
        rw [stepOf] at hstep
        split_ifs at hstep
        exact (Step.down.inj hstep).symm
      rw [hstep] at hn
      rcases mem_append.1 hn with hold | hnew
      · exact h n hold
      · rw [mem_singleton.1 hnew, hname, hstep, hname]

lemma names_course (p : PathBuf) : ∀ n ∈ (course p).names, stepOf n = .down n :=
  names_along p.segs (forall_mem_nil _)

lemma pop_names {absolute : Bool} (h : dot ∉ ns) :
    PathBuf.pop ⟨absolute, ns⟩ = ⟨absolute, ns.dropLast⟩ := by
  have htrim : ∀ {xs : List Str}, dot ∉ xs → PathBuf.trimRight ⟨absolute, xs⟩ = ⟨absolute, xs⟩ := by
    intro xs hxs
    have hdrop : xs.rdropWhile (· == dot) = xs := by
      refine rdropWhile_eq_self_iff.2 fun hne hlast => hxs ?_
      rw [← beq_iff_eq.1 hlast]
      exact getLast_mem hne
    simp only [PathBuf.trimRight, hdrop]
    rw [if_neg]
    rintro ⟨hnil, -, hne⟩
    exact hne hnil
  simp only [PathBuf.pop, PathBuf.parent, htrim h]
  split_ifs with hnil
  · simp [hnil]
  · rw [htrim fun hmem => h (dropLast_subset _ hmem)]
    rfl

/-- `to_local` pushes and pops along the course. -/
lemma foldl_pushSegment_course {absolute : Bool} (segs : List Str) (hnil : [] ∉ segs)
    (hc : ∀ n ∈ c.names, stepOf n = .down n) :
    (clean segs).foldl NormalizedPath.pushSegment ⟨absolute, c.names⟩ =
      ⟨absolute, (c.along (segs.map stepOf)).names⟩ := by
  induction segs generalizing c with
  | nil => rfl
  | cons seg segs ih =>
    have hrest : [] ∉ segs := fun hmem => hnil (mem_cons_of_mem _ hmem)
    have hnext := ih hrest (names_along [seg] hc)
    by_cases hdot : seg = dot
    · have hclean : clean (seg :: segs) = clean segs := by simp [clean, hdot]
      have hstep : stepOf seg = .here := by simp [stepOf, hdot]
      rw [hclean, map_cons, hstep]
      exact ih hrest hc
    · have hclean : clean (seg :: segs) = seg :: clean segs := by simp [clean, hdot]
      have hpush : NormalizedPath.pushSegment ⟨absolute, c.names⟩ seg =
          ⟨absolute, (c.step (stepOf seg)).names⟩ := by
        have hne : seg ≠ [] := fun h => hnil (by simp [h])
        by_cases hup : seg = dotdot
        · have hnodot : dot ∉ c.names := fun hmem => (stepOf_eq_down.1 (hc dot hmem)).1 rfl
          have hstep : stepOf seg = .up := by simp [stepOf, hup, dot, dotdot]
          rw [NormalizedPath.pushSegment, if_pos hup, pop_names hnodot, hstep]
          by_cases hnames : c.names = []
          · rw [Course.step_up_of_nil hnames, hnames]
            rfl
          · rw [Course.step_up_of_ne_nil hnames]
        · rw [NormalizedPath.pushSegment, if_neg hup, if_pos hne, stepOf_eq_down.2 ⟨hdot, hup⟩]
          rfl
      rw [hclean, foldl_cons, hpush]
      exact hnext

lemma toLocal_fromLocal (hnil : [] ∉ p.segs) :
    (NormalizedPath.fromLocal p).toLocal = ⟨p.absolute, (course p).names⟩ := by
  rw [fromLocal_eq]
  refine Eq.trans ?_ (foldl_pushSegment_course (c := ⟨0, []⟩) p.segs hnil (forall_mem_nil _))
  cases p.absolute <;> rfl

end normalised

/-! ### Places -/

section places

variable {p : PathBuf} {fs : Volume} {follow : Bool} {l : Loc Str}

lemma locate_ok (h : fs.locate follow p = .ok l) :
    p ≠ ⟨false, []⟩ ∧ walk fs.tree follow maxLinks (fs.base p) (p.segs.map stepOf) = .ok l := by
  rw [Volume.locate] at h
  split_ifs at h with hempty
  refine ⟨hempty, ?_⟩
  cases hwalk : walk fs.tree follow maxLinks (fs.base p) (p.segs.map stepOf) with
  | error e =>
    rw [hwalk] at h
    cases h
  | ok l' =>
    rw [hwalk] at h
    cases h
    rfl

lemma locate_of_walk (hne : p ≠ ⟨false, []⟩)
    (h : walk fs.tree follow maxLinks (fs.base p) (p.segs.map stepOf) = .ok l) :
    fs.locate follow p = .ok l := by
  rw [Volume.locate, if_neg hne, h]
  rfl

/-- The straight way to a place that a path leads to, unless that is its start. -/
lemma follows_straight (hup : p.absolute = true ∨ (course p).up = 0)
    (hnames : p.absolute = true ∨ p.segs = [] ∨ (course p).names ≠ []) :
    Follows p ⟨p.absolute, (course p).names⟩ := by
  intro fs hlinks _ follow l hp
  obtain ⟨hempty, hwalk⟩ := locate_ok hp
  have hbase : fs.base p = [] ∨ (course p).up = 0 := hup.imp_left fun habs => by
    rw [Volume.base, if_pos habs]
  have hstart : DirsTo fs.tree (fs.base p) (⟨0, []⟩ : Course Str).names :=
    fun q hq hne => absurd (prefix_nil.1 hq) hne
  obtain ⟨rfl, hdirs⟩ := walk_course hlinks hstart hbase (by simpa using hwalk)
  refine locate_of_walk ?_ ?_
  · intro hsame
    obtain ⟨habs, hnil⟩ := PathBuf.mk.inj hsame
    rcases hnames with habs' | hsegs | hne
    · rw [habs] at habs'
      cases habs'
    · refine hempty ?_
      cases p
      simp only at habs hsegs
      rw [habs, hsegs]
    · exact hne hnil
  · rw [map_stepOf (names_course p)]
    exact walk_of_dirs hlinks hdirs

end places

/-! ### Whether a path survives -/

variable {p : PathBuf}

lemma course_join (p : PathBuf) (r : RelativePath) :
    course (p.join r.path) = ⟨(course p).up, (course p).names ++ r.names⟩ := by
  have hdown : r.names.map stepOf = r.names.map .down := by
    refine map_stepOf fun n hn => stepOf_eq_down.2 ?_
    exact ⟨(r.isName n hn).dot, (r.isName n hn).dotdot⟩
  have hsegs : (p.join r.path).segs.map stepOf = p.segs.map stepOf ++ r.names.map .down := by
    simp [PathBuf.join, RelativePath.path, hdown]
  rw [course, hsegs, Course.along, foldl_append]
  exact Course.along_down (course p) r.names

lemma survives_of_grounded (hnil : [] ∉ p.segs) (h : Grounded p) : Survives p := by
  have hup : p.absolute = true ∨ (course p).up = 0 := by
    rcases h with habs | hsegs | ⟨hup, -⟩
    · exact .inl habs
    · exact .inr (by rw [course, hsegs]; rfl)
    · exact .inr hup
  refine ⟨?_, fun r hr => ?_⟩
  · rw [toLocal_fromLocal hnil]
    exact follows_straight hup (h.imp_right (Or.imp_right And.right))
  · have hjoin : joinRelativePath p r.text =
        ⟨(p.join r.path).absolute, (course (p.join r.path)).names⟩ := by
      rw [joinRelativePath_text hr, toLocal_fromLocal hnil, course_join]
      rfl
    rw [hjoin]
    refine follows_straight ?_ (.inr (.inr ?_))
    · rw [course_join]
      exact hup
    · rw [course_join]
      simp [r.ne_nil]

/-- A working directory of the given depth, in a file system of directories. -/
def deep (n : ℕ) : Volume := ⟨fun _ => some .dir, List.replicate n "d", fun _ => [], 0, []⟩

lemma length_deep (n : ℕ) : (deep n).cwd.length = n := length_replicate

/-- A relative path leads from there to the names that are left of it, if the depth is the least
for it. -/
lemma locate_deep (hrel : p.absolute = false) (hne : p.segs ≠ []) (follow : Bool) :
    (deep (course p).up).locate follow p = .ok (course p).names := by
  have hlength := length_deep (course p).up
  set fs := deep (course p).up with hfs
  have hwalk : walk fs.tree follow maxLinks (fs.cwd.take (fs.cwd.length - 0) ++ [])
      (p.segs.map stepOf) =
        .ok (fs.cwd.take (fs.cwd.length - (course p).up) ++ (course p).names) :=
    walk_everywhere (c := ⟨0, []⟩) (fun _ => rfl) hlength.ge
  refine locate_of_walk (fun h => hne (PathBuf.mk.inj h).2) ?_
  simpa [Volume.base, hrel, ← hlength] using hwalk

lemma grounded_of_follows (hnil : [] ∉ p.segs)
    (h : Follows p (NormalizedPath.fromLocal p).toLocal) : Grounded p := by
  by_contra hno
  simp only [Grounded, not_or, Bool.not_eq_true] at hno
  obtain ⟨hrel, hne, hbelow⟩ := hno
  have hplace := h (deep (course p).up) (fun _ => rfl) (length_deep _).ge true _
    (locate_deep hrel hne true)
  rw [toLocal_fromLocal hnil] at hplace
  obtain ⟨hempty, hwalk⟩ := locate_ok hplace
  have hnames : (course p).names ≠ [] := by
    intro hnames
    rw [hrel, hnames] at hempty
    exact hempty rfl
  rw [map_stepOf (names_course p), walk_of_dirs (fun _ => rfl) fun _ _ _ => rfl] at hwalk
  have hlength := congrArg length (Except.ok.inj hwalk)
  have hcwd :
      ((deep (course p).up).base ⟨p.absolute, (course p).names⟩).length = (course p).up := by
    rw [hrel]
    exact length_deep _
  rw [length_append] at hlength
  exact hbelow ⟨by omega, hnames⟩

/-- **A local path survives normalisation if, and only if, it is absolute or empty, or leads to a
place below its start.** -/
theorem local_path_survives_iff (text : Str) :
    Survives (.ofStr text) ↔ Grounded (.ofStr text) := by
  have hnil := nil_notMem_ofStr text
  exact ⟨fun h => grounded_of_follows hnil h.itself, survives_of_grounded hnil⟩

/-- `../x` becomes `x`, and `.` becomes the empty path, which is no place. -/
theorem local_path_climbs :
    (NormalizedPath.fromLocal (.ofStr "../x")).toLocal = .ofStr "x" ∧
      (deep 1).locate true (.ofStr "../x") = .ok ["x"] ∧
      (deep 1).locate true (.ofStr "x") = .ok ["d", "x"] ∧
      (NormalizedPath.fromLocal (.ofStr ".")).toLocal = .ofStr [] ∧
      (deep 0).locate true (.ofStr ".") = .ok [] ∧
      (deep 0).locate true (.ofStr []) = .error .notFound := by
  decide +kernel

end CrossHostOps.LocalPaths
