import CrossHostOps.DownloadWriter
import CrossHostOps.LocalTree

/-!
Whether a recursive download stays inside its root.

The path of a frame is joined to the root without a check, and `to_local` resolves its `..`
by dropping pieces. It stays inside just as long as no frame says `..` and none leads through
a symbolic link.
-/

namespace CrossHostOps.Containment

open Text Filepath Frames FileSystem Hoare DownloadWriter PosixTree LocalTree NormalizedPath
open List hiding after

/-! ### Paths without `..` -/

/-- The names of a path, without its `.` pieces. -/
def clean (segs : List Str) : List Str := segs.filter (· ≠ dot)

lemma clean_append (a b : List Str) : clean (a ++ b) = clean a ++ clean b := filter_append ..

lemma clean_clean (a : List Str) : clean (clean a) = clean a := by simp [clean]

variable {segs : List Str} {relativePath : Str}

lemma names_map_stepOf (h : dotdot ∉ segs) : names (segs.map stepOf) = clean segs := by
  induction segs with
  | nil => rfl
  | cons s segs ih =>
    have hs : s ≠ dotdot := fun hs => h (by simp [hs])
    have hrest := ih fun hmem => h (mem_cons_of_mem _ hmem)
    by_cases hd : s = dot
    · subst hd
      simpa [stepOf, names, clean] using hrest
    · simp only [map_cons, stepOf, hd, hs, if_false, names, hrest]
      simp [clean, hd]

lemma up_notMem_map_stepOf (h : dotdot ∉ segs) : .up ∉ segs.map stepOf := by
  intro hmem
  obtain ⟨s, hs, heq⟩ := mem_map.1 hmem
  unfold stepOf at heq
  split_ifs at heq with h₁ h₂
  exact h (h₂ ▸ hs)

lemma foldl_addComponent (segs : List Str) (np : NormalizedPath) :
    (segs.map fun s => if s = dotdot then PathBuf.Component.parentDir else .normal s).foldl
      NormalizedPath.addComponent np = ⟨np.segments ++ segs, np.kind⟩ := by
  induction segs generalizing np with
  | nil => simp
  | cons s segs ih =>
    have hone : addComponent np (if s = dotdot then .parentDir else .normal s) =
        ⟨np.segments ++ [s], np.kind⟩ := by
      split_ifs with hs
      · rw [hs]
        rfl
      · rfl
    rw [map_cons, foldl_cons, hone, ih]
    simp

/-- `from_local` only drops the `.` pieces. -/
lemma fromLocal_eq (p : PathBuf) :
    NormalizedPath.fromLocal p = ⟨clean p.segs, if p.absolute then .absolute else .relative⟩ := by
  unfold fromLocal PathBuf.components
  rw [foldl_append]
  refine (foldl_addComponent _ _).trans ?_
  cases p.absolute with
  | true => simp [addComponent, clean]
  | false => split_ifs <;> simp_all [addComponent, clean]

lemma foldl_pushSegment : ∀ {pb : PathBuf}, dotdot ∉ segs → [] ∉ segs →
    segs.foldl NormalizedPath.pushSegment pb = ⟨pb.absolute, pb.segs ++ segs⟩ := by
  induction segs with
  | nil => simp
  | cons s segs ih =>
    intro pb hup hnil
    have hs : s ≠ dotdot := fun hs => hup (by simp [hs])
    have hs' : s ≠ [] := fun hs' => hnil (by simp [hs'])
    rw [foldl_cons, pushSegment, if_neg hs, if_pos hs', ih (fun hmem => hup (mem_cons_of_mem _
      hmem)) (fun hmem => hnil (mem_cons_of_mem _ hmem))]
    simp [PathBuf.push]

lemma nil_notMem_splitSegments (s : Str) : [] ∉ splitSegments s := by
  unfold splitSegments
  split_ifs <;> simp

lemma nil_notMem_fromStr (s : Str) : [] ∉ (NormalizedPath.fromStr s).segments := by
  unfold fromStr
  simp only
  split
  · simp
  · exact nil_notMem_splitSegments _
  · split_ifs <;> exact nil_notMem_splitSegments _
  · split_ifs <;> exact nil_notMem_splitSegments _
  · exact nil_notMem_splitSegments _

/-- Without `..`, a frame's path is the root's with its own behind it. -/
lemma joinRelativePath_eq {root : PathBuf} (hroot : dotdot ∉ root.segs) (hnil : [] ∉ root.segs)
    (hrel : dotdot ∉ (NormalizedPath.fromStr relativePath).segments) :
    joinRelativePath root relativePath =
      ⟨root.absolute, clean root.segs ++ (NormalizedPath.fromStr relativePath).segments⟩ := by
  have hup : dotdot ∉ clean root.segs ++ (fromStr relativePath).segments := by
    simp only [mem_append, not_or]
    exact ⟨fun h => hroot (mem_of_mem_filter h), hrel⟩
  have hempty : [] ∉ clean root.segs ++ (fromStr relativePath).segments := by
    simp only [mem_append, not_or]
    exact ⟨fun h => hnil (mem_of_mem_filter h), nil_notMem_fromStr _⟩
  rw [joinRelativePath, fromLocal_eq, join, toLocal, foldl_pushSegment hup hempty]
  cases root.absolute <;> simp

/-! ### Parents -/

lemma trimRight_isPrefix (p : PathBuf) :
    p.trimRight.absolute = p.absolute ∧ p.trimRight.segs <+: p.segs := by
  unfold PathBuf.trimRight
  simp only
  split_ifs with h
  · obtain ⟨hnil, habs, hne⟩ := h
    refine ⟨habs.symm, ?_⟩
    -- nothing but `.` pieces: one of them is the first
    obtain ⟨s, segs, hsegs⟩ := exists_cons_of_ne_nil hne
    have hs : s = dot := by
      have := rdropWhile_eq_nil_iff.1 hnil s (by simp [hsegs])
      simpa using this
    rw [hsegs, hs]
    exact ⟨segs, rfl⟩
  · exact ⟨rfl, List.rdropWhile_prefix _ _⟩

lemma parent_isPrefix {p q : PathBuf} (h : p.parent = some q) :
    q.absolute = p.absolute ∧ q.segs <+: p.segs := by
  unfold PathBuf.parent at h
  simp only at h
  split_ifs at h with hnil
  cases h
  obtain ⟨habs, hpre⟩ := trimRight_isPrefix p
  obtain ⟨habs', hpre'⟩ := trimRight_isPrefix ⟨p.trimRight.absolute, p.trimRight.segs.dropLast⟩
  exact ⟨habs'.trans habs, (hpre'.trans (List.dropLast_prefix _)).trans hpre⟩

lemma ancestorsUpTo_isPrefix (n : ℕ) : ∀ {p q : PathBuf}, q ∈ Volume.ancestorsUpTo n p →
    q.absolute = p.absolute ∧ q.segs <+: p.segs := by
  induction n with
  | zero =>
    intro p q hq
    obtain rfl : q = p := by simpa [Volume.ancestorsUpTo] using hq
    exact ⟨rfl, prefix_rfl⟩
  | succ n ih =>
    intro p q hq
    unfold Volume.ancestorsUpTo at hq
    cases hparent : p.parent with
    | none =>
      obtain rfl : q = p := by simpa [hparent] using hq
      exact ⟨rfl, prefix_rfl⟩
    | some r =>
      simp only [hparent] at hq
      split_ifs at hq
      · obtain rfl : q = p := by simpa using hq
        exact ⟨rfl, prefix_rfl⟩
      · rcases mem_cons.1 hq with rfl | hq
        · exact ⟨rfl, prefix_rfl⟩
        · obtain ⟨habs, hpre⟩ := ih hq
          obtain ⟨habs', hpre'⟩ := parent_isPrefix hparent
          exact ⟨habs.trans habs', hpre.trans hpre'⟩

/-! ### Operations on a path into the root -/

/-- The root's path leads to `R` past directories only, and all that was touched lies at `R` or
below it. -/
structure Confined (root : PathBuf) (R : Loc Str) (fs : Volume) : Prop where
  located : fs.base root ++ clean root.segs = R
  above : ∀ l, l <+: R → l ≠ R → fs.tree l = some .dir
  touched : ∀ l ∈ fs.touched, R <+: l

/-- `p` is a path into `R` without `..`, and no link stands on it; its end may be one unless
`full`. -/
structure Into (root : PathBuf) (R : Loc Str) (full : Bool) (p : PathBuf) (fs : Volume) : Prop where
  confined : Confined root R fs
  noUp : dotdot ∉ p.segs
  below : R <+: fs.base p ++ clean p.segs
  noLinks : ∀ q, q <+: p.segs → q ≠ [] → (full = true ∨ q ≠ p.segs) →
    isLink (fs.tree (fs.base p ++ clean q)) = false

variable {root p a : PathBuf} {R l : Loc Str} {fs : Volume} {full : Bool} {n : Option (Node Str)}

lemma Confined.put (h : Confined root R fs) (hl : R <+: l) : Confined root R (fs.put l n) where
  located := h.located
  above := by
    intro m hm hne
    have hml : m ≠ l := by
      rintro rfl
      exact hne (hm.eq_of_length (Nat.le_antisymm hm.length_le hl.length_le))
    rw [Volume.put_tree_ne hml]
    exact h.above m hm hne
  touched := by
    intro m hm
    rcases mem_append.1 hm with hm | hm
    · exact h.touched m hm
    · rw [mem_singleton.1 hm]
      exact hl

lemma Into.put (h : Into root R full p fs) (hl : R <+: l) (hn : isLink n = false) :
    Into root R full p (fs.put l n) where
  confined := h.confined.put hl
  noUp := h.noUp
  below := h.below
  noLinks := by
    intro q hq hne hend
    rw [Volume.put_base]
    by_cases hql : fs.base p ++ clean q = l
    · rw [hql, Volume.put_tree_self]
      exact hn
    · rw [Volume.put_tree_ne hql]
      exact h.noLinks q hq hne hend

/-- A path into `R`, and each one above it, is found where its names say. -/
lemma Into.locate (h : Into root R full p fs) (habs : a.absolute = p.absolute)
    (hpre : a.segs <+: p.segs) {follow : Bool}
    (hend : follow = true → full = true ∨ a.segs ≠ p.segs) (hloc : fs.locate follow a = .ok l) :
    l = fs.base p ++ clean a.segs := by
  have hup : dotdot ∉ a.segs := fun hmem => h.noUp (hpre.subset hmem)
  have hbase : fs.base a = fs.base p := by rw [Volume.base, Volume.base, habs]
  unfold Volume.locate at hloc
  split_ifs at hloc with hempty
  rw [hbase] at hloc
  have hwalk : walk fs.tree follow maxLinks (fs.base p) (a.segs.map stepOf) = .ok l := by
    cases hw : walk fs.tree follow maxLinks (fs.base p) (a.segs.map stepOf) with
    | error e => rw [hw] at hloc; cases hloc
    | ok m => rw [hw] at hloc; cases hloc; rfl
  rw [← names_map_stepOf hup]
  refine walk_of_noLinks (up_notMem_map_stepOf hup) (fun q hq hne hlast => ?_) hwalk
  -- the prefix of the steps is that of a prefix of the pieces
  obtain ⟨q', hq', rfl⟩ : ∃ q', q' <+: a.segs ∧ q'.map stepOf = q :=
    ⟨a.segs.take q.length, List.take_prefix _ _, by
      rw [map_take]
      exact (prefix_iff_eq_take.1 hq).symm⟩
  have hup' : dotdot ∉ q' := fun hmem => hup (hq'.subset hmem)
  rw [names_map_stepOf hup']
  refine h.noLinks q' (hq'.trans hpre) (by simpa using hne) ?_
  have proper : q' ≠ a.segs → q' ≠ p.segs := by
    rintro hqa rfl
    exact hqa (hq'.eq_of_length (Nat.le_antisymm hq'.length_le hpre.length_le))
  rcases hlast with hf | hqa
  · rcases hend hf with hfull | hap
    · exact .inl hfull
    · right
      rintro rfl
      exact hap (hpre.eq_of_length (Nat.le_antisymm hpre.length_le hq'.length_le))
  · exact .inr (proper fun heq => hqa (by rw [heq]))

lemma mkdir_keeps (habs : a.absolute = p.absolute) (hpre : a.segs <+: p.segs) :
    Keeps (Into root R full p) (Volume.mkdir a) := by
  intro fs h
  unfold Volume.mkdir Volume.atPath
  cases hloc : fs.locate false a with
  | error e => exact h
  | ok l =>
    obtain rfl := h.locate habs hpre (by simp) hloc
    simp only
    split_ifs with hnone
    · refine h.put ?_ rfl
      -- what is missing is not above the root
      have hle : fs.base p ++ clean a.segs <+: fs.base p ++ clean p.segs :=
        (prefix_append_right_inj _).2 (hpre.filter _)
      rcases List.prefix_or_prefix_of_prefix h.below hle with hR | hR
      · exact hR
      · by_cases heq : fs.base p ++ clean a.segs = R
        · rw [heq]
        · rw [h.confined.above _ hR heq] at hnone
          cases hnone
    · exact h

lemma mkdirIfMissing_keeps (habs : a.absolute = p.absolute) (hpre : a.segs <+: p.segs) :
    Keeps (Into root R full p) (Volume.mkdirIfMissing a) := by
  intro fs h
  have hkeep := mkdir_keeps habs hpre fs h
  unfold Volume.mkdirIfMissing
  cases hmk : Volume.mkdir a fs with
  | ok _ fs' =>
    rw [hmk] at hkeep
    exact hkeep
  | error e fs' =>
    rw [hmk] at hkeep
    simp only
    split_ifs <;> exact hkeep

lemma createDirs_keeps {as : List PathBuf}
    (has : ∀ a ∈ as, a.absolute = p.absolute ∧ a.segs <+: p.segs) :
    Keeps (Into root R full p) (Volume.createDirs as) := by
  induction as with
  | nil => exact Triple.pure fun _ h => h
  | cons a as ih =>
    intro fs h
    obtain ⟨habs, hpre⟩ := has a (by simp)
    have hrest := ih fun b hb => has b (mem_cons_of_mem _ hb)
    have hkeep := mkdir_keeps habs hpre fs h
    unfold Volume.createDirs
    cases hmk : Volume.mkdir a fs with
    | ok _ fs' =>
      rw [hmk] at hkeep
      exact hkeep
    | error e fs' =>
      rw [hmk] at hkeep
      cases e with
      | notFound => exact Triple.bind hrest (fun _ => mkdirIfMissing_keeps habs hpre) fs' hkeep
      | _ => simp only; split_ifs <;> exact hkeep

lemma createDirAll_keeps (habs : a.absolute = p.absolute) (hpre : a.segs <+: p.segs) :
    Keeps (Into root R full p) (Volume.createDirAll a) := by
  unfold Volume.createDirAll
  split_ifs
  · exact Triple.pure fun _ h => h
  · refine createDirs_keeps fun b hb => ?_
    obtain ⟨habs', hpre'⟩ := ancestorsUpTo_isPrefix _ hb
    exact ⟨habs'.trans habs, hpre'.trans hpre⟩

lemma create_confines : Triple (Into root R true p) (Volume.create p) (fun _ => Confined root R)
    fun _ => Confined root R := by
  intro fs h
  unfold Volume.create Volume.atPath
  cases hloc : fs.locate true p with
  | error e => exact h.confined
  | ok l =>
    obtain rfl := h.locate rfl prefix_rfl (fun _ => .inl rfl) hloc
    simp only
    cases hnode : fs.tree (fs.base p ++ clean p.segs) with
    | none =>
      have := h.confined.put (n := some (.file fs.nextInode)) h.below
      exact ⟨this.located, this.above, this.touched⟩
    | some n =>
      cases n with
      | file inode =>
        have := h.confined.put (n := some (.file inode)) h.below
        exact ⟨h.confined.located, h.confined.above, this.touched⟩
      | dir | link => exact h.confined

lemma removeFile_keeps : Keeps (Into root R false p) (Volume.removeFile p) := by
  intro fs h
  unfold Volume.removeFile Volume.atPath
  cases hloc : fs.locate false p with
  | error e => exact h
  | ok l =>
    obtain rfl := h.locate rfl prefix_rfl (by simp) hloc
    simp only
    cases hnode : fs.tree (fs.base p ++ clean p.segs) with
    | none => exact h
    | some n =>
      cases n with
      | dir => exact h
      | file | link => exact h.put h.below rfl

lemma createSymlink_confines (target : PathBuf) :
    Triple (Into root R false p) (Volume.createSymlink target p) (fun _ => Confined root R)
      fun _ => Confined root R := by
  intro fs h
  unfold Volume.createSymlink Volume.atPath
  cases hloc : fs.locate false p with
  | error e => exact h.confined
  | ok l =>
    obtain rfl := h.locate rfl prefix_rfl (by simp) hloc
    simp only
    split_ifs
    · exact h.confined
    · exact h.confined.put h.below
    · exact h.confined

/-! ### Frames that stay inside -/

/-- A frame's path says no `..`, and no link stands on it below `R`; its end may be one unless
`full`. -/
def PathClear (R : Loc Str) (t : FileTree Str) (full : Bool) (segs : List Str) : Prop :=
  dotdot ∉ segs ∧ ∀ q ∈ segs.inits, (full = true ∨ q ≠ segs) → isLink (t (R ++ clean q)) = false
  deriving Decidable

/-- A symlink frame replaces what stands at its end, the others go through it. -/
def FrameClear (R : Loc Str) (t : FileTree Str) : CopyFrame → Prop
  | .beginFile relativePath .. => PathClear R t true (NormalizedPath.fromStr relativePath).segments
  | .beginDirectory relativePath .. =>
    PathClear R t true (NormalizedPath.fromStr relativePath).segments
  | .symlink relativePath _ => PathClear R t false (NormalizedPath.fromStr relativePath).segments
  | _ => True

instance (R : Loc Str) (t : FileTree Str) : (f : CopyFrame) → Decidable (FrameClear R t f)
  | .beginFile .. => inferInstanceAs (Decidable (PathClear ..))
  | .beginDirectory .. => inferInstanceAs (Decidable (PathClear ..))
  | .symlink .. => inferInstanceAs (Decidable (PathClear ..))
  | .fileData _ => isTrue trivial
  | .endFile => isTrue trivial
  | .endOfStream => isTrue trivial

/-- Every frame that is applied is clear in the tree it finds. -/
def runClear (R : Loc Str) : Sys Volume ℕ → List CopyFrame → Bool
  | _, [] => true
  | s, f :: frames =>
    decide (FrameClear R s.fs.tree f) &&
      match apply f s with
      | .ok _ t => runClear R t frames
      | .error _ _ => true

lemma Confined.into (h : Confined root R fs) (hroot : dotdot ∉ root.segs) (hnil : [] ∉ root.segs)
    (hclear : PathClear R fs.tree full (NormalizedPath.fromStr relativePath).segments) :
    Into root R full (joinRelativePath root relativePath) fs := by
  obtain ⟨hup, hlinks⟩ := hclear
  rw [joinRelativePath_eq hroot hnil hup]
  generalize (fromStr relativePath).segments = segs at hup hlinks
  have hbase : fs.base ⟨root.absolute, clean root.segs ++ segs⟩ = fs.base root := rfl
  refine ⟨h, ?_, ?_, fun q hq hne hend => ?_⟩
  · simp only [mem_append, not_or]
    exact ⟨fun hmem => hroot (mem_of_mem_filter hmem), hup⟩
  · rw [hbase, clean_append, clean_clean, ← append_assoc, h.located]
    exact prefix_append _ _
  rw [hbase]
  rcases List.prefix_or_prefix_of_prefix hq (prefix_append _ _) with hqr | ⟨q', rfl⟩
  · by_cases heq : q = clean root.segs
    · -- the root itself
      have := hlinks [] (by simp) (hend.imp id fun hne hsegs => hne (by simp [heq, ← hsegs]))
      rw [heq, clean_clean, h.located]
      simpa [clean] using this
    · -- above the root there are directories
      have hclean : clean q = q := by
        refine filter_eq_self.2 fun x hx => ?_
        exact (mem_filter.1 (hqr.subset hx)).2
      have habove : fs.tree (fs.base root ++ q) = some .dir := by
        refine h.above _ ?_ ?_
        · rw [← h.located]
          exact (prefix_append_right_inj _).2 hqr
        · rw [← h.located]
          exact fun hcontra => heq (append_cancel_left hcontra)
      rw [hclean, habove]
      rfl
  · have hq' : q' <+: segs := (prefix_append_right_inj _).1 hq
    have := hlinks q' ((mem_inits _ _).2 hq')
      (hend.imp id fun hne hsegs => hne (by rw [hsegs]))
    rwa [clean_append, clean_clean, ← append_assoc, h.located]

/-! ### The writer -/

/-- `download_root`, in the tree before the first frame. -/
def rootOf (fs : Volume) (dest : PathBuf) (sourceName : Str) : PathBuf :=
  if fs.isDir dest then dest.join (.ofStr (nonEmptyName sourceName "download")) else dest

def rootPlace (fs : Volume) (dest sourceName : Str) : Loc Str :=
  fs.base (rootOf fs (.ofStr dest) sourceName) ++ clean (rootOf fs (.ofStr dest) sourceName).segs

/-- A recursive download before its first frame. -/
def startOf (fs : Volume) (dest sourceName : Str) : Sys Volume ℕ :=
  ⟨.new (.ofStr dest) true sourceName none, fs⟩

/-- The writer of a recursive download whose root is, or will be, `root`. -/
structure Recursive (root : PathBuf) (s : Sys Volume ℕ) : Prop where
  recursive : s.writer.recursive = true
  resume : s.writer.resume = none
  rooted : s.writer.root = some root ∨
    s.writer.root = none ∧ rootOf s.fs s.writer.dest s.writer.sourceName = root

structure Inside (root : PathBuf) (R : Loc Str) (s : Sys Volume ℕ) : Prop where
  confined : Confined root R s.fs
  writer : Recursive root s

variable {s t : Sys Volume ℕ}

/-- The state after the root was looked up. -/
def withRoot (s : Sys Volume ℕ) (root : PathBuf) : Sys Volume ℕ :=
  { s with writer := { s.writer with root := some root } }

lemma pathIsExistingDir_cases (p : PathBuf) (fs : Volume) :
    LocalFs.pathIsExistingDir p fs = .ok (fs.isDir p) fs ∨
      ∃ e, LocalFs.pathIsExistingDir p fs = .error e fs := by
  change Volume.pathIsExistingDir p fs = _ ∨ ∃ e, Volume.pathIsExistingDir p fs = _
  unfold Volume.pathIsExistingDir Volume.isDir
  cases fs.locate true p with
  | ok l => exact .inl rfl
  | error e =>
    cases e with
    | notFound => exact .inl rfl
    | _ => exact .inr ⟨_, rfl⟩

lemma downloadRoot_cases (h : Recursive root s) :
    downloadRoot s = .ok root (withRoot s root) ∨ ∃ e, downloadRoot s = .error e s := by
  unfold downloadRoot
  rw [getWriter_bind]
  rcases h.rooted with hsome | ⟨hnone, hroot⟩
  · left
    obtain ⟨⟨dest, recursive, sourceName, root', currentFile⟩, fs⟩ := s
    cases hsome
    rfl
  · rw [hnone]
    rcases pathIsExistingDir_cases s.writer.dest s.fs with hdir | ⟨e, hdir⟩
    · left
      subst hroot
      exact (bind_of_ok (io_ok hdir)).trans rfl
    · exact .inr ⟨_, bind_of_error (io_error hdir)⟩

lemma destinationForFile_cases (h : Recursive root s) (relativePath : Str) :
    destinationForFile relativePath s =
        .ok (joinRelativePath root relativePath) (withRoot s root) ∨
      ∃ e, destinationForFile relativePath s = .error e s := by
  unfold destinationForFile
  rw [getWriter_bind, if_pos h.recursive]
  rcases downloadRoot_cases h with hroot | ⟨e, hroot⟩
  · exact .inl (bind_of_ok hroot)
  · exact .inr ⟨e, bind_of_error hroot⟩

/-- `P` of the files, and the writer knows its root. -/
abbrev Rooted (root : PathBuf) (P : Volume → Prop) : Sys Volume ℕ → Prop := fun s =>
  (s.writer.recursive = true ∧ s.writer.resume = none ∧ s.writer.root = some root) ∧ P s.fs

lemma Recursive.withRoot (h : Recursive root s) {P : Volume → Prop} (hP : P s.fs) :
    Rooted root P (withRoot s root) :=
  ⟨⟨h.recursive, h.resume, rfl⟩, hP⟩

lemma Rooted.inside (h : Rooted root (Confined root R) s) : Inside root R s :=
  ⟨h.2, h.1.1, h.1.2.1, .inl h.1.2.2⟩

section

variable {α : Type} {P Q : Volume → Prop} {x : EStateM IoError Volume α}

lemma io_rooted (hx : Triple P x (fun _ => Q) fun _ => Q) (mk : IoError → CliError) :
    Triple (Rooted root P) (io mk x) (fun _ => Rooted root Q) fun _ => Rooted root Q := by
  rintro s ⟨hw, hs⟩
  have h := hx s.fs hs
  unfold io
  cases hxs : x s.fs <;> rw [hxs] at h <;> exact ⟨hw, h⟩

lemma ignore_rooted (hx : Keeps P x) : Keeps (Rooted root P) (ignore x) := by
  rintro s ⟨hw, hs⟩
  have h := hx s.fs hs
  unfold ignore
  cases hxs : x s.fs <;> rw [hxs] at h <;> exact ⟨hw, h⟩

lemma applyMode_rooted (path : PathBuf) (mode : ℕ) :
    Keeps (Rooted root P) (DownloadWriter.applyMode path mode : Cli Volume ℕ Unit) := by
  unfold DownloadWriter.applyMode
  split_ifs
  · have hkeep : Keeps P (Volume.atPath true path fun _ => pure ()) := by
      intro fs hfs
      unfold Volume.atPath
      cases fs.locate true path <;> exact hfs
    exact ignore_rooted hkeep
  · exact Triple.pure fun _ h => h

end

lemma createParent_rooted (path : PathBuf) :
    Keeps (Rooted root (Into root R full path)) (createParent path) := by
  unfold createParent
  cases hparent : path.parent with
  | none => exact Triple.pure fun _ h => h
  | some parent =>
    obtain ⟨habs, hpre⟩ := parent_isPrefix hparent
    simp only
    split_ifs
    · exact Triple.pure fun _ h => h
    · exact io_rooted (createDirAll_keeps habs hpre) _

/-- A rejected frame has touched nothing outside either. -/
abbrev Rejected (root : PathBuf) (R : Loc Str) : CliError → Sys Volume ℕ → Prop :=
  fun _ s => Confined root R s.fs

lemma fileData_inside (data : Bytes) :
    Triple (Inside root R) (DownloadWriter.fileData data) (fun _ => Inside root R)
      (Rejected root R) := by
  intro s h
  unfold DownloadWriter.fileData
  rw [getWriter_bind]
  cases hfile : s.writer.currentFile with
  | none => exact h.confined
  | some file =>
    exact ⟨⟨h.confined.located, h.confined.above, h.confined.touched⟩, h.writer.recursive,
      h.writer.resume, h.writer.rooted⟩

lemma closeFile_inside :
    Triple (Inside root R) closeFile (fun _ => Inside root R) (Rejected root R) := by
  intro s h
  unfold closeFile
  rw [getWriter_bind]
  cases s.writer.currentFile <;>
    exact ⟨h.confined, h.writer.recursive, h.writer.resume, h.writer.rooted⟩

section

variable (hroot : dotdot ∉ root.segs) (hnil : [] ∉ root.segs)

include hroot hnil

variable {relativePath : Str}

lemma openFile_inside (mode startOffset : ℕ) :
    Triple (fun s => Inside root R s ∧
        PathClear R s.fs.tree true (NormalizedPath.fromStr relativePath).segments)
      (openFile relativePath mode startOffset) (fun _ => Rooted root (Confined root R))
      (Rejected root R) := by
  rintro s ⟨h, hclear⟩
  have hinto := h.confined.into hroot hnil hclear
  unfold openFile
  rw [getWriter_bind, h.writer.resume]
  simp only
  rcases destinationForFile_cases h.writer relativePath with hdest | ⟨e, hdest⟩
  · rw [bind_of_ok hdest]
    refine Triple.bind ((createParent_rooted _).mono (fun _ h => h) (fun _ _ h => h)
      fun _ _ h => h.2.confined) (fun _ => ?_) _ (h.writer.withRoot hinto)
    refine Triple.bind ((io_rooted create_confines _).mono (fun _ h => h) (fun _ _ h => h)
      fun _ _ h => h.2) fun _ => ?_
    refine Triple.bind ((applyMode_rooted _ _).mono (fun _ h => h) (fun _ _ h => h)
      fun _ _ h => h.2) fun _ => ?_
    exact Triple.pure fun _ h => h
  · rw [bind_of_error hdest]
    exact h.confined

lemma symlink_inside (target : Str) :
    Triple (fun s => Inside root R s ∧
        PathClear R s.fs.tree false (NormalizedPath.fromStr relativePath).segments)
      (DownloadWriter.symlink relativePath target) (fun _ => Inside root R) (Rejected root R) := by
  rintro s ⟨h, hclear⟩
  have hinto := h.confined.into hroot hnil hclear
  unfold DownloadWriter.symlink
  rcases destinationForFile_cases h.writer relativePath with hdest | ⟨e, hdest⟩
  · rw [bind_of_ok hdest]
    refine Triple.bind ((createParent_rooted _).mono (fun _ h => h) (fun _ _ h => h)
      fun _ _ h => h.2.confined) (fun _ => ?_) _ (h.writer.withRoot hinto)
    refine Triple.bind ((ignore_rooted removeFile_keeps).mono (fun _ h => h) (fun _ _ h => h)
      fun _ _ h => h.2.confined) fun _ => ?_
    exact (io_rooted (createSymlink_confines _) _).mono (fun _ h => h) (fun _ _ h => h.inside)
      fun _ _ h => h.2
  · rw [bind_of_error hdest]
    exact h.confined

lemma beginDirectory_inside (mode : ℕ) :
    Triple (fun s => Inside root R s ∧
        PathClear R s.fs.tree true (NormalizedPath.fromStr relativePath).segments)
      (beginDirectory relativePath mode) (fun _ => Inside root R) (Rejected root R) := by
  rintro s ⟨h, hclear⟩
  have hinto := h.confined.into hroot hnil hclear
  unfold beginDirectory
  rw [getWriter_bind, if_pos h.writer.recursive]
  rcases downloadRoot_cases h.writer with hdest | ⟨e, hdest⟩
  · rw [bind_of_ok hdest]
    refine Triple.bind ((io_rooted (createDirAll_keeps rfl prefix_rfl) _).mono (fun _ h => h)
      (fun _ _ h => h) fun _ _ h => h.2.confined) (fun _ => ?_) _ (h.writer.withRoot hinto)
    exact (applyMode_rooted _ _).mono (fun _ h => h)
      (fun _ _ h => Rooted.inside ⟨h.1, h.2.confined⟩) fun _ _ h => h.2.confined
  · rw [bind_of_error hdest]
    exact h.confined

/-- **One frame**: a frame that is clear in the tree it finds touches nothing outside. -/
lemma apply_inside (f : CopyFrame) :
    Triple (fun s => Inside root R s ∧ FrameClear R s.fs.tree f) (apply f) (fun _ => Inside root R)
      (Rejected root R) := by
  cases f with
  | beginFile relativePath mode size mtime startOffset =>
    refine Triple.bind (openFile_inside hroot hnil mode startOffset) fun _ => ?_
    rintro s ⟨hw, hs⟩
    exact Rooted.inside ⟨hw, hs⟩
  | fileData data =>
    exact (fileData_inside data).mono (fun _ h => h.1) (fun _ _ h => h) fun _ _ h => h
  | endFile =>
    refine Triple.bind (closeFile_inside.mono (fun _ h => h.1) (fun _ _ h => h) fun _ _ h => h)
      fun _ => ?_
    intro s h
    exact ⟨h.confined, h.writer.recursive, h.writer.resume, h.writer.rooted⟩
  | beginDirectory relativePath mode mtime => exact beginDirectory_inside hroot hnil mode
  | symlink relativePath target => exact symlink_inside hroot hnil target
  | endOfStream => exact closeFile_inside.mono (fun _ h => h.1) (fun _ _ h => h) fun _ _ h => h

lemma applyAll_confined {frames : List CopyFrame} : ∀ {s : Sys Volume ℕ}, Inside root R s →
    runClear R s frames → Confined root R (after (applyAll frames) s).fs := by
  induction frames with
  | nil => exact fun h _ => h.confined
  | cons f frames ih =>
    intro s h hclear
    rw [runClear, Bool.and_eq_true, decide_eq_true_eq] at hclear
    obtain ⟨hframe, hrest⟩ := hclear
    have hstep := apply_inside hroot hnil f s ⟨h, hframe⟩
    cases happly : apply f s with
    | ok _ t =>
      rw [happly] at hstep hrest
      have hafter : after (applyAll (f :: frames)) s = after (applyAll frames) t := by
        unfold after
        rw [applyAll, bind_of_ok happly]
      rw [hafter]
      exact ih hstep hrest
    | error e t =>
      rw [happly] at hstep
      have hall : applyAll (f :: frames) s = .error e t := bind_of_error happly
      rw [after_error hall]
      exact hstep

end

/-- **A recursive download stays inside its root** as long as no frame says `..` and none leads
through a symbolic link, its own or one that was there: every place it touches lies at the root
or below. The root's path says no `..`, and the directories above the root exist. -/
theorem recursive_download_confined (dest sourceName : Str) (fs : Volume)
    (frames : List CopyFrame) (hfresh : fs.touched = [])
    (hroot : dotdot ∉ (rootOf fs (.ofStr dest) sourceName).segs)
    (habove : ∀ l, l <+: rootPlace fs dest sourceName → l ≠ rootPlace fs dest sourceName →
      fs.tree l = some .dir)
    (hclear : runClear (rootPlace fs dest sourceName) (startOf fs dest sourceName) frames) :
    ∀ l ∈ (after (applyAll frames) (startOf fs dest sourceName)).fs.touched,
      rootPlace fs dest sourceName <+: l := by
  have hnil : [] ∉ (rootOf fs (.ofStr dest) sourceName).segs := by
    unfold rootOf PathBuf.join PathBuf.ofStr
    split_ifs <;> simp
  have hinside : Inside (rootOf fs (.ofStr dest) sourceName) (rootPlace fs dest sourceName)
      (startOf fs dest sourceName) :=
    ⟨⟨rfl, habove, by simp [startOf, hfresh]⟩, rfl, rfl, .inr ⟨rfl, rfl⟩⟩
  exact (applyAll_confined hroot hnil hinside hclear).touched

/-- A working directory `/w` with nothing in it. -/
def emptyVolume : Volume where
  tree l := if l = [] ∨ l = ["w".toList] then some .dir else none
  cwd := ["w".toList]
  data _ := []
  nextInode := 0
  touched := []

/-- A tree with a directory, a file in it and a link out of it, which nothing goes through. -/
theorem recursive_download_confined_tree :
    let frames : List CopyFrame := [.beginDirectory [] 0 0, .beginDirectory "d" 0 0,
      .beginFile "d/f" 0 1 0 0, .fileData [7], .endFile,
      .symlink "l" "/etc", .endOfStream]
    (after (applyAll frames) (startOf emptyVolume "out" [])).fs.touched ≠ [] ∧
    ∀ l ∈ (after (applyAll frames) (startOf emptyVolume "out" [])).fs.touched,
      rootPlace emptyVolume "out" [] <+: l := by
  refine ⟨by decide +kernel, ?_⟩
  refine recursive_download_confined "out" [] emptyVolume _ rfl (by decide +kernel) ?_
    (by decide +kernel)
  have hplace : rootPlace emptyVolume "out" [] = ["w", "out"] := by
    decide +kernel
  rw [hplace]
  intro l hl hne
  rcases l with _ | ⟨a, _ | ⟨b, l⟩⟩
  · decide +kernel
  · obtain ⟨r, hr⟩ := hl
    cases hr
    decide +kernel
  · obtain ⟨r, hr⟩ := hl
    cases r <;> cases l <;> simp at hr
    simp [hr] at hne

/-- A directory frame `../evil`, and a file written through a link of the same stream. -/
theorem recursive_download_escapes :
    ((after (applyAll [.beginDirectory "../evil".toList 0 0])
        (startOf emptyVolume "out".toList [])).fs.touched = [["w".toList, "evil".toList]] ∧
      ¬ rootPlace emptyVolume "out".toList [] <+: ["w".toList, "evil".toList]) ∧
    ((after (applyAll [.symlink "l".toList "/".toList, .beginFile "l/x".toList 0 0 0 0])
        (startOf emptyVolume "out".toList [])).fs.touched =
        [["w".toList, "out".toList], ["w".toList, "out".toList, "l".toList], ["x".toList]] ∧
      ¬ rootPlace emptyVolume "out".toList [] <+: ["x".toList]) := by
  decide +kernel

end CrossHostOps.Containment
