import CrossHostOps.Publish

/-!
The download writer on a disk whose process is not killed: where a file of the stream lands,
and what is there once the file has been received.
-/

namespace CrossHostOps.LiveWriter

open Text Filepath Frames FileSystem DownloadWriter RunCopy Hoare Publish

/-- A regular file as its frames describe it. -/
structure RemoteFile where
  mode : ℕ
  mtime : ℤ
  content : Bytes

/-- `BeginFile` and the data that follows it. -/
def opening (name : Str) (v : RemoteFile) (start : ℕ) (chunks : List Bytes) : List CopyFrame :=
  .beginFile name v.mode v.content.length v.mtime start :: chunks.map .fileData

section Writer

variable {name : Str} {v : RemoteFile} {start : ℕ} {chunks : List Bytes} {s t : Sys Disk PathBuf}
  {ctx : DownloadResumeCtx}

variable {file : PathBuf} {c : Bytes} {e : CliError}

lemma applyAll_fileData (chunks : List Bytes) :
    ∀ {c : Bytes} {s : Sys Disk PathBuf}, s.writer.currentFile = some file →
    s.fs.budget = none → s.fs.content file = some c →
    applyAll (chunks.map .fileData) s = .ok ()
      ⟨{ s.writer with applied := s.writer.applied + chunks.flatten.length },
        s.fs.set file (some (.file (c ++ chunks.flatten)))⟩ := by
  induction chunks with
  | nil =>
    intro c s _ _ hc
    simp [Disk.set_eq_self (Disk.node_of_content hc)]
    rfl
  | cons x chunks ih =>
    intro c s hfile hlive hc
    rw [List.map_cons, applyAll, bind_of_ok (fileData_of_writeAll hfile (Disk.append_live hlive hc
      x)), ih (by exact hfile) (by exact hlive) (Disk.content_set_file _)]
    simp [Disk.set, Nat.add_assoc]

/-- The writer after `BeginFile` at `path` and `received` bytes of data. -/
def received (w : CopyDownloadWriter PathBuf) (path : PathBuf) (baseline : ℕ) (name : Str)
    (v : RemoteFile) (received : ℕ) : CopyDownloadWriter PathBuf :=
  { w.begun path path baseline v.content.length v.mtime name with
    applied := baseline + received }

lemma applyAll_opening {path : PathBuf} {baseline : ℕ}
    (h : openFile name v.mode start s = .ok (path, path, baseline) t) (hlive : t.fs.budget = none)
    (hc : t.fs.content path = some c) :
    applyAll (opening name v start chunks) s = .ok ()
      ⟨received t.writer path baseline name v chunks.flatten.length,
        t.fs.set path (some (.file (c ++ chunks.flatten)))⟩ := by
  rw [opening, applyAll, bind_of_ok (beginFile_of_openFile h)]
  exact applyAll_fileData (s := ⟨t.writer.begun path path baseline _ _ _, t.fs⟩) chunks rfl hlive hc

lemma applyAll_opening_error (h : openFile name v.mode start s = .error e t) :
    applyAll (opening name v start chunks) s = .error e t :=
  bind_of_error (bind_of_error h)

lemma applyAll_closing (s : Sys Disk PathBuf) :
    applyAll [.endFile, .endOfStream] s = .ok () { s with
      writer := { s.writer with currentFile := none, incompletePath := none } } := by
  rw [applyAll, bind_of_ok (endFile_disk s)]
  exact bind_of_ok (closeFile_disk _)

/-! ### Without a sidecar -/

variable (w : CopyDownloadWriter PathBuf) (d : Disk)

/-- `download_root`. -/
def landingRoot : PathBuf :=
  w.root.getD (if d.node w.dest = some .dir then
    w.dest.join (.ofStr (nonEmptyName w.sourceName "download")) else w.dest)

/-- The place of an entry in an existing directory. -/
def inside (name : Str) : PathBuf :=
  w.dest.join (.ofStr (copyEntryName name w.sourceName "download"))

/-- Where a file of the stream is written. -/
def landing (name : Str) : PathBuf :=
  if w.recursive then joinRelativePath (landingRoot w d) name
  else if d.node w.dest = some .dir then inside w name else w.dest

/-- The writer once it has looked for its root. -/
def settled : CopyDownloadWriter PathBuf :=
  if w.recursive then { w with root := some (landingRoot w d) } else w

lemma pathIsExistingDir_disk (p : PathBuf) (s : Sys Disk PathBuf) :
    io (.failedToInspect p) (LocalFs.pathIsExistingDir p) s =
      .ok (decide (s.fs.node p = some .dir)) s :=
  io_ok (congrArg (EStateM.Result.ok · s.fs) (beq_eq_decide _ _))

lemma downloadRoot_disk (s : Sys Disk PathBuf) : downloadRoot s =
    .ok (landingRoot s.writer s.fs)
      { s with writer := { s.writer with root := some (landingRoot s.writer s.fs) } } := by
  simp only [downloadRoot, getWriter_bind, landingRoot]
  cases hroot : s.writer.root with
  | some root =>
    rcases s with ⟨w, d⟩
    cases w
    cases hroot
    rfl
  | none =>
    simp only [bind_of_ok (pathIsExistingDir_disk _ s)]
    by_cases hdir : s.fs.node s.writer.dest = some .dir <;> simp [hdir] <;> rfl

lemma destinationForFile_landing (name : Str) (s : Sys Disk PathBuf) :
    destinationForFile name s =
      .ok (landing s.writer s.fs name) { s with writer := settled s.writer s.fs } := by
  simp only [destinationForFile, getWriter_bind]
  by_cases hrec : s.writer.recursive
  · rw [if_pos hrec, landing, settled, if_pos hrec, if_pos hrec]
    exact bind_of_ok (downloadRoot_disk s)
  · rw [if_neg hrec, landing, settled, if_neg hrec, if_neg hrec]
    simp only [destinationForSingleEntry, getWriter_bind, bind_of_ok (pathIsExistingDir_disk _ s)]
    by_cases hdir : s.fs.node s.writer.dest = some .dir <;> simp [hdir] <;> rfl

lemma applyMode_disk (path : PathBuf) (mode : ℕ) (s : Sys Disk PathBuf) :
    applyMode path mode s = .ok () s := by
  unfold applyMode
  split_ifs <;> rfl

variable {w d}

/-- The first file does not change where the second lands. -/
lemma landing_settled (hP : d.node (landing w d name) ≠ some .dir) :
    landing (settled w d) (d.set (landing w d name) (some (.file c))) name = landing w d name := by
  by_cases hrec : w.recursive
  · have hroot : settled w d = { w with root := some (landingRoot w d) } := if_pos hrec
    rw [hroot]
    exact (if_pos hrec).trans (if_pos hrec).symm
  · have hw : settled w d = w := if_neg hrec
    have hdir : (d.set (landing w d name) (some (.file c))).node w.dest = some .dir ↔
        d.node w.dest = some .dir := by
      by_cases heq : w.dest = landing w d name
      · rw [← heq] at hP ⊢
        simp [hP]
      · rw [Disk.set_node_ne heq]
    have hsingle : ∀ d', landing w d' name =
        if d'.node w.dest = some .dir then inside w name else w.dest := fun d' => if_neg hrec
    rw [hw]
    exact (hsingle _).trans ((if_congr hdir rfl rfl).trans (hsingle d).symm)

variable (w d) in
lemma settled_resume :
    (settled w d).resume = w.resume := by
  unfold settled
  split_ifs <;> rfl

lemma openFile_landing (hres : s.writer.resume = none) (hlive : s.fs.budget = none)
    (hP : s.fs.node (landing s.writer s.fs name) ≠ some .dir) (mode start : ℕ) :
    openFile name mode start s =
      .ok (landing s.writer s.fs name, landing s.writer s.fs name, 0)
        ⟨settled s.writer s.fs, s.fs.set (landing s.writer s.fs name) (some (.file []))⟩ := by
  simp only [openFile, getWriter_bind, hres]
  rw [bind_of_ok (destinationForFile_landing name s), bind_of_ok (createParent_disk _ _)]
  refine (bind_of_ok (io_ok (s := ⟨settled s.writer s.fs, s.fs⟩)
    (Disk.create_live hlive hP))).trans ?_
  exact bind_of_ok (applyMode_disk _ _ _)

lemma openFile_landing_dir (hres : s.writer.resume = none)
    (hP : s.fs.node (landing s.writer s.fs name) = some .dir) (mode start : ℕ) :
    ∃ e t, openFile name mode start s = .error e t := by
  have hcreate : (LocalFs.create (landing s.writer s.fs name) : EStateM IoError Disk PathBuf)
      s.fs = .error .isADirectory s.fs := bind_of_error (if_pos hP)
  simp only [openFile, getWriter_bind, hres]
  rw [bind_of_ok (destinationForFile_landing name s), bind_of_ok (createParent_disk _ _)]
  exact ⟨_, _, bind_of_error (io_error hcreate)⟩

/-- A writer that writes `name` straight to `P`, which holds `c` so far. -/
structure Writing (P : PathBuf) (name : Str) (c : Bytes) (s : Sys Disk PathBuf) : Prop where
  resume : s.writer.resume = none
  live : s.fs.budget = none
  landing : landing s.writer s.fs name = P
  content : s.fs.content P = some c

/-- Whatever the start offset, the file begins afresh. -/
lemma opening_plain (hres : s.writer.resume = none) (hlive : s.fs.budget = none)
    (hP : s.fs.node (landing s.writer s.fs name) ≠ some .dir) (v : RemoteFile) (start : ℕ)
    (chunks : List Bytes) :
    ∃ s', applyAll (opening name v start chunks) s = .ok () s' ∧
      Writing (landing s.writer s.fs name) name chunks.flatten s' := by
  refine ⟨_, applyAll_opening (openFile_landing hres hlive hP v.mode start) hlive
    (Disk.content_set_file []), ?_⟩
  have hset : ∀ c, (s.fs.set (landing s.writer s.fs name) (some (.file []))).set
      (landing s.writer s.fs name) c = s.fs.set (landing s.writer s.fs name) c := by
    simp [Disk.set]
  refine ⟨(settled_resume _ _).trans hres, hlive, ?_, by simp⟩
  rw [hset]
  exact landing_settled hP

lemma opening_plain_dir (hres : s.writer.resume = none)
    (hP : s.fs.node (landing s.writer s.fs name) = some .dir) (v : RemoteFile) (start : ℕ)
    (chunks : List Bytes) (more : List CopyFrame) :
    ∃ e t, applyAll (opening name v start chunks ++ more) s = .error e t := by
  obtain ⟨e, t, h⟩ := openFile_landing_dir hres hP v.mode start
  exact ⟨e, t, applyAll_append_of_error (applyAll_opening_error h) more⟩

/-! ### With a sidecar -/

/-- A resuming writer whose `.part` holds `c`. -/
structure PartHolds (ctx : DownloadResumeCtx) (dest : PathBuf) (n : Option Node) (c : Bytes)
    (s : Sys Disk PathBuf) : Prop where
  resume : s.writer.resume = some ctx
  live : s.fs.budget = none
  part : s.fs.content ctx.part = some c
  node : s.fs.node dest = n
  dest : s.writer.dest = dest

variable {dest : PathBuf} {n : Option Node} {c : Bytes}

lemma openFile_part (hres : s.writer.resume = some ctx) (h : openPart ctx start s = .ok file t)
    (mode : ℕ) :
    openFile name mode start s = .ok (ctx.part, file, start) t := by
  simp only [openFile, getWriter_bind, hres]
  exact bind_of_ok h

lemma openFile_part_error (hres : s.writer.resume = some ctx)
    (h : openPart ctx start s = .error e t) (mode : ℕ) :
    openFile name mode start s = .error e t := by
  simp only [openFile, getWriter_bind, hres]
  exact bind_of_error h

lemma PartHolds.opening_resume (hs : PartHolds ctx dest n c s) (hne : dest ≠ ctx.part)
    (h0 : 0 < start) (he : start = ctx.expectedOffset) (name : Str) (v : RemoteFile)
    (chunks : List Bytes) :
    ∃ s', applyAll (opening name v start chunks) s = .ok () s' ∧
      PartHolds ctx dest n (c ++ chunks.flatten) s' := by
  have hopen := openPart_resume h0 he hs.part
  refine ⟨_, applyAll_opening (openFile_part hs.resume hopen v.mode) hs.live hs.part, ?_⟩
  exact ⟨hs.resume, hs.live, by simp, by simpa [hne] using hs.node, hs.dest⟩

lemma opening_fresh (hres : s.writer.resume = some ctx) (hlive : s.fs.budget = none)
    (hne : s.writer.dest ≠ ctx.part) (hp : s.fs.node ctx.part ≠ some .dir) (name : Str)
    (v : RemoteFile) (chunks : List Bytes) :
    ∃ s', applyAll (opening name v 0 chunks) s = .ok () s' ∧
      PartHolds ctx s.writer.dest (s.fs.node s.writer.dest) chunks.flatten s' := by
  have hopen := openPart_fresh hlive hp
  refine ⟨_, applyAll_opening (openFile_part hres hopen v.mode) hlive (Disk.content_set_file []),
    ?_⟩
  exact ⟨hres, hlive, by simp, by simp [hne], rfl⟩

/-- An offset the sidecar did not promise is refused. -/
lemma opening_mismatch (hres : s.writer.resume = some ctx) (h0 : 0 < start)
    (he : start ≠ ctx.expectedOffset) (name : Str) (v : RemoteFile) (chunks : List Bytes) :
    ∃ e t, applyAll (opening name v start chunks) s = .error e t := by
  have hopen : openPart ctx start s = .error (.offsetMismatch start ctx.expectedOffset) s := by
    rw [openPart, if_pos h0, if_neg he]
    rfl
  exact ⟨_, _, applyAll_opening_error (openFile_part_error hres hopen v.mode)⟩

lemma opening_dir (hres : s.writer.resume = some ctx) (hp : s.fs.node ctx.part = some .dir)
    (name : Str) (v : RemoteFile) (chunks : List Bytes) :
    ∃ e t, applyAll (opening name v 0 chunks) s = .error e t := by
  have hcreate : (LocalFs.create ctx.part : EStateM IoError Disk PathBuf) s.fs =
      .error .isADirectory s.fs := bind_of_error (if_pos hp)
  have hopen : openPart ctx 0 s = .error (.failedToCreate ctx.part .isADirectory) s := by
    rw [openPart, if_neg (by omega), io_error hcreate]
  exact ⟨_, _, applyAll_opening_error (openFile_part_error hres hopen v.mode)⟩

/-- What is published of a `.part` that holds `c`. -/
lemma PartHolds.publish (hs : PartHolds ctx dest n c s) (hne : dest ≠ ctx.part)
    (hne' : dest ≠ ctx.sidecar) :
    if n = some .dir then ∃ e t, publish s = .error e t
    else ∃ t, publish s = .ok () t ∧ t.fs.content dest = some c := by
  obtain ⟨hres, hlive, hpart, rfl, rfl⟩ := hs
  have hnode := Disk.node_of_content hpart
  split_ifs with hdir
  · have hrename : Disk.rename ctx.part s.writer.dest s.fs = .error .isADirectory s.fs := by
      simp [Disk.rename, hnode, hdir]
    exact ⟨_, _, publish_of_rename_error hres hrename⟩
  · have hrename := Disk.rename_live hlive hnode hdir
    refine ⟨_, publish_of_rename hres hrename, ?_⟩
    have hlive' : (s.fs.moved ctx.part s.writer.dest (.file c)).budget = none := hlive
    have hmoved := Disk.moved_node_to (d := s.fs) ctx.part s.writer.dest (.file c)
    have hkeep : (after (Disk.removeFile ctx.sidecar)
        (s.fs.moved ctx.part s.writer.dest (.file c))).node s.writer.dest = some (.file c) := by
      rcases Disk.removeFile_cases ctx.sidecar (s.fs.moved ctx.part s.writer.dest (.file c))
        with h | ⟨e, h⟩
      · rw [after_ok h, Disk.set_node_ne hne', Disk.spend_node, hmoved]
      · rw [after_error h, hmoved]
    exact Disk.content_of_node hkeep

end Writer

end CrossHostOps.LiveWriter
