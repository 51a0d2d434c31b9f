import CrossHostOps.SidecarJson

/-!
When a resumable download publishes its `.part`.

`run_copy` decides from the outcome of the event loop alone, and the loop has clean exits
that no complete file precedes: the stream ends early, or the user declines.
-/

namespace CrossHostOps.Publish

open Text Filepath Frames FileSystem DownloadWriter RunCopy Hoare

/-- Some `BeginFile` of the stream got its `EndFile` with all the bytes it declares. -/
def Completed (frames : List CopyFrame) : Prop :=
  ∃ before relativePath mode size mtime startOffset body after,
    frames = before ++ .beginFile relativePath mode size mtime startOffset ::
      (body ++ .endFile :: after) ∧
    (∀ f ∈ body, f ≠ .endFile ∧ ∀ r m s t o, f ≠ .beginFile r m s t o) ∧
    startOffset + (payload body).length = size

/-! ### Which frames a resuming writer takes -/

/-- Whether a file is open after a frame. -/
def opens (isOpen : Bool) : CopyFrame → Bool
  | .beginFile .. => true
  | .endFile | .endOfStream => false
  | .fileData _ | .beginDirectory .. | .symlink .. => isOpen

def takes (expectedOffset : ℕ) (isOpen : Bool) : CopyFrame → Bool
  | .beginFile _ _ _ _ startOffset => startOffset == 0 || startOffset == expectedOffset
  | .fileData _ => isOpen
  | .beginDirectory .. => false
  | .endFile | .endOfStream | .symlink .. => true

/-- The writer finds nothing to object to in the frames themselves. -/
def takesAll (expectedOffset : ℕ) : Bool → List CopyFrame → Bool
  | _, [] => true
  | isOpen, f :: fs =>
    takes expectedOffset isOpen f && takesAll expectedOffset (opens isOpen f) fs

section Writer

variable {σ H : Type} {ctx : DownloadResumeCtx}

/-- A writer in the middle of a resumable download. -/
structure Resuming (ctx : DownloadResumeCtx) (isOpen : Bool) (w : CopyDownloadWriter H) :
    Prop where
  resume : w.resume = some ctx
  recursive : w.recursive = false
  isOpen : w.currentFile.isSome = isOpen

variable {α : Type} {s s' : Sys σ H} {path : PathBuf}

lemma io_writer {mk : IoError → CliError} {x : EStateM IoError σ α} {a : α}
    (h : io mk x s = .ok a s') : s'.writer = s.writer := by
  unfold io at h
  split at h <;> cases h
  rfl

lemma ignore_writer {x : EStateM IoError σ α} (h : ignore x s = .ok () s') :
    s'.writer = s.writer := by
  unfold ignore at h
  split at h <;> cases h <;> rfl

variable [LocalFs σ H]

lemma openPart_ok {start : ℕ} {file : H} (h : openPart ctx start s = .ok file s') :
    (start = 0 ∨ start = ctx.expectedOffset) ∧ s'.writer = s.writer := by
  unfold openPart at h
  split_ifs at h with h0 he
  · exact ⟨.inr he, io_writer h⟩
  · cases h
  · exact ⟨.inl (by omega), io_writer h⟩

lemma destinationForFile_writer {rel : Str} (hrec : s.writer.recursive = false)
    (h : destinationForFile rel s = .ok path s') :
    s'.writer = s.writer := by
  simp only [destinationForFile, destinationForSingleEntry, getWriter_bind, hrec, bind_ok,
    Bool.false_eq_true, if_false] at h
  obtain ⟨isDir, t, hio, hret⟩ := h
  split_ifs at hret <;> cases hret <;> exact io_writer hio

lemma createParent_writer (h : createParent path s = .ok () s') : s'.writer = s.writer := by
  unfold createParent at h
  cases hp : path.parent with
  | none => rw [hp] at h; cases h; rfl
  | some parent =>
    simp only [hp] at h
    split_ifs at h
    · cases h; rfl
    · exact io_writer h

lemma closeFile_writer (h : closeFile s = .ok () s') :
    s'.writer = { s.writer with currentFile := none } := by
  simp only [closeFile, getWriter_bind] at h
  cases hf : s.writer.currentFile with
  | none => rw [hf] at h; cases h; rfl
  | some file => rw [hf] at h; exact io_writer h

/-- A frame that goes through is one the writer takes. -/
lemma Resuming.apply {isOpen : Bool} {f : CopyFrame} (hw : Resuming ctx isOpen s.writer)
    (h : apply f s = .ok () s') :
    takes ctx.expectedOffset isOpen f ∧ Resuming ctx (opens isOpen f) s'.writer := by
  obtain ⟨hr, hrec, rfl⟩ := hw
  cases f with
  | beginFile rel mode size mtime start =>
    simp only [DownloadWriter.apply, beginFile, openFile, bind_assoc, getWriter_bind, hr, bind_ok,
      pure_bind] at h
    obtain ⟨file, t, hopen, hset⟩ := h
    obtain ⟨hstart, ht⟩ := openPart_ok hopen
    cases hset
    refine ⟨by simpa [takes] using hstart, ?_, ?_, rfl⟩
    · simpa [ht] using hr
    · simpa [ht] using hrec
  | fileData data =>
    simp only [DownloadWriter.apply, fileData, getWriter_bind] at h
    cases hf : s.writer.currentFile with
    | none => rw [hf] at h; cases h
    | some file =>
      simp only [hf, bind_ok, getWriter_bind] at h
      obtain ⟨_, t, hwrite, hset⟩ := h
      have ht := io_writer hwrite
      cases hset
      refine ⟨rfl, ?_, ?_, ?_⟩
      · simpa [ht] using hr
      · simpa [ht] using hrec
      · simp [ht, hf, opens]
  | endFile =>
    simp only [DownloadWriter.apply, endFile, bind_ok, getWriter_bind] at h
    obtain ⟨_, t, hclose, hset⟩ := h
    have ht := closeFile_writer hclose
    cases hset
    exact ⟨rfl, by simpa [ht] using hr, by simpa [ht] using hrec, by simp [ht, opens]⟩
  | beginDirectory rel mode mtime =>
    simp only [DownloadWriter.apply, beginDirectory, getWriter_bind, hrec] at h
    cases h
  | symlink rel target =>
    simp only [DownloadWriter.apply, symlink, bind_ok] at h
    obtain ⟨path, t₁, h₁, _, t₂, h₂, _, t₃, h₃, h₄⟩ := h
    have ht : s'.writer = s.writer := by
      rw [io_writer h₄, ignore_writer h₃, createParent_writer h₂, destinationForFile_writer hrec h₁]
    exact ⟨rfl, ht ▸ hr, ht ▸ hrec, ht ▸ rfl⟩
  | endOfStream =>
    have ht := closeFile_writer h
    exact ⟨rfl, by simpa [ht] using hr, by simpa [ht] using hrec, by simp [ht, opens]⟩

lemma Resuming.applyAll {frames : List CopyFrame} : ∀ {isOpen : Bool} {s s' : Sys σ H},
    Resuming ctx isOpen s.writer → applyAll frames s = .ok () s' →
    takesAll ctx.expectedOffset isOpen frames := by
  induction frames with
  | nil => exact fun _ _ => rfl
  | cons f fs ih =>
    intro isOpen s s' hw h
    obtain ⟨_, t, hf, hfs⟩ := bind_ok.1 h
    obtain ⟨htake, hw'⟩ := hw.apply hf
    simp [takesAll, htake, ih hw' hfs]

end Writer

/-! ### On a disk -/

section Disk

variable {ctx : DownloadResumeCtx} (r : List (PathBuf × PathBuf))

lemma effect_renamed (p : PathBuf) (n : Option Node) :
    Keeps (fun d : Disk => d.renamed = r) (Disk.effect fun d => d.set p n) := by
  intro d hd
  rcases Disk.effect_cases (fun d => d.set p n) d with h | h <;> rw [h] <;> exact hd

lemma create_renamed (p : PathBuf) : Keeps (fun d : Disk => d.renamed = r) (Disk.create p) := by
  intro d hd
  unfold Disk.create
  split_ifs
  · exact hd
  · exact effect_renamed r _ _ d hd

lemma removeFile_renamed (p : PathBuf) :
    Keeps (fun d : Disk => d.renamed = r) (Disk.removeFile p) := by
  intro d hd
  unfold Disk.removeFile
  cases d.node p with
  | none => exact hd
  | some n =>
    cases n with
    | dir => exact hd
    | file | link => exact effect_renamed r _ _ d hd

lemma createSymlink_renamed (t p : PathBuf) :
    Keeps (fun d : Disk => d.renamed = r) (Disk.createSymlink t p) := by
  intro d hd
  unfold Disk.createSymlink
  split_ifs
  · exact effect_renamed r _ _ d hd
  · exact hd

lemma append_renamed (p : PathBuf) (data : Bytes) :
    Keeps (fun d : Disk => d.renamed = r) (Disk.append p data) := by
  intro d hd
  unfold Disk.append
  cases d.content p <;> simp only <;> split_ifs <;> exact hd

/-- Nothing but `rename` adds to the log of renames. -/
lemma opsKeep_renamed : OpsKeep (H := PathBuf) fun d : Disk => d.renamed = r where
  pathIsExistingDir _ := fun _ h => h
  createDirAll _ := fun _ h => h
  create p := Triple.bind (create_renamed r p) fun _ => Triple.pure fun _ h => h
  openAppend p := by
    refine Triple.bind (Q := fun _ d => d.renamed = r) (fun d hd => ?_) fun _ =>
      Triple.pure fun _ h => h
    unfold Disk.openAppend
    cases d.node p with
    | none => exact effect_renamed r _ _ d hd
    | some n =>
      cases n with
      | file | dir => exact hd
      | link t => exact effect_renamed r _ _ d hd
  writeAll p data := append_renamed r p data
  flush _ := fun _ h => h
  applyMode _ _ := fun _ h => h
  removeFile p := removeFile_renamed r p
  createSymlink t p := createSymlink_renamed r t p

/-- Everything a live writer needs to take the frames it takes. -/
structure Ready (ctx : DownloadResumeCtx) (isOpen : Bool) (s : Sys Disk PathBuf) : Prop where
  writer : Resuming ctx isOpen s.writer
  handle : ∀ file ∈ s.writer.currentFile, file = ctx.part
  dest_ne : s.writer.dest ≠ ctx.part
  live : s.fs.budget = none
  part : ∃ c, s.fs.content ctx.part = some c
  notDir : s.fs.node s.writer.dest ≠ some .dir

variable {start : ℕ} {s : Sys Disk PathBuf} {isOpen : Bool} {rel : Str}

lemma openPart_resume {c : Bytes} (h0 : 0 < start) (he : start = ctx.expectedOffset)
    (hc : s.fs.content ctx.part = some c) :
    openPart ctx start s = .ok ctx.part s := by
  rw [openPart, if_pos h0, if_pos he, io_ok (Disk.openAppend_file hc)]

lemma openPart_fresh {s : Sys Disk PathBuf} (hlive : s.fs.budget = none)
    (hp : s.fs.node ctx.part ≠ some .dir) : openPart ctx 0 s =
      .ok ctx.part { s with fs := s.fs.set ctx.part (some (.file [])) } := by
  rw [openPart, if_neg (by omega), io_ok (Disk.create_live hlive hp)]

lemma Ready.openPart (hs : Ready ctx isOpen s) (hstart : start = 0 ∨ start = ctx.expectedOffset) :
    ∃ fs, openPart ctx start s = .ok ctx.part { s with fs } ∧
      Ready ctx isOpen { s with fs } := by
  obtain ⟨hw, hh, hne, hlive, ⟨c, hc⟩, hdir⟩ := hs
  rcases Nat.eq_zero_or_pos start with rfl | h0
  · refine ⟨_, openPart_fresh hlive (by simp [Disk.node_of_content hc]), hw, hh, hne, hlive,
      ⟨[], by simp⟩, by simpa [hne] using hdir⟩
  · exact ⟨s.fs, openPart_resume h0 (hstart.resolve_left (by omega)) hc, hw, hh, hne, hlive,
      ⟨c, hc⟩, hdir⟩

lemma closeFile_disk (s : Sys Disk PathBuf) :
    closeFile s = .ok () { s with writer := { s.writer with currentFile := none } } := by
  simp only [closeFile, getWriter_bind]
  cases s.writer.currentFile <;> rfl

lemma endFile_disk (s : Sys Disk PathBuf) : apply .endFile s = .ok ()
    { s with writer := { s.writer with currentFile := none, incompletePath := none } } := by
  rw [apply, endFile, bind_of_ok (closeFile_disk s)]
  rfl

lemma destinationForFile_disk (hrec : s.writer.recursive = false)
    (hdir : s.fs.node s.writer.dest ≠ some .dir) :
    destinationForFile rel s = .ok s.writer.dest s := by
  have hio : io (.failedToInspect s.writer.dest) (LocalFs.pathIsExistingDir s.writer.dest) s =
      .ok false s := by
    have : (s.fs.node s.writer.dest == some .dir) = false := by simpa using hdir
    exact io_ok (congrArg (EStateM.Result.ok · s.fs) this)
  simp only [destinationForFile, destinationForSingleEntry, getWriter_bind, hrec, bind_of_ok hio,
    Bool.false_eq_true, if_false]
  rfl

lemma createParent_disk (path : PathBuf) (s : Sys Disk PathBuf) :
    createParent path s = .ok () s := by
  unfold createParent
  cases path.parent with
  | none => rfl
  | some parent => simp only; split_ifs <;> rfl

/-- A symlink entry of a single-entry download takes the place of the destination. -/
lemma symlink_disk {target : Str} (hlive : s.fs.budget = none) (hrec : s.writer.recursive = false)
    (hdir : s.fs.node s.writer.dest ≠ some .dir) :
    apply (.symlink rel target) s = .ok ()
      { s with fs := s.fs.set s.writer.dest (some (.link (.ofStr target))) } := by
  have hrm : after (LocalFs.removeFile s.writer.dest : EStateM IoError Disk Unit) s.fs =
      s.fs.set s.writer.dest none := Disk.after_removeFile_live hlive hdir
  rw [apply, symlink, bind_of_ok (destinationForFile_disk hrec hdir),
    bind_of_ok (createParent_disk _ s), bind_of_ok (ignore_eq _ s), hrm]
  refine (io_ok (Disk.createSymlink_live (by simpa using hlive) (by simp) _)).trans ?_
  simp [Disk.set]

lemma Ready.apply {f : CopyFrame} (hs : Ready ctx isOpen s)
    (hf : takes ctx.expectedOffset isOpen f) :
    ∃ s', apply f s = .ok () s' ∧ Ready ctx (opens isOpen f) s' ∧
      s'.writer.dest = s.writer.dest := by
  cases f with
  | beginFile rel mode size mtime start =>
    have hstart : start = 0 ∨ start = ctx.expectedOffset := by simpa [takes] using hf
    obtain ⟨fs, hopen, ⟨hr, hrec, -⟩, -, hne, hlive, hpart, hdir⟩ := hs.openPart hstart
    refine ⟨_, beginFile_of_openPart hs.writer.resume hopen, ?_, rfl⟩
    exact ⟨⟨hr, hrec, rfl⟩, fun _ h => (Option.some.inj h).symm, hne, hlive, hpart, hdir⟩
  | fileData data =>
    obtain ⟨⟨hr, hrec, rfl⟩, hh, hne, hlive, ⟨c, hc⟩, hdir⟩ := hs
    obtain ⟨file, hfile⟩ := Option.isSome_iff_exists.1 hf
    obtain rfl := hh file hfile
    refine ⟨_, fileData_of_writeAll hfile (Disk.append_live hlive hc data), ?_, rfl⟩
    exact ⟨⟨hr, hrec, rfl⟩, hh, hne, hlive, ⟨c ++ data, by simp⟩, by simpa [hne] using hdir⟩
  | endFile =>
    obtain ⟨⟨hr, hrec, -⟩, -, hne, hlive, hpart, hdir⟩ := hs
    refine ⟨_, endFile_disk s, ?_, rfl⟩
    exact ⟨⟨hr, hrec, rfl⟩, fun _ h => (by cases h), hne, hlive, hpart, hdir⟩
  | beginDirectory rel mode mtime => cases hf
  | symlink rel target =>
    obtain ⟨hw, hh, hne, hlive, ⟨c, hc⟩, hdir⟩ := hs
    refine ⟨_, symlink_disk hlive hw.recursive hdir, ?_, rfl⟩
    exact ⟨hw, hh, hne, hlive, ⟨c, by simpa [hne.symm] using hc⟩, by simp⟩
  | endOfStream =>
    obtain ⟨⟨hr, hrec, -⟩, -, hne, hlive, hpart, hdir⟩ := hs
    refine ⟨_, closeFile_disk s, ?_, rfl⟩
    exact ⟨⟨hr, hrec, rfl⟩, fun _ h => (by cases h), hne, hlive, hpart, hdir⟩

lemma Ready.applyAll {frames : List CopyFrame} : ∀ {isOpen : Bool} {s : Sys Disk PathBuf},
    Ready ctx isOpen s → takesAll ctx.expectedOffset isOpen frames →
    ∃ s' isOpen', applyAll frames s = .ok () s' ∧ Ready ctx isOpen' s' ∧
      s'.writer.dest = s.writer.dest := by
  induction frames with
  | nil => exact fun {isOpen s} hs _ => ⟨s, isOpen, rfl, hs, rfl⟩
  | cons f fs ih =>
    intro isOpen s hs h
    obtain ⟨htake, hrest⟩ := Bool.and_eq_true_iff.1 h
    obtain ⟨t, hf, ht, hdest⟩ := hs.apply htake
    obtain ⟨s', isOpen', hfs, hs', hdest'⟩ := ih ht hrest
    exact ⟨s', isOpen', (bind_of_ok hf).trans hfs, hs', hdest'.trans hdest⟩

/-! ### The whole run -/

lemma handleFailure_renamed (F : SidecarFormat) :
    Keeps (OnFs PathBuf fun d : Disk => d.renamed = r) (handleFailure F) := by
  refine Triple.bind getWriter_keeps fun w => ?_
  cases w.resume with
  | none =>
    refine Triple.bind getWriter_keeps fun w => ?_
    refine Triple.bind (setWriter_keeps _) fun _ => ?_
    cases w.incompletePath with
    | none => exact Triple.pure fun _ h => h
    | some path => exact ignore_keeps (removeFile_renamed r path)
  | some ctx =>
    refine Triple.bind (setWriter_keeps _) fun _ => ?_
    refine Triple.bind (Q := fun _ => OnFs PathBuf fun d : Disk => d.renamed = r) ?_ fun _ => ?_
    · cases w.currentFile with
      | none => exact Triple.pure fun _ h => h
      | some file => exact ignore_keeps ((opsKeep_renamed r).flush file)
    · split_ifs
      · exact ignore_keeps (Triple.bind (create_renamed r _) fun _ => append_renamed r _ _)
      · exact Triple.pure fun _ h => h

lemma eventLoop_renamed (items : List StreamItem) :
    Keeps (OnFs PathBuf fun d : Disk => d.renamed = r) (eventLoop items) := by
  rw [eventLoop_eq]
  refine Triple.bind (applyAll_keeps (opsKeep_renamed r) _) fun _ => ?_
  cases (script items).2 with
  | none => exact Triple.pure fun _ h => h
  | some e => exact Triple.throw fun _ h => h

/-- A rename is made only after a clean exit of the loop. -/
lemma receive_renamed {F : SidecarFormat} {items : List StreamItem} (hs : s.fs.renamed = [])
    (h : (after (receive F items) s).fs.renamed ≠ []) :
    ∃ s', eventLoop items s = .ok () s' := by
  cases hl : eventLoop items s with
  | ok _ t => exact ⟨t, rfl⟩
  | error e t =>
    have hloop := (eventLoop_renamed [] items).after hs
    rw [after_error hl] at hloop
    rw [after_receive_error F hl] at h
    exact absurd ((handleFailure_renamed [] F).after hloop) h

lemma Ready.publish (hs : Ready ctx isOpen s) :
    (ctx.part, s.writer.dest) ∈ (after publish s).fs.renamed := by
  obtain ⟨⟨hr, -, -⟩, -, -, hlive, ⟨c, hc⟩, hdir⟩ := hs
  have hrename := Disk.rename_live hlive (Disk.node_of_content hc) hdir
  have hlog : (s.fs.moved ctx.part s.writer.dest (.file c)).renamed =
      s.fs.renamed ++ [(ctx.part, s.writer.dest)] := rfl
  have hkeep := (removeFile_renamed _ ctx.sidecar).after hlog
  rw [after_ok (publish_of_rename hr hrename)]
  exact hkeep ▸ List.mem_append_right _ List.mem_cons_self

/-- The disk an earlier run left: `.part` holds `e` bytes, and its sidecar says so. -/
def leftover (F : SidecarFormat) (localPath target remotePath : Str) (e : ℕ) : Disk where
  node p := if p = (downloadPartPaths localPath).1 then some (.file (List.replicate e 0))
    else if p = (downloadPartPaths localPath).2 then
      some (.file (F.toString ⟨target, remotePath, [], e, 0, 0⟩))
    else none
  budget := none
  renamed := []

lemma seedOffset_leftover (F : SidecarFormat) (localPath target remotePath : Str) (e : ℕ) :
    seedOffset F (leftover F localPath target remotePath e) localPath target remotePath = e := by
  have hne := sidecar_ne_part localPath
  rcases Nat.eq_zero_or_pos e with rfl | he
  · simp [seedOffset, seed, leftover, Disk.content, hne, F.fromStr_toString, Option.filter]
  · have : e ≠ 0 := by omega
    simp [seedOffset, seed, leftover, Disk.content, hne, F.fromStr_toString, Option.filter, this]

variable (F : SidecarFormat) (localPath target remotePath : Str)
  (items : List StreamItem)

lemma ready_leftover (e : ℕ) :
    Ready (resumeCtx localPath target remotePath e) false
      ⟨resumeWriter localPath target remotePath e, leftover F localPath target remotePath e⟩ where
  writer := ⟨rfl, rfl, rfl⟩
  handle := fun _ h => by cases h
  dest_ne := (part_ne_dest localPath).symm
  live := rfl
  part := ⟨List.replicate e 0, by simp [leftover, resumeCtx, Disk.content]⟩
  notDir := by
    simp [leftover, resumeWriter, CopyDownloadWriter.new, (part_ne_dest localPath).symm]

lemma runCopy_publishes {e : ℕ} (hexit : (script items).2 = none)
    (htakes : takesAll e false (script items).1) :
    ((downloadPartPaths localPath).1, PathBuf.ofStr localPath) ∈
      (after (runCopy F true false localPath target remotePath fun _ => items)
        (leftover F localPath target remotePath e)).renamed := by
  have hready := ready_leftover F localPath target remotePath e
  obtain ⟨s, isOpen, happly, hs, hdest⟩ := hready.applyAll htakes
  have hloop : eventLoop items ⟨resumeWriter localPath target remotePath e,
      leftover F localPath target remotePath e⟩ = .ok () s := by
    rw [eventLoop_eq, bind_of_ok happly, hexit]
    rfl
  have hpub := hs.publish
  rw [hdest] at hpub
  rw [after_runCopy_resume, seedOffset_leftover, after_receive_ok F hloop]
  exact hpub

lemma runCopy_renamed {d : Disk} (hd : d.renamed = [])
    (h : (after (runCopy F true false localPath target remotePath fun _ => items) d).renamed
      ≠ []) :
    (script items).2 = none ∧ ∃ e, takesAll e false (script items).1 := by
  rw [after_runCopy_resume] at h
  obtain ⟨s, hloop⟩ := receive_renamed hd h
  rw [eventLoop_eq] at hloop
  obtain ⟨_, t, happly, hleave⟩ := bind_ok.1 hloop
  refine ⟨?_, _, Resuming.applyAll ⟨rfl, rfl, rfl⟩ happly⟩
  cases hexit : (script items).2 with
  | none => rfl
  | some e => rw [hexit] at hleave; cases hleave

/-- **What it takes for a publication to be of a complete file.** Over every `.part` and
sidecar found on the disk, the events either make the run fail, or bring a whole file. -/
theorem publishes_only_completed_iff :
    (∀ d : Disk, d.renamed = [] →
      ((downloadPartPaths localPath).1, PathBuf.ofStr localPath) ∈
        (after (runCopy F true false localPath target remotePath fun _ => items) d).renamed →
      Completed (script items).1) ↔
    (script items).2 ≠ none ∨ (∀ e, ¬ takesAll e false (script items).1) ∨
      Completed (script items).1 := by
  constructor
  · intro h
    by_contra hno
    simp only [not_or, not_forall, not_not] at hno
    obtain ⟨hexit, ⟨e, htakes⟩, hcomplete⟩ := hno
    exact hcomplete (h _ rfl (runCopy_publishes F localPath target remotePath items hexit htakes))
  · intro h d hd hmem
    obtain ⟨hexit, e, htakes⟩ := runCopy_renamed F localPath target remotePath items hd
      (List.ne_nil_of_mem hmem)
    rcases h with h | h | h
    · exact absurd hexit h
    · exact absurd htakes (h e)
    · exact h

/-- The user declines; the bytes an earlier run left are published all the same. -/
theorem declined_run_publishes :
    let items : List StreamItem := [.message (some (.confirmRequired (some false) true true))]
    let run := runCopy SidecarJson.strict true false "f" "host" "/f"
      fun _ => items
    let found := leftover SidecarJson.strict "f" "host" "/f" 1
    (found.content (.ofStr "f") = none ∧ ¬ Completed (script items).1) ∧
      (PathBuf.ofStr "f.part", PathBuf.ofStr "f") ∈ (after run found).renamed := by
  refine ⟨⟨rfl, ?_⟩, ?_⟩
  · rintro ⟨before, _, _, _, _, _, _, _, h, -⟩
    cases before <;> cases h
  · exact runCopy_publishes SidecarJson.strict "f" "host" "/f" _ rfl rfl

end Disk

end CrossHostOps.Publish
