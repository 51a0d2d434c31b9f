import CrossHostOps.FileSystem
import CrossHostOps.Frames

/-!
`CopyDownloadWriter` of `cli/copy.rs`: the party that applies the frames of a download to
the local file system.

The writer and the file system are one state, kept when a frame is rejected, as `&mut self`
keeps it. The progress reporter is left out: nothing reads it back.
-/

namespace CrossHostOps.DownloadWriter

open Text Filepath Frames FileSystem Hoare

structure DownloadResumeCtx where
  part : PathBuf
  /-- `meta` of the source, the path of the sidecar. -/
  sidecar : PathBuf
  expectedOffset : ℕ
  target : Str
  remotePath : Str

structure CopyDownloadWriter (H : Type) where
  dest : PathBuf
  recursive : Bool
  sourceName : Str
  root : Option PathBuf
  currentFile : Option H
  /-- The file being written; cleared by `EndFile`. -/
  incompletePath : Option PathBuf
  resume : Option DownloadResumeCtx
  /-- Valid bytes of the current file: resume baseline and received. -/
  applied : ℕ
  currentSize : ℕ
  currentMtime : ℤ
  currentRelativePath : Str

def CopyDownloadWriter.new {H : Type} (dest : PathBuf) (recursive : Bool) (sourceName : Str)
    (resume : Option DownloadResumeCtx) : CopyDownloadWriter H :=
  ⟨dest, recursive, sourceName, none, none, none, resume, 0, 0, 0, []⟩

/-- How a run of the CLI fails: in the writer, or in the loop that feeds it. -/
inductive CliError
  | offsetMismatch (startOffset expected : ℕ)
  | failedToAppend (path : PathBuf) (e : IoError)
  | failedToCreate (path : PathBuf) (e : IoError)
  | dataBeforeBeginFile
  | directoryNeedsRecursive
  | failedToCreateDirectory (path : PathBuf) (e : IoError)
  | failedToCreateSymlink (path : PathBuf) (e : IoError)
  | failedToInspect (path : PathBuf) (e : IoError)
  | failedToPublish (part dest : PathBuf) (e : IoError)
  | io (e : IoError)
  | stream
  | emptyEvent
  | emptyFrame
  | daemon (message : Str)
  | prompt
  | send
  | executionId

structure Sys (σ H : Type) where
  writer : CopyDownloadWriter H
  fs : σ

abbrev Cli (σ H : Type) := EStateM CliError (Sys σ H)

variable {σ H α β : Type}

/-- An operation of the file system; `mk` is the context its error gets. -/
def io (mk : IoError → CliError) (x : EStateM IoError σ α) : Cli σ H α := fun s =>
  match x s.fs with
  | .ok a fs => .ok a { s with fs }
  | .error e fs => .error (mk e) { s with fs }

/-- `let _ = …`: the effects of `x`, whatever it answers. -/
def ignore (x : EStateM IoError σ α) : Cli σ H Unit := fun s =>
  match x s.fs with
  | .ok _ fs => .ok () { s with fs }
  | .error _ fs => .ok () { s with fs }

def getWriter : Cli σ H (CopyDownloadWriter H) := do return (← get).writer

def setWriter (w : CopyDownloadWriter H) : Cli σ H Unit := modify fun s => { s with writer := w }

@[simp] lemma getWriter_bind (f : CopyDownloadWriter H → Cli σ H β) (s : Sys σ H) :
    (getWriter >>= f) s = f s.writer s := rfl

@[simp] lemma setWriter_bind (w : CopyDownloadWriter H) (f : Unit → Cli σ H β) (s : Sys σ H) :
    (setWriter w >>= f) s = f () { s with writer := w } := rfl

variable {x : EStateM IoError σ α} {mk : IoError → CliError} {fs : σ}

lemma io_ok {s : Sys σ H} {a : α} (h : x s.fs = .ok a fs) : io mk x s = .ok a { s with fs } := by
  rw [io, h]

lemma io_error {s : Sys σ H} {e : IoError} (h : x s.fs = .error e fs) :
    io mk x s = .error (mk e) { s with fs } := by
  rw [io, h]

lemma ignore_eq (x : EStateM IoError σ α) (s : Sys σ H) :
    ignore x s = .ok () { s with fs := after x s.fs } := by
  unfold ignore after
  cases x s.fs <;> rfl

section

variable {I : σ → Prop}

/-- `I` of the file system alone. -/
abbrev OnFs (H : Type) (I : σ → Prop) : Sys σ H → Prop := fun s => I s.fs

lemma getWriter_keeps : Keeps (OnFs H I) getWriter := fun _ h => h

lemma setWriter_keeps (w : CopyDownloadWriter H) : Keeps (OnFs H I) (setWriter w) := fun _ h => h

lemma io_keeps {x : EStateM IoError σ α} (hx : Keeps I x) (mk : IoError → CliError) :
    Keeps (OnFs H I) (io mk x) := by
  intro s hs
  have h := hx s.fs hs
  unfold io
  cases hxs : x s.fs <;> rw [hxs] at h <;> exact h

lemma ignore_keeps {x : EStateM IoError σ α} (hx : Keeps I x) :
    Keeps (OnFs H I) (ignore x) := by
  intro s hs
  have h := hx s.fs hs
  unfold ignore
  cases hxs : x s.fs <;> rw [hxs] at h <;> exact h

end

variable [LocalFs σ H]

def downloadRoot : Cli σ H PathBuf := do
  let w ← getWriter
  match w.root with
  | some root => pure root
  | none =>
    let isDir ← io (.failedToInspect w.dest) (LocalFs.pathIsExistingDir w.dest)
    let root := if isDir then
        w.dest.join (.ofStr (nonEmptyName w.sourceName "download"))
      else w.dest
    setWriter { w with root := some root }
    pure root

def destinationForSingleEntry (relativePath : Str) : Cli σ H PathBuf := do
  let w ← getWriter
  let isDir ← io (.failedToInspect w.dest) (LocalFs.pathIsExistingDir w.dest)
  if isDir then
    pure (w.dest.join (.ofStr (copyEntryName relativePath w.sourceName "download")))
  else pure w.dest

/-- `destination_for_file`, and the same choice made for a symlink. -/
def destinationForFile (relativePath : Str) : Cli σ H PathBuf := do
  if (← getWriter).recursive then
    let root ← downloadRoot
    pure (joinRelativePath root relativePath)
  else destinationForSingleEntry relativePath

def createParent (path : PathBuf) : Cli σ H Unit :=
  match path.parent with
  | some parent => if parent = ⟨false, []⟩ then pure () else io .io (LocalFs.createDirAll parent)
  | none => pure ()

/-- `mode != 0`: a failed `chmod` is only logged. -/
def applyMode (path : PathBuf) (mode : ℕ) : Cli σ H Unit :=
  if mode ≠ 0 then ignore (LocalFs.applyMode path mode) else pure ()

/-- Opening the `.part` of a resumable download. -/
def openPart (ctx : DownloadResumeCtx) (startOffset : ℕ) : Cli σ H H :=
  if startOffset > 0 then
    if startOffset = ctx.expectedOffset then
      io (.failedToAppend ctx.part) (LocalFs.openAppend ctx.part)
    else throw (.offsetMismatch startOffset ctx.expectedOffset)
  else io (.failedToCreate ctx.part) (LocalFs.create ctx.part)

/-- Path, handle and baseline of a `BeginFile`. Outside resume mode the start offset is
not looked at: the file is created afresh. -/
def openFile (relativePath : Str) (mode startOffset : ℕ) : Cli σ H (PathBuf × H × ℕ) := do
  match (← getWriter).resume with
  | some ctx =>
    let file ← openPart ctx startOffset
    pure (ctx.part, file, startOffset)
  | none =>
    let path ← destinationForFile relativePath
    createParent path
    let file ← io (.failedToCreate path) (LocalFs.create path)
    applyMode path mode
    pure (path, file, 0)

def beginFile (relativePath : Str) (mode size : ℕ) (mtime : ℤ) (startOffset : ℕ) :
    Cli σ H Unit := do
  let (path, file, baseline) ← openFile relativePath mode startOffset
  let w ← getWriter
  setWriter { w with
    applied := baseline
    currentSize := size
    currentMtime := mtime
    currentRelativePath := relativePath
    currentFile := some file
    incompletePath := some path }

def fileData (data : Bytes) : Cli σ H Unit := do
  match (← getWriter).currentFile with
  | none => throw .dataBeforeBeginFile
  | some file =>
    io .io (LocalFs.writeAll file data)
    let w ← getWriter
    setWriter { w with applied := w.applied + data.length }

/-- `current_file.take()` and a flush. -/
def closeFile : Cli σ H Unit := do
  let w ← getWriter
  setWriter { w with currentFile := none }
  match w.currentFile with
  | some file => io .io (LocalFs.flush file)
  | none => pure ()

def endFile : Cli σ H Unit := do
  closeFile
  let w ← getWriter
  setWriter { w with incompletePath := none }

def beginDirectory (relativePath : Str) (mode : ℕ) : Cli σ H Unit := do
  if (← getWriter).recursive then
    let root ← downloadRoot
    let path := joinRelativePath root relativePath
    io (.failedToCreateDirectory path) (LocalFs.createDirAll path)
    applyMode path mode
  else throw .directoryNeedsRecursive

def symlink (relativePath target : Str) : Cli σ H Unit := do
  let path ← destinationForFile relativePath
  createParent path
  ignore (LocalFs.removeFile path)
  io (.failedToCreateSymlink path) (LocalFs.createSymlink (.ofStr target) path)

def apply : CopyFrame → Cli σ H Unit
  | .beginFile relativePath mode size mtime startOffset =>
    beginFile relativePath mode size mtime startOffset
  | .fileData data => fileData data
  | .endFile => endFile
  | .beginDirectory relativePath mode _ => beginDirectory relativePath mode
  | .symlink relativePath target => symlink relativePath target
  | .endOfStream => closeFile

/-- Frames are applied in order, up to the first that is rejected. -/
def applyAll : List CopyFrame → Cli σ H Unit
  | [] => pure ()
  | f :: fs => do apply f; applyAll fs

lemma applyAll_append (fs gs : List CopyFrame) :
    (applyAll (fs ++ gs) : Cli σ H Unit) = applyAll fs >>= fun _ => applyAll gs := by
  induction fs with
  | nil => rfl
  | cons f fs ih => simp [applyAll, ih]

lemma applyAll_append_of_ok {fs : List CopyFrame} {s t : Sys σ H} (h : applyAll fs s = .ok () t)
    (gs : List CopyFrame) : applyAll (fs ++ gs) s = applyAll gs t := by
  rw [applyAll_append, bind_of_ok h]

lemma applyAll_append_of_error {fs : List CopyFrame} {s t : Sys σ H} {e : CliError}
    (h : applyAll fs s = .error e t) (gs : List CopyFrame) :
    applyAll (fs ++ gs) s = .error e t := by
  rw [applyAll_append, bind_of_error h]

/-! ### Frames that go through -/

section Runs

variable {ctx : DownloadResumeCtx} {s t : Sys σ H} {file : H}

/-- The writer after a `BeginFile` that opened `file` at `path`. -/
def CopyDownloadWriter.begun (w : CopyDownloadWriter H) (path : PathBuf) (file : H)
    (baseline size : ℕ) (mtime : ℤ) (relativePath : Str) : CopyDownloadWriter H :=
  { w with
    applied := baseline
    currentSize := size
    currentMtime := mtime
    currentRelativePath := relativePath
    currentFile := some file
    incompletePath := some path }

variable {rel : Str} {mode size start : ℕ} {mtime : ℤ} {data : Bytes} {fs : σ}

lemma beginFile_of_openFile {baseline : ℕ} {path : PathBuf}
    (h : openFile rel mode start s = .ok (path, file, baseline) t) :
    apply (.beginFile rel mode size mtime start) s =
      .ok () { t with writer := t.writer.begun path file baseline size mtime rel } := by
  rw [apply, beginFile, bind_of_ok h]
  rfl

lemma beginFile_of_openPart (hr : s.writer.resume = some ctx)
    (h : openPart ctx start s = .ok file t) :
    apply (.beginFile rel mode size mtime start) s =
      .ok () { t with writer := t.writer.begun ctx.part file start size mtime rel } := by
  refine beginFile_of_openFile ?_
  simp only [openFile, getWriter_bind, hr, bind_of_ok h]
  rfl

lemma beginFile_of_openPart_error (hr : s.writer.resume = some ctx) {e : CliError}
    (h : openPart ctx start s = .error e t) :
    apply (.beginFile rel mode size mtime start) s = .error e t := by
  simp only [apply, beginFile, openFile, bind_assoc, getWriter_bind, hr]
  exact bind_of_error h

lemma fileData_of_writeAll (hf : s.writer.currentFile = some file)
    (h : LocalFs.writeAll file data s.fs = .ok () fs) :
    apply (.fileData data) s =
      .ok () ⟨{ s.writer with applied := s.writer.applied + data.length }, fs⟩ := by
  simp only [apply, fileData, getWriter_bind, hf, bind_of_ok (io_ok h)]
  rfl

lemma fileData_of_writeAll_error {e : IoError} (hf : s.writer.currentFile = some file)
    (h : LocalFs.writeAll file data s.fs = .error e fs) :
    apply (.fileData data) s = .error (.io e) { s with fs } := by
  simp only [apply, fileData, getWriter_bind, hf]
  exact bind_of_error (io_error h)

end Runs

/-! ### What the frames keep -/

section Keeps

/-- The operations the frames call keep `I`; `rename` is not among them. -/
structure OpsKeep (I : σ → Prop) : Prop where
  pathIsExistingDir : ∀ p, Keeps I (LocalFs.pathIsExistingDir p : EStateM IoError σ Bool)
  createDirAll : ∀ p, Keeps I (LocalFs.createDirAll p : EStateM IoError σ Unit)
  create : ∀ p, Keeps I (LocalFs.create p : EStateM IoError σ H)
  openAppend : ∀ p, Keeps I (LocalFs.openAppend p : EStateM IoError σ H)
  writeAll : ∀ h data, Keeps I (LocalFs.writeAll h data : EStateM IoError σ Unit)
  flush : ∀ h, Keeps I (LocalFs.flush h : EStateM IoError σ Unit)
  applyMode : ∀ p m, Keeps I (LocalFs.applyMode p m : EStateM IoError σ Unit)
  removeFile : ∀ p, Keeps I (LocalFs.removeFile p : EStateM IoError σ Unit)
  createSymlink : ∀ t p, Keeps I (LocalFs.createSymlink t p : EStateM IoError σ Unit)

variable {I : σ → Prop}

variable (ops : OpsKeep (H := H) I)
include ops

lemma downloadRoot_keeps : Keeps (OnFs H I) downloadRoot := by
  refine Triple.bind getWriter_keeps fun w => ?_
  cases w.root with
  | some root => exact Triple.pure fun _ h => h
  | none =>
    refine Triple.bind (io_keeps (ops.pathIsExistingDir _) _) fun isDir => ?_
    exact Triple.bind (setWriter_keeps _) fun _ => Triple.pure fun _ h => h

lemma destinationForFile_keeps (rel : Str) : Keeps (OnFs H I) (destinationForFile rel) := by
  refine Triple.bind getWriter_keeps fun w => ?_
  cases w.recursive with
  | true => exact Triple.bind (downloadRoot_keeps ops) fun _ => Triple.pure fun _ h => h
  | false =>
    refine Triple.bind getWriter_keeps fun w => ?_
    refine Triple.bind (io_keeps (ops.pathIsExistingDir _) _) fun isDir => ?_
    cases isDir <;> exact Triple.pure fun _ h => h

lemma createParent_keeps (path : PathBuf) : Keeps (OnFs H I) (createParent path) := by
  unfold createParent
  split
  · split
    · exact Triple.pure fun _ h => h
    · exact io_keeps (ops.createDirAll _) _
  · exact Triple.pure fun _ h => h

lemma applyMode_keeps (path : PathBuf) (mode : ℕ) : Keeps (OnFs H I) (applyMode path mode) := by
  unfold applyMode
  split
  · exact ignore_keeps (ops.applyMode _ _)
  · exact Triple.pure fun _ h => h

lemma openFile_keeps (rel : Str) (mode start : ℕ) :
    Keeps (OnFs H I) (openFile rel mode start) := by
  refine Triple.bind getWriter_keeps fun w => ?_
  cases w.resume with
  | some ctx =>
    refine Triple.bind (Q := fun _ => OnFs H I) ?_ fun file => Triple.pure fun _ h => h
    unfold openPart
    split
    · split
      · exact io_keeps (ops.openAppend _) _
      · exact Triple.throw fun _ h => h
    · exact io_keeps (ops.create _) _
  | none =>
    refine Triple.bind (destinationForFile_keeps ops _) fun path => ?_
    refine Triple.bind (createParent_keeps ops _) fun _ => ?_
    refine Triple.bind (io_keeps (ops.create _) _) fun file => ?_
    exact Triple.bind (applyMode_keeps ops _ _) fun _ => Triple.pure fun _ h => h

lemma closeFile_keeps : Keeps (OnFs H I) closeFile := by
  refine Triple.bind getWriter_keeps fun w => ?_
  refine Triple.bind (setWriter_keeps _) fun _ => ?_
  cases w.currentFile with
  | some file => exact io_keeps (ops.flush _) _
  | none => exact Triple.pure fun _ h => h

/-- What the operations keep, every frame keeps. -/
lemma apply_keeps (f : CopyFrame) : Keeps (OnFs H I) (apply f) := by
  cases f with
  | beginFile rel mode size mtime start =>
    refine Triple.bind (openFile_keeps ops _ _ _) fun ⟨path, file, baseline⟩ => ?_
    exact Triple.bind getWriter_keeps fun w => setWriter_keeps _
  | fileData data =>
    refine Triple.bind getWriter_keeps fun w => ?_
    cases w.currentFile with
    | none => exact Triple.throw fun _ h => h
    | some file =>
      refine Triple.bind (io_keeps (ops.writeAll _ _) _) fun _ => ?_
      exact Triple.bind getWriter_keeps fun w => setWriter_keeps _
  | endFile =>
    refine Triple.bind (closeFile_keeps ops) fun _ => ?_
    exact Triple.bind getWriter_keeps fun w => setWriter_keeps _
  | beginDirectory rel mode mtime =>
    refine Triple.bind getWriter_keeps fun w => ?_
    cases w.recursive with
    | true =>
      refine Triple.bind (downloadRoot_keeps ops) fun root => ?_
      exact Triple.bind (io_keeps (ops.createDirAll _) _) fun _ => applyMode_keeps ops _ _
    | false => exact Triple.throw fun _ h => h
  | symlink rel target =>
    refine Triple.bind (destinationForFile_keeps ops _) fun path => ?_
    refine Triple.bind (createParent_keeps ops _) fun _ => ?_
    refine Triple.bind (ignore_keeps (ops.removeFile _)) fun _ => ?_
    exact io_keeps (ops.createSymlink _ _) _
  | endOfStream => exact closeFile_keeps ops

lemma applyAll_keeps (fs : List CopyFrame) : Keeps (OnFs H I) (applyAll fs) := by
  induction fs with
  | nil => exact Triple.pure fun _ h => h
  | cons f fs ih => exact Triple.bind (apply_keeps ops f) fun _ => ih

end Keeps

end CrossHostOps.DownloadWriter
