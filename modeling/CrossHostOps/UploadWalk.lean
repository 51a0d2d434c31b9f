import CrossHostOps.Filepath
import CrossHostOps.Frames

/-!
`send_path_copy_frames` of `cli/copy.rs`: the frames in which a local source is uploaded. The walk
sends them as it goes, and ends at the first error.
-/

namespace CrossHostOps.UploadWalk

open Text Filepath Frames

/-! ### A source as the walk finds it -/

structure Metadata where
  mode : ℕ
  size : ℕ
  mtime : ℤ

inductive ReadError
  | open
  | seek
  | read

/-- The pieces that are read from an offset on, and the error in which reading ends. -/
abbrev Reading := ℕ → List Bytes × Option ReadError

mutual

/-- An entry; `other` is neither a file, a directory nor a symbolic link. -/
inductive Entry
  | file (metadata : Metadata) (reading : Reading)
  | symlink (metadata : Metadata) (target : Option PathBuf) (reading : Reading)
  | directory (metadata : Metadata) (readable : Bool) (listing : Listing)
  | other (metadata : Metadata) (reading : Reading)

/-- What `next_entry` yields. The walk is over where that fails, and where an entry is `gone` before
it is inspected. -/
inductive Listing
  | done
  | failed (error : Str)
  | gone (name : Str)
  | entry (name : Str) (entry : Entry) (rest : Listing)

end

def Entry.metadata : Entry → Metadata
  | .file metadata _ | .symlink metadata _ _ => metadata
  | .directory metadata _ _ | .other metadata _ => metadata

def Entry.reading : Entry → Reading
  | .file _ reading | .symlink _ _ reading | .other _ reading => reading
  | .directory _ _ _ => fun _ => ([], some .read)

/-! ### The walk -/

/-- What was sent, and the error that ended it. -/
structure Walk where
  frames : List CopyFrame
  error : Option Str

namespace Walk

def sends (frames : List CopyFrame) : Walk := ⟨frames, none⟩

def fails (error : Str) : Walk := ⟨[], some error⟩

/-- Nothing follows an error. -/
def andThen (w w' : Walk) : Walk :=
  match w.error with
  | some error => ⟨w.frames, some error⟩
  | none => ⟨w.frames ++ w'.frames, w'.error⟩

instance : Append Walk := ⟨andThen⟩

end Walk

def context (what : String) (path : PathBuf) : Str := what.toList ++ path.display

def relativePathToString (path : PathBuf) : Except Str Str :=
  match (NormalizedPath.fromLocal path).validateRelative with
  | .error (.absolute p) => .error ("copy frame relative path must not be absolute: " ++ p)
  | .error (.parentDir p) => .error ("copy frame relative path must not contain `..`: " ++ p)
  | .ok () => .ok (NormalizedPath.fromLocal path).toStringNormalized

def ReadError.context : ReadError → PathBuf → Str
  | .open => UploadWalk.context "failed to open "
  | .seek => UploadWalk.context "failed to seek "
  | .read => UploadWalk.context "failed to read "

/-- The loop over the pieces of a file. -/
def dataFrames (path : PathBuf) (pieces : List Bytes × Option ReadError) : Walk :=
  ⟨pieces.1.map .fileData, pieces.2.map fun e => e.context path⟩

def sendPathEntryFrameWithMetadata (path relative : PathBuf) (entry : Entry) : Walk :=
  match relativePathToString relative with
  | .error e => .fails e
  | .ok relativePath =>
    match entry with
    | .symlink _ none _ => .fails (context "failed to read symlink " path)
    | .symlink _ (some target) _ =>
      .sends [.symlink relativePath (NormalizedPath.fromLocal target).toStringNormalized]
    | .directory metadata _ _ => .sends [.beginDirectory relativePath metadata.mode metadata.mtime]
    | .other _ _ => .fails (context "unsupported file type for copy: " path)
    | .file metadata reading =>
      .sends [.beginFile relativePath metadata.mode metadata.size metadata.mtime 0] ++
        dataFrames path (reading 0) ++ .sends [.endFile]

/-- A file from the byte `skip` on. -/
def sendPathEntryFrameFrom (path relative : PathBuf) (entry : Entry) (skip : ℕ) : Walk :=
  let metadata := entry.metadata
  if skip ≤ metadata.size then
    match relativePathToString relative with
    | .error e => .fails e
    | .ok relativePath =>
      .sends [.beginFile relativePath metadata.mode metadata.size metadata.mtime skip] ++
        dataFrames path (entry.reading skip) ++ .sends [.endFile]
  else
    .fails ("resume offset " ++ showNat skip ++ " beyond local file size " ++
      showNat metadata.size)

/-- The entries of one directory. -/
def listingFrames (path relative : PathBuf) : Listing → Walk
  | .done => .sends []
  | .failed error => .fails error
  | .gone name => .fails (context "failed to inspect " (path.push name))
  | .entry name entry rest =>
    sendPathEntryFrameWithMetadata (path.push name) (relative.push name) entry ++
      listingFrames path relative rest

mutual

/-- What is sent of a directory when it is taken from the stack, with all below it. -/
def sendDirectoryContentsFrames (path relative : PathBuf) : Entry → Walk
  | .directory _ true listing =>
    listingFrames path relative listing ++ subdirectoryFrames path relative listing
  | .directory _ false _ => .fails (context "failed to read directory " path)
  | .file .. | .symlink .. | .other .. => .sends []

/-- The directories that a listing leaves on the stack: the last comes off it first. -/
def subdirectoryFrames (path relative : PathBuf) : Listing → Walk
  | .entry name entry rest =>
    subdirectoryFrames path relative rest ++
      sendDirectoryContentsFrames (path.push name) (relative.push name) entry
  | .done | .failed _ | .gone _ => .sends []

end

/-- `root` is missing when it cannot be inspected. What follows without an error, the end of the
stream, is left to the sender. -/
def sendPathCopyFrames (localPath : PathBuf) (recursive : Bool) (skip : ℕ) : Option Entry → Walk
  | none => .fails (context "failed to inspect " localPath)
  | some root =>
    match root with
    | .directory metadata readable listing =>
      if recursive then
        .sends [.beginDirectory [] metadata.mode metadata.mtime] ++
          sendDirectoryContentsFrames localPath ⟨false, []⟩ (.directory metadata readable listing)
      else .fails (localPath.display ++ " is a directory; use -r to copy directories")
    | entry =>
      match localPath.fileName with
      | none => .fails (context "failed to derive basename from " localPath)
      | some name =>
        if 0 < skip then sendPathEntryFrameFrom localPath ⟨false, [name]⟩ entry skip
        else sendPathEntryFrameWithMetadata localPath ⟨false, [name]⟩ entry

/-! ### The end of the stream is no frame of a walk -/

namespace Walk

def Unended (w : Walk) : Prop := .endOfStream ∉ w.frames

variable {w w' : Walk}

@[simp] lemma unended_fails (error : Str) : (fails error).Unended := List.not_mem_nil

@[simp] lemma unended_sends {frames : List CopyFrame} :
    (sends frames).Unended ↔ .endOfStream ∉ frames := .rfl

lemma Unended.append (h : w.Unended) (h' : w'.Unended) : (w ++ w').Unended := by
  have happend : w ++ w' = w.andThen w' := rfl
  rw [happend, andThen]
  split
  · exact h
  · exact fun hmem => (List.mem_append.1 hmem).elim h h'

end Walk

lemma unended_dataFrames (path : PathBuf) (pieces : List Bytes × Option ReadError) :
    (dataFrames path pieces).Unended := by
  simp [Walk.Unended, dataFrames]

lemma unended_file (path : PathBuf) (pieces : List Bytes × Option ReadError) {relativePath : Str}
    {mode size skip : ℕ} {mtime : ℤ} :
    (Walk.sends [.beginFile relativePath mode size mtime skip] ++ dataFrames path pieces ++
      Walk.sends [.endFile]).Unended := by
  refine .append (.append ?_ (unended_dataFrames path pieces)) ?_
  · simp
  · simp

lemma unended_entry (path relative : PathBuf) (entry : Entry) :
    (sendPathEntryFrameWithMetadata path relative entry).Unended := by
  unfold sendPathEntryFrameWithMetadata
  split
  · exact Walk.unended_fails _
  · split
    · exact Walk.unended_fails _
    · simp
    · simp
    · exact Walk.unended_fails _
    · exact unended_file path _

lemma unended_entryFrom (path relative : PathBuf) (entry : Entry) (skip : ℕ) :
    (sendPathEntryFrameFrom path relative entry skip).Unended := by
  unfold sendPathEntryFrameFrom
  dsimp only
  split
  · split
    · exact Walk.unended_fails _
    · exact unended_file path _
  · exact Walk.unended_fails _

lemma unended_listing (path relative : PathBuf) :
    ∀ listing, (listingFrames path relative listing).Unended
  | .done => by simp [listingFrames]
  | .failed error => Walk.unended_fails error
  | .gone name => Walk.unended_fails _
  | .entry name entry rest =>
    (unended_entry _ _ entry).append (unended_listing path relative rest)

mutual

lemma unended_directory (path relative : PathBuf) :
    ∀ entry, (sendDirectoryContentsFrames path relative entry).Unended
  | .directory _ true listing =>
    (unended_listing path relative listing).append (unended_subdirectories path relative listing)
  | .directory _ false _ => Walk.unended_fails _
  | .file .. | .symlink .. | .other .. => by simp [sendDirectoryContentsFrames]

lemma unended_subdirectories (path relative : PathBuf) :
    ∀ listing, (subdirectoryFrames path relative listing).Unended
  | .entry name entry rest =>
    (unended_subdirectories path relative rest).append (unended_directory _ _ entry)
  | .done | .failed _ | .gone _ => by simp [subdirectoryFrames]

end

/-- **No walk sends the end of the stream**, whatever it finds. -/
theorem unended_sendPathCopyFrames (localPath : PathBuf) (recursive : Bool) (skip : ℕ)
    (root : Option Entry) : (sendPathCopyFrames localPath recursive skip root).Unended := by
  unfold sendPathCopyFrames
  split
  · exact Walk.unended_fails _
  · split
    · split
      · refine .append ?_ (unended_directory _ _ _)
        simp
      · exact Walk.unended_fails _
    · split
      · exact Walk.unended_fails _
      · split
        · exact unended_entryFrom _ _ _ skip
        · exact unended_entry _ _ _

end CrossHostOps.UploadWalk
