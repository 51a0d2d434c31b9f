import CrossHostOps.Filepath
import CrossHostOps.Frames

/-!
`download` of `daemon/session/sftp_copy.rs`: the frames the daemon makes of a remote file or
tree. What is sent before an error stays sent.
-/

namespace CrossHostOps.SftpDownload

open Text Filepath Frames

/-- What `symlink_metadata`, `read_dir` and reading tell about a remote path. -/
inductive RemoteNode
  | file (permissions mtime : Option ℕ) (content : Bytes)
  | dir (entries : List (Str × RemoteNode))
  | symlink (target : Str)
  | other

inductive DownloadError
  | requiresRecursive
  | unsupportedFileType (path : Str)

/-- Frames sent, and the error that stopped the sender. -/
abbrev Sent := List CopyFrame × Option DownloadError

/-- Sending on, unless stopped. -/
def Sent.andThen (a : Sent) (b : Sent) : Sent :=
  match a.2 with
  | none => (a.1 ++ b.1, b.2)
  | some _ => a

/-- `metadata.mtime.map(i64::from).unwrap_or(0)`. -/
def mtimeOf (mtime : Option ℕ) : ℤ := (mtime.getD 0 : ℕ)

variable (reads : Reads)

/-- The frames of a regular file, read from `startOffset` on. -/
def fileFrames (relativePath : Str) (permissions mtime : Option ℕ) (content : Bytes)
    (startOffset : ℕ) : List CopyFrame :=
  .beginFile relativePath (permissions.getD 0) content.length (mtimeOf mtime) startOffset ::
    ((reads.cut (content.drop startOffset)).map .fileData ++ [.endFile])

mutual

def sendRemoteEntryFrame (remotePath relativePath : NormalizedPath) (startOffset : ℕ) :
    RemoteNode → Sent
  | .dir entries =>
    Sent.andThen ([.beginDirectory relativePath.toStringNormalized 0 0], none)
      (sendRemoteEntries remotePath relativePath entries)
  | .symlink target => ([.symlink relativePath.toStringNormalized target], none)
  | .other => ([], some (.unsupportedFileType remotePath.toStringNormalized))
  | .file permissions mtime content =>
    (fileFrames reads relativePath.toStringNormalized permissions mtime content startOffset, none)

/-- The loop of `send_remote_dir_frames`. -/
def sendRemoteEntries (remoteRoot relativeRoot : NormalizedPath) :
    List (Str × RemoteNode) → Sent
  | [] => ([], none)
  | (fileName, node) :: rest =>
    if fileName = dot ∨ fileName = dotdot then sendRemoteEntries remoteRoot relativeRoot rest
    else
      Sent.andThen
        (sendRemoteEntryFrame (remoteRoot.join fileName) (relativeRoot.join fileName) 0 node)
        (sendRemoteEntries remoteRoot relativeRoot rest)

end

/-- The offset a hint gives, when it is about this very file. -/
def resumeStart (resume : List ResumeEntry) (relativePath : Str) (size : ℕ) (mtime : ℤ) : ℕ :=
  (((resume.find? (·.relativePath = relativePath)).filter fun e =>
    e.size = size ∧ e.mtime = mtime ∧ e.offset > 0 ∧ e.offset ≤ size).map (·.offset)).getD 0

def downloadInner (spec : CopySpec) (node : RemoteNode) : Sent :=
  let remote := NormalizedPath.fromStr spec.remotePath
  let relativePath := copyEntryName [] spec.sourceName "copy"
  Sent.andThen
    (match node with
    | .dir _ =>
      if spec.recursive then sendRemoteEntryFrame reads remote (.fromStr []) 0 node
      else ([], some .requiresRecursive)
    | .file _ mtime content =>
      sendRemoteEntryFrame reads remote (.fromStr relativePath)
        (resumeStart spec.resume relativePath content.length (mtimeOf mtime)) node
    | _ => sendRemoteEntryFrame reads remote (.fromStr relativePath) 0 node)
    ([.endOfStream], none)

/-- The start offset is 0 or the offset of a hint with the size and mtime of the file. -/
lemma resumeStart_cases (resume : List ResumeEntry) (relativePath : Str) (size : ℕ) (mtime : ℤ) :
    resumeStart resume relativePath size mtime = 0 ∨
      ∃ e ∈ resume, resumeStart resume relativePath size mtime = e.offset ∧ e.size = size ∧
        e.mtime = mtime ∧ 0 < e.offset ∧ e.offset ≤ size := by
  unfold resumeStart
  cases hfind : resume.find? (·.relativePath = relativePath) with
  | none => exact .inl rfl
  | some e =>
    by_cases h : e.size = size ∧ e.mtime = mtime ∧ e.offset > 0 ∧ e.offset ≤ size
    · refine .inr ⟨e, List.mem_of_find?_eq_some hfind, ?_, h⟩
      simp [Option.filter, h]
    · left
      simp [Option.filter, h]

/-- A regular file is sent as one file, from the offset its hint gives. -/
lemma downloadInner_file (spec : CopySpec) (permissions mtime : Option ℕ) (content : Bytes) :
    downloadInner reads spec (.file permissions mtime content) =
      (fileFrames reads (NormalizedPath.fromStr
          (copyEntryName [] spec.sourceName "copy")).toStringNormalized permissions mtime
        content (resumeStart spec.resume (copyEntryName [] spec.sourceName "copy")
          content.length (mtimeOf mtime)) ++ [.endOfStream], none) := rfl

end CrossHostOps.SftpDownload
