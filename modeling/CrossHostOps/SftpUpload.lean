import CrossHostOps.Filepath
import CrossHostOps.Frames
import CrossHostOps.Sftp

/-!
`upload` of `daemon/session/sftp_copy.rs`: the frames of an upload, applied to an SFTP server.

A file is written beside its destination and moved there at its `EndFile`. The frame channel
is the list of the frames that arrive before it is closed.
-/

namespace CrossHostOps.SftpUpload

open Text Filepath Frames Hoare Sftp List

inductive UploadError
  | beganBeforeEnd
  | dataBeforeBeginFile
  | endBeforeBeginFile
  | directoryNeedsRecursive
  | endedBeforeEndFile
  | failedToOpenPartial (tmp : Str) (e : SftpError)
  | failedToSeekPartial (tmp : Str) (e : SftpError)
  | failedToCreate (tmp : Str) (e : SftpError)
  | failedToPublish (dest : Str) (e : SftpError)
  | failedToCreateDir (path : Str) (e : SftpError)
  | failedToCreateSymlink (path : Str) (e : SftpError)
  | sftp (e : SftpError)
  deriving DecidableEq

/-- The locals of the loop, and the server. -/
structure Receiver (σ H : Type) where
  currentFile : Option H
  currentDest : Option Str
  server : σ

abbrev Upload (σ H : Type) := EStateM UploadError (Receiver σ H)

variable {σ H α β : Type}

/-- A request; `mk` is the context its error gets. -/
def call (mk : SftpError → UploadError) (x : EStateM SftpError σ α) : Upload σ H α := fun r =>
  match x r.server with
  | .ok a t => .ok a { r with server := t }
  | .error e t => .error (mk e) { r with server := t }

/-- A request whose error is looked at. -/
def attempt (x : EStateM SftpError σ α) : Upload σ H (Except SftpError α) := fun r =>
  match x r.server with
  | .ok a t => .ok (.ok a) { r with server := t }
  | .error e t => .ok (.error e) { r with server := t }

variable {x : EStateM SftpError σ α} {mk : SftpError → UploadError} {r : Receiver σ H} {a : α}
  {e : SftpError}

lemma call_ok {t : σ} (h : x r.server = .ok a t) : call mk x r = .ok a { r with server := t } := by
  rw [call, h]

lemma call_error {t : σ} (h : x r.server = .error e t) :
    call mk x r = .error (mk e) { r with server := t } := by
  rw [call, h]

lemma after_call (x : EStateM SftpError σ α) (mk : SftpError → UploadError) (r : Receiver σ H) :
    after (call mk x) r = { r with server := after x r.server } := by
  cases hx : x r.server with
  | ok a t => rw [after_ok (call_ok hx), after_ok hx]
  | error e t => rw [after_error (call_error hx), after_error hx]

lemma attempt_ok {t : σ} (h : x r.server = .ok a t) :
    attempt x r = .ok (.ok a) { r with server := t } := by
  rw [attempt, h]

lemma attempt_error {t : σ} (h : x r.server = .error e t) :
    attempt x r = .ok (.error e) { r with server := t } := by
  rw [attempt, h]

lemma attempt_eq (x : EStateM SftpError σ α) (r : Receiver σ H) :
    ∃ a, attempt x r = .ok a { r with server := after x r.server } := by
  cases hx : x r.server with
  | ok a t => exact ⟨.ok a, by rw [attempt_ok hx, after_ok hx]⟩
  | error e t => exact ⟨.error e, by rw [attempt_error hx, after_error hx]⟩

lemma call_triple {P E : σ → Prop} {Q : α → σ → Prop} (hx : Triple P x Q fun _ => E)
    (mk : SftpError → UploadError) :
    Triple (fun r : Receiver σ H => P r.server) (call mk x) (fun a r => Q a r.server)
      fun _ r => E r.server := by
  intro r hr
  have h := hx r.server hr
  unfold call
  cases hxs : x r.server <;> rw [hxs] at h <;> exact h

def tmpSuffix : Str := ".xho_tmp"

/-- Where the data of `dest` goes until it is complete. -/
def tmpPath (dest : Str) : Str := dest ++ tmpSuffix

lemma length_tmpPath (dest : Str) : (tmpPath dest).length = dest.length + 8 :=
  length_append

/-- A path and those above it, shortest first; a relative path has no empty one. -/
def ancestors (path : NormalizedPath) : List NormalizedPath :=
  ((List.range (path.segments.length + 1)).map fun n =>
    { path with segments := path.segments.take n }).filter fun p =>
      p.segments ≠ [] ∨ p.isAbsolute

/-! A path is longer than those above it, so making those never touches it. -/

lemma length_intercalate (c : Char) (ls : List Str) :
    (List.intercalate [c] ls).length = (ls.map List.length).sum + (ls.length - 1) := by
  induction ls with
  | nil => rfl
  | cons l ls ih =>
    rcases ls with _ | ⟨l', ls⟩
    · simp
    · have hcons : intercalate [c] (l :: l' :: ls) = l ++ [c] ++ intercalate [c] (l' :: ls) := by
        simp
      rw [hcons, length_append, ih]
      simp
      omega

lemma length_flatMap_slash (ls : List Str) :
    (ls.flatMap fun seg => '/' :: seg).length = (ls.map List.length).sum + ls.length := by
  induction ls with
  | nil => rfl
  | cons l ls ih =>
    simp only [flatMap_cons, length_append, map_cons, sum_cons, length_cons]
    omega

/-- The root apart, a proper ancestor has a shorter name. -/
lemma length_take_lt {path : NormalizedPath} {n : ℕ} (hn : n < path.segments.length)
    (hne : path.segments.take n ≠ [] ∨ path.isAbsolute)
    (hroot : ({ path with segments := path.segments.take n } : NormalizedPath).toStringNormalized ≠
      ['/']) :
    ({ path with segments := path.segments.take n } : NormalizedPath).toStringNormalized.length <
      path.toStringNormalized.length := by
  have hsum : ((path.segments.take n).map length).sum ≤
      (path.segments.map length).sum := by
    conv_rhs => rw [← take_append_drop n path.segments, map_append, sum_append]
    omega
  have hlen : (path.segments.take n).length = n := by rw [length_take]; omega
  obtain ⟨segments, kind⟩ := path
  simp only [NormalizedPath.toStringNormalized, NormalizedPath.isAbsolute] at *
  cases kind with
  | windowsDrive drive =>
    simp only [length_cons, length_flatMap_slash]
    omega
  | absolute =>
    have hpos : segments.take n ≠ [] := by
      intro h
      simp [h] at hroot
    have := length_pos_iff.2 hpos
    simp only [length_cons, length_intercalate]
    omega
  | relative =>
    have hpos : segments.take n ≠ [] := by simpa using hne
    have := length_pos_iff.2 hpos
    simp only [length_intercalate]
    omega

/-- What `create_remote_dirs` may make for the parent of a path is shorter than the path. -/
lemma length_ancestor_lt {path parent : NormalizedPath} (hparent : path.parent = some parent)
    {q : Str} (hq : q ∈ (ancestors parent).map (·.toStringNormalized)) (hroot : q ≠ ['/']) :
    q.length < path.toStringNormalized.length := by
  unfold NormalizedPath.parent at hparent
  split_ifs at hparent with hnil
  cases hparent
  have hpos := length_pos_iff.2 hnil
  simp only [ancestors, mem_map, mem_filter, mem_range, length_dropLast] at hq
  obtain ⟨p, ⟨⟨n, hn, rfl⟩, hne⟩, rfl⟩ := hq
  have htake : path.segments.dropLast.take n = path.segments.take n := by
    rw [dropLast_eq_take, take_take, min_eq_left (by omega)]
  simp only [htake] at hne hroot ⊢
  exact length_take_lt (by omega) (of_decide_eq_true hne) hroot

variable [SftpServer σ H]

def createEach : List Str → Upload σ H Unit
  | [] => pure ()
  | path :: rest => do
    if path = [] ∨ path = ['/'] then createEach rest
    else if ← call .sftp (tryExists path) then createEach rest
    else
      call (.failedToCreateDir path) (SftpServer.createDir path)
      createEach rest

def createRemoteDirs (path : NormalizedPath) : Upload σ H Unit :=
  createEach ((ancestors path).map (·.toStringNormalized))

def createParent (path : NormalizedPath) : Upload σ H Unit :=
  match path.parent with
  | some parent => createRemoteDirs parent
  | none => pure ()

def remotePathIsDir (path : NormalizedPath) : EStateM SftpError σ Bool := fun s =>
  match SftpServer.metadata path.toStringNormalized s with
  | .ok m t => .ok m.isDir t
  | .error _ t => .ok false t

def entryPath (spec : CopySpec) (root : NormalizedPath) (rootIsDir : Bool) (relativePath : Str) :
    NormalizedPath :=
  if spec.recursive then root.join relativePath
  else if rootIsDir then root.join (copyEntryName relativePath spec.sourceName "copy")
  else root

/-- How much of the partial is kept: the offset of the frame, if the partial still has just
that length. -/
def resumeSkip (tmp : Str) (size startOffset : ℕ) : Upload σ H ℕ :=
  if min startOffset size > 0 then do
    match ← attempt (SftpServer.metadata tmp) with
    | .ok m => if m.len = min startOffset size then pure (min startOffset size) else pure 0
    | .error _ => pure 0
  else pure 0

def openPartial (tmp : Str) (skip : ℕ) : Upload σ H H :=
  if skip > 0 then do
    let file ← call (.failedToOpenPartial tmp) (SftpServer.openWrite tmp)
    call (.failedToSeekPartial tmp) (SftpServer.seek file skip)
  else call (.failedToCreate tmp) (SftpServer.create tmp)

def beginFile (path : NormalizedPath) (size startOffset : ℕ) : Upload σ H Unit := do
  if (← get).currentFile.isSome then throw .beganBeforeEnd
  else
    createParent path
    let dest := path.toStringNormalized
    let skip ← resumeSkip (tmpPath dest) size startOffset
    let file ← openPartial (tmpPath dest) skip
    modify fun r => { r with currentFile := some file, currentDest := some dest }

def fileData (data : Bytes) : Upload σ H Unit := do
  match (← get).currentFile with
  | none => throw .dataBeforeBeginFile
  | some file =>
    let file ← call .sftp (SftpServer.writeAll file data)
    modify fun r => { r with currentFile := some file }

/-- Rename does not overwrite: the old destination goes first, if there is one. -/
def publish (dest : Str) : Upload σ H Unit := do
  let _ ← attempt (SftpServer.removeFile dest)
  call (.failedToPublish dest) (SftpServer.rename (tmpPath dest) dest)

def endFile : Upload σ H Unit := do
  match (← get).currentFile with
  | none => throw .endBeforeBeginFile
  | some file =>
    modify fun r => { r with currentFile := none }
    call .sftp (SftpServer.shutdown file)
    match (← get).currentDest with
    | none => throw .endBeforeBeginFile
    | some dest =>
      modify fun r => { r with currentDest := none }
      publish dest

def symlink (path : NormalizedPath) (target : Str) : Upload σ H Unit := do
  createParent path
  let link := path.toStringNormalized
  let _ ← attempt (SftpServer.removeFile link)
  call (.failedToCreateSymlink link) (SftpServer.symlink link target)

/-- One frame; `EndOfStream` is taken by the loop. -/
def uploadFrame (spec : CopySpec) (root : NormalizedPath) (rootIsDir : Bool) :
    CopyFrame → Upload σ H Unit
  | .beginFile relativePath _ size _ startOffset =>
    beginFile (entryPath spec root rootIsDir relativePath) size startOffset
  | .fileData data => fileData data
  | .endFile => endFile
  | .beginDirectory relativePath _ _ =>
    if spec.recursive then createRemoteDirs (root.join relativePath)
    else throw .directoryNeedsRecursive
  | .symlink relativePath target => symlink (entryPath spec root rootIsDir relativePath) target
  | .endOfStream => pure ()

/-- `EndOfStream` and a closed channel end the loop alike. -/
def uploadLoop (spec : CopySpec) (root : NormalizedPath) (rootIsDir : Bool) :
    List CopyFrame → Upload σ H Unit
  | [] => pure ()
  | .endOfStream :: _ => pure ()
  | frame :: rest => do uploadFrame spec root rootIsDir frame; uploadLoop spec root rootIsDir rest

/-- After the loop, a file that is still open is an error. -/
def finish : Upload σ H Unit := do
  if (← get).currentFile.isSome then throw .endedBeforeEndFile else pure ()

def upload (spec : CopySpec) (frames : List CopyFrame) : EStateM UploadError σ Unit := fun s =>
  let root := NormalizedPath.fromStr spec.remotePath
  match remotePathIsDir root s with
  | .error e t => .error (.sftp e) t
  | .ok isDir t =>
    match (uploadLoop spec root isDir frames >>= fun _ => finish : Upload σ H Unit) ⟨none, none, t⟩
      with
    | .ok _ r => .ok () r.server
    | .error e r => .error e r.server

/-! ### What the steps leave -/

lemma publish_eq (dest : Str) (r : Receiver σ H) :
    publish dest r = call (.failedToPublish dest) (SftpServer.rename (tmpPath dest) dest)
      { r with server := after (SftpServer.removeFile (H := H) dest) r.server } := by
  obtain ⟨a, ha⟩ := attempt_eq (SftpServer.removeFile dest) r
  exact bind_of_ok ha

variable {spec : CopySpec} {frames : List CopyFrame} {s t : σ} {isDir : Bool}

lemma upload_of_ok (hdir : remotePathIsDir (.fromStr spec.remotePath) s = .ok isDir t)
    {r : Receiver σ H} (hloop : uploadLoop spec (.fromStr spec.remotePath) isDir frames
      ⟨none, none, t⟩ = .ok () r) (hclosed : r.currentFile = none) :
    upload spec frames s = .ok () r.server := by
  have hfinish : finish r = .ok () r := by
    simp only [finish, get_bind, hclosed]
    rfl
  simp [upload, hdir, bind_of_ok hloop, hfinish]

lemma upload_of_error (hdir : remotePathIsDir (.fromStr spec.remotePath) s = .ok isDir t)
    {r : Receiver σ H} {e : UploadError} (hloop : uploadLoop spec (.fromStr spec.remotePath) isDir
      frames ⟨none, none, t⟩ = .error e r) :
    upload spec frames s = .error e r.server := by
  simp [upload, hdir, bind_of_error hloop]

end CrossHostOps.SftpUpload
