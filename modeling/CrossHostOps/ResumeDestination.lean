import CrossHostOps.ResumeUpload
import CrossHostOps.ShellUpload
import CrossHostOps.WirePaths

/-!
Where an upload with `--resume` goes: `probe_upload_resume` of `daemon/session/sftp_copy.rs` and of
`daemon/session/shell_copy.rs` resolves the destination of a single file, and the upload resolves
what it is left with once more.
-/

namespace CrossHostOps.ResumeDestination

open Text Filepath Containment WirePaths RemoteOperands Sftp ShellUpload List
open SftpUpload (remotePathIsDir entryPath)
open ResumeUpload (nameInside uploadSpec resolveRoot)

/-! ### The two ways -/

/-- The path that a client sends for a single file. -/
def framePath (sourceName : Str) : Str := pathToString (.ofStr sourceName)

def normalize (remotePath : Str) : Str := (NormalizedPath.fromStr remotePath).toStringNormalized

section Sftp

variable (node : Str → Option Node) (sourceName remotePath : Str)

def isDirNode : Bool := node (normalize remotePath) = some .dir

def server : Server := ⟨node, fun _ => .granted, []⟩

/-- The path whose partial the probe looks at, and with which the upload goes on. -/
def sftpProbe : Option Str :=
  match resolveRoot (uploadSpec remotePath sourceName []) (server node) with
  | .ok spec _ => some spec.remotePath
  | .error _ _ => none

/-- The file inside a directory, as the probe writes it. -/
def probedInside : Str :=
  pathToString ((PathBuf.ofStr remotePath).join (.ofStr (nameInside sourceName)))

/-- The file inside a directory, as the upload writes it. -/
def sentInside : Str :=
  ((NormalizedPath.fromStr remotePath).join
    (copyEntryName (framePath sourceName) sourceName "copy")).toStringNormalized

def sftpDest : Option Str :=
  match remotePathIsDir (.fromStr remotePath) (server node) with
  | .ok isDir _ =>
    some (entryPath (uploadSpec remotePath sourceName []) (.fromStr remotePath) isDir
      (framePath sourceName)).toStringNormalized
  | .error _ _ => none

end Sftp

section Shell

variable (plain : Str → Str × ℤ) (sourceName remotePath : Str)

def shell : Shell.PtyShell where
  plain command := .ok (plain command)
  raw command := .ok (plain command)
  rawB64 _ _ := ([], .ok 0)

def tellsDir : Bool := contains "XHO_DIR" (plain (testDirCommand remotePath)).1

/-- The file inside a directory. -/
def shellInside : Str := joinRemote remotePath (nameInside sourceName)

def shellProbe : Option Str :=
  (resolveUploadDest (shell plain) (uploadSpec remotePath sourceName [])).toOption

def shellDest : Option Str :=
  (shellProbe plain sourceName remotePath).map fun root =>
    resolveUploadPath root (framePath sourceName) false

end Shell

/-- The upload behind the probe goes where the upload without it goes, and the partial that was
probed is the one it appends to. -/
def Unchanged (tmpPath : Str → Str) (probe dest : Str → Option Str) (remotePath : Str) : Prop :=
  ∃ root final, probe remotePath = some root ∧ dest remotePath = some final ∧
    dest root = some final ∧ tmpPath root = tmpPath final

/-! ### Where the probe and the upload go -/

lemma unchanged_iff {tmpPath : Str → Str} (htmp : Function.Injective tmpPath)
    {probe dest : Str → Option Str} {remotePath root final : Str}
    (hprobe : probe remotePath = some root) (hdest : dest remotePath = some final) :
    Unchanged tmpPath probe dest remotePath ↔ root = final ∧ dest final = some final := by
  constructor
  · rintro ⟨root', final', hroot, hfinal, hagain, hsame⟩
    obtain rfl := Option.some_inj.1 (hprobe.symm.trans hroot)
    obtain rfl := Option.some_inj.1 (hdest.symm.trans hfinal)
    have heq := htmp hsame
    exact ⟨heq, heq ▸ hagain⟩
  · rintro ⟨rfl, hagain⟩
    exact ⟨_, _, hprobe, hdest, hagain, rfl⟩

section Sftp

variable (node : Str → Option Node) (sourceName remotePath : Str)

lemma remotePathIsDir_server : remotePathIsDir (.fromStr remotePath) (server node) =
    .ok (isDirNode node remotePath) (server node) := by
  have hstat : SftpServer.metadata (H := Handle)
      (NormalizedPath.fromStr remotePath).toStringNormalized (server node) =
      Server.request (Server.statOp (normalize remotePath)) (server node) := rfl
  rw [remotePathIsDir, hstat, isDirNode]
  cases hnode : node (normalize remotePath) with
  | none => simp [Server.request, Server.statOp, server, Server.tick, hnode]
  | some n =>
    cases n <;>
      simp [Server.request, Server.statOp, server, Server.tick, hnode, Node.metadata]

lemma sftpProbe_eq : sftpProbe node sourceName remotePath =
    some (if isDirNode node remotePath then probedInside sourceName remotePath
      else remotePath) := by
  have hroot := remotePathIsDir_server node remotePath
  rw [sftpProbe]
  cases hdir : isDirNode node remotePath with
  | true =>
    rw [hdir] at hroot
    have hinside : resolveRoot (uploadSpec remotePath sourceName []) (server node) =
        .ok (uploadSpec _ sourceName []) (server node) := Hoare.bind_of_ok hroot
    rw [hinside]
    rfl
  | false =>
    rw [hdir] at hroot
    have hitself : resolveRoot (uploadSpec remotePath sourceName []) (server node) =
        .ok (uploadSpec remotePath sourceName []) (server node) := Hoare.bind_of_ok hroot
    rw [hitself]
    rfl

lemma sftpDest_eq : sftpDest node sourceName remotePath =
    some (if isDirNode node remotePath then sentInside sourceName remotePath
      else normalize remotePath) := by
  rw [sftpDest, remotePathIsDir_server]
  simp only [entryPath, uploadSpec, normalize, sentInside]
  split_ifs <;> simp_all

end Sftp

section Shell

variable (plain : Str → Str × ℤ) (sourceName remotePath : Str)

lemma shellProbe_eq : shellProbe plain sourceName remotePath =
    some (if tellsDir plain remotePath then shellInside sourceName remotePath
      else remotePath) := by
  have hout : Shell.runAndCapture (shell plain) (testDirCommand remotePath) =
      .ok (plain (testDirCommand remotePath)).1 := rfl
  simp only [shellProbe, resolveUploadDest, uploadSpec, hout, Except.map, Except.toOption,
    Bool.false_eq_true, shellInside, nameInside, tellsDir]
  by_cases hnil : lastPiece '/' (trimEndMatches '/' sourceName) = []
  · simp only [hnil, ne_eq, not_true_eq_false, if_true, if_false]
  · simp only [hnil, ne_eq, not_false_eq_true, if_true, if_false]

lemma shellDest_eq : shellDest plain sourceName remotePath =
    shellProbe plain sourceName remotePath := by
  simp [shellDest, resolveUploadPath]

end Shell

/-! ### When nothing changes -/

/-- A slash behind the path of a directory does no harm. -/
example :
    probedInside "f" "/tmp/" = "/tmp/f".toList ∧ sentInside "f" "/tmp/" = "/tmp/f".toList := by
  decide +kernel

end CrossHostOps.ResumeDestination
