import CrossHostOps.B64
import CrossHostOps.Filepath
import CrossHostOps.Frames
import CrossHostOps.Hoare
import CrossHostOps.Shell

/-!
`upload` of `daemon/session/shell_copy.rs`: the frames of an upload, turned into commands of a
remote shell.

The exit code of a receiver is looked at, those of the other commands are not. The frame
channel is the list of the frames that arrive before it is closed.
-/

namespace CrossHostOps.ShellUpload

open Text Filepath Frames Hoare Shell B64
open List hiding contains

inductive Command
  | mkdir (dir : Str)
  | ln (target link : Str)
  /-- Decodes `wireLen` bytes of its input into the partial. -/
  | receiver (wireLen : ℕ) (append : Bool) (tmp : Str)
  | chmod (perm : ℕ) (tmp : Str)
  | touch (mtime : ℤ) (tmp : Str)
  | mv (tmp dest : Str)
  deriving DecidableEq

/-- The command line; the markers around it are those of the runner. -/
def Command.text : Command → Str
  | .mkdir dir => "mkdir -p ".toList ++ shellQuote dir
  | .ln target link => "ln -sf ".toList ++ shellQuote target ++ " ".toList ++ shellQuote link
  | .receiver wireLen append tmp =>
    "head -c ".toList ++ showNat wireLen ++ " | base64 -d ".toList ++
      (if append then ">>".toList else ">".toList) ++ " ".toList ++ shellQuote tmp ++
      " 2>/dev/null".toList
  | .chmod perm tmp => "chmod ".toList ++ Nat.toDigits 8 perm ++ " ".toList ++ shellQuote tmp
  | .touch mtime tmp => "touch -d @".toList ++ showInt mtime ++ " ".toList ++ shellQuote tmp
  | .mv tmp dest => "mv ".toList ++ shellQuote tmp ++ " ".toList ++ shellQuote dest

def Command.isReceiver : Command → Bool
  | .receiver .. => true
  | _ => false

inductive UploadError
  | pty (message : Str)
  | unexpectedFrame (frame : CopyFrame)
  | closedInFile
  | receiverFailed (code : ℤ)
  | sizeMismatch (expected sent : ℕ)
  | wireLengthMismatch (expected sent : ℕ)
  | dataOutsideFile
  | endWithoutBegin
  | directoryNeedsRecursive
  deriving DecidableEq

/-- The PTY of an upload. -/
structure Terminal where
  /-- The shell before and after the frames. -/
  shell : PtyShell
  /-- The answer to the `n`-th command in raw mode, by its text and the bytes fed to it: its exit
  code, or an error of the PTY. -/
  answer : ℕ → Str → Bytes → Except Str ℤ
  /-- The commands that came back so far, with their exit codes. -/
  issued : List (Command × ℤ)

abbrev Upload := EStateM UploadError Terminal

def exec (cmd : Command) (input : Bytes) : Upload ℤ := fun s =>
  match s.answer s.issued.length cmd.text input with
  | .ok code => .ok code { s with issued := s.issued ++ [(cmd, code)] }
  | .error e => .error (.pty e) s

/-- `run_shell_command_raw`: the exit code is dropped. -/
def runShellCommandRaw (cmd : Command) : Upload Unit := do
  let _ ← exec cmd []
  pure ()

/-- What the feeder did: the bytes it sent to the receiver; and the frames it left, how many
bytes of data it took and how many it counted on the wire. -/
structure Fed where
  wire : Bytes
  result : Except UploadError (List CopyFrame × ℕ × ℕ)

def feed (encoder : B64Encoder) (totalSent : ℕ) (wire : Bytes) : List CopyFrame → Fed
  | .fileData data :: frames =>
    feed (encoder.encode data).2 (totalSent + data.length) (wire ++ (encoder.encode data).1) frames
  | .endFile :: frames =>
    ⟨wire ++ encoder.finish.1, .ok (frames, totalSent, encoder.finish.2.encodedTotal)⟩
  | [] => ⟨wire, .error .closedInFile⟩
  | frame :: _ => ⟨wire, .error (.unexpectedFrame frame)⟩

/-- The wire bytes of chunks of data, and the encoder after them. -/
def encodeAll (encoder : B64Encoder) : List Bytes → Bytes × B64Encoder
  | [] => encoder.finish
  | data :: chunks =>
    ((encoder.encode data).1 ++ (encodeAll (encoder.encode data).2 chunks).1,
      (encodeAll (encoder.encode data).2 chunks).2)

lemma feed_chunks (rest : List CopyFrame) :
    ∀ (chunks : List Bytes) (encoder : B64Encoder) (totalSent : ℕ) (wire : Bytes),
    feed encoder totalSent wire (chunks.map .fileData ++ .endFile :: rest) =
      ⟨wire ++ (encodeAll encoder chunks).1,
        .ok (rest, totalSent + chunks.flatten.length, (encodeAll encoder chunks).2.encodedTotal)⟩
  | [], _, _, _ => rfl
  | data :: chunks, encoder, totalSent, wire => by
    rw [List.map_cons, List.cons_append, feed, feed_chunks rest chunks]
    simp [encodeAll, Nat.add_assoc]

/-- A feeder that succeeds has read data up to the end of the file. -/
lemma feed_ok {rest : List CopyFrame} {total wireSent : ℕ} :
    ∀ {frames : List CopyFrame} {encoder : B64Encoder} {totalSent : ℕ} {wire : Bytes},
    (feed encoder totalSent wire frames).result = .ok (rest, total, wireSent) →
    ∃ chunks : List Bytes, frames = chunks.map .fileData ++ .endFile :: rest
  | [], _, _, _, h => by cases h
  | .fileData data :: frames, _, _, _, h => by
    obtain ⟨chunks, rfl⟩ := feed_ok (show (feed _ _ _ frames).result = _ from h)
    exact ⟨data :: chunks, rfl⟩
  | .endFile :: frames, _, _, _, h => by
    cases h
    exact ⟨[], rfl⟩
  | .beginFile .. :: _, _, _, _, h => by cases h
  | .beginDirectory .. :: _, _, _, _, h => by cases h
  | .symlink .. :: _, _, _, _, h => by cases h
  | .endOfStream :: _, _, _, _, h => by cases h

lemma encodedTotal_encodeAll :
    ∀ (chunks : List Bytes) {encoder : B64Encoder} {n : ℕ}, encoder.Taken n →
    (encodeAll encoder chunks).2.encodedTotal = wireLenFor (n + chunks.flatten.length)
  | [], _, _, h => h.finish
  | data :: chunks, _, _, h => by
    rw [encodeAll, encodedTotal_encodeAll chunks (h.encode data)]
    simp [Nat.add_assoc]

def tmpPath (dest : Str) : Str := dest ++ ".xho_tmp"

def joinRemote (root relative : Str) : Str :=
  ((NormalizedPath.fromStr root).join relative).toStringNormalized

def resolveUploadPath (remoteRoot relativePath : Str) (recursive : Bool) : Str :=
  if !recursive ∨ relativePath = [] then remoteRoot else joinRemote remoteRoot relativePath

/-- Sets mode and mtime, where they are known, and moves the partial. -/
def finalizeUpload (tmp dest : Str) (mode : ℕ) (mtime : ℤ) : Upload Unit := do
  let perm := mode &&& 0o7777
  if perm ≠ 0 then runShellCommandRaw (.chmod perm tmp)
  if mtime ≠ 0 then runShellCommandRaw (.touch mtime tmp)
  runShellCommandRaw (.mv tmp dest)

/-- `upload_single_file_streaming`: returns the frames after the file. -/
def uploadSingleFileStreaming (dest : Str) (size mode : ℕ) (mtime : ℤ) (frames : List CopyFrame)
    (skip : ℕ) : Upload { rest : List CopyFrame // rest.length ≤ frames.length } := do
  let tmp := tmpPath dest
  let remaining := size - skip
  let wireLen := wireLenFor remaining
  let fed := feed .new 0 [] frames
  let code ← exec (.receiver wireLen (decide (skip > 0)) tmp) fed.wire
  match h : fed.result with
  | .error e => throw e
  | .ok (rest, totalSent, wireSent) =>
    if code ≠ 0 then throw (.receiverFailed code)
    else if totalSent ≠ remaining then throw (.sizeMismatch remaining totalSent)
    else if wireSent ≠ wireLen then throw (.wireLengthMismatch wireLen wireSent)
    else do
      finalizeUpload tmp dest mode mtime
      pure ⟨rest, by
        obtain ⟨chunks, hframes⟩ := feed_ok h
        simp only [hframes, List.length_append, List.length_cons]
        omega⟩

/-- `EndOfStream` and a closed channel end the loop alike. -/
def uploadLoop (remoteRoot : Str) (recursive : Bool) : List CopyFrame → Upload Unit
  | [] => pure ()
  | .beginFile relativePath mode size mtime startOffset :: frames => do
    let rest ← uploadSingleFileStreaming (resolveUploadPath remoteRoot relativePath recursive) size
      mode mtime frames (min startOffset size)
    uploadLoop remoteRoot recursive rest.1
  | .fileData _ :: _ => throw .dataOutsideFile
  | .endFile :: _ => throw .endWithoutBegin
  | .beginDirectory relativePath _ _ :: frames =>
    if recursive then do
      runShellCommandRaw (.mkdir
        (if relativePath = [] then remoteRoot else joinRemote remoteRoot relativePath))
      uploadLoop remoteRoot recursive frames
    else throw .directoryNeedsRecursive
  | .symlink relativePath target :: frames => do
    runShellCommandRaw (.ln target (resolveUploadPath remoteRoot relativePath recursive))
    uploadLoop remoteRoot recursive frames
  | .endOfStream :: _ => pure ()
termination_by frames => frames.length
decreasing_by
  · have := rest.2
    simp only [List.length_cons]
    omega
  · simp
  · simp

def testDirCommand (remotePath : Str) : Str :=
  "test -d " ++ shellQuote remotePath ++ " && echo XHO_DIR"

/-- `resolve_upload_dest`: a single file lands inside a directory. Returns the new
`remote_path`. -/
def resolveUploadDest (sh : PtyShell) (spec : CopySpec) : Except Str Str :=
  if spec.recursive then .ok spec.remotePath
  else
    (runAndCapture sh (testDirCommand spec.remotePath)).map fun out =>
      if contains "XHO_DIR" out then
        let name := lastPiece '/' (trimEndMatches '/' spec.sourceName)
        joinRemote spec.remotePath (if name = [] then "upload" else name)
      else spec.remotePath

def ofShell {α : Type} (x : PtyShell → Except Str α) : Upload α := fun s =>
  match x s.shell with
  | .ok a => .ok a s
  | .error e => .error (.pty e) s

def upload (spec : CopySpec) (frames : List CopyFrame) : Upload Unit := do
  let remotePath ← ofShell (resolveUploadDest · spec)
  ofShell rawGuardEnter
  uploadLoop remotePath spec.recursive frames
  ofShell rawGuardComplete

/-! ### The plan of a stream -/

/-- What a stream is made of: a file is its `BeginFile`, its data and its `EndFile`. -/
inductive Entry
  | file (relativePath : Str) (mode size : ℕ) (mtime : ℤ) (startOffset : ℕ) (chunks : List Bytes)
  | dir (relativePath : Str) (mode : ℕ) (mtime : ℤ)
  | link (relativePath target : Str)

/-- A command, and what is fed to it. -/
abbrev Step := Command × Bytes

namespace Entry

def frames : Entry → List CopyFrame
  | file relativePath mode size mtime startOffset chunks =>
    .beginFile relativePath mode size mtime startOffset :: (chunks.map .fileData ++ [.endFile])
  | dir relativePath mode mtime => [.beginDirectory relativePath mode mtime]
  | link relativePath target => [.symlink relativePath target]

/-- The loop takes the entry: a file brings the bytes it still lacks. -/
def Accepted (recursive : Bool) : Entry → Prop
  | file _ _ size _ startOffset chunks => chunks.flatten.length = size - min startOffset size
  | dir .. => recursive = true
  | link .. => True

/-- The commands after the data of a file. -/
def finalPlan (tmp dest : Str) (mode : ℕ) (mtime : ℤ) : List Step :=
  (if mode &&& 0o7777 ≠ 0 then [(.chmod (mode &&& 0o7777) tmp, [])] else []) ++
    ((if mtime ≠ 0 then [(.touch mtime tmp, [])] else []) ++ [(.mv tmp dest, [])])

/-- The commands the entry calls for. -/
def plan (remoteRoot : Str) (recursive : Bool) : Entry → List Step
  | file relativePath mode size mtime startOffset chunks =>
    let dest := resolveUploadPath remoteRoot relativePath recursive
    let tmp := tmpPath dest
    let skip := min startOffset size
    (.receiver (wireLenFor (size - skip)) (decide (skip > 0)) tmp, (encodeAll .new chunks).1) ::
      finalPlan tmp dest mode mtime
  | dir relativePath _ _ =>
    [(.mkdir (if relativePath = [] then remoteRoot else joinRemote remoteRoot relativePath), [])]
  | link relativePath target =>
    [(.ln target (resolveUploadPath remoteRoot relativePath recursive), [])]

end Entry

/-- A plan, carried out: only the exit codes of receivers count. -/
def runPlan : List Step → Upload Unit
  | [] => pure ()
  | (cmd, input) :: steps => do
    let code ← exec cmd input
    if cmd.isReceiver ∧ code ≠ 0 then throw (.receiverFailed code) else runPlan steps

lemma runPlan_append (steps steps' : List Step) :
    runPlan (steps ++ steps') = runPlan steps >>= fun _ => runPlan steps' := by
  induction steps with
  | nil => rfl
  | cons step steps ih =>
    simp only [cons_append, runPlan, bind_assoc]
    congr 1
    funext code
    split_ifs
    · rfl
    · exact ih

variable {cmd : Command} {e : Entry} {s : Terminal} {input : Bytes} {steps : List Step}

lemma runPlan_plain (h : cmd.isReceiver = false) :
    runPlan [(cmd, [])] = runShellCommandRaw cmd := by
  simp [runPlan, runShellCommandRaw, h]

lemma finalizeUpload_eq (tmp dest : Str) (mode : ℕ) (mtime : ℤ) :
    finalizeUpload tmp dest mode mtime = runPlan (Entry.finalPlan tmp dest mode mtime) := by
  rw [Entry.finalPlan]
  unfold finalizeUpload
  by_cases hmode : mode &&& 0o7777 = 0 <;> by_cases hmtime : mtime = 0 <;>
    simp [hmode, hmtime, runShellCommandRaw, Command.isReceiver, runPlan]

/-- A file in the loop, without the bound on what is left. -/
lemma uploadLoop_beginFile (remoteRoot : Str) (recursive : Bool) (relativePath : Str)
    (mode size : ℕ) (mtime : ℤ) (startOffset : ℕ) (frames : List CopyFrame) :
    uploadLoop remoteRoot recursive
      (.beginFile relativePath mode size mtime startOffset :: frames) = (do
        let dest := resolveUploadPath remoteRoot relativePath recursive
        let remaining := size - min startOffset size
        let fed := feed .new 0 [] frames
        let code ← exec (.receiver (wireLenFor remaining) (decide (min startOffset size > 0))
          (tmpPath dest)) fed.wire
        match fed.result with
        | .error e => throw e
        | .ok (rest, totalSent, wireSent) =>
          if code ≠ 0 then throw (.receiverFailed code)
          else if totalSent ≠ remaining then throw (.sizeMismatch remaining totalSent)
          else if wireSent ≠ wireLenFor remaining then
            throw (.wireLengthMismatch (wireLenFor remaining) wireSent)
          else do
            finalizeUpload (tmpPath dest) dest mode mtime
            uploadLoop remoteRoot recursive rest) := by
  rw [uploadLoop, uploadSingleFileStreaming]
  simp only [bind_assoc]
  congr 1
  funext code
  split
  · rename_i h
    simp [h]
    rfl
  · rename_i h
    simp only [h]
    split_ifs
    · rfl
    · rfl
    · rfl
    · simp

/-- **A stream is its plan**: an entry the loop takes is carried out by its commands, and the
loop goes on behind it. -/
lemma uploadLoop_entry {recursive : Bool} (remoteRoot : Str) (he : e.Accepted recursive)
    (frames : List CopyFrame) :
    uploadLoop remoteRoot recursive (e.frames ++ frames) =
      runPlan (e.plan remoteRoot recursive) >>=
        fun _ => uploadLoop remoteRoot recursive frames := by
  cases e with
  | dir relativePath mode mtime =>
    simp only [Entry.frames, cons_append, uploadLoop]
    exact if_pos he
  | link relativePath target =>
    rw [Entry.plan, runPlan_plain rfl]
    simp [Entry.frames, uploadLoop]
  | file relativePath mode size mtime startOffset chunks =>
    have hframes : (Entry.file relativePath mode size mtime startOffset chunks).frames ++ frames =
        .beginFile relativePath mode size mtime startOffset ::
          (chunks.map .fileData ++ .endFile :: frames) := by
      simp [Entry.frames]
    have htotal : (encodeAll .new chunks).2.encodedTotal =
        wireLenFor (size - min startOffset size) := by
      rw [encodedTotal_encodeAll chunks B64Encoder.taken_new, Nat.zero_add, he]
    have hlen : 0 + chunks.flatten.length = size - min startOffset size := by
      rw [Nat.zero_add]
      exact he
    rw [hframes, uploadLoop_beginFile, Entry.plan, runPlan, bind_assoc]
    simp only [feed_chunks, htotal, hlen, finalizeUpload_eq]
    refine congrArg _ (funext fun code => ?_)
    by_cases hcode : code = 0
    · simp [hcode]
    · rw [if_pos hcode, if_pos ⟨rfl, hcode⟩]
      rfl

/-! ### Streams the loop takes -/

/-- A stream of entries the loop takes, up to an `EndOfStream` or the end of the channel. -/
structure Delivers (recursive : Bool) (entries : List Entry) (frames : List CopyFrame) : Prop where
  accepted : ∀ e ∈ entries, e.Accepted recursive
  ends : ∃ rest, frames = entries.flatMap Entry.frames ++ rest ∧
    (rest = [] ∨ rest.head? = some .endOfStream)

/-- All commands a list of entries calls for. -/
def planOf (remoteRoot : Str) (recursive : Bool) (entries : List Entry) : List Step :=
  entries.flatMap (Entry.plan remoteRoot recursive)

variable {remoteRoot : Str} {recursive : Bool} {entries : List Entry} {frames : List CopyFrame}

lemma Delivers.cons (he : e.Accepted recursive) (h : Delivers recursive entries frames) :
    Delivers recursive (e :: entries) (e.frames ++ frames) := by
  obtain ⟨hall, rest, rfl, hrest⟩ := h
  refine ⟨?_, rest, by simp, hrest⟩
  rintro x hx
  rcases mem_cons.1 hx with rfl | hx
  · exact he
  · exact hall x hx

lemma uploadLoop_delivers (remoteRoot : Str) (h : Delivers recursive entries frames) :
    uploadLoop remoteRoot recursive frames = runPlan (planOf remoteRoot recursive entries) := by
  obtain ⟨hall, rest, rfl, hrest⟩ := h
  induction entries with
  | nil =>
    rcases rest with _ | ⟨frame, rest⟩
    · simp [uploadLoop, planOf, runPlan]
    · obtain rfl : frame = .endOfStream := by simpa using hrest
      simp [uploadLoop, planOf, runPlan]
  | cons e entries ih =>
    have he := hall e (by simp)
    have hrec := ih fun x hx => hall x (by simp [hx])
    have hplan : planOf remoteRoot recursive (e :: entries) =
        e.plan remoteRoot recursive ++ planOf remoteRoot recursive entries := rfl
    rw [flatMap_cons, append_assoc, uploadLoop_entry remoteRoot he, hrec, hplan, runPlan_append]

/-- No other stream passes. -/
lemma delivers_of_ok {t : Terminal} (h : uploadLoop remoteRoot recursive frames s = .ok () t) :
    ∃ entries, Delivers recursive entries frames := by
  -- by the recursion of the loop: after a file it goes on with what the feeder left
  induction hn : frames.length using Nat.strong_induction_on generalizing frames s with
  | _ n ih =>
    subst hn
    rcases frames with _ | ⟨frame, frames⟩
    · exact ⟨[], by simp, [], rfl, .inl rfl⟩
    cases frame with
    | endOfStream => exact ⟨[], by simp, _, rfl, .inr rfl⟩
    | fileData | endFile => rw [uploadLoop] at h; cases h
    | beginDirectory relativePath mode mtime =>
      rw [uploadLoop] at h
      by_cases hrec : recursive
      · rw [if_pos hrec] at h
        obtain ⟨_, t', -, h⟩ := bind_ok.1 h
        obtain ⟨entries, hd⟩ := ih _ (by simp) h rfl
        exact ⟨_, hd.cons (e := .dir relativePath mode mtime) hrec⟩
      · rw [if_neg hrec] at h
        cases h
    | symlink relativePath target =>
      rw [uploadLoop] at h
      obtain ⟨_, t', -, h⟩ := bind_ok.1 h
      obtain ⟨entries, hd⟩ := ih _ (by simp) h rfl
      exact ⟨_, hd.cons (e := .link relativePath target) trivial⟩
    | beginFile relativePath mode size mtime startOffset =>
      rw [uploadLoop_beginFile] at h
      obtain ⟨code, t', -, h⟩ := bind_ok.1 h
      cases hfed : (feed .new 0 [] frames).result with
      | error e => rw [hfed] at h; cases h
      | ok r =>
        obtain ⟨chunks, rfl⟩ := feed_ok hfed
        simp only [feed_chunks] at h
        split_ifs at h with hcode hsize hwire
        · cases h
        · cases h
        · cases h
        · obtain ⟨_, t'', -, h⟩ := bind_ok.1 h
          obtain ⟨entries, hd⟩ := ih _ (by simp; omega) h rfl
          refine ⟨.file relativePath mode size mtime startOffset chunks :: entries, ?_⟩
          have hcons := hd.cons (e := .file relativePath mode size mtime startOffset chunks)
            (by rw [Nat.zero_add, not_not] at hsize; exact hsize)
          simpa [Entry.frames] using hcons

/-! ### Exit codes -/

/-- From the `n`-th command on, every command of a plan comes back, with a code that `P` allows
for it. -/
def Answered (answer : ℕ → Str → Bytes → Except Str ℤ) (P : Command → ℤ → Prop) :
    ℕ → List Step → Prop
  | _, [] => True
  | n, (cmd, input) :: steps =>
    (∃ code, answer n cmd.text input = .ok code ∧ P cmd code) ∧ Answered answer P (n + 1) steps

/-- The codes the loop insists on. -/
def Checked (cmd : Command) (code : ℤ) : Prop := cmd.isReceiver → code = 0

lemma exec_ok {code : ℤ} (h : s.answer s.issued.length cmd.text input = .ok code) :
    exec cmd input s = .ok code { s with issued := s.issued ++ [(cmd, code)] } := by
  rw [exec, h]

lemma exec_error {e : Str} (h : s.answer s.issued.length cmd.text input = .error e) :
    exec cmd input s = .error (.pty e) s := by
  rw [exec, h]

/-- A plan passes just if the codes of its receivers are zero. -/
lemma runPlan_passes : ∀ {s : Terminal},
    (∃ t, runPlan steps s = .ok () t) ↔ Answered s.answer Checked s.issued.length steps := by
  induction steps with
  | nil => exact fun {s} => ⟨fun _ => trivial, fun _ => ⟨s, rfl⟩⟩
  | cons step steps ih =>
    intro s
    obtain ⟨cmd, input⟩ := step
    cases ha : s.answer s.issued.length cmd.text input with
    | error e =>
      rw [runPlan, bind_of_error (exec_error ha)]
      simp [Answered, ha]
    | ok code =>
      rw [runPlan, bind_of_ok (exec_ok ha)]
      by_cases hcode : cmd.isReceiver ∧ code ≠ 0
      · rw [if_pos hcode]
        have hnot : ¬ Checked cmd code := fun h => hcode.2 (h hcode.1)
        simp only [Answered, ha, Except.ok.injEq, exists_eq_left', hnot, false_and, iff_false,
          not_exists]
        rintro t ⟨⟩
      · rw [if_neg hcode]
        have hchecked : Checked cmd code := fun h => not_not.1 fun h' => hcode ⟨h, h'⟩
        rw [ih]
        simp [Answered, ha, hchecked]

lemma runPlan_issued : ∀ {s t : Terminal}, runPlan steps s = .ok () t →
    ∃ new, t.issued = s.issued ++ new ∧
      ∀ P : Command → ℤ → Prop,
        (∀ x ∈ new, P x.1 x.2) ↔ Answered s.answer P s.issued.length steps := by
  induction steps with
  | nil =>
    intro s t h
    cases h
    exact ⟨[], by simp, by simp [Answered]⟩
  | cons step steps ih =>
    intro s t h
    obtain ⟨cmd, input⟩ := step
    cases ha : s.answer s.issued.length cmd.text input with
    | error e =>
      rw [runPlan, bind_of_error (exec_error ha)] at h
      cases h
    | ok code =>
      rw [runPlan, bind_of_ok (exec_ok ha)] at h
      split_ifs at h
      · cases h
      · obtain ⟨new, hnew, hP⟩ := ih h
        refine ⟨(cmd, code) :: new, by simp [hnew], fun P => ?_⟩
        rw [forall_mem_cons, hP P]
        simp [Answered, ha]

/-- **What an `Ok` of the loop says about the commands**: that all exited with 0, just if no
command whose code is dropped fails in a stream whose receivers are fine. -/
theorem all_commands_succeeded_iff (shell : PtyShell) (answer : ℕ → Str → Bytes → Except Str ℤ)
    (remoteRoot : Str) (recursive : Bool) (frames : List CopyFrame) :
    (∀ t, uploadLoop remoteRoot recursive frames ⟨shell, answer, []⟩ = .ok () t →
      ∀ x ∈ t.issued, x.2 = 0) ↔
    ∀ entries, Delivers recursive entries frames →
      Answered answer Checked 0 (planOf remoteRoot recursive entries) →
      Answered answer (fun _ code => code = 0) 0 (planOf remoteRoot recursive entries) := by
  constructor
  · intro h entries hd hpass
    obtain ⟨t, ht⟩ := (runPlan_passes (s := ⟨shell, answer, []⟩)).2 hpass
    obtain ⟨new, hnew, hP⟩ := runPlan_issued ht
    refine (hP fun _ code => code = 0).1 fun x hx => ?_
    exact h t (by rw [uploadLoop_delivers remoteRoot hd, ht]) x (by simp [hnew, hx])
  · intro h t ht x hx
    obtain ⟨entries, hd⟩ := delivers_of_ok ht
    rw [uploadLoop_delivers remoteRoot hd] at ht
    have hzero := h entries hd (runPlan_passes.1 ⟨t, ht⟩)
    obtain ⟨new, hnew, hP⟩ := runPlan_issued ht
    rw [hnew] at hx
    exact (hP fun _ code => code = 0).2 hzero x (by simpa using hx)

/-- A file of one byte arrives, and `mv` fails: the loop returns `Ok`. -/
theorem failed_mv_is_ok :
    ∃ t, uploadLoop "/f" false
        [.beginFile "f" 0 1 0 0, .fileData [7], .endFile, .endOfStream]
        ⟨⟨fun _ => .ok ([], 0), fun _ => .ok ([], 0), fun _ _ => ([], .ok 0)⟩,
          fun n _ _ => .ok (if n = 1 then 1 else 0), []⟩ = .ok () t ∧
      t.issued = [(.receiver 5 false "/f.xho_tmp", 0),
        (.mv "/f.xho_tmp" "/f", 1)] := by
  have hd : Delivers false [.file "f" 0 1 0 0 [[7]]]
      [.beginFile "f" 0 1 0 0, .fileData [7], .endFile, .endOfStream] :=
    ⟨by simp [Entry.Accepted], [.endOfStream], rfl, .inr rfl⟩
  rw [uploadLoop_delivers _ hd]
  exact ⟨_, rfl, by decide +kernel⟩

end CrossHostOps.ShellUpload
