import CrossHostOps.SftpUpload
import CrossHostOps.ShellUpload

/-!
The upload half of the `copy` handler of `daemon/mod.rs`: a task relays the frames of the
client to the gateway, and what the gateway returns decides what is recorded and sent back.

The channel between the two is closed after `EndOfStream`, and also when the client is gone.
-/

namespace CrossHostOps.CopyHandler

open Text Filepath Frames Hoare Sftp

/-- A message of the request stream after its start. -/
inductive CopyRequest
  /-- The frame it decodes to, if it does. -/
  | frame (decoded : Option CopyFrame)
  | authInput
  | confirm
  | start
  | empty

/-- The relay task: the frames that reach the gateway before the channel is closed. The list
ends where the client's stream does, in order or not. -/
def relay : List CopyRequest → List CopyFrame
  | [] => []
  | .frame none :: _ => []
  | .frame (some frame) :: requests =>
    frame :: if frame = .endOfStream then [] else relay requests
  | _ :: requests => relay requests

inductive CopyFailure
  | session (message : Str)
  | sftp (e : SftpUpload.UploadError)
  | shell (e : ShellUpload.UploadError)
  deriving DecidableEq

/-- `Gateway::copy` of an upload, which is never retried; `session` is the open subsystem. -/
def sftpCopy {σ H : Type} [SftpServer σ H] (session : Except Str σ) (spec : CopySpec)
    (frames : List CopyFrame) : Except CopyFailure Unit :=
  match session with
  | .error e => .error (.session e)
  | .ok s =>
    match SftpUpload.upload spec frames s with
    | .ok _ _ => .ok ()
    | .error e _ => .error (.sftp e)

/-- `JumpserverGateway::copy` of an upload; `session` is the shell it acquired. -/
def shellCopy (session : Except Str ShellUpload.Terminal) (spec : CopySpec)
    (frames : List CopyFrame) : Except CopyFailure Unit :=
  match session with
  | .error e => .error (.session e)
  | .ok s =>
    match ShellUpload.upload spec frames s with
    | .ok _ _ => .ok ()
    | .error e _ => .error (.shell e)

inductive CopyResponse
  | complete
  | error (e : CopyFailure)
  | timedOut
  deriving DecidableEq

inductive AuditResult
  | completed
  | failed
  | timeout
  deriving DecidableEq

/-- The handler's end of an upload: either the deadline comes first, or the copy returns. -/
def conclude (deadline : Bool) (result : Except CopyFailure Unit) : AuditResult × CopyResponse :=
  if deadline then (.timeout, .timedOut)
  else
    match result with
    | .error e => (.failed, .error e)
    | .ok _ => (.completed, .complete)

lemma conclude_completed {deadline : Bool} {result : Except CopyFailure Unit}
    (h : conclude deadline result = (.completed, .complete)) : result = .ok () := by
  cases deadline <;> rcases result with e | _ <;> first | rfl | cases h

/-! ### Over SFTP -/

/-- Whether a file is open after a frame; `none` if the frame is out of place. -/
def turn (recursive inFile : Bool) : CopyFrame → Option Bool
  | .beginFile .. => if inFile then none else some true
  | .fileData _ => if inFile then some true else none
  | .endFile => if inFile then some false else none
  | .beginDirectory .. => if recursive then some inFile else none
  | .symlink .. => some inFile
  | .endOfStream => none

/-- All frames are in place, none of them is the end of the stream, and behind them no file is
open. -/
def stopsOutside (recursive : Bool) : (inFile : Bool) → List CopyFrame → Bool
  | inFile, [] => !inFile
  | inFile, frame :: frames =>
    match turn recursive inFile frame with
    | some inFile => stopsOutside recursive inFile frames
    | none => false

lemma endOfStream_notMem {recursive : Bool} {frames : List CopyFrame} :
    ∀ {inFile : Bool}, stopsOutside recursive inFile frames → .endOfStream ∉ frames := by
  induction frames with
  | nil => simp
  | cons frame frames ih =>
    intro inFile h
    rw [stopsOutside] at h
    cases hturn : turn recursive inFile frame with
    | none => simp [hturn] at h
    | some inFile' =>
      rw [hturn] at h
      have hframe : frame ≠ .endOfStream := by
        rintro rfl
        cases hturn
      simp [ih h, hframe.symm]

variable {spec : CopySpec} {frames : List CopyFrame}

section Sftp

open SftpUpload

variable {σ H α : Type} {f : Option H}

/-- The file in hand stays. -/
abbrev Holding (σ : Type) (f : Option H) : Receiver σ H → Prop := fun r => r.currentFile = f

lemma call_holding (x : EStateM SftpError σ α) (mk : SftpError → UploadError) :
    Keeps (Holding σ f) (call mk x) := by
  intro r hr
  unfold call
  cases x r.server <;> exact hr

lemma attempt_holding (x : EStateM SftpError σ α) : Keeps (Holding σ f) (attempt x) := by
  intro r hr
  unfold attempt
  cases x r.server <;> exact hr

variable [SftpServer σ H]

lemma createEach_holding (paths : List Str) : Keeps (Holding σ f) (createEach paths) := by
  induction paths with
  | nil => exact Triple.pure fun _ h => h
  | cons path paths ih =>
    unfold createEach
    split_ifs
    · exact ih
    · refine Triple.bind (call_holding _ _) fun exists? => ?_
      cases exists?
      · exact Triple.bind (call_holding _ _) fun _ => ih
      · exact ih

lemma createParent_holding (path : NormalizedPath) : Keeps (Holding σ f) (createParent path) := by
  unfold createParent
  cases path.parent with
  | none => exact Triple.pure fun _ h => h
  | some parent => exact createEach_holding _

lemma symlink_holding (path : NormalizedPath) (target : Str) :
    Keeps (Holding σ f) (SftpUpload.symlink path target) :=
  Triple.bind (createParent_holding path) fun _ =>
    Triple.bind (attempt_holding _) fun _ => call_holding _ _

lemma publish_holding (dest : Str) : Keeps (Holding σ f) (publish dest) :=
  Triple.bind (attempt_holding _) fun _ => call_holding _ _

variable {root : NormalizedPath} {rootIsDir : Bool} {frame : CopyFrame}

/-- One frame opens or closes a file as `turn` says. -/
lemma uploadFrame_turn {r t : Receiver σ H} (hne : frame ≠ .endOfStream)
    (h : uploadFrame spec root rootIsDir frame r = .ok () t) :
    turn spec.recursive r.currentFile.isSome frame = some t.currentFile.isSome := by
  cases frame with
  | endOfStream => exact absurd rfl hne
  | beginFile relativePath mode size mtime startOffset =>
    simp only [uploadFrame, SftpUpload.beginFile, get_bind] at h
    cases hf : r.currentFile.isSome with
    | true =>
      rw [hf] at h
      cases h
    | false =>
      rw [hf] at h
      obtain ⟨_, r₁, -, h⟩ := bind_ok.1 h
      obtain ⟨_, r₂, -, h⟩ := bind_ok.1 h
      obtain ⟨_, r₃, -, h⟩ := bind_ok.1 h
      cases h
      rfl
  | fileData data =>
    simp only [uploadFrame, SftpUpload.fileData, get_bind] at h
    cases hf : r.currentFile with
    | none =>
      rw [hf] at h
      cases h
    | some file =>
      rw [hf] at h
      obtain ⟨_, r₁, -, h⟩ := bind_ok.1 h
      cases h
      rfl
  | endFile =>
    simp only [uploadFrame, SftpUpload.endFile, get_bind] at h
    cases hf : r.currentFile with
    | none =>
      rw [hf] at h
      cases h
    | some file =>
      rw [hf] at h
      simp only [modify_bind] at h
      obtain ⟨_, r₁, hcall, h⟩ := bind_ok.1 h
      have hr₁ : r₁.currentFile = none := (call_holding _ _).of_ok rfl hcall
      rw [get_bind] at h
      cases hdest : r₁.currentDest with
      | none =>
        rw [hdest] at h
        cases h
      | some dest =>
        simp only [hdest, modify_bind] at h
        have ht : t.currentFile = none :=
          (publish_holding dest).of_ok (s := { r₁ with currentDest := none }) hr₁ h
        simp [turn, ht]
  | beginDirectory relativePath mode mtime =>
    simp only [uploadFrame] at h
    split_ifs at h with hrec
    · have ht : t.currentFile = r.currentFile := (createEach_holding _).of_ok rfl h
      simp [turn, hrec, ht]
    · cases h
  | symlink relativePath target =>
    have ht : t.currentFile = r.currentFile := (symlink_holding _ _).of_ok rfl h
    simp [turn, ht]

lemma uploadLoop_cons (hne : frame ≠ .endOfStream) :
    (uploadLoop spec root rootIsDir (frame :: frames) : Upload σ H Unit) =
      uploadFrame spec root rootIsDir frame >>= fun _ => uploadLoop spec root rootIsDir frames := by
  cases frame <;> first | rfl | exact absurd rfl hne

/-- A loop that ends with no file open has met the end of the stream, or stopped outside a
file. -/
lemma uploadLoop_stops : ∀ {r t : Receiver σ H},
    uploadLoop spec root rootIsDir frames r = .ok () t → t.currentFile.isSome = false →
    .endOfStream ∈ frames ∨ stopsOutside spec.recursive r.currentFile.isSome frames := by
  induction frames with
  | nil =>
    intro r t h ht
    cases h
    simp [stopsOutside, ht]
  | cons frame frames ih =>
    intro r t h ht
    by_cases hne : frame = .endOfStream
    · simp [hne]
    rw [uploadLoop_cons hne] at h
    obtain ⟨_, r', hframe, h⟩ := bind_ok.1 h
    have hturn := uploadFrame_turn hne hframe
    rcases ih h ht with hmem | hstop
    · simp [hmem]
    · right
      rw [stopsOutside, hturn]
      exact hstop

lemma upload_stops {s t : σ} (h : SftpUpload.upload spec frames s = .ok () t) :
    .endOfStream ∈ frames ∨ stopsOutside spec.recursive false frames := by
  unfold SftpUpload.upload at h
  cases hdir : remotePathIsDir (.fromStr spec.remotePath) s with
  | error e s' => simp [hdir] at h
  | ok isDir s' =>
    simp only [hdir] at h
    cases hall : (SftpUpload.uploadLoop spec (.fromStr spec.remotePath) isDir frames >>=
        fun _ => finish : Upload σ H Unit) ⟨none, none, s'⟩ with
    | error e r => simp [hall] at h
    | ok _ r =>
      obtain ⟨_, r', hloop, hfinish⟩ := bind_ok.1 hall
      have hclosed : r'.currentFile.isSome = false := by
        by_contra hopen
        simp only [finish, get_bind, Bool.not_eq_false] at hfinish hopen
        rw [hopen] at hfinish
        cases hfinish
      exact uploadLoop_stops hloop hclosed

end Sftp

section Obliging

open SftpUpload

/-- A server that grants whatever it is asked for. -/
inductive Obliging
  | mk

instance : SftpServer Obliging Unit where
  metadata _ := pure ⟨false, 0⟩
  create _ := pure ()
  openWrite _ := pure ()
  seek _ _ := pure ()
  writeAll _ _ := pure ()
  shutdown _ := pure ()
  removeFile _ := pure ()
  rename _ _ := pure ()
  createDir _ := pure ()
  symlink _ _ := pure ()
  readFile _ := pure []

variable (root : NormalizedPath) (rootIsDir : Bool) {r : Receiver Obliging Unit}

lemma createEach_obliging (paths : List Str) : createEach paths r = .ok () r := by
  induction paths with
  | nil => rfl
  | cons path paths ih =>
    unfold createEach
    split_ifs
    · exact ih
    · exact ih

lemma createParent_obliging (path : NormalizedPath) : createParent path r = .ok () r := by
  unfold createParent
  cases path.parent with
  | none => rfl
  | some parent => exact createEach_obliging _

lemma resumeSkip_obliging (tmp : Str) (size startOffset : ℕ) :
    ∃ skip, resumeSkip tmp size startOffset r = .ok skip r := by
  unfold resumeSkip
  split_ifs
  · change ∃ skip, (if (0 : ℕ) = _ then pure _ else pure 0 : Upload Obliging Unit ℕ) r = .ok skip r
    split_ifs <;> exact ⟨_, rfl⟩
  · exact ⟨0, rfl⟩

lemma openPartial_obliging (tmp : Str) (skip : ℕ) : openPartial tmp skip r = .ok () r := by
  unfold openPartial
  split_ifs <;> rfl

/-- The locals of the loop inside and outside a file. -/
structure Ready (inFile : Bool) (r : Receiver Obliging Unit) : Prop where
  file : r.currentFile.isSome = inFile
  dest : r.currentDest.isSome = inFile

lemma uploadFrame_obliging {inFile inFile' : Bool} {frame : CopyFrame} (hr : Ready inFile r)
    (hturn : turn spec.recursive inFile frame = some inFile') :
    ∃ t, uploadFrame spec root rootIsDir frame r = .ok () t ∧ Ready inFile' t := by
  obtain ⟨hfile, hdest⟩ := hr
  cases frame with
  | endOfStream => cases hturn
  | beginFile relativePath mode size mtime startOffset =>
    cases inFile with
    | true => cases hturn
    | false =>
      cases hturn
      obtain ⟨skip, hskip⟩ := resumeSkip_obliging (r := r) (tmpPath
        (entryPath spec root rootIsDir relativePath).toStringNormalized) size startOffset
      refine ⟨⟨some (), some (entryPath spec root rootIsDir relativePath).toStringNormalized,
        r.server⟩, ?_, rfl, rfl⟩
      simp only [uploadFrame, SftpUpload.beginFile, get_bind, hfile, Bool.false_eq_true, if_false]
      rw [bind_of_ok (createParent_obliging _), bind_of_ok hskip,
        bind_of_ok (openPartial_obliging _ _)]
      rfl
  | fileData data =>
    cases inFile with
    | false => cases hturn
    | true =>
      cases hturn
      obtain ⟨file, hsome⟩ := Option.isSome_iff_exists.1 hfile
      refine ⟨{ r with currentFile := some () }, ?_, rfl, hdest⟩
      simp only [uploadFrame, SftpUpload.fileData, get_bind, hsome]
      rfl
  | endFile =>
    cases inFile with
    | false => cases hturn
    | true =>
      cases hturn
      obtain ⟨file, hsome⟩ := Option.isSome_iff_exists.1 hfile
      obtain ⟨dest, hdest⟩ := Option.isSome_iff_exists.1 hdest
      refine ⟨⟨none, none, r.server⟩, ?_, rfl, rfl⟩
      obtain ⟨_, _, server⟩ := r
      cases hsome
      cases hdest
      rfl
  | beginDirectory relativePath mode mtime =>
    simp only [turn] at hturn
    split_ifs at hturn with hrec
    cases hturn
    refine ⟨r, ?_, hfile, hdest⟩
    simp only [uploadFrame, hrec]
    exact createEach_obliging _
  | symlink relativePath target =>
    cases hturn
    refine ⟨r, ?_, hfile, hdest⟩
    simp only [uploadFrame, SftpUpload.symlink]
    rw [bind_of_ok (createParent_obliging _)]
    rfl

lemma uploadLoop_obliging {frames : List CopyFrame} : ∀ {inFile : Bool}
    {r : Receiver Obliging Unit}, Ready inFile r → stopsOutside spec.recursive inFile frames →
    ∃ t, SftpUpload.uploadLoop spec root rootIsDir frames r = .ok () t ∧ Ready false t := by
  induction frames with
  | nil =>
    intro inFile r hr hstop
    obtain rfl : inFile = false := by simpa [stopsOutside] using hstop
    exact ⟨r, rfl, hr⟩
  | cons frame frames ih =>
    intro inFile r hr hstop
    rw [stopsOutside] at hstop
    cases hturn : turn spec.recursive inFile frame with
    | none => simp [hturn] at hstop
    | some inFile' =>
      rw [hturn] at hstop
      have hne : frame ≠ .endOfStream := by
        rintro rfl
        cases hturn
      obtain ⟨r', hframe, hr'⟩ := uploadFrame_obliging root rootIsDir hr hturn
      obtain ⟨t, hloop, ht⟩ := ih hr' hstop
      exact ⟨t, by rw [uploadLoop_cons hne, bind_of_ok hframe, hloop], ht⟩

/-- Nothing but the frames decides: a stream that stops outside a file may be taken. -/
lemma upload_obliging {frames : List CopyFrame} (h : stopsOutside spec.recursive false frames) :
    SftpUpload.upload spec frames Obliging.mk = .ok () Obliging.mk := by
  obtain ⟨t, hloop, ht⟩ := uploadLoop_obliging (.fromStr spec.remotePath) false
    (r := ⟨none, none, .mk⟩) ⟨rfl, rfl⟩ h
  exact upload_of_ok rfl hloop (by simpa using ht.file)

end Obliging

/-! ### Over a shell -/

section Shell

open Shell ShellUpload

/-- The stream stops behind an entry that is complete, and without its end. -/
def StopsBetween (recursive : Bool) (frames : List CopyFrame) : Prop :=
  ∃ entries : List Entry, (∀ e ∈ entries, e.Accepted recursive) ∧
    frames = entries.flatMap Entry.frames

variable {recursive : Bool} {remoteRoot : Str} {s t : Terminal}

lemma StopsBetween.endOfStream_notMem (h : StopsBetween recursive frames) :
    .endOfStream ∉ frames := by
  obtain ⟨entries, -, rfl⟩ := h
  simp only [List.mem_flatMap, not_exists, not_and]
  intro e _
  cases e <;> simp [Entry.frames]

lemma uploadLoop_stopsBetween (h : uploadLoop remoteRoot recursive frames s = .ok () t) :
    .endOfStream ∈ frames ∨ StopsBetween recursive frames := by
  obtain ⟨entries, hall, rest, rfl, hrest⟩ := delivers_of_ok h
  rcases hrest with rfl | hhead
  · exact .inr ⟨entries, hall, by simp⟩
  · exact .inl (List.mem_append_right _ (List.mem_of_mem_head? hhead))

/-- A terminal where every command succeeds. -/
def obliging : Terminal :=
  ⟨⟨fun _ => .ok ([], 0), fun _ => .ok ([], 0), fun _ _ => ([], .ok 0)⟩, fun _ _ _ => .ok 0, []⟩

lemma answered_zero {steps : List Step} : ∀ {n : ℕ},
    Answered (fun _ _ _ => .ok 0) Checked n steps := by
  induction steps with
  | nil => exact trivial
  | cons step steps ih => exact ⟨⟨0, rfl, fun _ => rfl⟩, ih⟩

lemma uploadLoop_obliging_shell (remoteRoot : Str) (h : StopsBetween recursive frames) :
    ∃ t, uploadLoop remoteRoot recursive frames obliging = .ok () t := by
  obtain ⟨entries, hall, rfl⟩ := h
  rw [uploadLoop_delivers remoteRoot ⟨hall, [], by simp, .inl rfl⟩]
  exact runPlan_passes.2 answered_zero

lemma exec_keeps_shell (cmd : Command) (input : Bytes) {sh : PtyShell} :
    Keeps (fun s => s.shell = sh) (exec cmd input) := by
  intro s hs
  unfold exec
  cases s.answer s.issued.length cmd.text input <;> exact hs

lemma runPlan_keeps_shell {sh : PtyShell} (steps : List Step) :
    Keeps (fun s => s.shell = sh) (runPlan steps) := by
  induction steps with
  | nil => exact Triple.pure fun _ h => h
  | cons step steps ih =>
    refine Triple.bind (exec_keeps_shell _ _) fun code => ?_
    split_ifs
    · exact Triple.throw fun _ h => h
    · exact ih

lemma upload_stopsBetween (h : ShellUpload.upload spec frames s = .ok () t) :
    .endOfStream ∈ frames ∨ StopsBetween spec.recursive frames := by
  obtain ⟨_, _, -, h⟩ := bind_ok.1 h
  obtain ⟨_, _, -, h⟩ := bind_ok.1 h
  obtain ⟨_, _, hloop, -⟩ := bind_ok.1 h
  exact uploadLoop_stopsBetween hloop

lemma upload_obliging_shell (h : StopsBetween spec.recursive frames) :
    ∃ t, ShellUpload.upload spec frames obliging = .ok () t := by
  have hdest : ∃ remotePath, resolveUploadDest obliging.shell spec = .ok remotePath := by
    unfold resolveUploadDest
    split_ifs <;> exact ⟨_, rfl⟩
  obtain ⟨remotePath, hdest⟩ := hdest
  have hresolve : ofShell (resolveUploadDest · spec) obliging = .ok remotePath obliging := by
    rw [ofShell, hdest]
  obtain ⟨t, ht⟩ := uploadLoop_obliging_shell remotePath h
  have hshell : t.shell = obliging.shell := by
    obtain ⟨entries, hall, rfl⟩ := h
    rw [uploadLoop_delivers remotePath ⟨hall, [], by simp, .inl rfl⟩] at ht
    exact (runPlan_keeps_shell _).of_ok rfl ht
  refine ⟨t, ?_⟩
  unfold ShellUpload.upload
  have henter : ofShell rawGuardEnter obliging = .ok () obliging := rfl
  rw [bind_of_ok hresolve, bind_of_ok henter, bind_of_ok ht, ofShell, hshell]
  rfl

end Shell

/-! ### What `completed` says -/

lemma sftpCopy_ok {σ H : Type} [SftpServer σ H] {session : Except Str σ}
    (h : sftpCopy session spec frames = .ok ()) :
    ∃ s t : σ, SftpUpload.upload spec frames s = .ok () t := by
  rcases session with e | s
  · cases h
  · cases hup : SftpUpload.upload spec frames s with
    | ok _ t => exact ⟨s, t, hup⟩
    | error e t => simp [sftpCopy, hup] at h

lemma shellCopy_ok {session : Except Str ShellUpload.Terminal}
    (h : shellCopy session spec frames = .ok ()) :
    ∃ s t, ShellUpload.upload spec frames s = .ok () t := by
  rcases session with e | s
  · cases h
  · cases hup : ShellUpload.upload spec frames s with
    | ok _ t => exact ⟨s, t, hup⟩
    | error e t => simp [shellCopy, hup] at h

lemma sftpCopy_obliging (h : stopsOutside spec.recursive false frames) :
    sftpCopy (.ok Obliging.mk) spec frames = .ok () := by
  simp [sftpCopy, upload_obliging h]

lemma shellCopy_obliging (h : StopsBetween spec.recursive frames) :
    shellCopy (.ok obliging) spec frames = .ok () := by
  obtain ⟨t, ht⟩ := upload_obliging_shell h
  simp [shellCopy, ht]

/-- **When success means that the end of the stream was received**: for both transports, and for
what the daemon records and answers, just if the stream does not stop outside a file. -/
theorem completed_needs_end_iff (spec : CopySpec) :
    (∀ frames, (∀ (σ H : Type) [SftpServer σ H] (s t : σ),
        SftpUpload.upload spec frames s = .ok () t → .endOfStream ∈ frames) ↔
      ¬ stopsOutside spec.recursive false frames) ∧
    (∀ remoteRoot frames, (∀ s t,
        ShellUpload.uploadLoop remoteRoot spec.recursive frames s = .ok () t →
        .endOfStream ∈ frames) ↔ ¬ StopsBetween spec.recursive frames) ∧
    (∀ requests, (∀ (σ H : Type) [SftpServer σ H] (session : Except Str σ) (deadline : Bool),
        conclude deadline (sftpCopy session spec (relay requests)) = (.completed, .complete) →
        .endOfStream ∈ relay requests) ↔ ¬ stopsOutside spec.recursive false (relay requests)) ∧
    (∀ requests, (∀ session deadline,
        conclude deadline (shellCopy session spec (relay requests)) = (.completed, .complete) →
        .endOfStream ∈ relay requests) ↔ ¬ StopsBetween spec.recursive (relay requests)) := by
  refine ⟨fun frames => ⟨fun h hstop => ?_, fun h σ H _ s t hup => ?_⟩,
    fun remoteRoot frames => ⟨fun h hstop => ?_, fun h s t hup => ?_⟩,
    fun requests => ⟨fun h hstop => ?_, fun h σ H _ session deadline hup => ?_⟩,
    fun requests => ⟨fun h hstop => ?_, fun h session deadline hup => ?_⟩⟩
  · exact endOfStream_notMem hstop (h _ _ _ _ (upload_obliging hstop))
  · exact (upload_stops hup).resolve_right h
  · obtain ⟨t, ht⟩ := uploadLoop_obliging_shell remoteRoot hstop
    exact hstop.endOfStream_notMem (h _ _ ht)
  · exact (uploadLoop_stopsBetween hup).resolve_right h
  · exact endOfStream_notMem hstop
      (h _ _ (.ok Obliging.mk) false (by rw [sftpCopy_obliging hstop]; rfl))
  · obtain ⟨s, t, hup⟩ := sftpCopy_ok (conclude_completed hup)
    exact (upload_stops hup).resolve_right h
  · exact hstop.endOfStream_notMem
      (h (.ok obliging) false (by rw [shellCopy_obliging hstop]; rfl))
  · obtain ⟨s, t, hup⟩ := shellCopy_ok (conclude_completed hup)
    exact (upload_stopsBetween hup).resolve_right h

/-- The client is gone after the first file of a tree; the upload is recorded as completed. -/
theorem cut_upload_is_completed :
    let spec : CopySpec := ⟨.upload, "/d", true, "d", []⟩
    let requests : List CopyRequest :=
      [.frame (some (.beginDirectory [] 0 0)), .frame (some (.beginFile "a" 0 1 0 0)),
        .frame (some (.fileData [7])), .frame (some .endFile)]
    .endOfStream ∉ relay requests ∧
    conclude false (sftpCopy (.ok (⟨fun _ => none, fun _ => .granted, []⟩ : Server)) spec
      (relay requests)) = (.completed, .complete) ∧
    conclude false (shellCopy (.ok obliging) spec (relay requests)) = (.completed, .complete) := by
  refine ⟨by decide +kernel, by decide +kernel, ?_⟩
  rw [shellCopy_obliging]
  · rfl
  · exact ⟨[.dir [] 0 0, .file "a" 0 1 0 0 [[7]]], by simp [ShellUpload.Entry.Accepted], rfl⟩

end CrossHostOps.CopyHandler
