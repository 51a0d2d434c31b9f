import CrossHostOps.DownloadWriter

/-!
`run_copy` of `cli/copy.rs`, downloading: the sidecar that seeds a resume, the loop over the
daemon's events, and what is done with the `.part` when the loop is left.
-/

namespace CrossHostOps.RunCopy

open Text Filepath Frames FileSystem DownloadWriter Hoare

structure DownloadSidecar where
  target : Str
  remotePath : Str
  relativePath : Str
  offset : ℕ
  size : ℕ
  mtime : ℤ

/-- `serde_json` on the sidecar: what is written is read back, and what was cut short while
being written does not parse. -/
structure SidecarFormat where
  toString : DownloadSidecar → Bytes
  fromStr : Bytes → Option DownloadSidecar
  fromStr_toString : ∀ s, fromStr (toString s) = some s
  fromStr_cut : ∀ s p, p <+: toString s → p ≠ toString s → fromStr p = none

def downloadPartPaths (dest : Str) : PathBuf × PathBuf :=
  let part := PathBuf.ofStr (dest ++ ".part")
  (part, .ofStr (part.display ++ ".meta"))

lemma flatten_part (dest : Str) :
    (downloadPartPaths dest).1.segs.flatten = dest.filter (· != '/') ++ ".part" := by
  simp [downloadPartPaths, PathBuf.flatten_ofStr]

lemma flatten_sidecar (dest : Str) : (downloadPartPaths dest).2.segs.flatten =
    dest.filter (· != '/') ++ (".part" ++ ".meta") := by
  have h := flatten_part dest
  simp only [downloadPartPaths] at h ⊢
  rw [PathBuf.flatten_ofStr, List.filter_append, PathBuf.filter_display, h]
  simp

lemma part_ne_dest (dest : Str) : (downloadPartPaths dest).1 ≠ .ofStr dest := by
  intro h
  have := flatten_part dest
  rw [h, PathBuf.flatten_ofStr] at this
  simp at this

lemma sidecar_ne_dest (dest : Str) : (downloadPartPaths dest).2 ≠ .ofStr dest := by
  intro h
  have := flatten_sidecar dest
  rw [h, PathBuf.flatten_ofStr] at this
  simp at this

lemma sidecar_ne_part (dest : Str) : (downloadPartPaths dest).2 ≠ (downloadPartPaths dest).1 := by
  intro h
  have := flatten_sidecar dest
  rw [h, flatten_part] at this
  simp at this

def remoteSourceName (remotePath : Str) : Str :=
  (((PathBuf.ofStr (trimEndMatches '/' remotePath)).fileName).filter (· ≠ [])).getD
    "download"

variable {σ H : Type}

def leave : Option CliError → Cli σ H Unit
  | none => pure ()
  | some e => throw e

variable [LocalFs σ H] (F : SidecarFormat)

def readDownloadSidecar (dest target remotePath : Str) :
    EStateM IoError σ (Option DownloadSidecar) := do
  let (part, sidecarPath) := downloadPartPaths dest
  match (← ok? (LocalFs.read sidecarPath)).bind F.fromStr with
  | none => pure none
  | some sidecar =>
    if sidecar.target ≠ target ∨ sidecar.remotePath ≠ remotePath ∨ sidecar.offset = 0 then
      pure none
    else
      match ← ok? (LocalFs.len part) with
      | none => pure none
      | some partLen => if partLen ≠ sidecar.offset then pure none else pure (some sidecar)

/-- The resume preparation of a download: the writer's context, and the hints sent with the
start request. -/
def prepareDownload (resume recursive : Bool) (localPath target remotePath : Str) :
    EStateM IoError σ (Option DownloadResumeCtx × List ResumeEntry) := do
  if resume ∧ ¬ recursive then
    let (part, sidecarPath) := downloadPartPaths localPath
    match ← readDownloadSidecar F localPath target remotePath with
    | some s =>
      pure (some ⟨part, sidecarPath, s.offset, target, remotePath⟩,
        [⟨s.relativePath, s.offset, s.size, s.mtime, []⟩])
    | none => pure (some ⟨part, sidecarPath, 0, target, remotePath⟩, [])
  else pure (none, [])

def cleanupIncomplete : Cli σ H Unit := do
  let w ← getWriter
  setWriter { w with currentFile := none, incompletePath := none }
  match w.incompletePath with
  | some path => ignore (LocalFs.removeFile path)
  | none => pure ()

/-- The sidecar of an interrupted transfer. -/
def failureSidecar (w : CopyDownloadWriter H) (ctx : DownloadResumeCtx) : DownloadSidecar :=
  ⟨ctx.target, ctx.remotePath, w.currentRelativePath, w.applied, w.currentSize, w.currentMtime⟩

def flushCurrent : Option H → Cli σ H Unit
  | some file => ignore (LocalFs.flush file)
  | none => pure ()

def handleFailure : Cli σ H Unit := do
  let w ← getWriter
  match w.resume with
  | none => cleanupIncomplete
  | some ctx =>
    setWriter { w with currentFile := none, incompletePath := none }
    flushCurrent w.currentFile
    if w.applied > 0 then
      ignore (LocalFs.write ctx.sidecar (F.toString (failureSidecar w ctx)))

def publish : Cli σ H Unit := do
  let w ← getWriter
  match w.resume with
  | none => pure ()
  | some ctx =>
    setWriter { w with resume := none }
    io (.failedToPublish ctx.part w.dest) (LocalFs.rename ctx.part w.dest)
    ignore (LocalFs.removeFile ctx.sidecar)

variable {ctx : DownloadResumeCtx} {s s' : Sys σ H} {fs : σ} {e : CliError}

lemma publish_eq (hr : s.writer.resume = some ctx) :
    publish s = (do
      io (.failedToPublish ctx.part s.writer.dest) (LocalFs.rename ctx.part s.writer.dest)
      ignore (LocalFs.removeFile ctx.sidecar) : Cli σ H Unit)
        ⟨{ s.writer with resume := none }, s.fs⟩ := by
  simp [publish, hr]

lemma publish_of_rename (hr : s.writer.resume = some ctx)
    (h : LocalFs.rename (H := H) ctx.part s.writer.dest s.fs = .ok () fs) :
    publish s = .ok () ⟨{ s.writer with resume := none },
      after (LocalFs.removeFile (H := H) ctx.sidecar) fs⟩ := by
  refine (publish_eq hr).trans ((bind_of_ok (io_ok (by exact h))).trans ?_)
  rw [ignore_eq]

lemma publish_of_rename_error {e : IoError} (hr : s.writer.resume = some ctx)
    (h : LocalFs.rename (H := H) ctx.part s.writer.dest s.fs = .error e fs) :
    publish s = .error (.failedToPublish ctx.part s.writer.dest e)
      ⟨{ s.writer with resume := none }, fs⟩ := by
  exact (publish_eq hr).trans (bind_of_error (io_error (by exact h)))

/-! ### The event loop -/

/-- An event of the daemon, with what the user at the terminal answers to it. -/
inductive CopyEvent
  | authPrompt (input : Option Str) (sent : Bool)
  | error (message : Str)
  | complete (message : Str)
  | info (message : Str)
  | frame (frame : Option CopyFrame)
  | resumeAck (entries : List ResumeEntry)
  | reviewResult
  | confirmRequired (allow : Option Bool) (idParses sent : Bool)

inductive StreamItem
  | failed
  | message (event : Option CopyEvent)

def eventLoop : List StreamItem → Cli σ H Unit
  | [] => pure ()
  | .failed :: _ => throw .stream
  | .message none :: _ => throw .emptyEvent
  | .message (some event) :: rest =>
    match event with
    | .authPrompt input sent =>
      if input = none then throw .prompt else if sent then eventLoop rest else throw .send
    | .error message => throw (.daemon message)
    | .complete _ => pure ()
    | .info _ => eventLoop rest
    | .frame none => throw .emptyFrame
    | .frame (some frame) => do apply frame; eventLoop rest
    | .resumeAck _ => eventLoop rest
    | .reviewResult => eventLoop rest
    | .confirmRequired none _ _ => throw .prompt
    | .confirmRequired (some allow) idParses sent =>
      if ¬ idParses then throw .executionId
      else if ¬ sent then throw .send
      else if allow then eventLoop rest
      else pure ()

/-- The loop, then `handle_failure` or `publish`. -/
def receive (items : List StreamItem) : Cli σ H Unit := fun s =>
  match eventLoop items s with
  | .ok _ s' => publish s'
  | .error e s' =>
    match handleFailure F s' with
    | .ok _ s'' => .error e s''
    | .error _ s'' => .error e s''

variable {items : List StreamItem}

lemma receive_ok (h : eventLoop items s = .ok () s') : receive F items s = publish s' := by
  rw [receive, h]

lemma receive_error (h : eventLoop items s = .error e s') :
    ∃ t, receive F items s = .error e t := by
  simp only [receive, h]
  cases handleFailure F s' with
  | ok _ t | error _ t => exact ⟨t, rfl⟩

lemma after_receive_ok (h : eventLoop items s = .ok () s') :
    after (receive F items) s = after publish s' := by
  unfold after receive
  rw [h]

lemma after_receive_error (h : eventLoop items s = .error e s') :
    after (receive F items) s = after (handleFailure F) s' := by
  unfold after receive
  simp only [h]
  cases handleFailure F s' <;> rfl

/-- What is left of a run once the writer is dropped. -/
def dropWriter : EStateM.Result CliError (Sys σ H) Unit → EStateM.Result CliError σ Unit
  | .ok _ s => .ok () s.fs
  | .error e s => .error e s.fs

/-- A download run of the CLI; `daemon` answers the hints with a stream of events. -/
def runCopy (resume recursive : Bool) (localPath target remotePath : Str)
    (daemon : List ResumeEntry → List StreamItem) : EStateM CliError σ Unit := fun fs =>
  match prepareDownload F resume recursive localPath target remotePath fs with
  | .error e fs' => .error (.io e) fs'
  | .ok (ctx, entries) fs' =>
    dropWriter (receive F (daemon entries)
      ⟨.new (.ofStr localPath) recursive (remoteSourceName remotePath) ctx, fs'⟩)

/-! ### The loop as a script -/

/-- The frames the loop hands to the writer, and the error that ends it. -/
def script : List StreamItem → List CopyFrame × Option CliError
  | [] => ([], none)
  | .failed :: _ => ([], some .stream)
  | .message none :: _ => ([], some .emptyEvent)
  | .message (some event) :: rest =>
    match event with
    | .authPrompt input sent =>
      if input = none then ([], some .prompt) else if sent then script rest else ([], some .send)
    | .error message => ([], some (.daemon message))
    | .complete _ => ([], none)
    | .info _ | .resumeAck _ | .reviewResult => script rest
    | .frame none => ([], some .emptyFrame)
    | .frame (some frame) => (frame :: (script rest).1, (script rest).2)
    | .confirmRequired none _ _ => ([], some .prompt)
    | .confirmRequired (some allow) idParses sent =>
      if ¬ idParses then ([], some .executionId)
      else if ¬ sent then ([], some .send)
      else if allow then script rest
      else ([], none)

/-- Frames as events, with other events after them. -/
def streamed (frames : List CopyFrame) (last : List StreamItem) : List StreamItem :=
  frames.map (fun f => .message (some (.frame (some f)))) ++ last

lemma script_streamed (frames : List CopyFrame) (last : List StreamItem) :
    script (streamed frames last) = (frames ++ (script last).1, (script last).2) := by
  induction frames with
  | nil => rfl
  | cons f frames ih =>
    change (f :: (script (streamed frames last)).1, (script (streamed frames last)).2) = _
    rw [ih]
    rfl

/-- **The loop applies its frames, then ends.** No event but a frame touches the writer. -/
theorem eventLoop_eq (items : List StreamItem) :
    (eventLoop items : Cli σ H Unit) =
      applyAll (script items).1 >>= fun _ => leave (script items).2 := by
  induction items with
  | nil => rfl
  | cons item rest ih =>
    rcases item with _ | _ | event
    · rfl
    · rfl
    · cases event with
      | frame f =>
        cases f with
        | none => rfl
        | some f => simp [eventLoop, script, applyAll, ih]
      | authPrompt input sent =>
        simp only [eventLoop, script]
        split_ifs <;> first | exact ih | rfl
      | confirmRequired allow idParses sent =>
        cases allow with
        | none => rfl
        | some allow =>
          simp only [eventLoop, script]
          split_ifs <;> first | exact ih | rfl
      | error | complete => rfl
      | info | resumeAck | reviewResult => exact ih

/-- How the loop ends: as the frames do, unless an event ends it with an error. -/
lemma eventLoop_cases (items : List StreamItem) (s : Sys σ H) :
    (∃ s', eventLoop items s = .ok () s' ∧ (script items).2 = none ∧
        applyAll (script items).1 s = .ok () s') ∨
      ∃ e s', eventLoop items s = .error e s' ∧
        (applyAll (script items).1 s = .error e s' ∨
          (script items).2 = some e ∧ applyAll (script items).1 s = .ok () s') := by
  rw [eventLoop_eq]
  cases happly : applyAll (script items).1 s with
  | error e s' => exact .inr ⟨e, s', bind_of_error happly, .inl rfl⟩
  | ok _ s' =>
    cases hexit : (script items).2 with
    | none => exact .inl ⟨s', bind_of_ok happly, rfl, rfl⟩
    | some e => exact .inr ⟨e, s', bind_of_ok happly, .inr ⟨rfl, rfl⟩⟩

/-! ### The preparation on a disk -/

variable (d : Disk) (localPath target remotePath : Str)

/-- The sidecar a run resumes from: it names this transfer, and the `.part` has the length
it records. -/
def seed : Option DownloadSidecar :=
  ((d.content (downloadPartPaths localPath).2).bind F.fromStr).filter fun s =>
    s.target = target ∧ s.remotePath = remotePath ∧ s.offset ≠ 0 ∧
      (d.content (downloadPartPaths localPath).1).map List.length = some s.offset

variable {d localPath target remotePath} in
lemma seed_eq_some {s : DownloadSidecar}
    (h : seed F d localPath target remotePath = some s) :
    (d.content (downloadPartPaths localPath).2).bind F.fromStr = some s ∧
      ∃ c, d.content (downloadPartPaths localPath).1 = some c ∧ c.length = s.offset := by
  obtain ⟨hs, hcond⟩ := Option.filter_eq_some_iff.1 h
  obtain ⟨-, -, -, hlen⟩ := of_decide_eq_true hcond
  obtain ⟨c, hc, hl⟩ := Option.map_eq_some_iff.1 hlen
  exact ⟨hs, c, hc, hl⟩

def DownloadSidecar.hint (s : DownloadSidecar) : ResumeEntry :=
  ⟨s.relativePath, s.offset, s.size, s.mtime, []⟩

lemma readDownloadSidecar_disk :
    readDownloadSidecar F localPath target remotePath d =
      .ok (seed F d localPath target remotePath) d := by
  have hread : ∀ p, ok? (Disk.read p) d = .ok (d.content p) d := fun p => by
    unfold ok? Disk.read
    cases d.content p <;> rfl
  have hlen : ∀ p, ok? (Disk.len p) d = .ok ((d.content p).map List.length) d := fun p => by
    unfold ok? Disk.len
    cases d.content p <;> rfl
  unfold readDownloadSidecar seed
  obtain ⟨part, sidecarPath⟩ := downloadPartPaths localPath
  refine (bind_of_ok (hread sidecarPath)).trans ?_
  cases (d.content sidecarPath).bind F.fromStr with
  | none => rfl
  | some s =>
    by_cases hmatch : s.target ≠ target ∨ s.remotePath ≠ remotePath ∨ s.offset = 0
    · simp only [if_pos hmatch]
      have hno : ¬ (s.target = target ∧ s.remotePath = remotePath ∧ s.offset ≠ 0 ∧
          (d.content part).map List.length = some s.offset) := by tauto
      simp only [Option.filter, hno]
      rfl
    · simp only [if_neg hmatch]
      refine (bind_of_ok (hlen part)).trans ?_
      simp only [not_or, not_not] at hmatch
      cases hc : d.content part with
      | none => simp; rfl
      | some c =>
        by_cases hl : c.length = s.offset <;> simp [Option.filter, hmatch, hl] <;> rfl

def resumeCtx (expectedOffset : ℕ) : DownloadResumeCtx :=
  ⟨(downloadPartPaths localPath).1, (downloadPartPaths localPath).2, expectedOffset, target,
    remotePath⟩

def resumeWriter (expectedOffset : ℕ) : CopyDownloadWriter H :=
  .new (.ofStr localPath) false (remoteSourceName remotePath)
    (some (resumeCtx localPath target remotePath expectedOffset))

/-- The offset the seed promises; 0 without one. -/
def seedOffset : ℕ :=
  ((seed F d localPath target remotePath).map (·.offset)).getD 0

lemma prepareDownload_disk :
    prepareDownload F true false localPath target remotePath d =
      .ok (some (resumeCtx localPath target remotePath
        (seedOffset F d localPath target remotePath)),
        ((seed F d localPath target remotePath).map (·.hint)).toList) d := by
  unfold seedOffset
  simp only [prepareDownload, Bool.false_eq_true, not_false_eq_true, and_self, if_true]
  rw [bind_of_ok (readDownloadSidecar_disk F d localPath target remotePath)]
  cases seed F d localPath target remotePath <;> rfl

variable {localPath target remotePath} {daemon : List ResumeEntry → List StreamItem}

/-- A resuming run is the loop on the writer its seed gives. -/
lemma runCopy_resume :
    runCopy F true false localPath target remotePath daemon d =
      dropWriter (receive F (daemon ((seed F d localPath target remotePath).map (·.hint)).toList)
        ⟨resumeWriter localPath target remotePath (seedOffset F d localPath target remotePath),
          d⟩) := by
  unfold runCopy
  rw [prepareDownload_disk]
  rfl

lemma after_runCopy_resume :
    after (runCopy F true false localPath target remotePath daemon) d =
      (after (receive F (daemon ((seed F d localPath target remotePath).map (·.hint)).toList))
        ⟨resumeWriter localPath target remotePath (seedOffset F d localPath target remotePath),
          d⟩).fs := by
  unfold after
  rw [runCopy_resume]
  generalize (receive F _ : Cli Disk PathBuf Unit) _ = result
  cases result <;> rfl

end CrossHostOps.RunCopy
