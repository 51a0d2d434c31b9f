import CrossHostOps.LiveWriter
import CrossHostOps.ShellDownload

/-!
The frames of a download over a bastion that stalls once.

What an attempt sends depends on where its shell stops answering; the second attempt starts
where the ledger of the first says.
-/

namespace CrossHostOps.RetryDownload

open Text Filepath Frames Hoare Shell ShellDownload LiveWriter

section Attempts

variable (sh : PtyShell) (remotePath : Str) (spec : CopySpec) (v : RemoteFile)

/-- The shell tells the truth about `v` as long as it answers: it is a file, `stat` knows it,
reading it yields a prefix of its bytes, and a clean exit all of them. -/
structure Honest : Prop where
  kind : ∀ out code, sh.plain (testCommand remotePath) = .ok (out, code) →
    contains "XHO_DIR" out = false
  stat : ∀ out code, sh.raw (statCommand remotePath) = .ok (out, code) →
    parseStat out = (v.mode, v.mtime, v.content.length)
  read : ∀ start, (readFrom sh remotePath v.content.length start).1.flatten <+:
    v.content.drop start
  whole : ∀ start, (readFrom sh remotePath v.content.length start).2 = .ok 0 →
    (readFrom sh remotePath v.content.length start).1.flatten = v.content.drop start

/-- The attempt gets as far as the read command. -/
structure Begins : Prop where
  kind : ∃ out code, sh.plain (testCommand remotePath) = .ok (out, code)
  enter : rawGuardEnter sh = .ok ()
  stat : ∃ out code, sh.raw (statCommand remotePath) = .ok (out, code)

/-- The attempt streams to its end. -/
structure Streams : Prop extends Begins sh remotePath where
  read : ∀ start, (readFrom sh remotePath v.content.length start).2 = .ok 0
  complete : rawGuardComplete sh = .ok ()

/-- The name the file has in the stream. -/
def entryName : Str :=
  (PathBuf.ofStr spec.remotePath).fileName.getD spec.sourceName

/-- Where an attempt with these hints starts to read. -/
def startOf : ℕ :=
  hintedStart (.ofEntries spec.resume) (entryName spec) v.content.length v.mtime

/-- What the shell answers to the read command of the attempt. -/
def answer : List Bytes × Except Str ℤ :=
  readFrom sh spec.remotePath v.content.length (startOf spec v)

/-- The frames of an attempt up to the end of its read command. -/
def begun : List CopyFrame :=
  opening (entryName spec) v (startOf spec v) (answer sh spec v).1

/-- The bytes of the file the attempt has forwarded, counting those it skipped. -/
def reached : ℕ :=
  startOf spec v + (answer sh spec v).1.flatten.length

/-- The hints a failed attempt leaves. -/
def hintsAfter : List ResumeEntry :=
  ((ResumeLedger.ofEntries spec.resume).update (entryName spec)
    (min (reached sh spec v) v.content.length) v.content.length v.mtime).intoEntries

/-- What the attempt does once it knows the file. -/
def fileSteps : Download Unit := do
  streamFile sh spec.remotePath (entryName spec) v.mode v.content.length v.mtime
  send .endOfStream
  ofShell (rawGuardComplete sh)

/-- The frames of an attempt that starts at `start` and streams to its end. -/
def Whole (name : Str) (v : RemoteFile) (start : ℕ) (frames : List CopyFrame) : Prop :=
  ∃ chunks, chunks.flatten = v.content.drop start ∧
    frames = opening name v start chunks ++ [.endFile, .endOfStream]

lemma streamFile_answer :
    streamFile sh spec.remotePath (entryName spec) v.mode v.content.length v.mtime
        ⟨true, [], .ofEntries spec.resume⟩ =
      finishFile spec.remotePath (answer sh spec v).2
        ⟨true, begun sh spec v, (ResumeLedger.ofEntries spec.resume).update (entryName spec)
          (min (reached sh spec v) v.content.length) v.content.length v.mtime⟩ :=
  streamFile_open rfl rfl

/-- A start other than 0 is the offset of a hint, inside the file. -/
lemma hintedStart_cases (l : ResumeLedger) (name : Str) (size : ℕ) (mtime : ℤ) :
    hintedStart l name size mtime = 0 ∨ ∃ h, l.hint name = some h ∧ h.offset ≤ size ∧
      hintedStart l name size mtime = h.offset := by
  unfold hintedStart
  cases hf : (l.hint name).filter fun h =>
      h.size = size ∧ h.mtime = mtime ∧ h.offset > 0 ∧ h.offset ≤ size with
  | none => exact .inl rfl
  | some h =>
    obtain ⟨hhint, hcond⟩ := Option.filter_eq_some_iff.1 hf
    obtain ⟨-, -, -, hle⟩ := of_decide_eq_true hcond
    exact .inr ⟨h, hhint, hle, rfl⟩

lemma startOf_le : startOf spec v ≤ v.content.length := by
  unfold startOf
  rcases hintedStart_cases (.ofEntries spec.resume) (entryName spec) v.content.length v.mtime with
    h | ⟨e, -, hle, h⟩
  · omega
  · omega

variable {sh spec v}

/-- A first attempt that never got to the file does not move the second. -/
lemma startOf_intoEntries : startOf
      { spec with resume := (ResumeLedger.ofEntries spec.resume).intoEntries } v =
    startOf spec v := by
  simp [startOf, entryName, hintedStart, ResumeLedger.hint_ofEntries_intoEntries]

section Attempt

variable (hv : Honest sh spec.remotePath v)

include hv

lemma downloadSingleFile_eq {s : Sending} {out : Str} {code : ℤ}
    (hstat : sh.raw (statCommand spec.remotePath) = .ok (out, code)) :
    downloadSingleFile sh spec.remotePath spec.sourceName s =
      streamFile sh spec.remotePath (entryName spec) v.mode v.content.length v.mtime s := by
  have hs : ofShell (runAndCaptureRaw sh (statCommand spec.remotePath)) s = .ok out s := by
    rw [runAndCaptureRaw, hstat]
    rfl
  rw [downloadSingleFile, bind_of_ok hs, hv.stat out code hstat]
  rfl

/-- Up to the file an attempt only asks: it goes on to the file, or stops with nothing sent. -/
lemma downloadSteps_cases (s : Sending) :
    (Begins sh spec.remotePath ∧ downloadSteps sh spec s = fileSteps sh spec v s) ∨
      (¬ Begins sh spec.remotePath ∧ ∃ e, downloadSteps sh spec s = .error e s) := by
  unfold downloadSteps
  rcases hkind : sh.plain (testCommand spec.remotePath) with e | ⟨out, code⟩
  · refine .inr ⟨fun h => ?_, e, bind_of_error ?_⟩
    · obtain ⟨out, code, h⟩ := h.kind
      rw [hkind] at h
      cases h
    · rw [runAndCapture, hkind]
      rfl
  have hk : ofShell (runAndCapture sh (testCommand spec.remotePath)) s = .ok out s := by
    rw [runAndCapture, hkind]
    rfl
  rw [bind_of_ok hk, hv.kind out code hkind]
  rcases henter : rawGuardEnter sh with e | _
  · refine .inr ⟨fun h => ?_, e, rfl⟩
    rw [h.enter] at henter
    cases henter
  have he : ofShell (.ok ()) s = .ok () s := rfl
  rw [bind_of_ok he]
  rcases hstat : sh.raw (statCommand spec.remotePath) with e | ⟨out', code'⟩
  · refine .inr ⟨fun h => ?_, e, bind_of_error (bind_of_error ?_)⟩
    · obtain ⟨out, code, h⟩ := h.stat
      rw [hstat] at h
      cases h
    · rw [runAndCaptureRaw, hstat]
      rfl
  refine .inl ⟨⟨⟨out, code, hkind⟩, henter, out', code', hstat⟩, ?_⟩
  exact bind_congr_left (downloadSingleFile_eq hv hstat)

/-- An attempt that does not get to the file leaves everything as it was. -/
lemma download_not_begun (isOpen : Bool) (h : ¬ Begins sh spec.remotePath) :
    ∃ e, download sh spec isOpen =
      ⟨[], (ResumeLedger.ofEntries spec.resume).intoEntries, .error e⟩ := by
  rcases downloadSteps_cases hv ⟨isOpen, [], .ofEntries spec.resume⟩ with ⟨hb, -⟩ | ⟨-, e, he⟩
  · exact absurd hb h
  · exact ⟨e, by rw [download, he]⟩

variable (spec) in
/-- On a channel nobody reads, every attempt fails without a frame. -/
lemma download_closed : ∃ e resume, download sh spec false = ⟨[], resume, .error e⟩ := by
  rcases downloadSteps_cases hv ⟨false, [], .ofEntries spec.resume⟩ with ⟨-, hs⟩ | ⟨-, e, he⟩
  · refine ⟨closedMessage, (ResumeLedger.ofEntries spec.resume).intoEntries, ?_⟩
    have hclosed : fileSteps sh spec v ⟨false, [], .ofEntries spec.resume⟩ =
        .error closedMessage ⟨false, [], .ofEntries spec.resume⟩ :=
      bind_of_error (streamFile_closed rfl)
    rw [download, hs, hclosed]
  · exact ⟨e, _, by rw [download, he]⟩

/-- An attempt cut inside the file records how far it got. -/
lemma download_cut (hb : Begins sh spec.remotePath) (hcut : (answer sh spec v).2 ≠ .ok 0) :
    download sh spec true = ⟨begun sh spec v, hintsAfter sh spec v,
      .error (readError spec.remotePath (answer sh spec v).2)⟩ := by
  rcases downloadSteps_cases hv ⟨true, [], .ofEntries spec.resume⟩ with ⟨-, hs⟩ | ⟨hn, -⟩
  · have hstream := streamFile_answer sh spec v
    rw [finishFile_error hcut] at hstream
    rw [download, hs, fileSteps, bind_of_error hstream]
    rfl
  · exact absurd hb hn

/-- An attempt that reads the whole file sends the whole stream. -/
lemma download_whole (hb : Begins sh spec.remotePath) (hread : (answer sh spec v).2 = .ok 0) :
    ∃ resume, download sh spec true =
      ⟨begun sh spec v ++ [.endFile, .endOfStream], resume, rawGuardComplete sh⟩ := by
  rcases downloadSteps_cases hv ⟨true, [], .ofEntries spec.resume⟩ with ⟨-, hs⟩ | ⟨hn, -⟩
  · have hstream := streamFile_answer sh spec v
    rw [hread] at hstream
    rw [download, hs, fileSteps, bind_of_ok hstream, bind_of_ok (send_open rfl _)]
    cases rawGuardComplete sh with
    | error | ok => exact ⟨_, by simp; rfl⟩
  · exact absurd hb hn

lemma reached_le : reached sh spec v ≤ v.content.length := by
  have hstart := startOf_le spec v
  have hread := (hv.read (startOf spec v)).length_le
  rw [List.length_drop] at hread
  unfold reached answer
  omega

/-- The second attempt starts where the first was cut. -/
lemma startOf_hintsAfter :
    startOf { spec with resume := hintsAfter sh spec v } v = reached sh spec v := by
  have hle := reached_le hv
  simp only [startOf, hintedStart, hintsAfter, ResumeLedger.hint_ofEntries_intoEntries,
    ResumeLedger.update, ResumeLedger.hint_insert]
  rw [if_pos (by rfl)]
  rcases Nat.eq_zero_or_pos (reached sh spec v) with h0 | h0
  · simp [Option.filter, h0]
  · simp [Option.filter, h0, hle]

variable (spec) in
lemma download_streams (hs : Streams sh spec.remotePath v) :
    Whole (entryName spec) v (startOf spec v) (download sh spec true).frames ∧
      (download sh spec true).result = .ok () := by
  obtain ⟨resume, h⟩ := download_whole hv hs.toBegins (hs.read _)
  rw [h]
  exact ⟨⟨_, hv.whole _ (hs.read _), rfl⟩, hs.complete⟩

end Attempt

/-! ### Both attempts -/

variable {sh₁ sh₂ : PtyShell}

/-- Two attempts at one file: the first stalls, the second streams to its end. -/
structure Retried (sh₁ sh₂ : PtyShell) (spec : CopySpec) (v : RemoteFile) : Prop where
  direction : spec.direction = .download
  first : Honest sh₁ spec.remotePath v
  second : Honest sh₂ spec.remotePath v
  stalls : ∃ e, (download sh₁ spec true).result = .error e ∧ isStallClass e
  streams : Streams sh₂ spec.remotePath v

/-- The first attempt forwarded the whole stream, and stalled while restoring the shell. -/
def StalledAfter (sh : PtyShell) (spec : CopySpec) (v : RemoteFile) : Prop :=
  Begins sh spec.remotePath ∧ (answer sh spec v).2 = .ok 0

/-- What the relay gets from both attempts. -/
lemma Retried.cases (h : Retried sh₁ sh₂ spec v) :
    (¬ Begins sh₁ spec.remotePath ∧ ∃ frames, Whole (entryName spec) v (startOf spec v) frames ∧
        copy (.ok sh₁) (.ok sh₂) spec = (frames, .ok ())) ∨
      (Begins sh₁ spec.remotePath ∧ (answer sh₁ spec v).2 ≠ .ok 0 ∧
        ∃ frames, Whole (entryName spec) v (reached sh₁ spec v) frames ∧
        copy (.ok sh₁) (.ok sh₂) spec = (begun sh₁ spec v ++ frames, .ok ())) ∨
      (StalledAfter sh₁ spec v ∧
        ∃ frames e, copy (.ok sh₁) (.ok sh₂) spec = (frames, .error e)) := by
  obtain ⟨hdir, hv₁, hv₂, ⟨e, he, hclass⟩, hs⟩ := h
  have hcopy : copy (.ok sh₁) (.ok sh₂) spec =
      ((download sh₁ spec true).frames ++
        (download sh₂ { spec with resume := (download sh₁ spec true).resume }
          (decide (.endOfStream ∉ (download sh₁ spec true).frames))).frames,
        (download sh₂ { spec with resume := (download sh₁ spec true).resume }
          (decide (.endOfStream ∉ (download sh₁ spec true).frames))).result) := by
    simp [copy, he, hdir, hclass]
  by_cases hb : Begins sh₁ spec.remotePath
  · by_cases hread : (answer sh₁ spec v).2 = .ok 0
    · -- everything was sent: the relay is gone before the second attempt begins
      refine .inr (.inr ⟨⟨hb, hread⟩, ?_⟩)
      obtain ⟨resume, h₁⟩ := download_whole hv₁ hb hread
      obtain ⟨e', resume', h₂⟩ := download_closed { spec with resume } hv₂
      have hclosed : decide (CopyFrame.endOfStream ∉
          begun sh₁ spec v ++ [.endFile, .endOfStream]) = false := by simp
      rw [hcopy, h₁]
      simp only [hclosed, h₂]
      exact ⟨_, e', rfl⟩
    · have h₁ := download_cut hv₁ hb hread
      have hopen : decide (CopyFrame.endOfStream ∉ begun sh₁ spec v) = true := by
        simp [begun, opening]
      obtain ⟨hf, hr⟩ := download_streams { spec with resume := hintsAfter sh₁ spec v } hv₂ hs
      rw [startOf_hintsAfter hv₁] at hf
      refine .inr (.inl ⟨hb, hread, _, hf, ?_⟩)
      rw [hcopy, h₁]
      simp [hopen, hr]
  · obtain ⟨e', h₁⟩ := download_not_begun hv₁ true hb
    obtain ⟨hf, hr⟩ := download_streams
      { spec with resume := (ResumeLedger.ofEntries spec.resume).intoEntries } hv₂ hs
    rw [startOf_intoEntries] at hf
    refine .inl ⟨hb, _, hf, ?_⟩
    rw [hcopy, h₁]
    simp [hr]

end Attempts

end CrossHostOps.RetryDownload
