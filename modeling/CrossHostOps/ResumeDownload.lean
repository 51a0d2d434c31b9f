import Mathlib.Logic.Relation
import CrossHostOps.Publish
import CrossHostOps.SftpDownload

/-!
Resuming a download over several runs of the CLI.

Between two runs only the disk is left. The invariant is about the sidecar: whenever it
fingerprints the remote file as it is now, and the `.part` has the length it records, the
`.part` is a prefix of that file.
-/

namespace CrossHostOps.ResumeDownload

open Text Filepath Frames FileSystem DownloadWriter RunCopy Hoare SftpDownload Publish
open List hiding after

structure RemoteFile where
  permissions : Option ℕ
  mtime : Option ℕ
  content : Bytes

namespace RemoteFile

def node (v : RemoteFile) : RemoteNode := .file v.permissions v.mtime v.content

/-- Size and modification time, all that a sidecar knows of a version. -/
def fingerprint (v : RemoteFile) : ℕ × ℤ := (v.content.length, mtimeOf v.mtime)

end RemoteFile

section Writer

variable (ctx : DownloadResumeCtx) (dest : PathBuf) (v : RemoteFile) (d₀ : Disk)

/-- Nothing was begun yet: the disk is as the run found it. -/
structure Idle (s : Sys Disk PathBuf) : Prop where
  resume : s.writer.resume = some ctx
  dest : s.writer.dest = dest
  applied : s.writer.applied = 0
  node : s.fs.node = d₀.node

/-- `.part` holds the first `k` bytes of `v`, and the writer knows. -/
structure Holding (k : ℕ) (s : Sys Disk PathBuf) : Prop where
  resume : s.writer.resume = some ctx
  dest : s.writer.dest = dest
  applied : s.writer.applied = k
  fingerprint : (s.writer.currentSize, s.writer.currentMtime) = v.fingerprint
  part : s.fs.content ctx.part = some (v.content.take k)
  le : k ≤ v.content.length
  others : ∀ q, q ≠ ctx.part → s.fs.node q = d₀.node q

/-- The process is dead, in the middle of a write to `.part`. -/
structure Dead (s : Sys Disk PathBuf) : Prop where
  resume : s.writer.resume = some ctx
  budget : s.fs.budget = some 0
  part : ∃ c, s.fs.content ctx.part = some c ∧ c <+: v.content
  others : ∀ q, q ≠ ctx.part → s.fs.node q = d₀.node q

/-- Holding, with the file still open. -/
def Appending (k : ℕ) (s : Sys Disk PathBuf) : Prop :=
  Holding ctx dest v d₀ k s ∧ s.writer.currentFile = some ctx.part

/-- How the loop can leave the disk when it is cut. -/
def Interrupted (s : Sys Disk PathBuf) : Prop :=
  Idle ctx dest d₀ s ∨ (∃ k, Holding ctx dest v d₀ k s) ∨ Dead ctx v d₀ s

/-- The start offset fits what the run found on the disk. -/
def Fits (start : ℕ) : Prop :=
  start = 0 ∨ start = ctx.expectedOffset ∧ start ≤ v.content.length ∧
    d₀.content ctx.part = some (v.content.take start)

variable {ctx dest v d₀}

lemma triple_openPart {start : ℕ} (hfit : Fits ctx v d₀ start) :
    Triple (Idle ctx dest d₀) (openPart ctx start)
      (fun file s => file = ctx.part ∧ s.writer.resume = some ctx ∧ s.writer.dest = dest ∧
        start ≤ v.content.length ∧ s.fs.content ctx.part = some (v.content.take start) ∧
        ∀ q, q ≠ ctx.part → s.fs.node q = d₀.node q)
      (fun _ => Idle ctx dest d₀) := by
  rintro s ⟨hr, hdest, ha, hn⟩
  rcases Nat.eq_zero_or_pos start with rfl | hpos
  · rw [openPart, if_neg (by omega)]
    rcases Disk.localCreate_cases ctx.part s.fs with hc | ⟨e, hc⟩
    · rw [io_ok hc]
      exact ⟨rfl, hr, hdest, Nat.zero_le _, by simp, fun q hq => by simp [hq, hn]⟩
    · rw [io_error hc]
      exact ⟨hr, hdest, ha, hn⟩
  · obtain ⟨he, hle, hpart⟩ := hfit.resolve_left (by omega)
    have hc : s.fs.content ctx.part = some (v.content.take start) := by
      rw [← hpart, Disk.content, Disk.content, hn]
    rw [openPart_resume hpos he hc]
    exact ⟨rfl, hr, hdest, hle, hc, fun q _ => by rw [hn]⟩

lemma triple_beginFile {rel : Str} {mode start : ℕ} (hfit : Fits ctx v d₀ start) :
    Triple (Idle ctx dest d₀)
      (apply (.beginFile rel mode v.content.length (mtimeOf v.mtime) start))
      (fun _ => Appending ctx dest v d₀ start) (fun _ => Idle ctx dest d₀) := by
  intro s hs
  have hopen := triple_openPart hfit s hs
  cases ho : openPart ctx start s with
  | ok file t =>
    rw [ho] at hopen
    obtain ⟨rfl, hr, hdest, hle, hpart, hothers⟩ := hopen
    rw [beginFile_of_openPart hs.resume ho]
    exact ⟨⟨hr, hdest, rfl, rfl, hpart, hle, hothers⟩, rfl⟩
  | error e t =>
    rw [ho] at hopen
    rw [beginFile_of_openPart_error hs.resume ho]
    exact hopen

lemma take_append_eq {b data : Bytes} {k : ℕ} (h : data <+: b.drop k) :
    b.take k ++ data = b.take (k + data.length) := by
  rw [take_add, ← prefix_iff_eq_take.1 h]

lemma triple_fileData {k : ℕ} {data : Bytes} (hdata : data <+: v.content.drop k) :
    Triple (Appending ctx dest v d₀ k) (apply (.fileData data))
      (fun _ => Appending ctx dest v d₀ (k + data.length)) (fun _ => Dead ctx v d₀) := by
  rintro s ⟨⟨hr, hdest, ha, hfp, hpart, hle, hothers⟩, hfile⟩
  obtain ⟨d', pre, hpre, hcont, hsame, hend⟩ := Disk.append_cases data hpart
  rw [take_append_eq (hpre.trans hdata)] at hcont
  have hq : ∀ q, q ≠ ctx.part → d'.node q = d₀.node q := fun q h => (hsame q h).trans (hothers q h)
  rcases hend with ⟨hok, rfl⟩ | ⟨herr, hdead⟩
  · have hlen := hdata.length_le
    rw [length_drop] at hlen
    rw [fileData_of_writeAll hfile hok]
    exact ⟨⟨hr, hdest, by simp [ha], hfp, hcont, by omega, hq⟩, hfile⟩
  · rw [fileData_of_writeAll_error hfile herr]
    exact ⟨hr, hdead, ⟨_, hcont, List.take_prefix _ _⟩, hq⟩

lemma triple_fileDatas (chunks : List Bytes) : ∀ {k : ℕ}, chunks.flatten <+: v.content.drop k →
    Triple (Appending ctx dest v d₀ k) (applyAll (chunks.map .fileData))
      (fun _ => Appending ctx dest v d₀ (k + chunks.flatten.length)) (fun _ => Dead ctx v d₀) := by
  induction chunks with
  | nil => exact fun _ => Triple.pure fun _ h => h
  | cons c chunks ih =>
    intro k h
    rw [flatten_cons] at h
    refine Triple.bind (triple_fileData ((prefix_append _ _).trans h)) fun _ => ?_
    have hrest : chunks.flatten <+: v.content.drop (k + c.length) := by
      obtain ⟨t, ht⟩ := h
      rw [← drop_drop, ← ht, append_assoc, drop_left]
      exact prefix_append _ _
    rw [flatten_cons, length_append, ← Nat.add_assoc]
    exact ih hrest

lemma triple_endFile (k : ℕ) : Triple (Appending ctx dest v d₀ k) (apply .endFile)
    (fun _ => Holding ctx dest v d₀ k) (fun _ => Dead ctx v d₀) := by
  rintro s ⟨⟨hr, hdest, ha, hfp, hpart, hle, hothers⟩, -⟩
  rw [endFile_disk]
  exact ⟨hr, hdest, ha, hfp, hpart, hle, hothers⟩

lemma triple_endOfStream (k : ℕ) : Triple (Holding ctx dest v d₀ k) (apply .endOfStream)
    (fun _ => Holding ctx dest v d₀ k) (fun _ => Dead ctx v d₀) := by
  rintro s ⟨hr, hdest, ha, hfp, hpart, hle, hothers⟩
  rw [apply, closeFile_disk]
  exact ⟨hr, hdest, ha, hfp, hpart, hle, hothers⟩

/-- The frames of `v`, the file under its name in the stream. -/
def frames (reads : Reads) (rel : Str) (v : RemoteFile) (start : ℕ) : List CopyFrame :=
  fileFrames reads rel v.permissions v.mtime v.content start ++ [.endOfStream]

variable (reads : Reads) (rel : Str) {start : ℕ}

lemma triple_begin (hfit : Fits ctx v d₀ start) :
    Triple (Idle ctx dest d₀)
      (apply (.beginFile rel (v.permissions.getD 0) v.content.length (mtimeOf v.mtime) start))
      (fun _ => Appending ctx dest v d₀ start) (fun _ => Interrupted ctx dest v d₀) :=
  (triple_beginFile hfit).mono (fun _ h => h) (fun _ _ h => h) fun _ _ h => .inl h

lemma triple_datas {chunks : List Bytes} (h : chunks.flatten <+: v.content.drop start) :
    Triple (Appending ctx dest v d₀ start) (applyAll (chunks.map .fileData))
      (fun _ => Appending ctx dest v d₀ (start + chunks.flatten.length))
      (fun _ => Interrupted ctx dest v d₀) :=
  (triple_fileDatas chunks h).mono (fun _ h => h) (fun _ _ h => h) fun _ _ h => .inr (.inr h)

lemma triple_end (k : ℕ) : Triple (Appending ctx dest v d₀ k) (applyAll [.endFile])
    (fun _ => Holding ctx dest v d₀ k) (fun _ => Interrupted ctx dest v d₀) :=
  Triple.bind ((triple_endFile k).mono (fun _ h => h) (fun _ _ h => h) fun _ _ h => .inr (.inr h))
    fun _ => Triple.pure fun _ h => h

lemma triple_eos (k : ℕ) : Triple (Holding ctx dest v d₀ k) (applyAll [.endOfStream])
    (fun _ => Holding ctx dest v d₀ k) (fun _ => Interrupted ctx dest v d₀) :=
  Triple.bind ((triple_endOfStream k).mono (fun _ h => h) (fun _ _ h => h)
    fun _ _ h => .inr (.inr h)) fun _ => Triple.pure fun _ h => h

lemma triple_body : Triple (Appending ctx dest v d₀ start)
    (applyAll ((reads.cut (v.content.drop start)).map .fileData ++ [.endFile]))
    (fun _ => Holding ctx dest v d₀ v.content.length) (fun _ => Interrupted ctx dest v d₀) := by
  intro s hs
  have hflat := reads.flatten_cut (v.content.drop start)
  have hlen : start + (reads.cut (v.content.drop start)).flatten.length = v.content.length := by
    have := hs.1.le
    rw [hflat, length_drop]
    omega
  have hdatas : Triple (Appending ctx dest v d₀ start) _ _ (fun _ => Interrupted ctx dest v d₀) :=
    triple_datas ⟨[], (append_nil _).trans hflat⟩
  rw [hlen] at hdatas
  rw [applyAll_append]
  exact Triple.bind hdatas (fun _ => triple_end _) s hs

lemma triple_frames (hfit : Fits ctx v d₀ start) :
    Triple (Idle ctx dest d₀) (applyAll (frames reads rel v start))
      (fun _ => Holding ctx dest v d₀ v.content.length) (fun _ => Interrupted ctx dest v d₀) := by
  rw [frames, applyAll_append]
  exact Triple.bind (Triple.bind (triple_begin rel hfit) fun _ => triple_body reads)
    fun _ => triple_eos _

lemma triple_cut {fs : List CopyFrame} (hfit : Fits ctx v d₀ start)
    (hfs : fs <+: frames reads rel v start) :
    Triple (Idle ctx dest d₀) (applyAll fs)
      (fun _ => Interrupted ctx dest v d₀) (fun _ => Interrupted ctx dest v d₀) := by
  rcases prefix_concat_iff.1 hfs with rfl | hfs
  · exact (triple_frames reads rel hfit).mono (fun _ h => h) (fun _ _ h => .inr (.inl ⟨_, h⟩))
      fun _ _ h => h
  cases fs with
  | nil => exact Triple.pure fun _ h => .inl h
  | cons f fs =>
    obtain ⟨rfl, hfs'⟩ := cons_prefix_cons.1 hfs
    refine Triple.bind (triple_begin rel hfit) fun _ => ?_
    rcases prefix_concat_iff.1 hfs' with rfl | hfs'
    · exact (triple_body reads).mono (fun _ h => h) (fun _ _ h => .inr (.inl ⟨_, h⟩)) fun _ _ h => h
    · obtain ⟨chunks, hchunks, rfl⟩ := prefix_map_iff.1 hfs'
      have hflat := hchunks.flatten
      rw [reads.flatten_cut] at hflat
      exact (triple_datas hflat).mono (fun _ h => h) (fun _ _ h => .inr (.inl ⟨_, h.1⟩))
        fun _ _ h => h

end Writer

/-! ### The invariant between runs -/

section Disk

variable (F : SidecarFormat) (localPath target remotePath : Str)

/-- The sidecar on the disk, if it parses. -/
def recorded (d : Disk) : Option DownloadSidecar :=
  (d.content (downloadPartPaths localPath).2).bind F.fromStr

/-- What the disk may say to the next run, when `v` is the remote file and `used` are the
fingerprints so far. -/
structure Sound (v : RemoteFile) (used : List (ℕ × ℤ)) (d : Disk) : Prop where
  known : ∀ s, recorded F localPath d = some s → (s.size, s.mtime) ∈ used
  part : ∀ s c, recorded F localPath d = some s → (s.size, s.mtime) = v.fingerprint →
    d.content (downloadPartPaths localPath).1 = some c → c.length = s.offset → c <+: v.content
  notDir : d.node (downloadPartPaths localPath).1 ≠ some .dir

variable {F localPath} {v : RemoteFile} {used : List (ℕ × ℤ)} {d d' : Disk} {s : Sys Disk PathBuf}
  {e : ℕ}

lemma recorded_congr {d : Disk}
    (h : d'.node (downloadPartPaths localPath).2 = d.node (downloadPartPaths localPath).2) :
    recorded F localPath d' = recorded F localPath d := by
  unfold recorded Disk.content
  rw [h]

lemma Sound.of_node (h : Sound F localPath v used d) (hn : d'.node = d.node) :
    Sound F localPath v used d' := by
  have hr : recorded F localPath d' = recorded F localPath d := recorded_congr (by rw [hn])
  have hc : ∀ p, d'.content p = d.content p := fun p => by unfold Disk.content; rw [hn]
  exact ⟨hr ▸ h.known, fun s c hs hfp hp => h.part s c (hr ▸ hs) hfp (hc _ ▸ hp), hn ▸ h.notDir⟩

/-- A `.part` that is a prefix of the current version can be resumed under any sidecar. -/
lemma Sound.of_prefix (known : ∀ s, recorded F localPath d = some s → (s.size, s.mtime) ∈ used)
    {c : Bytes} (hc : d.content (downloadPartPaths localPath).1 = some c) (h : c <+: v.content) :
    Sound F localPath v used d := by
  refine ⟨known, fun s c' _ _ hc' _ => ?_, by simp [Disk.node_of_content hc]⟩
  exact Option.some.inj (hc.symm.trans hc') ▸ h

/-- The offset the daemon honours is one the `.part` bears out. -/
lemma Sound.fits (h : Sound F localPath v used d) (rel : Str) :
    Fits (resumeCtx localPath target remotePath (seedOffset F d localPath target remotePath)) v d
      (resumeStart ((seed F d localPath target remotePath).map (·.hint)).toList rel
        v.content.length (mtimeOf v.mtime)) := by
  rcases resumeStart_cases ((seed F d localPath target remotePath).map (·.hint)).toList rel
    v.content.length (mtimeOf v.mtime) with h0 | ⟨e, he, hstart, hsize, hmtime, hpos, hle⟩
  · exact .inl h0
  right
  cases hseed : seed F d localPath target remotePath with
  | none => simp [hseed] at he
  | some s =>
    obtain ⟨hrec, c, hc, hlen⟩ := seed_eq_some F hseed
    obtain rfl : e = s.hint := by simpa [hseed] using he
    have hpre : c <+: v.content := h.part s c hrec (Prod.ext hsize hmtime) hc hlen
    have hoff : s.hint.offset = s.offset := rfl
    rw [hseed] at hstart
    rw [hstart]
    refine ⟨by simp [resumeCtx, seedOffset, hseed, hoff], hle, hc.trans ?_⟩
    rw [prefix_iff_eq_take.1 hpre, hlen, hoff]

/-! ### One run -/

variable {target remotePath}

variable (localPath target remotePath d) in
lemma Idle.start (e : ℕ) :
    Idle (resumeCtx localPath target remotePath e) (.ofStr localPath) d
      ⟨resumeWriter localPath target remotePath e, d⟩ :=
  ⟨rfl, rfl, rfl, rfl⟩

lemma flushCurrent_disk (file : Option PathBuf) (s : Sys Disk PathBuf) :
    flushCurrent file s = .ok () s := by
  cases file <;> rfl

lemma after_handleFailure {ctx : DownloadResumeCtx} (hr : s.writer.resume = some ctx) :
    (after (handleFailure F) s).fs = if 0 < s.writer.applied then
      after (Disk.write ctx.sidecar (F.toString (failureSidecar s.writer ctx))) s.fs
      else s.fs := by
  unfold after
  simp only [handleFailure, getWriter_bind, hr, setWriter_bind, bind_of_ok (flushCurrent_disk _ _)]
  by_cases h : 0 < s.writer.applied
  · simp only [h, if_true, ignore_eq]
    rfl
  · simp only [h]
    rfl

lemma known_of_node (hd : Sound F localPath v used d)
    (h : d'.node (downloadPartPaths localPath).2 = d.node (downloadPartPaths localPath).2) :
    ∀ s, recorded F localPath d' = some s → (s.size, s.mtime) ∈ used :=
  recorded_congr (F := F) h ▸ hd.known

lemma sound_handleFailure (hd : Sound F localPath v used d) (hv : v.fingerprint ∈ used)
    (hs : Interrupted (resumeCtx localPath target remotePath e) (.ofStr localPath) v d s) :
    Sound F localPath v used (after (handleFailure F) s).fs := by
  have hne : (downloadPartPaths localPath).2 ≠ (downloadPartPaths localPath).1 :=
    sidecar_ne_part localPath
  rcases hs with hidle | ⟨k, hhold⟩ | hdead
  · rw [after_handleFailure hidle.resume, hidle.applied]
    exact hd.of_node hidle.node
  · have hold := known_of_node hd (hhold.others _ hne)
    rw [after_handleFailure hhold.resume]
    split_ifs
    · obtain ⟨hothers, hside⟩ := Disk.after_write_cases (downloadPartPaths localPath).2
        (F.toString (failureSidecar s.writer (resumeCtx localPath target remotePath e))) s.fs
      refine Sound.of_prefix (fun s' hs' => ?_)
        ((Disk.content_congr (hothers _ hne.symm)).trans hhold.part) (List.take_prefix _ _)
      · -- the old sidecar, the new one, or a new one cut short
        rcases hside with hsame | ⟨pre, hpre, hcont⟩
        · exact hold s' (recorded_congr hsame ▸ hs')
        · have hparse : F.fromStr pre = some s' :=
            (congrArg (Option.bind · F.fromStr) hcont).symm.trans hs'
          by_cases hall : pre = F.toString (failureSidecar s.writer
            (resumeCtx localPath target remotePath e))
          · rw [hall, F.fromStr_toString] at hparse
            obtain rfl := Option.some.inj hparse
            exact hhold.fingerprint ▸ hv
          · rw [F.fromStr_cut _ _ hpre hall] at hparse
            cases hparse
    · exact Sound.of_prefix hold hhold.part (List.take_prefix _ _)
  · rw [after_handleFailure hdead.resume, Disk.after_write_dead hdead.budget, ite_self]
    obtain ⟨c', hc', hpre⟩ := hdead.part
    exact Sound.of_prefix (known_of_node hd (hdead.others _ hne)) hc' hpre

lemma after_publish_cases (hr : s.writer.resume = some (resumeCtx localPath target remotePath e)) :
    (∃ err t, publish s = .error err t ∧ t.fs = s.fs) ∨
      ∃ n t, s.fs.node (downloadPartPaths localPath).1 = some n ∧ publish s = .ok () t ∧
        t.fs = after (Disk.removeFile (downloadPartPaths localPath).2)
          ((s.fs.spend 1).moved (downloadPartPaths localPath).1 s.writer.dest n) := by
  rcases Disk.rename_cases (downloadPartPaths localPath).1 s.writer.dest s.fs with
    ⟨n, hn, h⟩ | ⟨err, h⟩
  · exact .inr ⟨n, _, hn, publish_of_rename hr h, rfl⟩
  · exact .inl ⟨_, _, publish_of_rename_error hr h, rfl⟩

lemma after_removeFile_node {p q : PathBuf} (h : q ≠ p) (d : Disk) :
    (after (Disk.removeFile p) d).node q = d.node q := by
  rcases Disk.removeFile_cases p d with hr | ⟨e, hr⟩
  · rw [after_ok hr]
    simp [h]
  · rw [after_error hr]

lemma after_removeFile_self (p : PathBuf) (d : Disk) :
    (after (Disk.removeFile p) d).node p = d.node p ∨
      (after (Disk.removeFile p) d).node p = none := by
  rcases Disk.removeFile_cases p d with hr | ⟨e, hr⟩
  · rw [after_ok hr]
    exact .inr (by simp)
  · rw [after_error hr]
    exact .inl rfl

lemma sound_publish {k : ℕ} (hd : Sound F localPath v used d)
    (hs : Holding (resumeCtx localPath target remotePath e) (.ofStr localPath) v d k s) :
    Sound F localPath v used (after publish s).fs := by
  have hne := sidecar_ne_part localPath
  rcases after_publish_cases hs.resume with ⟨err, t, hp, hfs⟩ | ⟨n, t, hn, hp, hfs⟩
  · rw [after_error hp, hfs]
    exact Sound.of_prefix (known_of_node hd (hs.others _ hne)) hs.part (List.take_prefix _ _)
  · rw [after_ok hp, hfs, hs.dest]
    have hgone := after_removeFile_node hne.symm
      ((s.fs.spend 1).moved (downloadPartPaths localPath).1 (.ofStr localPath) n)
    rw [Disk.moved_node_from (part_ne_dest localPath)] at hgone
    refine ⟨fun s' hs' => ?_, fun _ c _ _ hc => ?_, by simp [hgone]⟩
    · rcases after_removeFile_self (downloadPartPaths localPath).2
        ((s.fs.spend 1).moved (downloadPartPaths localPath).1 (.ofStr localPath) n) with h | h
      · rw [Disk.moved_node_ne n hne (sidecar_ne_dest localPath)] at h
        exact known_of_node hd (h.trans (hs.others _ hne)) s' hs'
      · rw [recorded, Disk.content_eq_none h] at hs'
        cases hs'
    · rw [Disk.content_eq_none hgone] at hc
      cases hc

section Served

variable (remotePath : Str) (reads : Reads) (v : RemoteFile) (hints : List ResumeEntry)

/-- The frames the daemon serves for `v` to a run with these hints. -/
def served : List CopyFrame :=
  (downloadInner reads ⟨.download, remotePath, false, remoteSourceName remotePath, hints⟩ v.node).1

/-- A stream of events that carries the frames of `v`, all of them before a clean end. -/
def Serves (items : List StreamItem) : Prop :=
  (script items).1 <+: served remotePath reads v hints ∧
    ((script items).2 = none → (script items).1 = served remotePath reads v hints)

lemma served_eq :
    ∃ rel rel', served remotePath reads v hints =
      frames reads rel v (resumeStart hints rel' v.content.length (mtimeOf v.mtime)) :=
  ⟨_, _, congrArg Prod.fst (downloadInner_file reads _ v.permissions v.mtime v.content)⟩

end Served

/-- **A run keeps the invariant**, wherever it is cut. -/
theorem sound_run {reads : Reads} {daemon : List ResumeEntry → List StreamItem}
    (hd : Sound F localPath v used d) (hv : v.fingerprint ∈ used)
    (hserves : ∀ hints, Serves remotePath reads v hints (daemon hints)) :
    Sound F localPath v used
      (after (runCopy F true false localPath target remotePath daemon) d) := by
  rw [after_runCopy_resume]
  generalize hhints : ((seed F d localPath target remotePath).map (·.hint)).toList = hints
  obtain ⟨hcut, hall⟩ := hserves hints
  obtain ⟨rel, rel', hframes⟩ := served_eq remotePath reads v hints
  have hfit := hhints ▸ hd.fits target remotePath rel'
  have hidle := Idle.start localPath target remotePath d
    (seedOffset F d localPath target remotePath)
  rw [hframes] at hcut hall
  rcases eventLoop_cases (daemon hints)
      ⟨resumeWriter localPath target remotePath
        (seedOffset F d localPath target remotePath), d⟩ with
    ⟨s, hloop, hexit, happly⟩ | ⟨err, s, hloop, happly⟩
  · -- everything came, and the `.part` is published
    have hend := triple_frames reads rel hfit _ hidle
    rw [← hall hexit, happly] at hend
    rw [after_receive_ok F hloop]
    exact sound_publish hd hend
  · have hend := triple_cut reads rel hfit hcut _ hidle
    rw [after_receive_error F hloop]
    rcases happly with happly | ⟨-, happly⟩ <;> rw [happly] at hend <;>
      exact sound_handleFailure hd hv hend

/-! ### Any number of runs -/

/-- The local disk, the remote file, and the fingerprints of its versions so far. -/
structure World where
  disk : Disk
  remote : RemoteFile
  used : List (ℕ × ℤ)

variable (F localPath target remotePath) in
/-- The remote file is replaced, or the CLI is run once more. A `budget` kills the run in the
middle of its effects; the next process finds the nodes as they are. -/
inductive Step : World → World → Prop
  | replace {w : World} (v : RemoteFile) (fresh : v.fingerprint ∉ w.used) :
    Step w ⟨w.disk, v, v.fingerprint :: w.used⟩
  | run {w : World} (reads : Reads) (daemon : List ResumeEntry → List StreamItem)
    (budget : Option ℕ)
    (serves : ∀ hints, Serves remotePath reads w.remote hints (daemon hints)) :
    Step w { w with disk :=
      { after (runCopy F true false localPath target remotePath daemon) { w.disk with budget } with
        budget := none } }

variable (F localPath) in
structure Good (w : World) : Prop where
  sound : Sound F localPath w.remote w.used w.disk
  current : w.remote.fingerprint ∈ w.used
  live : w.disk.budget = none

lemma Good.step {w w' : World} (hw : Good F localPath w)
    (h : Step F localPath target remotePath w w') : Good F localPath w' := by
  obtain ⟨hsound, hcur, hlive⟩ := hw
  cases h with
  | replace v fresh =>
    refine ⟨⟨fun s hs => mem_cons_of_mem _ (hsound.known s hs), fun s c hs hfp => ?_,
      hsound.notDir⟩, mem_cons_self, hlive⟩
    -- the sidecar is about a version that was used, and `v` was not
    exact absurd (hfp ▸ hsound.known s hs) fresh
  | run reads daemon budget serves =>
    have hfound : Sound F localPath w.remote w.used { w.disk with budget } := hsound.of_node rfl
    exact ⟨(sound_run hfound hcur serves).of_node rfl, hcur, rfl⟩

lemma Good.run {w w' : World} (hw : Good F localPath w)
    (h : Relation.ReflTransGen (Step F localPath target remotePath) w w') :
    Good F localPath w' := by
  induction h with
  | refl => exact hw
  | tail _ hstep ih => exact ih.step hstep

/-! ### The last run -/

lemma takesAll_body (e : ℕ) (chunks : List Bytes) :
    takesAll e true (chunks.map .fileData ++ [.endFile, .endOfStream]) := by
  induction chunks with
  | nil => rfl
  | cons c chunks ih => simpa [takesAll, takes, opens] using ih

/-- A run that is not killed, with a destination that is no directory, applies all frames and
is ready to publish. -/
lemma applyAll_live (reads : Reads) (rel : Str) {start : ℕ}
    (hfit : Fits (resumeCtx localPath target remotePath e) v d start) (hlive : d.budget = none)
    (hpart : d.node (downloadPartPaths localPath).1 ≠ some .dir)
    (hdir : d.node (.ofStr localPath) ≠ some .dir) :
    ∃ s isOpen, applyAll (frames reads rel v start)
        ⟨resumeWriter localPath target remotePath e, d⟩ = .ok () s ∧
      Ready (resumeCtx localPath target remotePath e) isOpen s := by
  have hopen : ∃ fs c, openPart (resumeCtx localPath target remotePath e) start
      ⟨resumeWriter localPath target remotePath e, d⟩ = .ok (downloadPartPaths localPath).1
        ⟨resumeWriter localPath target remotePath e, fs⟩ ∧ fs.budget = none ∧
      fs.content (downloadPartPaths localPath).1 = some c ∧
      fs.node (.ofStr localPath) ≠ some .dir := by
    rcases Nat.eq_zero_or_pos start with rfl | hpos
    · refine ⟨_, [], openPart_fresh hlive hpart, hlive, by simp [resumeCtx], ?_⟩
      simpa [resumeCtx, (part_ne_dest localPath).symm] using hdir
    · obtain ⟨he, -, hc⟩ := hfit.resolve_left (by omega)
      exact ⟨d, _, openPart_resume hpos he hc, hlive, hc, hdir⟩
  obtain ⟨fs, c, hopen, hlive', hc, hdir'⟩ := hopen
  let begun : Sys Disk PathBuf :=
    ⟨(resumeWriter localPath target remotePath e).begun (downloadPartPaths localPath).1
      (downloadPartPaths localPath).1 start v.content.length (mtimeOf v.mtime) rel, fs⟩
  have hbegin : apply (.beginFile rel (v.permissions.getD 0) v.content.length (mtimeOf v.mtime)
      start) ⟨resumeWriter localPath target remotePath e, d⟩ = .ok () begun :=
    beginFile_of_openPart rfl hopen
  have hready : Ready (resumeCtx localPath target remotePath e) true begun :=
    ⟨⟨rfl, rfl, rfl⟩, fun _ h => (Option.some.inj h).symm, (part_ne_dest localPath).symm, hlive',
      ⟨c, hc⟩, hdir'⟩
  obtain ⟨s, isOpen, hrest, hs, -⟩ :=
    hready.applyAll (takesAll_body e (reads.cut (v.content.drop start)))
  refine ⟨s, isOpen, ?_, hs⟩
  rw [frames, fileFrames, cons_append, append_assoc]
  exact (bind_of_ok hbegin).trans hrest

lemma content_published {t : Sys Disk PathBuf}
    (hs : Holding (resumeCtx localPath target remotePath e) (.ofStr localPath) v d
      v.content.length s) (hpub : publish s = .ok () t) :
    t.fs.content (.ofStr localPath) = some v.content := by
  rcases after_publish_cases hs.resume with ⟨err, t', hp, -⟩ | ⟨n, t', hn, hp, hfs⟩
  · rw [hpub] at hp
    cases hp
  · obtain ⟨-, rfl⟩ := EStateM.Result.ok.inj (hpub.symm.trans hp)
    have hfile : n = .file v.content := by
      have hfull := Disk.node_of_content hs.part
      rw [take_length] at hfull
      exact Option.some.inj (hn.symm.trans hfull)
    apply Disk.content_of_node
    rw [hfs, hs.dest, after_removeFile_node (sidecar_ne_dest localPath).symm, Disk.moved_node_to,
      hfile]

lemma publish_ready {ctx : DownloadResumeCtx} {isOpen : Bool} (hs : Ready ctx isOpen s) :
    ∃ t, publish s = .ok () t := by
  obtain ⟨c, hc⟩ := hs.part
  exact ⟨_, publish_of_rename hs.writer.resume
    (Disk.rename_live hs.live (Disk.node_of_content hc) hs.notDir)⟩

variable (F localPath target remotePath) in
/-- **A download resumed over any number of runs ends in the remote file.** From a disk with
no `.part` and no sidecar, after any cut runs and replacements of the remote file, a run that
gets all frames and is not killed publishes the file as it is then, or reports the directory
in its place. -/
theorem resumed_download_exact (d : Disk) (v : RemoteFile)
    (hpart : d.node (downloadPartPaths localPath).1 = none)
    (hmeta : d.node (downloadPartPaths localPath).2 = none) (hlive : d.budget = none)
    (w : World)
    (hsteps : Relation.ReflTransGen (Step F localPath target remotePath)
      ⟨d, v, [v.fingerprint]⟩ w)
    (reads : Reads) (daemon : List ResumeEntry → List StreamItem)
    (hserved : ∀ hints, script (daemon hints) = (served remotePath reads w.remote hints, none)) :
    match runCopy F true false localPath target remotePath daemon w.disk with
    | .ok _ d' => d'.content (.ofStr localPath) = some w.remote.content
    | .error _ _ => w.disk.node (.ofStr localPath) = some .dir := by
  have hstart : Good F localPath ⟨d, v, [v.fingerprint]⟩ := by
    have hnone : recorded F localPath d = none := by simp [recorded, Disk.content_eq_none hmeta]
    refine ⟨⟨fun s hs => ?_, fun s c hs => ?_, by simp [hpart]⟩, mem_cons_self, hlive⟩
    all_goals rw [hnone] at hs; cases hs
  obtain ⟨hsound, -, hlive'⟩ := hstart.run hsteps
  generalize hhints : ((seed F w.disk localPath target remotePath).map (·.hint)).toList = hints
  obtain ⟨rel, rel', hframes⟩ := served_eq remotePath reads w.remote hints
  have hfit := hhints ▸ hsound.fits target remotePath rel'
  have hscript := (hserved hints).trans (congrArg (·, none) hframes)
  rw [runCopy_resume, hhints]
  rcases eventLoop_cases (daemon hints) ⟨resumeWriter localPath target remotePath
      (seedOffset F w.disk localPath target remotePath), w.disk⟩ with
    ⟨s, hloop, -, happly⟩ | ⟨err, s, hloop, happly⟩
  · have hend := triple_frames reads rel hfit _ (Idle.start _ _ _ _ _)
    rw [hscript] at happly
    rw [happly] at hend
    rw [receive_ok F hloop]
    cases hpub : publish s with
    | ok _ t => exact content_published hend hpub
    | error e t =>
      -- only a directory keeps a ready writer from publishing
      by_contra hdir
      obtain ⟨s', isOpen, hs', hready⟩ := applyAll_live reads rel hfit hlive'
        hsound.notDir hdir
      obtain ⟨-, rfl⟩ := EStateM.Result.ok.inj (happly.symm.trans hs')
      obtain ⟨t', ht'⟩ := publish_ready hready
      rw [hpub] at ht'
      cases ht'
  · obtain ⟨t, ht⟩ := receive_error F hloop
    rw [ht]
    by_contra hdir
    obtain ⟨s', isOpen, hs', -⟩ := applyAll_live reads rel hfit hlive'
      hsound.notDir hdir
    rw [hscript, hs'] at happly
    rcases happly with happly | ⟨hexit, -⟩
    · cases happly
    · cases hexit

/-- The events of a transfer of `v` cut after `n` frames. -/
def cutAfter (remotePath : Str) (v : RemoteFile) (n : ℕ) (hints : List ResumeEntry) :
    List StreamItem :=
  streamed ((served remotePath .full v hints).take n) [.failed]

/-- The events of a whole transfer of `v`. -/
def whole (remotePath : Str) (v : RemoteFile) (hints : List ResumeEntry) : List StreamItem :=
  streamed (served remotePath .full v hints) [.message (some (.complete []))]

/-- A download cut after its first data frame, taken up by a second run. -/
theorem resumed_download_exact_after_cut :
    let v : RemoteFile := ⟨none, some 7, [1, 2]⟩
    let run := runCopy SidecarJson.strict true false "f" "host" "/f"
    let d : Disk := { after (run (cutAfter "/f" v 2)) ⟨fun _ => none, none, []⟩ with
      budget := none }
    match run (whole "/f" v) d with
    | .ok _ d' => d'.content (.ofStr "f") = some v.content
    | .error _ _ => d.node (.ofStr "f") = some .dir := by
  generalize "f" = localPath, "host" = target, "/f" = remotePath
  intro v run d
  refine resumed_download_exact SidecarJson.strict localPath target remotePath
    ⟨fun _ => none, none, []⟩ v rfl rfl rfl ⟨d, v, [v.fingerprint]⟩ (.single ?_) .full
    (whole remotePath v) fun hints => ?_
  · refine Step.run .full (cutAfter remotePath v 2) none fun hints => ?_
    rw [Serves, cutAfter, script_streamed]
    exact ⟨by simpa [script] using List.take_prefix _ _, fun h => by cases h⟩
  · rw [whole, script_streamed]
    exact Prod.ext (append_nil _) rfl

end Disk

end CrossHostOps.ResumeDownload
