import CrossHostOps.RetryDownload

/-!
Whether a retried download is byte exact.

The daemon says in `BeginFile.start_offset` where its second attempt starts. The writer takes
that offset only for the one its own sidecar promised; a writer without a sidecar does not
look at it, and starts the file afresh with what is left of it.
-/

namespace CrossHostOps.ByteExact

open Text Filepath Frames FileSystem DownloadWriter RunCopy Hoare LiveWriter List
open Shell ShellDownload RetryDownload

/-- What the CLI asks the daemon for. -/
def downloadSpec (recursive : Bool) (remotePath : Str) (hints : List ResumeEntry) : CopySpec :=
  ⟨.download, remotePath, recursive, remoteSourceName remotePath, hints⟩

def lastEvent : Except Str Unit → StreamItem
  | .ok _ => .message (some (.complete []))
  | .error e => .message (some (.error e))

/-- The events of a copy of `spec`. -/
def relayed (sh₁ sh₂ : PtyShell) (spec : CopySpec) : List StreamItem :=
  let (frames, result) := copy (.ok sh₁) (.ok sh₂) spec
  streamed frames [lastEvent result]

variable {F : SidecarFormat} {sh₁ sh₂ : PtyShell} {spec : CopySpec} {v : RemoteFile}
  {frames : List CopyFrame} {s s' t : Sys Disk PathBuf} {ctx : DownloadResumeCtx}
  {dest P : PathBuf} {n : Option Node} {c : Bytes}

section Outcome

lemma eventLoop_completed (frames : List CopyFrame) (s : Sys Disk PathBuf) :
    eventLoop (streamed frames [lastEvent (.ok ())]) s = applyAll frames s := by
  rw [eventLoop_eq, script_streamed]
  simp only [lastEvent, script, append_nil]
  cases h : applyAll frames s with
  | ok _ t => rw [bind_of_ok h]; rfl
  | error e t => rw [bind_of_error h]

/-- The run, if it returns Ok, leaves the remote file at `P`. -/
def Exact (F : SidecarFormat) (sh₁ sh₂ : PtyShell) (spec : CopySpec) (v : RemoteFile) (P : PathBuf)
    (s : Sys Disk PathBuf) : Prop :=
  ∀ d', dropWriter (receive F (relayed sh₁ sh₂ spec) s) = .ok () d' →
    d'.content P = some v.content

lemma exact_of_copy_error {e : Str} (hcopy : copy (.ok sh₁) (.ok sh₂) spec = (frames, .error e)) :
    Exact F sh₁ sh₂ spec v P s := by
  intro d' hok
  rw [relayed, hcopy] at hok
  rcases eventLoop_cases (streamed frames [lastEvent (.error e)]) s with
    ⟨s', -, hexit, -⟩ | ⟨e', s', hloop, -⟩
  · rw [script_streamed] at hexit
    cases hexit
  · obtain ⟨t, ht⟩ := receive_error F hloop
    rw [ht] at hok
    cases hok

lemma exact_iff_of_ok (h : ∃ d',
      dropWriter (receive F (relayed sh₁ sh₂ spec) s) = .ok () d' ∧ d'.content P = some c) :
    Exact F sh₁ sh₂ spec v P s ↔ c = v.content := by
  obtain ⟨d₁, hrun, hc⟩ := h
  constructor
  · intro hall
    exact Option.some.inj (hc.symm.trans (hall d₁ hrun))
  · rintro rfl d' hok
    obtain ⟨-, rfl⟩ := EStateM.Result.ok.inj (hrun.symm.trans hok)
    exact hc

variable (hcopy : copy (.ok sh₁) (.ok sh₂) spec = (frames, .ok ()))

include hcopy

lemma exact_of_apply_error {e : CliError} (h : applyAll frames s = .error e t) :
    Exact F sh₁ sh₂ spec v P s := by
  intro d' hok
  rw [relayed, hcopy] at hok
  obtain ⟨t', ht⟩ := receive_error F ((eventLoop_completed frames s).trans h)
  rw [ht] at hok
  cases hok

lemma receive_relayed (h : applyAll frames s = .ok () s') :
    receive F (relayed sh₁ sh₂ spec) s = publish s' := by
  rw [relayed, hcopy]
  exact receive_ok F ((eventLoop_completed frames s).trans h)

/-- The outcome of a run that writes straight to `P`. -/
lemma receive_plain (h : applyAll frames s = .ok () s')
    (hres : s'.writer.resume = none) (hc : s'.fs.content P = some c) :
    ∃ d', dropWriter (receive F (relayed sh₁ sh₂ spec) s) = .ok () d' ∧ d'.content P = some c := by
  have hpub : publish s' = .ok () s' := by
    simp only [publish, getWriter_bind, hres]
    rfl
  rw [receive_relayed hcopy h, hpub]
  exact ⟨s'.fs, rfl, hc⟩

/-- The outcome of a run that publishes its `.part`. -/
lemma exact_part (h : applyAll frames s = .ok () s') (hs : PartHolds ctx dest n c s')
    (hne : dest ≠ ctx.part) (hne' : dest ≠ ctx.sidecar) :
    Exact F sh₁ sh₂ spec v dest s ↔ n = some .dir ∨ c = v.content := by
  have hpub := hs.publish hne hne'
  split_ifs at hpub with hdir
  · obtain ⟨e, t, hpub⟩ := hpub
    rw [Exact, receive_relayed hcopy h, hpub]
    exact iff_of_true (by rintro d' ⟨⟩) (.inl hdir)
  · obtain ⟨t, hpub, hc⟩ := hpub
    rw [exact_iff_of_ok ⟨t.fs, by rw [receive_relayed hcopy h, hpub]; rfl, hc⟩]
    simp [hdir]

end Outcome

section Run

variable {name : Str} {start : ℕ}

/-- The first attempt forwarded bytes of the file, and stalled inside it. -/
def StalledInside (sh : PtyShell) (spec : CopySpec) (v : RemoteFile) : Prop :=
  Begins sh spec.remotePath ∧ (answer sh spec v).2 ≠ .ok 0 ∧ (answer sh spec v).1.flatten ≠ []

lemma whole_plain (hres : s.writer.resume = none)
    (hlive : s.fs.budget = none) (hland : landing s.writer s.fs name = P)
    (hP : s.fs.node P ≠ some .dir) (hw : Whole name v start frames) :
    ∃ s', applyAll frames s = .ok () s' ∧ s'.writer.resume = none ∧
      s'.fs.content P = some (v.content.drop start) := by
  subst hland
  obtain ⟨chunks, hchunks, rfl⟩ := hw
  obtain ⟨s₁, h₁, hs₁⟩ := opening_plain hres hlive hP v start chunks
  exact ⟨_, (applyAll_append_of_ok h₁ _).trans (applyAll_closing s₁), hs₁.resume,
    hchunks ▸ hs₁.content⟩

lemma whole_fresh (hres : s.writer.resume = some ctx) (hlive : s.fs.budget = none)
    (hne : s.writer.dest ≠ ctx.part) (hp : s.fs.node ctx.part ≠ some .dir)
    (hw : Whole name v 0 frames) :
    ∃ s', applyAll frames s = .ok () s' ∧
      PartHolds ctx s.writer.dest (s.fs.node s.writer.dest) v.content s' := by
  obtain ⟨chunks, hchunks, rfl⟩ := hw
  obtain ⟨s₁, h₁, hs₁⟩ := opening_fresh hres hlive hne hp name v chunks
  rw [hchunks] at hs₁
  exact ⟨_, (applyAll_append_of_ok h₁ _).trans (applyAll_closing s₁), hs₁.resume, hs₁.live,
    hs₁.part, hs₁.node, hs₁.dest⟩

lemma whole_resume (hs : PartHolds ctx dest n c s) (hne : dest ≠ ctx.part) (h0 : 0 < start)
    (he : start = ctx.expectedOffset) (hw : Whole name v start frames) :
    ∃ s', applyAll frames s = .ok () s' ∧ PartHolds ctx dest n (c ++ v.content.drop start) s' := by
  obtain ⟨chunks, hchunks, rfl⟩ := hw
  obtain ⟨s₁, h₁, hs₁⟩ := hs.opening_resume hne h0 he name v chunks
  rw [hchunks] at hs₁
  exact ⟨_, (applyAll_append_of_ok h₁ _).trans (applyAll_closing s₁), hs₁.resume, hs₁.live,
    hs₁.part, hs₁.node, hs₁.dest⟩

lemma append_drop_iff {b : Bytes} (h : start ≤ b.length) :
    c ++ b.drop start = b ↔ c = b.take start := by
  constructor
  · intro heq
    have hlen := congrArg length heq
    rw [length_append, length_drop] at hlen
    have hc : c.length = start := by omega
    rw [← hc, ← heq, take_left]
  · rintro rfl
    exact take_append_drop start b

section Retried

variable (h : Retried sh₁ sh₂ spec v)

include h

lemma exact_of_dir (hres : s.writer.resume = none)
    (hP : s.fs.node (landing s.writer s.fs (entryName spec)) = some .dir) :
    Exact F sh₁ sh₂ spec v P s := by
  rcases h.cases with ⟨-, _, ⟨chunks, -, rfl⟩, hcopy⟩ | ⟨-, -, frames, -, hcopy⟩ |
    ⟨-, frames, e, hcopy⟩
  · obtain ⟨e, t, he⟩ := opening_plain_dir hres hP v (startOf spec v) chunks
      [.endFile, .endOfStream]
    exact exact_of_apply_error hcopy he
  · obtain ⟨e, t, he⟩ := opening_plain_dir hres hP v (startOf spec v) (answer sh₁ spec v).1 frames
    exact exact_of_apply_error hcopy he
  · exact exact_of_copy_error hcopy

/-- Without a sidecar, the second `BeginFile` truncates what the first attempt delivered. -/
lemma receive_cut (hb : Begins sh₁ spec.remotePath) (hread : (answer sh₁ spec v).2 ≠ .ok 0)
    (hres : s.writer.resume = none) (hlive : s.fs.budget = none)
    (hP : s.fs.node (landing s.writer s.fs (entryName spec)) ≠ some .dir) :
    ∃ d', dropWriter (receive F (relayed sh₁ sh₂ spec) s) = .ok () d' ∧
      d'.content (landing s.writer s.fs (entryName spec)) =
        some (v.content.drop (reached sh₁ spec v)) := by
  rcases h.cases with ⟨hn, -⟩ | ⟨-, -, frames, hw, hcopy⟩ | ⟨hafter, -⟩
  · exact absurd hb hn
  · obtain ⟨s₁, h₁, hs₁⟩ := opening_plain hres hlive hP v (startOf spec v) (answer sh₁ spec v).1
    have hfile : s₁.fs.node (landing s.writer s.fs (entryName spec)) ≠ some .dir := by
      simp [Disk.node_of_content hs₁.content]
    obtain ⟨s', hs', hres', hc⟩ := whole_plain hs₁.resume hs₁.live hs₁.landing hfile hw
    exact receive_plain hcopy ((applyAll_append_of_ok h₁ frames).trans hs') hres' hc
  · exact absurd hafter.2 hread

lemma plain_iff (hfresh : startOf spec v = 0) (hres : s.writer.resume = none)
    (hlive : s.fs.budget = none) :
    Exact F sh₁ sh₂ spec v (landing s.writer s.fs (entryName spec)) s ↔
      s.fs.node (landing s.writer s.fs (entryName spec)) = some .dir ∨
        ¬ StalledInside sh₁ spec v := by
  by_cases hP : s.fs.node (landing s.writer s.fs (entryName spec)) = some .dir
  · exact iff_of_true (exact_of_dir h hres hP) (.inl hP)
  rcases h.cases with ⟨hb, frames, hw, hcopy⟩ | ⟨hb, hread, -⟩ | ⟨hafter, frames, e, hcopy⟩
  · obtain ⟨s', hs', hres', hc⟩ := whole_plain hres hlive rfl hP hw
    rw [exact_iff_of_ok (receive_plain hcopy hs' hres' hc), hfresh]
    simp [StalledInside, hb]
  · rw [exact_iff_of_ok (receive_cut h hb hread hres hlive hP)]
    have hle := reached_le h.first
    have hdrop : v.content.drop (reached sh₁ spec v) = v.content ↔ reached sh₁ spec v = 0 := by
      constructor
      · intro heq
        have hlen := congrArg length heq
        rw [length_drop] at hlen
        omega
      · intro h0
        rw [h0, drop_zero]
    have hinside : StalledInside sh₁ spec v ↔ (answer sh₁ spec v).1.flatten ≠ [] :=
      ⟨fun h => h.2.2, fun h => ⟨hb, hread, h⟩⟩
    rw [hdrop, reached, hfresh, Nat.zero_add, length_eq_zero_iff]
    tauto
  · exact iff_of_true (exact_of_copy_error hcopy) (.inr fun hin => hin.2.1 hafter.2)

/-- A resuming run that starts from nothing is exact: a second `BeginFile` is taken only at
the offset the `.part` has. -/
lemma exact_of_fresh (hfresh : startOf spec v = 0) (hres : s.writer.resume = some ctx)
    (hlive : s.fs.budget = none) (hne : s.writer.dest ≠ ctx.part)
    (hne' : s.writer.dest ≠ ctx.sidecar) :
    Exact F sh₁ sh₂ spec v s.writer.dest s := by
  rcases h.cases with ⟨-, frames, hw, hcopy⟩ | ⟨-, -, frames, hw, hcopy⟩ | ⟨-, frames, e, hcopy⟩
  · rw [hfresh] at hw
    by_cases hp : s.fs.node ctx.part = some .dir
    · obtain ⟨chunks, -, rfl⟩ := hw
      obtain ⟨e, t, he⟩ := opening_dir hres hp (entryName spec) v chunks
      exact exact_of_apply_error hcopy (applyAll_append_of_error he _)
    · obtain ⟨s', hs', hholds⟩ := whole_fresh hres hlive hne hp hw
      exact (exact_part hcopy hs' hholds hne hne').2 (.inr rfl)
  · by_cases hp : s.fs.node ctx.part = some .dir
    · obtain ⟨e, t, he⟩ := opening_dir hres hp (entryName spec) v (answer sh₁ spec v).1
      rw [← hfresh] at he
      exact exact_of_apply_error hcopy (applyAll_append_of_error he _)
    obtain ⟨s₁, h₁, hs₁⟩ := opening_fresh hres hlive hne hp (entryName spec) v (answer sh₁ spec v).1
    rw [← hfresh] at h₁
    rcases Nat.eq_zero_or_pos (reached sh₁ spec v) with h0 | h0
    · -- nothing was delivered: the second attempt truncates an empty file
      rw [h0] at hw
      have hfile : s₁.fs.node ctx.part ≠ some .dir := by simp [Disk.node_of_content hs₁.part]
      obtain ⟨s', hs', hholds⟩ := whole_fresh hs₁.resume hs₁.live (hs₁.dest ▸ hne) hfile hw
      rw [hs₁.dest] at hholds
      exact (exact_part hcopy ((applyAll_append_of_ok h₁ _).trans hs') hholds hne hne').2 (.inr rfl)
    · by_cases he : reached sh₁ spec v = ctx.expectedOffset
      · obtain ⟨s', hs', hholds⟩ := whole_resume hs₁ hne h0 he hw
        refine (exact_part hcopy ((applyAll_append_of_ok h₁ _).trans hs') hholds hne hne').2
          (.inr ?_)
        have hpre : (answer sh₁ spec v).1.flatten <+: v.content := by
          have := h.first.read (startOf spec v)
          rwa [hfresh, drop_zero, ← hfresh] at this
        rw [append_drop_iff (reached_le h.first), reached, hfresh, Nat.zero_add]
        exact prefix_iff_eq_take.1 hpre
      · obtain ⟨chunks, -, rfl⟩ := hw
        obtain ⟨e, t, herr⟩ := opening_mismatch hs₁.resume h0 he (entryName spec) v chunks
        have happly := (applyAll_append_of_ok h₁ _).trans
          (applyAll_append_of_error herr [.endFile, .endOfStream])
        exact exact_of_apply_error hcopy happly
  · exact exact_of_copy_error hcopy

/-- A resuming run that appends to a `.part` it found. -/
lemma exact_of_part (h0 : 0 < startOf spec v) (he : startOf spec v = ctx.expectedOffset)
    (hs : PartHolds ctx dest n c s) (hne : dest ≠ ctx.part) (hne' : dest ≠ ctx.sidecar) :
    Exact F sh₁ sh₂ spec v dest s ↔ c = v.content.take (startOf spec v) ∨ n = some .dir ∨
      StalledInside sh₁ spec v ∨ StalledAfter sh₁ spec v := by
  have hle := startOf_le spec v
  rcases h.cases with ⟨hb, frames, hw, hcopy⟩ | ⟨hb, hread, frames, hw, hcopy⟩ |
    ⟨hafter, frames, e, hcopy⟩
  · obtain ⟨s', hs', hholds⟩ := whole_resume hs hne h0 he hw
    rw [exact_part hcopy hs' hholds hne hne', append_drop_iff hle]
    simp only [StalledInside, StalledAfter, hb, false_and, or_false]
    exact or_comm
  · obtain ⟨s₁, h₁, hs₁⟩ := hs.opening_resume hne h0 he (entryName spec) v (answer sh₁ spec v).1
    have hafter : ¬ StalledAfter sh₁ spec v := fun hin => hread hin.2
    by_cases hnil : (answer sh₁ spec v).1.flatten = []
    · have hreached : reached sh₁ spec v = startOf spec v := by
        rw [reached, hnil, length_nil, Nat.add_zero]
      rw [hreached] at hw
      rw [hnil, append_nil] at hs₁
      obtain ⟨s', hs', hholds⟩ := whole_resume hs₁ hne h0 he hw
      rw [exact_part hcopy ((applyAll_append_of_ok h₁ _).trans hs') hholds hne hne',
        append_drop_iff hle]
      have hinside : ¬ StalledInside sh₁ spec v := fun hin => hin.2.2 hnil
      tauto
    · -- the second attempt starts past the offset the writer was promised
      obtain ⟨chunks, -, rfl⟩ := hw
      have hpos := length_pos_iff.2 hnil
      have hbeyond : startOf spec v < reached sh₁ spec v := by unfold reached; omega
      obtain ⟨e, t, herr⟩ := opening_mismatch hs₁.resume (h0.trans hbeyond)
        (he ▸ hbeyond.ne') (entryName spec) v chunks
      have happly := (applyAll_append_of_ok h₁ _).trans
        (applyAll_append_of_error herr [.endFile, .endOfStream])
      exact iff_of_true (exact_of_apply_error hcopy happly)
        (.inr (.inr (.inl ⟨hb, hread, hnil⟩)))
  · exact iff_of_true (exact_of_copy_error hcopy) (.inr (.inr (.inr hafter)))

end Retried

end Run

section Cli

variable (F) (resume recursive : Bool) (localPath target remotePath : Str)
  (d : Disk)

def startHints : List ResumeEntry :=
  if resume ∧ ¬ recursive then ((seed F d localPath target remotePath).map (·.hint)).toList else []

def startSpec : CopySpec :=
  downloadSpec recursive remotePath (startHints F resume recursive localPath target remotePath d)

/-- The writer of a run without a sidecar. -/
def plainWriter : CopyDownloadWriter PathBuf :=
  .new (.ofStr localPath) recursive (remoteSourceName remotePath) none

/-- Where the run is to leave the file. -/
def destination : PathBuf :=
  if resume ∧ ¬ recursive then .ofStr localPath
  else landing (plainWriter recursive localPath remotePath) d
    (entryName (downloadSpec recursive remotePath []))

lemma startOf_nil (v : RemoteFile) : startOf (downloadSpec recursive remotePath []) v = 0 := rfl

/-- The daemon accepts the offset of the sidecar, or starts over. -/
lemma startOf_seed (v : RemoteFile) :
    let spec := downloadSpec recursive remotePath
      ((seed F d localPath target remotePath).map (·.hint)).toList
    startOf spec v = 0 ∨ startOf spec v = seedOffset F d localPath target remotePath ∧
      ∃ c, d.content (downloadPartPaths localPath).1 = some c := by
  intro spec
  rcases hintedStart_cases (.ofEntries spec.resume) (entryName spec) v.content.length v.mtime with
    h | ⟨e, he, -, h⟩
  · exact .inl h
  · refine .inr ?_
    cases hseed : seed F d localPath target remotePath with
    | none =>
      simp only [spec, hseed] at he
      cases he
    | some sidecar =>
      obtain ⟨-, c, hc, -⟩ := seed_eq_some F hseed
      simp only [spec, downloadSpec, hseed, Option.map_some, Option.toList_some,
        ResumeLedger.ofEntries, foldl_cons, foldl_nil, ResumeLedger.hint_insert] at he
      split_ifs at he
      · cases he
        refine ⟨?_, c, hc⟩
        rw [startOf, h, seedOffset, hseed]
        rfl
      · cases he

variable {F resume recursive localPath target remotePath d}

lemma resumed_iff (hlive : d.budget = none)
    (h : Retried sh₁ sh₂ (startSpec F true false localPath target remotePath d) v) :
    (∀ d', runCopy F true false localPath target remotePath
        (fun hints => relayed sh₁ sh₂ (downloadSpec false remotePath hints)) d = .ok () d' →
      d'.content (.ofStr localPath) = some v.content) ↔
    startOf (startSpec F true false localPath target remotePath d) v = 0 ∨
      d.content (downloadPartPaths localPath).1 =
        some (v.content.take (startOf (startSpec F true false localPath target remotePath d) v)) ∨
      d.node (.ofStr localPath) = some .dir ∨
      StalledInside sh₁ (startSpec F true false localPath target remotePath d) v ∨
      StalledAfter sh₁ (startSpec F true false localPath target remotePath d) v := by
  have hspec : startSpec F true false localPath target remotePath d =
      downloadSpec false remotePath ((seed F d localPath target remotePath).map (·.hint)).toList :=
    congrArg (downloadSpec false remotePath) (if_pos (by simp))
  have hstart := startOf_seed F false localPath target remotePath d v
  rw [← hspec] at hstart
  simp only [runCopy_resume]
  have hne := (part_ne_dest localPath).symm
  have hne' := (sidecar_ne_dest localPath).symm
  rcases Nat.eq_zero_or_pos (startOf (startSpec F true false localPath target remotePath d) v)
    with h0 | h0
  · exact iff_of_true (exact_of_fresh h h0 rfl hlive hne hne') (.inl h0)
  · obtain ⟨he, c, hc⟩ := hstart.resolve_left h0.ne'
    have hholds : PartHolds (resumeCtx localPath target remotePath
        (seedOffset F d localPath target remotePath)) (.ofStr localPath)
        (d.node (.ofStr localPath)) c ⟨resumeWriter localPath target remotePath
        (seedOffset F d localPath target remotePath), d⟩ := ⟨rfl, hlive, hc, rfl, rfl⟩
    refine (exact_of_part h h0 he hholds hne hne').trans ?_
    rw [hc]
    simp [h0.ne']

lemma runCopy_plain (hmode : ¬ (resume ∧ ¬ recursive))
    (serve : List ResumeEntry → List StreamItem) :
    runCopy F resume recursive localPath target remotePath serve d =
      dropWriter (receive F (serve []) ⟨plainWriter recursive localPath remotePath, d⟩) := by
  simp only [runCopy, prepareDownload, if_neg hmode]
  rfl

/-- **When a retried download is byte exact.** Without `--resume` the file must not have been
cut inside: the writer starts it over at the second `BeginFile`, with what is left of it. With
`--resume` it is exact unless it was wrong from the start, since an offset the sidecar did not
promise ends the run. -/
theorem retried_download_exact_iff (hlive : d.budget = none)
    (h : Retried sh₁ sh₂ (startSpec F resume recursive localPath target remotePath d) v) :
    (∀ d', runCopy F resume recursive localPath target remotePath
        (fun hints => relayed sh₁ sh₂ (downloadSpec recursive remotePath hints)) d = .ok () d' →
      d'.content (destination resume recursive localPath remotePath d) = some v.content) ↔
    if resume ∧ ¬ recursive then
      startOf (startSpec F resume recursive localPath target remotePath d) v = 0 ∨
        d.content (downloadPartPaths localPath).1 = some (v.content.take
          (startOf (startSpec F resume recursive localPath target remotePath d) v)) ∨
        d.node (.ofStr localPath) = some .dir ∨
        StalledInside sh₁ (startSpec F resume recursive localPath target remotePath d) v ∨
        StalledAfter sh₁ (startSpec F resume recursive localPath target remotePath d) v
    else
      d.node (destination resume recursive localPath remotePath d) = some .dir ∨
        ¬ StalledInside sh₁ (startSpec F resume recursive localPath target remotePath d) v := by
  by_cases hmode : resume ∧ ¬ recursive
  · have hdest : destination resume recursive localPath remotePath d = .ofStr localPath :=
      if_pos hmode
    obtain ⟨rfl, hrec⟩ := hmode
    obtain rfl : recursive = false := by simpa using hrec
    exact resumed_iff hlive h
  · have hspec : startSpec F resume recursive localPath target remotePath d =
        downloadSpec recursive remotePath [] :=
      congrArg (downloadSpec recursive remotePath) (if_neg hmode)
    have hdest : destination resume recursive localPath remotePath d =
        landing (plainWriter recursive localPath remotePath) d
          (entryName (downloadSpec recursive remotePath [])) := if_neg hmode
    rw [if_neg hmode, hdest, hspec]
    simp only [runCopy_plain hmode]
    rw [hspec] at h
    exact plain_iff h (startOf_nil recursive remotePath v) rfl hlive

/-! ### A shell that stalls -/

/-- A shell that serves `v`; `stat` is what the command of that name prints. -/
def healthy (v : RemoteFile) (stat : Str) : PtyShell where
  plain _ := .ok ("XHO_FILE", 0)
  raw _ := .ok (stat, 0)
  rawB64 _ n := ([v.content.drop (v.content.length - n)], .ok 0)

def stallMessage : Str := "timed out waiting for shell output"

lemma isStallClass_stallMessage : isStallClass stallMessage = true :=
  Bool.or_eq_true_iff.2 (.inl (decide_eq_true infix_rfl))

/-- A shell that goes silent after `k` bytes of the file. -/
def stalling (v : RemoteFile) (stat : Str) (k : ℕ) : PtyShell where
  plain _ := .ok ("XHO_FILE", 0)
  raw _ := .ok (stat, 0)
  rawB64 _ n := ([(v.content.drop (v.content.length - n)).take k], .error stallMessage)

variable {stat : Str}

lemma drop_length_sub (b : Bytes) (start : ℕ) :
    b.drop (b.length - (b.length - start)) = b.drop start := by
  rcases Nat.le_total start b.length with h | h
  · rw [Nat.sub_sub_self h]
  · rw [Nat.sub_eq_zero_of_le h, Nat.sub_zero, drop_length, drop_eq_nil_of_le h]

lemma isFile_answer {out : Str} {code : ℤ}
    (h : (.ok ("XHO_FILE", 0) : Except Str (Str × ℤ)) = .ok (out, code)) :
    contains "XHO_DIR" out = false := by
  cases h
  decide

lemma healthy_honest (hstat : parseStat stat = (v.mode, v.mtime, v.content.length)) :
    Honest (healthy v stat) remotePath v where
  kind _ _ h := isFile_answer h
  stat _ _ h := by cases h; exact hstat
  read start := by simp [readFrom, healthy, drop_length_sub]
  whole start _ := by simp [readFrom, healthy, drop_length_sub]

lemma stalling_honest (k : ℕ) (hstat : parseStat stat = (v.mode, v.mtime, v.content.length)) :
    Honest (stalling v stat k) remotePath v where
  kind _ _ h := isFile_answer h
  stat _ _ h := by cases h; exact hstat
  read start := by simp [readFrom, stalling, drop_length_sub, take_prefix]
  whole start h := by cases h

lemma healthy_streams (v : RemoteFile) (stat remotePath : Str) :
    Streams (healthy v stat) remotePath v where
  kind := ⟨_, _, rfl⟩
  enter := rfl
  stat := ⟨_, _, rfl⟩
  read _ := rfl
  complete := rfl

lemma stalling_begins (v : RemoteFile) (stat remotePath : Str) (k : ℕ) :
    Begins (stalling v stat k) remotePath where
  kind := ⟨_, _, rfl⟩
  enter := rfl
  stat := ⟨_, _, rfl⟩

lemma retried_stalling (k : ℕ) {spec : CopySpec} (hdown : spec.direction = .download)
    (hstat : parseStat stat = (v.mode, v.mtime, v.content.length)) :
    Retried (stalling v stat k) (healthy v stat) spec v where
  direction := hdown
  first := stalling_honest k hstat
  second := healthy_honest hstat
  stalls := by
    have hcut : (answer (stalling v stat k) spec v).2 ≠ .ok 0 := by rintro ⟨⟩
    exact ⟨stallMessage, rfl, isStallClass_stallMessage⟩
  streams := healthy_streams v stat spec.remotePath

def twoBytes : RemoteFile := ⟨0o644, 7, [1, 2]⟩

def twoBytesStat : Str := "644 7 2"

lemma parseStat_twoBytes : parseStat twoBytesStat = (0o644, 7, 2) := by decide +kernel

def emptyDisk : Disk := ⟨fun _ => none, none, []⟩

/-- With `--resume` and nothing to resume from, no stall can corrupt the file. -/
theorem retried_download_exact_stalling :
    let sh₁ := stalling twoBytes twoBytesStat 1
    let sh₂ := healthy twoBytes twoBytesStat
    Retried sh₁ sh₂ (startSpec SidecarJson.strict true false "f" "host" "/f"
        emptyDisk) twoBytes ∧
      ∀ d', runCopy SidecarJson.strict true false "f" "host" "/f"
          (fun hints => relayed sh₁ sh₂ (downloadSpec false "/f" hints)) emptyDisk =
            .ok () d' →
        d'.content (destination true false "f" "/f" emptyDisk) = some [1, 2] := by
  -- no path has to be looked into
  generalize "f" = localPath, "host" = target, "/f" = remotePath
  intro sh₁ sh₂
  have hretried : Retried sh₁ sh₂ (startSpec SidecarJson.strict true false localPath target
      remotePath emptyDisk) twoBytes := retried_stalling 1 rfl parseStat_twoBytes
  refine ⟨hretried, (retried_download_exact_iff rfl hretried).2 ?_⟩
  exact .inl rfl

/-- The bastion stalls after the first of two bytes; without `--resume` the run returns Ok and
leaves the second alone. -/
theorem retried_download_truncates :
    let sh₁ := stalling twoBytes twoBytesStat 1
    let sh₂ := healthy twoBytes twoBytesStat
    Retried sh₁ sh₂ (downloadSpec false "/f" []) twoBytes ∧
      ∃ d', runCopy SidecarJson.strict false false "f" "host" "/f"
          (fun hints => relayed sh₁ sh₂ (downloadSpec false "/f" hints)) emptyDisk =
            .ok () d' ∧
        d'.content (destination false false "f" "/f" emptyDisk) = some [2] := by
  generalize "f" = localPath, "host" = target, "/f" = remotePath
  intro sh₁ sh₂
  have hretried : Retried sh₁ sh₂ (downloadSpec false remotePath []) twoBytes :=
    retried_stalling 1 rfl parseStat_twoBytes
  refine ⟨hretried, ?_⟩
  exact receive_cut hretried (stalling_begins _ _ _ _) (by rintro ⟨⟩) rfl rfl (by rintro ⟨⟩)

end Cli

end CrossHostOps.ByteExact
