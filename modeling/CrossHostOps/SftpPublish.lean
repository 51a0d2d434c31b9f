import CrossHostOps.SftpUpload

/-!
What an SFTP upload leaves at its destination.

`EndFile` removes the old destination before it moves the new file there, and the connection
may be lost in between. `BeginFile` decides anew whether to keep the partial, from its length
alone, while the client has already decided which bytes it sends.
-/

namespace CrossHostOps.SftpPublish

open Text Filepath Frames Hoare Sftp Sftp.Server SftpUpload
open List hiding after

lemma tmpPath_ne (dest : Str) : tmpPath dest ≠ dest := by
  intro h
  have := congrArg length h
  rw [length_tmpPath] at this
  omega

/-! ### `EndFile` -/

section EndFile

variable {r : Receiver Server Handle} {file : Handle} {dest : Str} {new : Bytes}

lemma endFile_shut (hf : r.currentFile = some file) (hd : r.currentDest = some dest)
    (h0 : r.server.fates 0 = .granted) :
    endFile r = publish dest ⟨none, none, r.server.tick⟩ := by
  have hshut : SftpServer.shutdown file r.server = .ok () r.server.tick := by
    change Server.request _ r.server = _
    simp [Server.request, h0]
  simp only [endFile, get_bind, hf]
  refine (bind_of_ok (call_ok (r := ⟨none, r.currentDest, r.server⟩) hshut)).trans ?_
  simp [hd]

lemma endFile_refused (hf : r.currentFile = some file) (h0 : r.server.fates 0 ≠ .granted) :
    endFile r = .error (.sftp .connection) ⟨none, r.currentDest, r.server.tick⟩ := by
  have hshut : SftpServer.shutdown file r.server = .error .connection r.server.tick := by
    change Server.request _ r.server = _
    cases hfate : r.server.fates 0 with
    | granted => exact absurd hfate h0
    | failed steps => simp [Server.request, hfate]
  simp only [endFile, get_bind, hf, modify_bind]
  exact bind_of_error (call_error hshut)

lemma after_endFile (hf : r.currentFile = some file) (hd : r.currentDest = some dest)
    (h0 : r.server.fates 0 = .granted) :
    (after endFile r).server = after (SftpServer.rename (tmpPath dest) dest)
      (after (SftpServer.removeFile dest) r.server.tick) := by
  have h : after endFile r =
      after (call (.failedToPublish dest) (SftpServer.rename (tmpPath dest) dest))
        ⟨none, none, after (SftpServer.removeFile dest) r.server.tick⟩ := by
    unfold after
    rw [endFile_shut hf hd h0, publish_eq]
    rfl
  rw [h, after_call]

lemma after_removeFile (s : Server) :
    after (SftpServer.removeFile dest) s =
      if s.node dest ≠ none ∧ s.node dest ≠ some .dir ∧ (s.fates 0).executes then
        s.tick.set dest none else s.tick := by
  change after (Server.request (removeOp dest)) s = _
  by_cases hfile : s.node dest ≠ none ∧ s.node dest ≠ some .dir
  · have hop : removeOp dest s.tick = .ok ((), s.tick.set dest none) := by
      unfold removeOp
      rcases hn : s.tick.node dest with _ | _ | _ | _ <;> simp_all
    rw [after_request_ok hop]
    simp [hfile]
  · have hop : ∃ e, removeOp dest s.tick = .error e := by
      unfold removeOp
      rcases hn : s.tick.node dest with _ | _ | _ | _ <;> simp_all
    obtain ⟨e, hop⟩ := hop
    rw [after_request_error hop, if_neg]
    tauto

lemma after_rename (s : Server) {n : Node} (htmp : s.node (tmpPath dest) = some n) :
    after (SftpServer.rename (tmpPath dest) dest) s =
      if s.node dest = none ∧ (s.fates 0).executes then s.tick.moved (tmpPath dest) dest n
      else s.tick := by
  change after (Server.request (renameOp (tmpPath dest) dest)) s = _
  by_cases hd : s.node dest = none
  · have hop : renameOp (tmpPath dest) dest s.tick =
        .ok ((), s.tick.moved (tmpPath dest) dest n) := by
      simp [renameOp, htmp, hd]
    rw [after_request_ok hop]
    simp [hd]
  · have hop : renameOp (tmpPath dest) dest s.tick = .error .failure := by
      simp [renameOp, htmp, hd]
    rw [after_request_error hop]
    simp [hd]

/-- **When publishing keeps the destination.** The old content is lost when it could be removed
and the new file then could not be moved there. -/
theorem endFile_keeps_dest_iff (hf : r.currentFile = some file) (hd : r.currentDest = some dest)
    (hnew : r.server.content (tmpPath dest) = some new) :
    ((after endFile r).server.node dest = r.server.node dest ∨
      (after endFile r).server.content dest = some new) ↔
    r.server.node dest = none ∨ r.server.node dest = some .dir ∨ r.server.fates 0 ≠ .granted ∨
      (r.server.fates 1).executes = false ∨ (r.server.fates 2).executes = true := by
  have htmp := node_of_content hnew
  have hne := tmpPath_ne dest
  by_cases h0 : r.server.fates 0 = .granted
  swap
  · rw [after_error (endFile_refused hf h0)]
    simp [h0]
  rw [after_endFile hf hd h0, after_removeFile]
  by_cases hrm : r.server.node dest ≠ none ∧ r.server.node dest ≠ some .dir ∧
      (r.server.fates 1).executes
  · -- the old destination is gone; all depends on the rename
    obtain ⟨hsome, hdir, h1⟩ := hrm
    rw [if_pos (by exact ⟨hsome, hdir, h1⟩),
      after_rename (n := .file new) _ (by simpa [hne] using htmp)]
    by_cases h2 : (r.server.fates 2).executes
    · rw [if_pos (by exact ⟨by simp, h2⟩)]
      exact iff_of_true (.inr (content_of_node (moved_node_to _ _ _)))
        (.inr (.inr (.inr (.inr h2))))
    · rw [if_neg (by exact fun h => h2 h.2)]
      simp [content, hsome, hdir, h0, h1, h2, Ne.symm hsome]
  · -- the old destination, if there is one, stands
    rw [if_neg (by exact hrm), after_rename (n := .file new) _ (by exact htmp)]
    by_cases hfree : r.server.node dest = none
    · refine iff_of_true ?_ (.inl hfree)
      by_cases h2 : (r.server.fates 2).executes
      · rw [if_pos (by exact ⟨hfree, h2⟩)]
        exact .inr (content_of_node (moved_node_to _ _ _))
      · rw [if_neg (by exact fun h => h2 h.2)]
        exact .inl rfl
    · rw [if_neg (by exact fun h => hfree h.1)]
      refine iff_of_true (.inl rfl) (.inr ?_)
      simp only [not_and, Bool.not_eq_true] at hrm
      by_cases hdir : r.server.node dest = some .dir
      · exact .inl hdir
      · exact .inr (.inr (.inl (hrm hfree hdir)))

/-- A destination, and the new file beside it. -/
def twoFiles (fates : ℕ → Fate) : Server where
  node p := if p = "f" then some (.file [1])
    else if p = tmpPath "f" then some (.file [2]) else none
  fates := fates
  renamed := []

theorem endFile_keeps_dest_granted :
    let r : Receiver Server Handle :=
      ⟨some ⟨tmpPath "f", 1⟩, some "f", twoFiles fun _ => .granted⟩
    (after endFile r).server.node "f" = some (.file [1]) ∨
      (after endFile r).server.content "f" = some [2] := by
  intro r
  have hnew : r.server.content (tmpPath "f") = some [2] := by decide +kernel
  exact (endFile_keeps_dest_iff rfl rfl hnew).2 (.inr (.inr (.inr (.inr rfl))))

/-- The connection drops between the two requests: the destination held a file, and is gone. -/
theorem endFile_loses_dest :
    let r : Receiver Server Handle := ⟨some ⟨tmpPath "f", 1⟩, some "f",
      twoFiles fun n => if n < 2 then .granted else .failed 0⟩
    r.server.content "f" = some [1] ∧ r.server.content (tmpPath "f") = some [2] ∧
      (after endFile r).server.node "f" = none := by
  decide +kernel

end EndFile

/-! ### A file on a server that grants every request -/

section Granting

variable {s : Server} {r : Receiver Server Handle} {path : NormalizedPath} {tmp dest : Str}
  {size start : ℕ} {c : Bytes}

/-- Making directories succeeds, and touches nothing else. -/
lemma createEach_granting (paths : List Str) : ∀ {r : Receiver Server Handle}, r.server.Granting →
    ∃ t, createEach paths r = .ok () { r with server := t } ∧ t.Granting ∧
      t.renamed = r.server.renamed ∧
      ∀ q, (∀ p ∈ paths, p ≠ ['/'] → p ≠ q) → t.node q = r.server.node q := by
  induction paths with
  | nil => exact fun {r} h => ⟨r.server, rfl, h, rfl, fun _ _ => rfl⟩
  | cons p paths ih =>
    intro r h
    obtain ⟨t, ht, hgrant, hren, hnode⟩ := ih h
    have hskip : createEach paths r = .ok () { r with server := t } ∧ t.Granting ∧
        t.renamed = r.server.renamed ∧
        ∀ q, (∀ p' ∈ p :: paths, p' ≠ ['/'] → p' ≠ q) → t.node q = r.server.node q :=
      ⟨ht, hgrant, hren, fun q hq => hnode q fun p' hp' => hq p' (mem_cons_of_mem _ hp')⟩
    unfold createEach
    by_cases hroot : p = [] ∨ p = ['/']
    · rw [if_pos hroot]
      exact ⟨t, hskip⟩
    rw [if_neg hroot, bind_of_ok (call_ok (tryExists_granting h p))]
    cases hp : r.server.node p with
    | some n => exact ⟨t, hskip⟩
    | none =>
      obtain ⟨t, ht, hgrant, hren, hnode⟩ :=
        ih (r := { r with server := r.server.set p (some .dir) }) h
      refine ⟨t, (bind_of_ok (call_ok (createDir_ok h hp))).trans ht, hgrant, hren, fun q hq => ?_⟩
      rw [hnode q fun p' hp' => hq p' (mem_cons_of_mem _ hp')]
      have hne := hq p mem_cons_self fun h => hroot (.inr h)
      simp [hne.symm]

lemma createParent_granting (h : r.server.Granting) (path : NormalizedPath) :
    ∃ t, createParent path r = .ok () { r with server := t } ∧ t.Granting ∧
      t.renamed = r.server.renamed ∧
      ∀ q, path.toStringNormalized.length ≤ q.length → t.node q = r.server.node q := by
  unfold createParent
  cases hparent : path.parent with
  | none => exact ⟨r.server, rfl, h, rfl, fun _ _ => rfl⟩
  | some parent =>
    obtain ⟨t, ht, hgrant, hren, hnode⟩ :=
      createEach_granting ((ancestors parent).map (·.toStringNormalized)) h
    refine ⟨t, ht, hgrant, hren, fun q hq => hnode q ?_⟩
    rintro p hp hroot rfl
    have := length_ancestor_lt hparent hp hroot
    omega

/-- The partial is continued: it has just the length the frame says. -/
def Continues (partialContent : Option Bytes) (size start : ℕ) : Prop :=
  0 < min start size ∧ partialContent.map List.length = some (min start size)
  deriving Decidable

/-- What stays of the partial. -/
def kept (partialContent : Option Bytes) (size start : ℕ) : Bytes :=
  if Continues partialContent size start then partialContent.getD [] else []

lemma length_kept (p : Option Bytes) (size start : ℕ) :
    (kept p size start).length = if Continues p size start then min start size else 0 := by
  unfold kept
  split_ifs with hc
  · obtain ⟨-, hlen⟩ := hc
    obtain ⟨b, rfl, hb⟩ := Option.map_eq_some_iff.1 hlen
    exact hb
  · rfl

lemma kept_cases (p : Option Bytes) (size start : ℕ) :
    kept p size start = [] ∨ p = some (kept p size start) := by
  unfold kept
  split_ifs with hc
  · obtain ⟨b, rfl, -⟩ := Option.map_eq_some_iff.1 hc.2
    exact .inr rfl
  · exact .inl rfl

/-- The partial is kept as far as its size is known. -/
lemma resumeSkip_cases (r : Receiver Server Handle) (tmp : Str) (size start : ℕ) :
    ∃ skip t, resumeSkip tmp size start r = .ok skip { r with server := t } ∧
      (t = r.server ∨ t = r.server.tick) ∧
      (skip = (kept (r.server.content tmp) size start).length ∨
        skip = 0 ∧ r.server.fates 0 ≠ .granted) := by
  rw [length_kept]
  unfold resumeSkip
  by_cases hpos : min start size > 0
  swap
  · rw [if_neg hpos, if_neg fun hc => hpos hc.1]
    exact ⟨_, _, rfl, .inl rfl, .inl rfl⟩
  rw [if_pos hpos]
  rcases metadata_cases tmp r.server with ⟨n, hn, hstat⟩ | ⟨e, hstat, hnone⟩
  · rw [bind_of_ok (attempt_ok hstat)]
    -- a directory or a link has no length to match
    have hlen : n.metadata.len = min start size ↔ Continues (r.server.content tmp) size start := by
      cases n with
      | file c => simp [Continues, content, hn, Node.metadata, hpos]
      | dir | link => simp [Continues, content, hn, Node.metadata, hpos.ne]
    simp only [hlen]
    split_ifs <;> exact ⟨_, _, rfl, .inr rfl, .inl rfl⟩
  · rw [bind_of_ok (attempt_error hstat)]
    refine ⟨_, _, rfl, .inr rfl, ?_⟩
    split_ifs with hc
    · refine .inr ⟨rfl, fun hgranted => ?_⟩
      simp [Continues, content, hnone hgranted] at hc
    · exact .inl rfl

lemma resumeSkip_granting (h : r.server.Granting) (tmp : Str) (size start : ℕ) :
    resumeSkip tmp size start r = .ok (kept (r.server.content tmp) size start).length r := by
  obtain ⟨skip, t, hskip, ht, rfl | ⟨-, hrefused⟩⟩ := resumeSkip_cases r tmp size start
  · rw [h.tick, or_self] at ht
    rw [hskip, ht]
  · exact absurd (h 0) hrefused

lemma openPartial_granting (h : r.server.Granting) (htmp : r.server.node tmp ≠ some .dir)
    (size start : ℕ) :
    ∃ t, openPartial tmp (kept (r.server.content tmp) size start).length r =
        .ok ⟨tmp, (kept (r.server.content tmp) size start).length⟩ { r with server := t } ∧
      t.Granting ∧ t.renamed = r.server.renamed ∧
      t.content tmp = some (kept (r.server.content tmp) size start) ∧
      ∀ q, q ≠ tmp → t.node q = r.server.node q := by
  unfold openPartial
  by_cases hc : Continues (r.server.content tmp) size start
  · obtain ⟨hpos, hlen⟩ := hc
    obtain ⟨b, hb, hblen⟩ := Option.map_eq_some_iff.1 hlen
    have hkept : kept (r.server.content tmp) size start = b := by
      rw [kept, if_pos ⟨hpos, hlen⟩, hb]
      rfl
    rw [hkept, if_pos (by omega), bind_of_ok (call_ok (openWrite_file h hb))]
    exact ⟨r.server, call_ok rfl, h, rfl, hb, fun _ _ => rfl⟩
  · have hkept : kept (r.server.content tmp) size start = [] := if_neg hc
    rw [hkept]
    exact ⟨_, call_ok (create_ok h htmp), h, rfl, content_set_file, fun q hq => set_node_ne hq⟩

lemma openPartial_dir (h : r.server.Granting) (htmp : r.server.node tmp = some .dir)
    (size start : ℕ) :
    openPartial tmp (kept (r.server.content tmp) size start).length r =
      .error (.failedToCreate tmp .failure) r := by
  have hnone : r.server.content tmp = none := by rw [content, htmp]
  have hkept : kept (r.server.content tmp) size start = [] :=
    if_neg (by simp [Continues, hnone])
  unfold openPartial
  rw [hkept, if_neg (by simp), call_error (create_dir h htmp)]

/-- `BeginFile` of an upload in which nothing fails. -/
lemma beginFile_granting (h : r.server.Granting) (hclosed : r.currentFile = none)
    (htmp : r.server.node (tmpPath path.toStringNormalized) ≠ some .dir) (size start : ℕ) :
    ∃ t, beginFile path size start r = .ok ()
        ⟨some ⟨tmpPath path.toStringNormalized,
          (kept (r.server.content (tmpPath path.toStringNormalized)) size start).length⟩,
          some path.toStringNormalized, t⟩ ∧
      t.Granting ∧ t.renamed = r.server.renamed ∧
      t.content (tmpPath path.toStringNormalized) =
        some (kept (r.server.content (tmpPath path.toStringNormalized)) size start) ∧
      t.node path.toStringNormalized = r.server.node path.toStringNormalized := by
  obtain ⟨t₁, h₁, hgrant₁, hren₁, hnode₁⟩ := createParent_granting h path
  have htmp₁ := hnode₁ (tmpPath path.toStringNormalized) (by rw [length_tmpPath]; omega)
  have hdest₁ := hnode₁ path.toStringNormalized le_rfl
  obtain ⟨t₂, h₂, hgrant₂, hren₂, hc₂, hnode₂⟩ := openPartial_granting
    (r := { r with server := t₁ }) hgrant₁ (htmp₁ ▸ htmp) size start
  rw [content_congr htmp₁] at h₂ hc₂
  refine ⟨t₂, ?_, hgrant₂, hren₂.trans hren₁, hc₂, (hnode₂ _ (tmpPath_ne _).symm).trans hdest₁⟩
  have hskip := resumeSkip_granting (r := { r with server := t₁ }) hgrant₁
    (tmpPath path.toStringNormalized) size start
  rw [content_congr htmp₁] at hskip
  simp only [beginFile, get_bind, hclosed, Option.isSome_none, Bool.false_eq_true, if_false]
  rw [bind_of_ok h₁, bind_of_ok hskip, bind_of_ok h₂]
  rfl

lemma beginFile_dir (h : r.server.Granting) (hclosed : r.currentFile = none)
    (htmp : r.server.node (tmpPath path.toStringNormalized) = some .dir) (size start : ℕ) :
    ∃ e t, beginFile path size start r = .error e t ∧ t.server.renamed = r.server.renamed := by
  obtain ⟨t₁, h₁, hgrant₁, hren₁, hnode₁⟩ := createParent_granting h path
  have htmp₁ := hnode₁ (tmpPath path.toStringNormalized) (by rw [length_tmpPath]; omega)
  have hskip := resumeSkip_granting (r := { r with server := t₁ }) hgrant₁
    (tmpPath path.toStringNormalized) size start
  have hopen := openPartial_dir (r := { r with server := t₁ }) hgrant₁ (htmp₁.trans htmp) size start
  simp only [beginFile, get_bind, hclosed, Option.isSome_none, Bool.false_eq_true, if_false]
  rw [bind_of_ok h₁, bind_of_ok hskip, bind_of_error hopen]
  exact ⟨_, _, rfl, hren₁⟩

/-- The data of a file is appended to its partial. -/
lemma uploadLoop_fileData (spec : CopySpec) (root : NormalizedPath) (isDir : Bool)
    (chunks : List Bytes) (rest : List CopyFrame) : ∀ {r : Receiver Server Handle} {c : Bytes},
    r.server.Granting → r.currentFile = some ⟨tmp, c.length⟩ → r.server.content tmp = some c →
    uploadLoop spec root isDir (chunks.map .fileData ++ rest) r =
      uploadLoop spec root isDir rest ⟨some ⟨tmp, (c ++ chunks.flatten).length⟩, r.currentDest,
        r.server.set tmp (some (.file (c ++ chunks.flatten)))⟩ := by
  induction chunks with
  | nil =>
    intro r c h hfile hc
    have hset : r.server.set tmp (some (.file c)) = r.server := by
      rw [Server.set, ← node_of_content hc, Function.update_eq_self]
    rcases r with ⟨file, dest, server⟩
    cases hfile
    simp only [map_nil, nil_append, flatten_nil, append_nil]
    rw [hset]
  | cons x chunks ih =>
    intro r c h hfile hc
    have hwrite := writeAll_ok h ⟨tmp, c.length⟩ hc x
    have hframe : fileData x r = .ok () ⟨some ⟨tmp, (c ++ x).length⟩, r.currentDest,
        r.server.set tmp (some (.file (c ++ x)))⟩ := by
      simp only [fileData, get_bind, hfile]
      rw [bind_of_ok (call_ok hwrite), overwrite_end, length_append]
      rfl
    rw [map_cons, cons_append]
    refine (bind_of_ok hframe).trans ?_
    rw [ih (by exact h) rfl content_set_file]
    simp [Server.set]

lemma endFile_granting {file : Handle} (h : r.server.Granting) (hf : r.currentFile = some file)
    (hd : r.currentDest = some dest) (hc : r.server.content (tmpPath dest) = some c) :
    if r.server.node dest = some .dir then
      ∃ e t, endFile r = .error e t ∧ t.server.renamed = r.server.renamed
    else ∃ t, endFile r = .ok () ⟨none, none, t⟩ ∧ t.content dest = some c ∧
      t.renamed = r.server.renamed ++ [(tmpPath dest, dest)] := by
  have htmp := node_of_content hc
  have hne := tmpPath_ne dest
  have hend := endFile_shut hf hd (h 0)
  rw [h.tick, publish_eq, after_removeFile, h.tick] at hend
  split_ifs with hdir
  · rw [if_neg (by simp [hdir])] at hend
    have hrename := rename_taken h htmp (by simp [hdir] : r.server.node dest ≠ none)
    exact ⟨_, _, hend.trans (call_error hrename), rfl⟩
  · have hfree : (if r.server.node dest ≠ none ∧ r.server.node dest ≠ some .dir ∧
        (r.server.fates 0).executes then r.server.set dest none else r.server) =
        r.server.set dest none := by
      by_cases hnone : r.server.node dest = none
      · rw [if_neg (by simp [hnone]), Server.set, ← hnone, Function.update_eq_self]
      · rw [if_pos ⟨hnone, hdir, by simp [h 0, Fate.executes]⟩]
    rw [hfree] at hend
    have htmp' : (r.server.set dest none).node (tmpPath dest) = some (.file c) := by
      simpa [hne] using htmp
    have hrename := rename_ok (s := r.server.set dest none) h htmp' set_node_self
    exact ⟨_, hend.trans (call_ok hrename), content_of_node (moved_node_to _ _ _), rfl⟩

lemma remotePathIsDir_granting (h : s.Granting) (path : NormalizedPath) :
    remotePathIsDir path s = .ok (s.node path.toStringNormalized = some .dir) s := by
  unfold remotePathIsDir
  cases hn : s.node path.toStringNormalized with
  | none => rw [metadata_none h hn]; rfl
  | some n => rw [metadata_some h hn]; cases n <;> rfl

/-- The frames of one file. The channel is closed behind them, with or without an `EndOfStream`. -/
def fileFrames (relativePath : Str) (mode size : ℕ) (mtime : ℤ) (startOffset : ℕ)
    (chunks : List Bytes) (eos : Bool) : List CopyFrame :=
  .beginFile relativePath mode size mtime startOffset ::
    (chunks.map .fileData ++ .endFile :: if eos then [.endOfStream] else [])

/-- Where a server in this state puts an entry. -/
def destOf (spec : CopySpec) (s : Server) (relativePath : Str) : Str :=
  let root := NormalizedPath.fromStr spec.remotePath
  (entryPath spec root (s.node root.toStringNormalized = some .dir) relativePath).toStringNormalized

variable (spec : CopySpec) (relativePath : Str) (mode : ℕ) (mtime : ℤ) (chunks : List Bytes)
  (eos : Bool)

lemma upload_granting (h : s.Granting) (size start : ℕ) :
    let dest := destOf spec s relativePath
    let run := upload spec (fileFrames relativePath mode size mtime start chunks eos) s
    if s.node (tmpPath dest) = some .dir ∨ s.node dest = some .dir then
      ∃ e t, run = .error e t ∧ t.renamed = s.renamed
    else ∃ t, run = .ok () t ∧ t.renamed = s.renamed ++ [(tmpPath dest, dest)] ∧
      t.content dest = some (kept (s.content (tmpPath dest)) size start ++ chunks.flatten) := by
  intro dest run
  have hisDir := remotePathIsDir_granting h (.fromStr spec.remotePath)
  by_cases htmp : s.node (tmpPath dest) = some .dir
  · rw [if_pos (.inl htmp)]
    obtain ⟨e, t, hbegin, hren⟩ := beginFile_dir (r := ⟨none, none, s⟩) h rfl htmp size start
    exact ⟨e, t.server, upload_of_error hisDir (bind_of_error hbegin), hren⟩
  obtain ⟨t, hbegin, hgrant, hren, hc, hdest⟩ :=
    beginFile_granting (r := ⟨none, none, s⟩) h rfl htmp size start
  let whole := kept (s.content (tmpPath dest)) size start ++ chunks.flatten
  let r' : Receiver Server Handle :=
    ⟨some ⟨tmpPath dest, whole.length⟩, some dest, t.set (tmpPath dest) (some (.file whole))⟩
  let loop := uploadLoop (σ := Server) (H := Handle) spec (.fromStr spec.remotePath)
    (s.node (NormalizedPath.fromStr spec.remotePath).toStringNormalized = some .dir)
  have hloop : loop (fileFrames relativePath mode size mtime start chunks eos) ⟨none, none, s⟩ =
      loop (.endFile :: if eos then [.endOfStream] else []) r' := by
    refine (bind_of_ok hbegin).trans ?_
    exact uploadLoop_fileData spec _ _ chunks _ hgrant rfl hc
  have hend := endFile_granting (r := r') hgrant rfl rfl content_set_file
  have hdest' : r'.server.node dest = s.node dest :=
    (set_node_ne (tmpPath_ne dest).symm).trans hdest
  rw [hdest'] at hend
  by_cases hdir : s.node dest = some .dir
  · rw [if_pos hdir] at hend
    rw [if_pos (.inr hdir)]
    obtain ⟨e, t', hend, hren'⟩ := hend
    exact ⟨e, t'.server, upload_of_error hisDir (hloop.trans (bind_of_error hend)),
      hren'.trans hren⟩
  · rw [if_neg hdir] at hend
    rw [if_neg (by tauto)]
    obtain ⟨t', hend, hcontent, hren'⟩ := hend
    refine ⟨t', upload_of_ok (r := ⟨none, none, t'⟩) hisDir
      (hloop.trans ((bind_of_ok hend).trans ?_)) rfl, ?_, hcontent⟩
    · cases eos <;> rfl
    · rw [hren']
      exact congrArg (· ++ _) hren

/-- The bytes published are the kept partial and the data; they are what the frames declare. -/
lemma kept_append_iff (p : Option Bytes) (data : Bytes) (size start : ℕ) :
    (kept p size start ++ data = (p.getD []).take start ++ data ∧
      (kept p size start ++ data).length = size) ↔
    if Continues p size start then min start size + data.length = size
    else data.length = size ∧ (start = 0 ∨ p.getD [] = []) := by
  rw [append_left_inj, length_append, length_kept]
  split_ifs with hc
  · obtain ⟨hpos, hlen⟩ := hc
    obtain ⟨b, rfl, hb⟩ := Option.map_eq_some_iff.1 hlen
    have htake : b.take start = b := take_of_length_le (by omega)
    simp [kept, Continues, hlen, hpos, htake]
  · rw [kept, if_neg hc, eq_comm, take_eq_nil_iff, Nat.zero_add]
    exact and_comm

/-- **When an upload publishes the declared file.** The server decides from the length of the
partial alone whether the data continues it, and never compares the total with the size. -/
theorem publishes_declared_iff (h : s.Granting) (hren : s.renamed = []) :
    let dest := destOf spec s relativePath
    let left := after (upload spec (fileFrames relativePath mode size mtime start chunks eos)) s
    ((tmpPath dest, dest) ∈ left.renamed → ∃ x, left.content dest = some x ∧
      x = ((s.content (tmpPath dest)).getD []).take start ++ chunks.flatten ∧ x.length = size) ↔
    s.node (tmpPath dest) = some .dir ∨ s.node dest = some .dir ∨
      if Continues (s.content (tmpPath dest)) size start then
        min start size + chunks.flatten.length = size
      else chunks.flatten.length = size ∧
        (start = 0 ∨ (s.content (tmpPath dest)).getD [] = []) := by
  intro dest left
  have hrun := upload_granting spec relativePath mode mtime chunks eos h size start
  by_cases hdir : s.node (tmpPath dest) = some .dir ∨ s.node dest = some .dir
  · rw [if_pos (by exact hdir)] at hrun
    obtain ⟨e, t, hrun, hren'⟩ := hrun
    have hend : left = t := after_error hrun
    rw [hend, hren', hren]
    exact iff_of_true (fun hmem => absurd hmem (not_mem_nil)) (by tauto)
  · rw [if_neg (by exact hdir)] at hrun
    obtain ⟨t, hrun, hren', hc⟩ := hrun
    have hend : left = t := after_ok hrun
    have hc : t.content dest =
        some (kept (s.content (tmpPath dest)) size start ++ chunks.flatten) := hc
    obtain ⟨htmp, hdest⟩ := not_or.1 hdir
    have hmem : (tmpPath dest, dest) ∈ t.renamed := by
      rw [hren', hren]
      exact mem_singleton.2 rfl
    rw [hend, ← kept_append_iff, hc]
    simp only [htmp, hdest, hmem, false_or, forall_true_left, Option.some.injEq, exists_eq_left']

/-- A server where only `f.xho_tmp` may exist. -/
def partialOnly (p : Option Bytes) : Server where
  node q := if q = tmpPath "f" then p.map .file else none
  fates _ := .granted
  renamed := []

def toF : CopySpec := ⟨.upload, "f", false, "f", []⟩

theorem publishes_declared_fresh :
    let s := partialOnly (some [7])
    let dest := destOf toF s "f"
    let left := after (upload toF (fileFrames "f" 0 2 0 0 [[1], [2]] true)) s
    (tmpPath dest, dest) ∈ left.renamed ∧ ∃ x, left.content dest = some x ∧
      x = ((s.content (tmpPath dest)).getD []).take 0 ++ [1, 2] ∧ x.length = 2 := by
  intro s dest left
  have hmem : (tmpPath dest, dest) ∈ left.renamed := by decide +kernel
  refine ⟨hmem, (publishes_declared_iff toF "f" 0 0 [[1], [2]] true ?_ rfl).2 ?_ hmem⟩
  · exact fun _ => rfl
  · decide +kernel

/-- The partial was gone when the suffix arrived: one byte is published for a file of two. -/
theorem publishes_suffix :
    let left := after (upload toF (fileFrames "f".toList 0 2 0 1 [[2]] true)) (partialOnly none)
    left.renamed = [(tmpPath "f".toList, "f".toList)] ∧ left.content "f".toList = some [2] := by
  decide +kernel

end Granting

end CrossHostOps.SftpPublish
