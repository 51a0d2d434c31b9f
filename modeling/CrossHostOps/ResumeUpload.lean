import Mathlib.Logic.Relation
import CrossHostOps.SftpPublish

/-!
`xho cp --resume` of a single file over SFTP: the daemon reports size and hash of the remote
partial, the CLI compares them with its own source, and streams from the agreed offset.

A run may be cut anywhere. Whatever it leaves in the partial, the next run continues it only
after the hash has shown it to be a beginning of the source.
-/

namespace CrossHostOps.ResumeUpload

open Text Filepath Frames Hoare Sftp Sftp.Server SftpUpload SftpPublish

variable (sha256 : Bytes → Str)

/-! ### The probe -/

section Probe

variable {σ H : Type} [SftpServer σ H]

def freshEntry (e : ResumeEntry) : ResumeEntry := { e with offset := 0, partialSha256 := [] }

/-- The effective entry; `sha256` yields the digest in hexadecimal. -/
def probeEntry (tmp : Str) (entry : ResumeEntry) : EStateM SftpError σ ResumeEntry := do
  match ← ok? (SftpServer.metadata tmp) with
  | none => pure (freshEntry entry)
  | some m =>
    if m.len > 0 ∧ m.len ≤ entry.size then
      match ← ok? (SftpServer.readFile tmp) with
      | none => pure (freshEntry entry)
      | some data =>
        if data.length = m.len then
          pure { entry with offset := m.len, partialSha256 := sha256 data }
        else pure (freshEntry entry)
    else pure (freshEntry entry)

def probeEntries (spec : CopySpec) : List ResumeEntry → EStateM SftpError σ (List ResumeEntry)
  | [] => pure []
  | entry :: rest => do
    let effective ← if spec.recursive then pure (freshEntry entry)
      else probeEntry sha256 (tmpPath spec.remotePath) entry
    return effective :: (← probeEntries spec rest)

/-- The name an upload into a directory gets. -/
def nameInside (sourceName : Str) : Str :=
  let name := lastPiece '/' (trimEndMatches '/' sourceName)
  if name ≠ [] then name else "upload"

/-- A directory stands for the file inside it. -/
def resolveRoot (spec : CopySpec) : EStateM SftpError σ CopySpec := do
  if spec.recursive then pure spec
  else if ← remotePathIsDir (.fromStr spec.remotePath) then
    let inside := (PathBuf.ofStr spec.remotePath).join (.ofStr (nameInside spec.sourceName))
    pure { spec with remotePath := pathToString inside }
  else pure spec

def probeUploadResume (spec : CopySpec) : EStateM SftpError σ CopySpec := do
  let spec ← resolveRoot spec
  return { spec with resume := ← probeEntries sha256 spec spec.resume }

end Probe

/-! ### The client -/

structure Source where
  mode : ℕ
  mtime : ℤ
  content : Bytes

/-- `prefix_sha256`: none when the file is shorter. -/
def prefixSha256 (content : Bytes) (upto : ℕ) : Option Str :=
  if upto ≤ content.length then some (sha256 (content.take upto)) else none

/-- The offset the client streams from, given the entries of the ack. -/
def agreedOffset (content : Bytes) (sourceName : Str) (entries : List ResumeEntry) : ℕ :=
  match ((entries.find? (·.relativePath = sourceName)).filter (·.offset > 0)).filter
    (·.partialSha256 ≠ []) with
  | some e => if prefixSha256 sha256 content e.offset = some e.partialSha256 then e.offset else 0
  | none => 0

/-- The frames of the file from `skip` on. -/
def uploadFrames (reads : Reads) (source : Source) (sourceName : Str) (skip : ℕ) :
    List CopyFrame :=
  fileFrames (NormalizedPath.fromLocal (.ofStr sourceName)).toStringNormalized source.mode
    source.content.length source.mtime skip (reads.cut (source.content.drop skip)) true

/-! ### A run -/

/-- The entry the CLI asks about. -/
def startEntry (sourceName : Str) (source : Source) : ResumeEntry :=
  ⟨sourceName, 0, source.content.length, source.mtime, []⟩

def uploadSpec (remotePath sourceName : Str) (resume : List ResumeEntry) : CopySpec :=
  ⟨.upload, remotePath, false, sourceName, resume⟩

/-- The probe has a session of its own; without one, the entries are fresh. -/
def probed (spec : CopySpec) (session : Option (ℕ → Fate)) (s : Server) : CopySpec × Server :=
  match session with
  | none => ({ spec with resume := spec.resume.map fun e => { e with offset := 0 } }, s)
  | some fates =>
    match probeUploadResume sha256 spec { s with fates } with
    | .ok spec' t => (spec', t)
    | .error _ t => (spec, t)

/-- One run: probe, ack, and the upload of what the client streams. -/
def run (reads : Reads) (source : Source) (remotePath sourceName : Str)
    (session : Option (ℕ → Fate)) (fates : ℕ → Fate) : EStateM UploadError Server Unit := fun s =>
  let (spec, s) := probed sha256 (uploadSpec remotePath sourceName [startEntry sourceName source])
    session s
  let skip := agreedOffset sha256 source.content sourceName spec.resume
  upload spec (uploadFrames reads source sourceName skip) { s with fates }

/-! ### What the probe finds -/

section Found

variable {tmp remotePath : Str} {s : Server}

/-- An entry that has an offset has the length and the hash of the whole partial. -/
def Found (tmp : Str) (s : Server) (e : ResumeEntry) : Prop :=
  e.offset = 0 ∨ ∃ c, s.content tmp = some c ∧ e.offset = c.length ∧ e.partialSha256 = sha256 c

lemma probeEntry_found (tmp : Str) (entry : ResumeEntry) (s : Server) :
    ∃ e fates, probeEntry sha256 tmp entry s = .ok e { s with fates } ∧
      e.relativePath = entry.relativePath ∧ Found sha256 tmp s e := by
  unfold probeEntry
  rcases metadata_cases tmp s with ⟨n, hn, hm⟩ | ⟨e, hm, -⟩
  swap
  · rw [bind_of_ok (ok?_of_error hm)]
    exact ⟨_, _, rfl, rfl, .inl rfl⟩
  rw [bind_of_ok (ok?_of_ok hm)]
  by_cases hlen : n.metadata.len > 0 ∧ n.metadata.len ≤ entry.size
  swap
  · simp only [if_neg hlen]
    exact ⟨_, _, rfl, rfl, .inl rfl⟩
  simp only [if_pos hlen]
  rcases readFile_cases tmp s.tick with ⟨c, hc, hr⟩ | ⟨e, hr⟩
  swap
  · rw [bind_of_ok (ok?_of_error hr)]
    exact ⟨_, _, rfl, rfl, .inl rfl⟩
  rw [bind_of_ok (ok?_of_ok hr)]
  by_cases hall : c.length = n.metadata.len
  · simp only [if_pos hall]
    exact ⟨_, _, rfl, rfl, .inr ⟨c, hc, hall.symm, rfl⟩⟩
  · simp only [if_neg hall]
    exact ⟨_, _, rfl, rfl, .inl rfl⟩

lemma remotePathIsDir_false {path : NormalizedPath}
    (h : s.node path.toStringNormalized ≠ some .dir) :
    remotePathIsDir path s = .ok false s.tick := by
  unfold remotePathIsDir
  rcases metadata_cases path.toStringNormalized s with ⟨n, hn, hm⟩ | ⟨e, hm, -⟩
  · rw [hm]
    cases n with
    | dir => exact absurd hn h
    | file | link => rfl
  · rw [hm]

/-- The probe changes nothing, and reports on the partial of the destination. -/
lemma probed_found (source : Source) (sourceName : Str)
    (hnorm : (NormalizedPath.fromStr remotePath).toStringNormalized = remotePath)
    (hdest : s.node remotePath ≠ some .dir) (session : Option (ℕ → Fate)) :
    ∃ e fates, probed sha256 (uploadSpec remotePath sourceName [startEntry sourceName source])
        session s = (uploadSpec remotePath sourceName [e], { s with fates }) ∧
      e.relativePath = sourceName ∧ Found sha256 (tmpPath remotePath) s e := by
  cases session with
  | none => exact ⟨_, s.fates, rfl, rfl, .inl rfl⟩
  | some fates =>
    have hroot : remotePathIsDir (.fromStr remotePath) { s with fates } =
        .ok false { s with fates }.tick := remotePathIsDir_false (by rw [hnorm]; exact hdest)
    obtain ⟨e, fates', hprobe, hname, hfound⟩ := probeEntry_found sha256 (tmpPath remotePath)
      (startEntry sourceName source) { s with fates }.tick
    refine ⟨e, fates', ?_, hname, hfound⟩
    have hresolve : resolveRoot (uploadSpec remotePath sourceName [startEntry sourceName source])
        { s with fates } = .ok (uploadSpec remotePath sourceName [startEntry sourceName source])
          { s with fates }.tick := bind_of_ok hroot
    have hentries : probeEntries sha256
        (uploadSpec remotePath sourceName [startEntry sourceName source])
        [startEntry sourceName source] { s with fates }.tick =
          .ok [e] { s with fates := fates' } := bind_of_ok hprobe
    have hrun : probeUploadResume sha256
        (uploadSpec remotePath sourceName [startEntry sourceName source]) { s with fates } =
          .ok (uploadSpec remotePath sourceName [e]) { s with fates := fates' } :=
      (bind_of_ok hresolve).trans (bind_of_ok hentries)
    rw [probed, hrun]

variable {sha256} in
/-- The client continues only what is a beginning of its source. -/
lemma agreedOffset_cases (hsha : Function.Injective sha256) {sourceName : Str} {e : ResumeEntry}
    (content : Bytes) (hname : e.relativePath = sourceName) (he : Found sha256 tmp s e) :
    agreedOffset sha256 content sourceName [e] = 0 ∨
      s.content tmp = some (content.take (agreedOffset sha256 content sourceName [e])) ∧
        agreedOffset sha256 content sourceName [e] ≤ content.length := by
  have hfind : ([e].find? (·.relativePath = sourceName)) = some e := by simp [hname]
  unfold agreedOffset
  rw [hfind]
  split
  · next e' he' =>
    obtain ⟨h₁, -⟩ := Option.filter_eq_some_iff.1 he'
    obtain ⟨h₂, hpos⟩ := Option.filter_eq_some_iff.1 h₁
    cases h₂
    have hpos : e.offset > 0 := of_decide_eq_true hpos
    obtain ⟨c, hc, hoffset, hhash⟩ := he.resolve_left (by omega)
    split_ifs with hprefix
    · right
      unfold prefixSha256 at hprefix
      split_ifs at hprefix with hle
      have hsame : content.take e.offset = c := hsha ((Option.some.inj hprefix).trans hhash)
      rw [hsame]
      exact ⟨hc, hle⟩
    · exact .inl rfl
  · exact .inl rfl

end Found

/-! ### What an upload leaves -/

section Left

variable {dest : Str} {c : Bytes} {s : Server} {node : Str → Option Node} {path : NormalizedPath}

/-- Neither the destination nor its partial is a directory. -/
def Usable (dest : Str) (s : Server) : Prop :=
  s.node dest ≠ some .dir ∧ s.node (tmpPath dest) ≠ some .dir

abbrev Left (dest : Str) : UploadError → Receiver Server Handle → Prop :=
  fun _ r => Usable dest r.server

/-- The partial has these bytes. -/
def Holding (dest : Str) (c : Bytes) (s : Server) : Prop :=
  s.content (tmpPath dest) = some c ∧ s.node dest ≠ some .dir

lemma Holding.usable (h : Holding dest c s) : Usable dest s := by
  refine ⟨h.2, ?_⟩
  rw [node_of_content h.1]
  simp

lemma holding_set (h : s.node dest ≠ some .dir) :
    Holding dest c (s.set (tmpPath dest) (some (.file c))) := by
  refine ⟨content_set_file, ?_⟩
  rwa [set_node_ne (tmpPath_ne dest).symm]

/-- The partial is open, and the next write goes behind its bytes. -/
structure Writing (dest : Str) (c : Bytes) (r : Receiver Server Handle) : Prop where
  file : r.currentFile = some ⟨tmpPath dest, c.length⟩
  toDest : r.currentDest = some dest
  held : Holding dest c r.server

/-- Nothing is changed but directories above the destination. -/
def Above (dest : Str) (node : Str → Option Node) (s : Server) : Prop :=
  ∀ q, dest.length ≤ q.length → s.node q = node q

lemma Above.usable {t : Server} (h : Above dest t.node s) (ht : Usable dest t) :
    Usable dest s := by
  rw [Usable, h dest le_rfl, h (tmpPath dest) (by rw [length_tmpPath]; omega)]
  exact ht

lemma tryExists_above (p : Str) :
    Keeps (Above dest node) (tryExists p : EStateM SftpError Server Bool) := by
  intro s hs
  unfold tryExists
  rcases metadata_cases p s with ⟨n, -, h⟩ | ⟨e, h, -⟩
  · rw [h]
    exact hs
  · rw [h]
    cases e <;> exact hs

lemma createDir_above {p : Str} (hp : p.length < dest.length) :
    Keeps (Above dest node) (SftpServer.createDir p : EStateM SftpError Server Unit) := by
  refine request_triple (fun _ h => h) (fun _ h => h) fun s a t hs h => ?_
  unfold mkdirOp at h
  split_ifs at h
  cases h
  have hset : Above dest node (s.set p (some .dir)) := by
    intro q hq
    rw [set_node_ne, hs q hq]
    rintro rfl
    omega
  exact ⟨hset, hset⟩

lemma createEach_above {paths : List Str}
    (hp : ∀ p ∈ paths, p ≠ ['/'] → p.length < dest.length) :
    Keeps (fun r : Receiver Server Handle => Above dest node r.server) (createEach paths) := by
  induction paths with
  | nil => exact Triple.pure fun _ h => h
  | cons p paths ih =>
    have hrest := ih fun p' hp' => hp p' (List.mem_cons_of_mem _ hp')
    unfold createEach
    by_cases hroot : p = [] ∨ p = ['/']
    · rw [if_pos hroot]
      exact hrest
    · rw [if_neg hroot]
      refine Triple.bind (call_triple (tryExists_above p) _) fun there => ?_
      cases there with
      | true => exact hrest
      | false =>
        have hlt := hp p List.mem_cons_self fun h => hroot (.inr h)
        exact Triple.bind (call_triple (createDir_above hlt) _) fun _ => hrest

lemma createParent_above (hdest : path.toStringNormalized = dest) :
    Keeps (fun r : Receiver Server Handle => Above dest node r.server) (createParent path) := by
  subst hdest
  unfold createParent
  cases hparent : path.parent with
  | none => exact Triple.pure fun _ h => h
  | some parent => exact createEach_above fun p hp hroot => length_ancestor_lt hparent hp hroot

/-- The partial can be opened with these bytes: it has them, or there are none. -/
def Offered (dest : Str) (c : Bytes) (s : Server) : Prop :=
  (c = [] ∨ s.content (tmpPath dest) = some c) ∧ Usable dest s

lemma openPartial_writing :
    Triple (fun r => Offered dest c r.server) (openPartial (tmpPath dest) c.length)
      (fun file r => file = ⟨tmpPath dest, c.length⟩ ∧ Holding dest c r.server) (Left dest) := by
  unfold openPartial
  split_ifs with hpos
  · have hopen : Triple (Offered dest c) (SftpServer.openWrite (tmpPath dest))
        (fun file s => file.path = tmpPath dest ∧ Holding dest c s) fun _ => Usable dest := by
      refine request_triple (fun _ h => h) (fun _ h => h.2) fun s a t hs h => ?_
      have hc := hs.1.resolve_left (List.length_pos_iff.1 hpos)
      rw [openOp, node_of_content hc] at h
      cases h
      exact ⟨⟨rfl, hc, hs.2.1⟩, hs.2⟩
    exact Triple.bind (call_triple hopen _) fun file r hr => ⟨by rw [← hr.1], hr.2⟩
  · obtain rfl : c = [] := List.eq_nil_of_length_eq_zero (by omega)
    have hcreate : Triple (Offered dest []) (SftpServer.create (tmpPath dest))
        (fun file s => file = ⟨tmpPath dest, 0⟩ ∧ Holding dest [] s) fun _ => Usable dest := by
      refine request_triple (fun _ h => h) (fun _ h => h.2) fun s a t hs h => ?_
      unfold createOp at h
      split_ifs at h
      cases h
      exact ⟨⟨rfl, holding_set hs.2.1⟩, (holding_set hs.2.1).usable⟩
    exact call_triple hcreate _

/-- What there is of the partial is kept, if the request for its size is answered. -/
lemma beginFile_writing (r₀ : Receiver Server Handle) (hdest : path.toStringNormalized = dest)
    (hclosed : r₀.currentFile = none) (hs : Usable dest r₀.server) (size start : ℕ) :
    Triple (· = r₀) (beginFile path size start)
      (fun _ r => ∃ c, Writing dest c r ∧
        ((∀ r, createParent path r₀ = .ok () r → r.server.fates 0 = .granted) →
          c = kept (r₀.server.content (tmpPath dest)) size start)) (Left dest) := by
  rintro r₀ rfl
  simp only [beginFile, get_bind, hclosed, Option.isSome_none, Bool.false_eq_true, if_false, hdest]
  have habove : Above dest r₀.server.node (after (createParent path) r₀).server :=
    (createParent_above hdest).after fun _ _ => rfl
  cases hparent : createParent path r₀ with
  | error e r =>
    rw [after_error hparent] at habove
    rw [bind_of_error hparent]
    exact habove.usable hs
  | ok _ r =>
    rw [after_ok hparent] at habove
    obtain ⟨skip, t, hskip, ht, hcases⟩ := resumeSkip_cases r (tmpPath dest) size start
    rw [bind_of_ok hparent, bind_of_ok hskip]
    have hnode : Above dest r₀.server.node t := by rcases ht with rfl | rfl <;> exact habove
    have hsame {s} (h : Above dest r₀.server.node s) :
        s.content (tmpPath dest) = r₀.server.content (tmpPath dest) :=
      content_congr (h _ (by rw [length_tmpPath]; omega))
    rw [hsame habove] at hcases
    -- without an answer nothing of the partial is kept
    obtain ⟨c, rfl, hc, hkept⟩ : ∃ c : Bytes, skip = c.length ∧
        (c = [] ∨ r₀.server.content (tmpPath dest) = some c) ∧
        (r.server.fates 0 = .granted → c = kept (r₀.server.content (tmpPath dest)) size start) := by
      rcases hcases with rfl | ⟨rfl, hrefused⟩
      · exact ⟨_, rfl, kept_cases _ _ _, fun _ => rfl⟩
      · exact ⟨[], rfl, .inl rfl, fun h => absurd h hrefused⟩
    rw [← hsame hnode] at hc
    refine Triple.bind openPartial_writing (fun file => ?_) { r with server := t }
      ⟨hc, hnode.usable hs⟩
    rintro r' ⟨rfl, hheld⟩
    exact ⟨c, ⟨rfl, rfl, hheld⟩, fun hstat => hkept (hstat r rfl)⟩

lemma fileData_writing (data : Bytes) :
    Triple (Writing dest c) (fileData data) (fun _ => Writing dest (c ++ data)) (Left dest) := by
  intro r h
  simp only [fileData, get_bind, h.file]
  have hwrite : SftpServer.writeAll ⟨tmpPath dest, c.length⟩ data r.server =
      Server.writeAll ⟨tmpPath dest, c.length⟩ data r.server := rfl
  rw [Server.writeAll, h.held.1] at hwrite
  cases hfate : r.server.fates 0 with
  | granted =>
    simp only [hfate, overwrite_end, ← List.length_append] at hwrite
    rw [bind_of_ok (call_ok hwrite)]
    exact ⟨rfl, h.toDest, holding_set h.held.2⟩
  | failed steps =>
    simp only [hfate] at hwrite
    rw [bind_of_error (call_error hwrite)]
    exact (holding_set h.held.2).usable

lemma uploadLoop_writing (spec : CopySpec) (root : NormalizedPath) (isDir : Bool)
    {rest : List CopyFrame} {Q : Unit → Receiver Server Handle → Prop} (chunks : List Bytes)
    (h : Triple (Writing dest (c ++ chunks.flatten)) (uploadLoop spec root isDir rest) Q
      (Left dest)) :
    Triple (Writing dest c) (uploadLoop spec root isDir (chunks.map .fileData ++ rest)) Q
      (Left dest) := by
  induction chunks generalizing c with
  | nil => simpa using h
  | cons x chunks ih =>
    exact Triple.bind (fileData_writing x) fun _ => ih (by simpa using h)

lemma endFile_writing :
    Triple (Writing dest c) endFile
      (fun _ r => Usable dest r.server ∧ r.server.content dest = some c) (Left dest) := by
  intro r h
  by_cases h0 : r.server.fates 0 = .granted
  swap
  · rw [endFile_refused h.file h0]
    exact h.held.usable
  rw [endFile_shut h.file h.toDest h0, publish_eq]
  refine call_triple (P := Holding dest c) (E := Usable dest)
    (Q := fun _ s => Usable dest s ∧ s.content dest = some c)
    (request_triple (fun _ h => h) (fun _ h => h.usable) fun s a t hs h => ?_) _ _ ?_
  · simp only [renameOp, node_of_content hs.1] at h
    split_ifs at h
    cases h
    have hmoved := moved_node_to (s := s) (tmpPath dest) dest (.file c)
    have husable : Usable dest (s.moved (tmpPath dest) dest (.file c)) :=
      ⟨by simp [hmoved], by simp [moved, tmpPath_ne]⟩
    exact ⟨⟨husable, content_of_node hmoved⟩, husable⟩
  · rw [after_removeFile]
    split_ifs
    · exact ⟨(content_congr (set_node_ne (tmpPath_ne dest))).trans h.held.1, by simp⟩
    · exact h.held

/-- The request for the size of the partial is answered. It comes behind those for the parents of
the destination. -/
def StatAnswered (path : NormalizedPath) (s : Server) : Prop :=
  ∀ r, createParent path ⟨none, none, s.tick⟩ = .ok () r → r.server.fates 0 = .granted

/-- **The upload of one file**, however it ends. -/
lemma upload_triple {spec : CopySpec} {root : NormalizedPath} (hrec : spec.recursive = false)
    (hroot : .fromStr spec.remotePath = root) (hdest : root.toStringNormalized = dest)
    (hs : Usable dest s) (relativePath : Str) (mode size : ℕ) (mtime : ℤ) (start : ℕ)
    (chunks : List Bytes) {content : Bytes}
    (hcontent : kept (s.content (tmpPath dest)) size start ++ chunks.flatten = content) :
    Triple (· = s) (upload spec (fileFrames relativePath mode size mtime start chunks true))
      (fun _ t => Usable dest t ∧ (StatAnswered root s → t.content dest = some content))
      fun _ => Usable dest := by
  rintro s rfl
  have hframe : uploadFrame spec root false (.beginFile relativePath mode size mtime start) =
      (beginFile root size start : Upload Server Handle Unit) := by
    simp [uploadFrame, entryPath, hrec]
  have hbegin := beginFile_writing ⟨none, none, s.tick⟩ hdest rfl hs size start
  rw [← hframe] at hbegin
  have hloop : Triple (· = ⟨none, none, s.tick⟩)
      (uploadLoop spec root false (fileFrames relativePath mode size mtime start chunks true))
      (fun _ r => Usable dest r.server ∧
        (StatAnswered root s → r.server.content dest = some content)) (Left dest) := by
    refine Triple.bind hbegin fun _ r ⟨c, hwriting, hc⟩ => ?_
    refine uploadLoop_writing spec _ _ chunks (Triple.bind endFile_writing fun _ => ?_) r hwriting
    refine Triple.pure fun r hr => ⟨hr.1, fun hstat => ?_⟩
    rw [hr.2, hc hstat, ← hcontent]
    rfl
  simp only [upload, hroot, remotePathIsDir_false (hdest ▸ hs.1)]
  cases hrun : uploadLoop spec root false
      (fileFrames relativePath mode size mtime start chunks true) ⟨none, none, s.tick⟩ with
  | error e r =>
    rw [bind_of_error hrun]
    exact hloop.of_error rfl hrun
  | ok _ r =>
    rw [bind_of_ok hrun, finish, get_bind]
    split_ifs
    · exact (hloop.of_ok rfl hrun).1
    · exact hloop.of_ok rfl hrun

end Left

/-! ### Runs -/

/-- What the client streams completes what the server keeps. -/
lemma kept_append_drop {p : Option Bytes} {skip : ℕ} {content : Bytes}
    (h : skip = 0 ∨ p = some (content.take skip) ∧ skip ≤ content.length) :
    kept p content.length skip ++ content.drop skip = content := by
  rcases Nat.eq_zero_or_pos skip with rfl | hpos
  · simp [kept, Continues]
  · obtain ⟨rfl, hle⟩ := h.resolve_left (by omega)
    have hc : Continues (some (content.take skip)) content.length skip := by
      refine ⟨by omega, ?_⟩
      rw [Option.map_some, List.length_take]
    rw [kept, if_pos hc]
    exact List.take_append_drop skip content

section Runs

variable (source : Source) (remotePath sourceName : Str)

/-- A run that may be cut: any of its requests may fail, and a write may write some of its
bytes. -/
def Step (s t : Server) : Prop :=
  ∃ reads session fates, t = after (run sha256 reads source remotePath sourceName session fates) s

variable (hnorm : (NormalizedPath.fromStr remotePath).toStringNormalized = remotePath)
include hnorm

/-- One run, however it ends. -/
lemma run_triple (hsha : Function.Injective sha256) {s : Server} (hs : Usable remotePath s)
    (reads : Reads) (session : Option (ℕ → Fate)) (fates : ℕ → Fate) :
    Triple (· = s) (run sha256 reads source remotePath sourceName session fates)
      (fun _ t => Usable remotePath t ∧ (StatAnswered (.fromStr remotePath) { s with fates } →
        t.content remotePath = some source.content))
      fun _ => Usable remotePath := by
  rintro s rfl
  obtain ⟨e, fates', hprobe, hname, hfound⟩ :=
    probed_found sha256 source sourceName hnorm hs.1 session
  have hskip := agreedOffset_cases hsha source.content hname hfound
  simp only [run, hprobe]
  exact upload_triple (s := { s with fates }) rfl rfl hnorm hs _ _ _ _ _ _
    ((congrArg _ (reads.flatten_cut _)).trans (kept_append_drop hskip)) _ rfl

lemma usable_run (hsha : Function.Injective sha256) {s t : Server} (hs : Usable remotePath s)
    (h : Relation.ReflTransGen (Step sha256 source remotePath sourceName) s t) :
    Usable remotePath t := by
  induction h with
  | refl => exact hs
  | tail _ hstep ih =>
    obtain ⟨reads, session, fates, rfl⟩ := hstep
    exact ((run_triple sha256 source remotePath sourceName hnorm hsha ih reads session fates).mono
      (fun _ h => h) (fun _ _ h => h.1) fun _ _ h => h).after rfl

/-- **Resuming an upload is sound.** After any number of runs, each cut wherever, a run that is
not cut completes and publishes the source; and every run that completes has published it, if the
request for the size of the partial was answered. -/
theorem resumed_upload_exact (hsha : Function.Injective sha256) {s₀ s : Server}
    (hdest : s₀.node remotePath ≠ some .dir) (htmp : s₀.node (tmpPath remotePath) ≠ some .dir)
    (hruns : Relation.ReflTransGen (Step sha256 source remotePath sourceName) s₀ s)
    (reads : Reads) (session : Option (ℕ → Fate)) :
    (∃ t, run sha256 reads source remotePath sourceName session (fun _ => .granted) s = .ok () t ∧
      t.content remotePath = some source.content) ∧
    ∀ fates t, StatAnswered (.fromStr remotePath) { s with fates } →
      run sha256 reads source remotePath sourceName session fates s = .ok () t →
        t.content remotePath = some source.content := by
  have hs := usable_run sha256 source remotePath sourceName hnorm hsha ⟨hdest, htmp⟩ hruns
  have hexact : ∀ fates t, StatAnswered (.fromStr remotePath) { s with fates } →
      run sha256 reads source remotePath sourceName session fates s = .ok () t → _ :=
    fun fates t hstat hrun => ((run_triple sha256 source remotePath sourceName hnorm hsha hs reads
      session fates).of_ok rfl hrun).2 hstat
  refine ⟨?_, hexact⟩
  have hgrant : ({ s with fates := fun _ => .granted } : Server).Granting := fun _ => rfl
  have hstat : StatAnswered (.fromStr remotePath) { s with fates := fun _ => .granted } := by
    intro r hr
    rw [hgrant.tick] at hr
    obtain ⟨t, ht, hgrant', -⟩ :=
      createParent_granting (r := ⟨none, none, _⟩) hgrant (.fromStr remotePath)
    cases ht.symm.trans hr
    exact hgrant' 0
  obtain ⟨e, fates', hprobe, -⟩ := probed_found sha256 source sourceName hnorm hs.1 session
  have hupload := upload_granting (uploadSpec remotePath sourceName [e])
    (NormalizedPath.fromLocal (.ofStr sourceName)).toStringNormalized source.mode source.mtime
    (reads.cut (source.content.drop (agreedOffset sha256 source.content sourceName [e]))) true
    hgrant source.content.length (agreedOffset sha256 source.content sourceName [e])
  have hdestOf : destOf (uploadSpec remotePath sourceName [e]) { s with fates := fun _ => .granted }
      (NormalizedPath.fromLocal (.ofStr sourceName)).toStringNormalized = remotePath := by
    simp [destOf, entryPath, uploadSpec, hnorm, hs.1]
  simp only [hdestOf] at hupload
  rw [if_neg (not_or.2 hs.symm)] at hupload
  obtain ⟨t, hok, -⟩ := hupload
  have hrun : run sha256 reads source remotePath sourceName session (fun _ => .granted) s =
      .ok () t := by
    simp only [run, hprobe]
    exact hok
  exact ⟨t, hrun, hexact _ t hstat hrun⟩

end Runs

/-- SHA-256 of the byte 1. -/
def sha256One : Str := "4bf5122f344554c53bde2ebb8cd2b7e3d1600ad631c385a5d7cce23c7785459a"

/-- A digest of which only that value matters. -/
def digest (b : Bytes) : Str :=
  if b = [1] then sha256One else 'x' :: b.map fun x => Char.ofNat x.toNat

lemma digest_injective : Function.Injective digest := by
  have hone (t : Str) (h : sha256One = 'x' :: t) : False :=
    absurd (congrArg List.head? h) (by decide : sha256One.head? ≠ some 'x')
  have hval (x : UInt8) : (Char.ofNat x.toNat).toNat = x.toNat := by
    have hvalid : x.toNat.isValidChar := .inl (x.toNat_lt.trans (by decide))
    rw [Char.ofNat, dif_pos hvalid]
    rfl
  have hchar : Function.Injective fun x : UInt8 => Char.ofNat x.toNat := fun x y h =>
    UInt8.toNat_inj.1 ((hval x).symm.trans ((congrArg Char.toNat h).trans (hval y)))
  intro a b h
  unfold digest at h
  split_ifs at h with ha hb hb
  · rw [ha, hb]
  · exact (hone _ h).elim
  · exact (hone _ h.symm).elim
  · exact List.map_injective_iff.2 hchar (List.cons.inj h).2

/-- A run whose connection drops after one byte of data, and two that resume it: one in which
nothing fails, and one that is not told whether the destination is a directory and fails to remove
it. -/
theorem resumed_upload_exact_after_cut :
    let source : Source := ⟨0o644, 7, [1, 2, 3]⟩
    let cut : ℕ → Fate := fun n => if n < 2 then .granted else .failed 1
    let lossy : ℕ → Fate := fun n => if n = 0 ∨ n = 5 then .failed 0 else .granted
    let s₁ := after (run digest .full source "f" "f" (some fun _ => .granted) cut)
      ⟨fun _ => none, fun _ => .granted, []⟩
    s₁.content (tmpPath "f") = some [1] ∧
      (∃ t, run digest .full source "f" "f" (some fun _ => .granted) (fun _ => .granted) s₁ =
        .ok () t ∧ t.content "f" = some [1, 2, 3]) ∧
      ∃ t, run digest .full source "f" "f" (some fun _ => .granted) lossy s₁ = .ok () t ∧
        t.content "f" = some [1, 2, 3] := by
  intro source cut lossy s₁
  have hruns : Relation.ReflTransGen (Step digest source "f" "f")
      ⟨fun _ => none, fun _ => .granted, []⟩ s₁ :=
    .single ⟨.full, some fun _ => .granted, cut, rfl⟩
  obtain ⟨hgranted, hexact⟩ := resumed_upload_exact digest source "f" "f" (by decide +kernel)
    digest_injective (by simp) (by simp) hruns .full (some fun _ => .granted)
  have hpart : s₁.content (tmpPath "f") = some [1] := by decide +kernel
  have hok :
      (run digest .full source "f" "f" (some fun _ => .granted) lossy).run' s₁ = some () := by
    decide +kernel
  have hparent : (NormalizedPath.fromStr "f").parent = some ⟨[], .relative⟩ := by decide +kernel
  have hstat : StatAnswered (.fromStr "f") { s₁ with fates := lossy } := by
    clear_value s₁
    intro r hr
    rw [createParent, hparent] at hr
    cases hr
    rfl
  refine ⟨hpart, hgranted, ?_⟩
  clear_value s₁
  cases hrun : run digest .full source "f" "f" (some fun _ => .granted) lossy s₁ with
  | ok _ t => exact ⟨t, rfl, hexact lossy t hstat hrun⟩
  | error e t =>
    delta EStateM.run' EStateM.run at hok
    rw [hrun] at hok
    cases hok

end CrossHostOps.ResumeUpload
