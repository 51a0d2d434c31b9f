import Mathlib.Data.List.Nodup
import CrossHostOps.Filepath
import CrossHostOps.Frames
import CrossHostOps.Hoare
import CrossHostOps.Shell

/-!
`download` of `daemon/session/shell_copy.rs`, and the retry around it in
`JumpserverGateway::copy`.

A failed attempt writes how far it got into the resume hints of the spec, and the second
attempt starts there.
-/

namespace CrossHostOps.ShellDownload

open Text Filepath Frames Hoare Shell List

/-! ### The ledger -/

/-- `ResumeLedger`: one entry for each path. -/
structure ResumeLedger where
  entries : List ResumeEntry
  nodup : (entries.map (·.relativePath)).Nodup

namespace ResumeLedger

def hint (l : ResumeLedger) (name : Str) : Option ResumeEntry :=
  l.entries.find? (·.relativePath = name)

/-- `insert` of the map: the entry under that name is replaced. -/
def insert (l : ResumeLedger) (e : ResumeEntry) : ResumeLedger where
  entries := e :: l.entries.filter (·.relativePath ≠ e.relativePath)
  nodup := by
    rw [List.map_cons, List.nodup_cons]
    refine ⟨?_, (l.nodup.sublist (List.filter_sublist.map _))⟩
    simp

def update (l : ResumeLedger) (name : Str) (offset size : ℕ) (mtime : ℤ) : ResumeLedger :=
  l.insert ⟨name, offset, size, mtime, []⟩

/-- `ResumeLedger::from`: collecting into a map, so the last entry of a name stays. -/
def ofEntries (entries : List ResumeEntry) : ResumeLedger :=
  entries.foldl insert ⟨[], List.nodup_nil⟩

/-- `into_entries`, sorted by path. -/
def intoEntries (l : ResumeLedger) : List ResumeEntry :=
  l.entries.mergeSort fun a b => decide (a.relativePath ≤ b.relativePath)

variable {l : ResumeLedger} {name : Str}

lemma hint_insert (l : ResumeLedger) (e : ResumeEntry) (name : Str) :
    (l.insert e).hint name = if e.relativePath = name then some e else l.hint name := by
  unfold hint insert
  rw [find?_cons]
  by_cases h : e.relativePath = name
  · simp [h]
  · simp only [h, decide_false, find?_filter]
    congr 1
    funext x
    by_cases hx : x.relativePath = name
    · simp [hx, Ne.symm h]
    · simp [hx]

lemma hint_eq_some {e : ResumeEntry} :
    l.hint name = some e ↔ e ∈ l.entries ∧ e.relativePath = name := by
  constructor
  · intro h
    exact ⟨mem_of_find?_eq_some h, by simpa using find?_some h⟩
  · rintro ⟨he, rfl⟩
    have hsome : (l.hint e.relativePath).isSome :=
      find?_isSome.2 ⟨e, he, decide_eq_true rfl⟩
    obtain ⟨x, hx⟩ := Option.isSome_iff_exists.1 hsome
    rw [hx, inj_on_of_nodup_map l.nodup (mem_of_find?_eq_some hx) he (by simpa using find?_some hx)]

/-- Collecting entries with different names forgets none of them. -/
lemma hint_foldl_insert {entries : List ResumeEntry} {e : ResumeEntry} :
    ∀ {l : ResumeLedger}, (entries.map (·.relativePath)).Nodup →
    ((entries.foldl insert l).hint name = some e ↔ (e ∈ entries ∧ e.relativePath = name) ∨
      ((∀ x ∈ entries, x.relativePath ≠ name) ∧ l.hint name = some e)) := by
  induction entries with
  | nil => simp
  | cons x entries ih =>
    intro l hnodup
    rw [map_cons, nodup_cons] at hnodup
    rw [foldl_cons, ih hnodup.2, hint_insert]
    by_cases hx : x.relativePath = name
    · grind
    · grind

/-- What the ledger says survives its trip through the spec. -/
lemma hint_ofEntries_intoEntries (l : ResumeLedger) (name : Str) :
    (ofEntries l.intoEntries).hint name = l.hint name := by
  have hperm := mergeSort_perm l.entries fun a b =>
    decide (a.relativePath ≤ b.relativePath)
  have hnodup : (l.intoEntries.map (·.relativePath)).Nodup :=
    (hperm.map _).nodup_iff.2 l.nodup
  ext e
  rw [ofEntries, hint_foldl_insert hnodup, hint_eq_some, hint_eq_some, intoEntries]
  simp

end ResumeLedger

/-! ### One attempt -/

/-- What an attempt works on: the frame channel, whether the relay still reads it, and the
ledger. -/
structure Sending where
  isOpen : Bool
  sent : List CopyFrame
  ledger : ResumeLedger

abbrev Download := EStateM Str Sending

def closedMessage : Str := "download copy frame stream closed"

def send (f : CopyFrame) : Download Unit := do
  let s ← get
  if s.isOpen then set { s with sent := s.sent ++ [f] } else throw closedMessage

def ofShell {α : Type} (x : Except Str α) : Download α :=
  match x with
  | .ok a => pure a
  | .error e => throw e

/-- The forwarder: chunks become frames until the channel is closed; returns the bytes it
forwarded. -/
def forward (chunks : List Bytes) : Download ℕ := do
  let s ← get
  if s.isOpen then
    set { s with sent := s.sent ++ chunks.map CopyFrame.fileData }
    pure chunks.flatten.length
  else pure 0

def updateLedger (name : Str) (offset size : ℕ) (mtime : ℤ) : Download Unit :=
  modify fun s => { s with ledger := s.ledger.update name offset size mtime }

def testCommand (remotePath : Str) : Str :=
  "test -d " ++ shellQuote remotePath ++ " && echo XHO_DIR || echo XHO_FILE"

def statCommand (remotePath : Str) : Str :=
  "stat -c '%a %Y %s' " ++ shellQuote remotePath ++ " 2>/dev/null"

def findCommand (remotePath : Str) : Str :=
  "find " ++ shellQuote remotePath ++
    " -printf '%y\\t%m\\t%T@\\t%s\\t%p\\t%l\\n' 2>/dev/null"

def base64ReadCommand (remotePath : Str) (skip : ℕ) : Str :=
  if skip > 0 then
    "tail -c +" ++ showNat (skip + 1) ++ " " ++ shellQuote remotePath ++
      " | base64 2>/dev/null"
  else "base64 " ++ shellQuote remotePath ++ " 2>/dev/null"

def readFailedMessage (path : Str) (code : ℤ) : Str :=
  "remote read of " ++ path ++ " failed (exit code " ++ showInt code ++ ")"

/-- Mode, mtime and size from the output of `stat`. -/
def parseStat (output : Str) : ℕ × ℤ × ℕ :=
  match splitWhitespace output with
  | mode :: mtime :: size :: _ =>
    ((parseUnsigned 8 (2 ^ 32) mode).getD 0, (parseI64 mtime).getD 0, (parseU64 size).getD 0)
  | _ => (0o644, 0, 0)

/-- A hint counts when the source is unchanged and its offset lies inside the file. -/
def hintedStart (l : ResumeLedger) (name : Str) (size : ℕ) (mtime : ℤ) : ℕ :=
  (((l.hint name).filter fun h =>
    h.size = size ∧ h.mtime = mtime ∧ h.offset > 0 ∧ h.offset ≤ size).map (·.offset)).getD 0

variable (sh : PtyShell)

/-- The answer to the read command of a file. -/
def readFrom (path : Str) (size start : ℕ) : List Bytes × Except Str ℤ :=
  sh.rawB64 (base64ReadCommand path start) (size - start)

def finishFile (path : Str) (result : Except Str ℤ) : Download Unit := do
  let code ← ofShell result
  if code ≠ 0 then throw (readFailedMessage path code) else send .endFile

/-- The frames of one regular file; shared by the two branches of `download`. -/
def streamFile (path name : Str) (mode size : ℕ) (mtime : ℤ) : Download Unit := do
  let start := hintedStart (← get).ledger name size mtime
  send (.beginFile name mode size mtime start)
  let answer := readFrom sh path size start
  let forwarded ← forward answer.1
  updateLedger name (min (start + forwarded) size) size mtime
  finishFile path answer.2

def downloadSingleFile (remotePath sourceName : Str) : Download Unit := do
  let output ← ofShell (runAndCaptureRaw sh (statCommand remotePath))
  let (mode, mtime, size) := parseStat output
  streamFile sh remotePath ((PathBuf.ofStr remotePath).fileName.getD sourceName) mode size mtime

/-- One line of the listing: type, mode, mtime, size, path and link target. -/
def downloadLine (remotePath line : Str) : Download Unit := do
  let line := trimEndMatches '\r' line
  if line = [] then return ()
  match split '\t' line with
  | ftype :: mode :: mtime :: size :: fullPath :: rest =>
    let mode := (parseUnsigned 8 (2 ^ 32) mode).getD 0
    let mtime := ((split '.' mtime).head?.bind parseI64).getD 0
    let size := (parseU64 size).getD 0
    let relative :=
      if ((PathBuf.ofStr remotePath).fileName.getD []) = [] then fullPath
      else (if remotePath <+: fullPath then fullPath.drop remotePath.length
        else fullPath).dropWhile (· == '/')
    match ftype.head?.getD 'f' with
    | 'd' => send (.beginDirectory relative mode mtime)
    | 'l' => send (.symlink relative (rest.head?.getD []))
    | _ => streamFile sh fullPath relative mode size mtime
  | _ => return ()

def downloadLines (remotePath : Str) : List Str → Download Unit
  | [] => pure ()
  | line :: rest => do downloadLine sh remotePath line; downloadLines remotePath rest

def downloadRecursive (remotePath : Str) : Download Unit := do
  let listing ← ofShell (runAndCaptureRaw sh (findCommand remotePath))
  downloadLines sh remotePath (lines listing)

def downloadEntries (spec : CopySpec) (isDir : Bool) : Download Unit :=
  if isDir then
    if spec.recursive then downloadRecursive sh spec.remotePath
    else throw "copying a remote directory requires -r".toList
  else downloadSingleFile sh spec.remotePath spec.sourceName

def downloadSteps (spec : CopySpec) : Download Unit := do
  let kind ← ofShell (runAndCapture sh (testCommand spec.remotePath))
  ofShell (rawGuardEnter sh)
  downloadEntries sh spec (contains "XHO_DIR" kind)
  send .endOfStream
  ofShell (rawGuardComplete sh)

/-- What an attempt leaves: the frames it sent, the hints of the spec, its result. -/
structure Attempt where
  frames : List CopyFrame
  resume : List ResumeEntry
  result : Except Str Unit

/-- `download`: on failure the hints become the ledger. -/
def download (spec : CopySpec) (isOpen : Bool) : Attempt :=
  match downloadSteps sh spec ⟨isOpen, [], .ofEntries spec.resume⟩ with
  | .ok _ s => ⟨s.sent, spec.resume, .ok ()⟩
  | .error e s => ⟨s.sent, s.ledger.intoEntries, .error e⟩

/-! ### What an attempt sends -/

section Spec

variable {sh} {s : Sending}

lemma send_open (hs : s.isOpen = true) (f : CopyFrame) :
    send f s = .ok () { s with sent := s.sent ++ [f] } := by
  simp only [send, get_bind, hs]
  rfl

lemma send_closed (hs : s.isOpen = false) (f : CopyFrame) : send f s = .error closedMessage s := by
  simp only [send, get_bind, hs]
  rfl

lemma forward_open (hs : s.isOpen = true) (chunks : List Bytes) :
    forward chunks s = .ok chunks.flatten.length
      { s with sent := s.sent ++ chunks.map .fileData } := by
  simp only [forward, get_bind, hs]
  rfl

/-- The state after the bytes of a file were read, all of them or not. -/
def Sending.read (s : Sending) (name : Str) (mode size : ℕ) (mtime : ℤ) (start : ℕ)
    (chunks : List Bytes) : Sending :=
  { s with
    sent := s.sent ++ (.beginFile name mode size mtime start :: chunks.map .fileData)
    ledger := s.ledger.update name (min (start + chunks.flatten.length) size) size mtime }

variable {path name : Str} {mode size : ℕ} {mtime : ℤ}

lemma streamFile_open (hs : s.isOpen = true) {start : ℕ}
    (hstart : hintedStart s.ledger name size mtime = start) :
    streamFile sh path name mode size mtime s =
      finishFile path (readFrom sh path size start).2
        (s.read name mode size mtime start (readFrom sh path size start).1) := by
  subst hstart
  simp only [streamFile, get_bind]
  rw [bind_of_ok (send_open hs _)]
  refine (bind_of_ok (forward_open (by exact hs) _)).trans ?_
  simp [updateLedger, Sending.read]

/-- What a read command that did not exit cleanly is reported as. -/
def readError (path : Str) : Except Str ℤ → Str
  | .error e => e
  | .ok code => readFailedMessage path code

lemma finishFile_error {result : Except Str ℤ} (h : result ≠ .ok 0) :
    finishFile path result s = .error (readError path result) s := by
  cases result with
  | error e => rfl
  | ok code =>
    have hcode : code ≠ 0 := fun hc => h (by rw [hc])
    change (if code ≠ 0 then throw _ else send _ : Download Unit) s = _
    rw [if_pos hcode]
    rfl

lemma streamFile_closed (hs : s.isOpen = false) :
    streamFile sh path name mode size mtime s = .error closedMessage s := by
  simp only [streamFile, get_bind]
  exact bind_of_error (send_closed hs _)

end Spec

/-! ### The gateway -/

/-- `JumpserverGateway::copy` of a download: one retry, on a stall, with the hints the first
attempt left. The relay reads the channel up to the first `EndOfStream`. -/
def copy (first second : Except Str PtyShell) (spec : CopySpec) :
    List CopyFrame × Except Str Unit :=
  match first with
  | .error e => ([], .error e)
  | .ok sh =>
    let a := download sh spec true
    match a.result with
    | .ok _ => (a.frames, .ok ())
    | .error e =>
      if spec.direction = .download ∧ isStallClass e then
        match second with
        | .error e' => (a.frames, .error e')
        | .ok sh' =>
          let b := download sh' { spec with resume := a.resume }
            (decide (.endOfStream ∉ a.frames))
          (a.frames ++ b.frames, b.result)
      else (a.frames, .error e)

end CrossHostOps.ShellDownload
