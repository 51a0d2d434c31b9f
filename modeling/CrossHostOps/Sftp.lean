import CrossHostOps.Hoare
import CrossHostOps.Text

/-!
The SFTP server behind an upload, as the requests the daemon sends to it, and `Server`, a
server whose requests may fail.

Every request meets a fate. One that fails may have been carried out all the same, when only
its answer was lost, and a write that fails may have written some of its bytes. A connection
that drops fails every request from then on.
-/

namespace CrossHostOps.Sftp

open Text Hoare

inductive SftpError
  | noSuchFile
  | failure
  | connection
  deriving DecidableEq

structure Metadata where
  isDir : Bool
  len : ℕ

class SftpServer (σ : Type) (H : outParam Type) where
  metadata : Str → EStateM SftpError σ Metadata
  /-- `create`: truncates what is there. -/
  create : Str → EStateM SftpError σ H
  /-- `open_with_flags(CREATE | WRITE)`. -/
  openWrite : Str → EStateM SftpError σ H
  seek : H → ℕ → EStateM SftpError σ H
  writeAll : H → Bytes → EStateM SftpError σ H
  shutdown : H → EStateM SftpError σ Unit
  removeFile : Str → EStateM SftpError σ Unit
  /-- Does not overwrite. -/
  rename : Str → Str → EStateM SftpError σ Unit
  createDir : Str → EStateM SftpError σ Unit
  symlink : (path target : Str) → EStateM SftpError σ Unit
  /-- `open` and reads up to the end. -/
  readFile : Str → EStateM SftpError σ Bytes

variable {σ H α : Type}

/-- `try_exists`: only a missing file is not an error. -/
def tryExists [SftpServer σ H] (path : Str) : EStateM SftpError σ Bool := fun s =>
  match SftpServer.metadata path s with
  | .ok _ t => .ok true t
  | .error .noSuchFile t => .ok false t
  | .error e t => .error e t

/-- A link of a `Server` is never followed: it is neither file nor directory, and opening it
replaces it. -/
inductive Node
  | file (content : Bytes)
  | dir
  | link (target : Str)
  deriving DecidableEq

def Node.metadata : Node → Metadata
  | .file c => ⟨false, c.length⟩
  | .dir => ⟨true, 0⟩
  | .link _ => ⟨false, 0⟩

/-- How a request ends. One that fails has made the first `steps` of its steps: a write has one
for each byte, any other request a single one. -/
inductive Fate
  | granted
  | failed (steps : ℕ)
  deriving DecidableEq

def Fate.executes : Fate → Bool
  | .granted => true
  | .failed steps => 0 < steps

structure Server where
  node : Str → Option Node
  /-- The fates of the requests to come. -/
  fates : ℕ → Fate
  /-- The renames made so far. -/
  renamed : List (Str × Str)

/-- A handle: its path, and where the next write goes. -/
structure Handle where
  path : Str
  pos : ℕ

namespace Server

def content (s : Server) (p : Str) : Option Bytes :=
  match s.node p with
  | some (.file c) => some c
  | _ => none

def set (s : Server) (p : Str) (n : Option Node) : Server :=
  { s with node := Function.update s.node p n }

/-- A request has met its fate. -/
def tick (s : Server) : Server := { s with fates := fun n => s.fates (n + 1) }

/-- A request of one step. -/
def request (op : Server → Except SftpError (α × Server)) : EStateM SftpError Server α := fun s =>
  match s.fates 0, op s.tick with
  | .granted, .ok (a, t) => .ok a t
  | .granted, .error e => .error e s.tick
  | .failed steps, .ok (_, t) => .error .connection (if 0 < steps then t else s.tick)
  | .failed _, .error _ => .error .connection s.tick

/-- `data` written over `c` from `pos` on; a gap reads as zeros. -/
def overwrite (c : Bytes) (pos : ℕ) (data : Bytes) : Bytes :=
  c.take pos ++ List.replicate (pos - c.length) 0 ++ data ++ c.drop (pos + data.length)

def statOp (p : Str) (s : Server) : Except SftpError (Metadata × Server) :=
  match s.node p with
  | some n => .ok (n.metadata, s)
  | none => .error .noSuchFile

def createOp (p : Str) (s : Server) : Except SftpError (Handle × Server) :=
  if s.node p = some .dir then .error .failure else .ok (⟨p, 0⟩, s.set p (some (.file [])))

def openOp (p : Str) (s : Server) : Except SftpError (Handle × Server) :=
  match s.node p with
  | some (.file _) => .ok (⟨p, 0⟩, s)
  | some .dir => .error .failure
  | _ => .ok (⟨p, 0⟩, s.set p (some (.file [])))

def removeOp (p : Str) (s : Server) : Except SftpError (Unit × Server) :=
  match s.node p with
  | none => .error .noSuchFile
  | some .dir => .error .failure
  | some _ => .ok ((), s.set p none)

/-- The file at `a`, moved to `b`. -/
def moved (s : Server) (a b : Str) (n : Node) : Server :=
  { (s.set a none).set b (some n) with renamed := s.renamed ++ [(a, b)] }

def renameOp (a b : Str) (s : Server) : Except SftpError (Unit × Server) :=
  match s.node a with
  | none => .error .noSuchFile
  | some n => if s.node b = none then .ok ((), s.moved a b n) else .error .failure

def mkdirOp (p : Str) (s : Server) : Except SftpError (Unit × Server) :=
  if s.node p = none then .ok ((), s.set p (some .dir)) else .error .failure

def symlinkOp (p target : Str) (s : Server) : Except SftpError (Unit × Server) :=
  if s.node p = none then .ok ((), s.set p (some (.link target))) else .error .failure

def readOp (p : Str) (s : Server) : Except SftpError (Bytes × Server) :=
  match s.content p with
  | some c => .ok (c, s)
  | none => .error .noSuchFile

/-- A write, byte by byte. -/
def writeAll (h : Handle) (data : Bytes) : EStateM SftpError Server Handle := fun s =>
  match s.content h.path with
  | none => .error .failure s.tick
  | some c =>
    match s.fates 0 with
    | .granted =>
      .ok ⟨h.path, h.pos + data.length⟩
        (s.tick.set h.path (some (.file (overwrite c h.pos data))))
    | .failed steps =>
      .error .connection (s.tick.set h.path (some (.file (overwrite c h.pos (data.take steps)))))

instance : SftpServer Server Handle where
  metadata p := request (statOp p)
  create p := request (createOp p)
  openWrite p := request (openOp p)
  seek h n := pure ⟨h.path, n⟩
  writeAll := writeAll
  shutdown _ := request fun s => .ok ((), s)
  removeFile p := request (removeOp p)
  rename a b := request (renameOp a b)
  createDir p := request (mkdirOp p)
  symlink p target := request (symlinkOp p target)
  readFile p := request (readOp p)

/-! ### What the requests do -/

variable {s : Server} {p q : Str} {n : Option Node} {c : Bytes}

@[simp] lemma set_node_self : (s.set p n).node p = n := by simp [set]

@[simp] lemma set_node_ne (h : q ≠ p) : (s.set p n).node q = s.node q := by simp [set, h]

@[simp] lemma tick_node : s.tick.node = s.node := rfl

@[simp] lemma content_set_file : (s.set p (some (.file c))).content p = some c := by simp [content]

lemma node_of_content (h : s.content p = some c) : s.node p = some (.file c) := by
  unfold content at h
  split at h
  · simp_all
  · cases h

lemma content_of_node (h : s.node p = some (.file c)) : s.content p = some c := by
  rw [content, h]

variable {t : Server} {op : Server → Except SftpError (α × Server)} {a : α} {e : SftpError}
  {b : Str}

lemma content_congr (h : t.node p = s.node p) : t.content p = s.content p := by
  rw [content, content, h]

lemma moved_node_to (a b : Str) (n : Node) : (s.moved a b n).node b = some n := by simp [moved]

/-- A request is carried out, or leaves the server as it is. -/
lemma after_request_ok (hop : op s.tick = .ok (a, t)) :
    after (request op) s = if (s.fates 0).executes then t else s.tick := by
  unfold after request
  cases hf : s.fates 0 with
  | granted | failed => simp [hop, Fate.executes]

lemma after_request_error (hop : op s.tick = .error e) : after (request op) s = s.tick := by
  unfold after request
  cases s.fates 0 <;> simp [hop]

/-- What is known of a request that is answered, and what however it ends. -/
lemma request_triple {P I : Server → Prop} {Q : α → Server → Prop}
    (htick : ∀ s, P s → P s.tick) (hI : ∀ s, P s → I s)
    (hop : ∀ s a t, P s → op s = .ok (a, t) → Q a t ∧ I t) :
    Triple P (request op) Q fun _ => I := by
  intro s hs
  have hrefused := hI _ (htick s hs)
  unfold request
  cases hr : op s.tick with
  | error e => cases s.fates 0 <;> exact hrefused
  | ok r =>
    obtain ⟨a, t⟩ := r
    obtain ⟨ha, ht⟩ := hop _ _ _ (htick s hs) hr
    cases s.fates 0 with
    | granted => exact ha
    | failed steps =>
      change I (if 0 < steps then t else s.tick)
      split_ifs
      · exact ht
      · exact hrefused

/-- A request that only looks: it answers what is there, or fails. -/
lemma request_look (hop : ∀ s a t, op s = .ok (a, t) → t = s) (s : Server) :
    (∃ a, op s.tick = .ok (a, s.tick) ∧ request op s = .ok a s.tick) ∨
      ∃ e, request op s = .error e s.tick ∧ (s.fates 0 = .granted → op s.tick = .error e) := by
  unfold request
  cases hr : op s.tick with
  | error e => cases s.fates 0 <;> exact .inr ⟨_, rfl, by simp⟩
  | ok r =>
    obtain ⟨a, t⟩ := r
    obtain rfl := hop _ _ _ hr
    cases s.fates 0 with
    | granted => exact .inl ⟨a, rfl, rfl⟩
    | failed steps => exact .inr ⟨.connection, by simp, by simp⟩

lemma metadata_cases (p : Str) (s : Server) :
    (∃ n, s.node p = some n ∧ SftpServer.metadata p s = .ok n.metadata s.tick) ∨
      ∃ e, SftpServer.metadata p s = .error e s.tick ∧
        (s.fates 0 = .granted → s.node p = none) := by
  have hlook : ∀ s a t, statOp p s = .ok (a, t) → t = s := by
    intro s a t h
    unfold statOp at h
    split at h <;> cases h
    rfl
  rcases request_look hlook s with ⟨a, hop, h⟩ | ⟨e, h, hop⟩
  · unfold statOp at hop
    split at hop
    · next n hn => cases hop; exact .inl ⟨n, hn, h⟩
    · cases hop
  · refine .inr ⟨e, h, fun hgranted => ?_⟩
    have hop := hop hgranted
    unfold statOp at hop
    split at hop
    · cases hop
    · next hn => exact hn

lemma readFile_cases (p : Str) (s : Server) :
    (∃ c, s.content p = some c ∧ SftpServer.readFile p s = .ok c s.tick) ∨
      ∃ e, SftpServer.readFile p s = .error e s.tick := by
  have hlook : ∀ s a t, readOp p s = .ok (a, t) → t = s := by
    intro s a t h
    unfold readOp at h
    split at h <;> cases h
    rfl
  rcases request_look hlook s with ⟨a, hop, h⟩ | h
  · unfold readOp at hop
    split at hop
    · next c hc => cases hop; exact .inl ⟨a, hc, h⟩
    · cases hop
  · exact .inr (h.imp fun _ => And.left)

lemma overwrite_end (c data : Bytes) : overwrite c c.length data = c ++ data := by
  simp [overwrite]

/-! ### A server that grants every request -/

def Granting (s : Server) : Prop := ∀ n, s.fates n = .granted

variable (h : s.Granting)

include h

lemma Granting.tick : s.tick = s := by
  have : (fun n => s.fates (n + 1)) = s.fates := funext fun n => (h (n + 1)).trans (h n).symm
  unfold Server.tick
  rw [this]

lemma request_ok (hop : op s = .ok (a, t)) : request op s = .ok a t := by
  simp [request, h 0, h.tick, hop]

lemma request_error (hop : op s = .error e) : request op s = .error e s := by
  simp [request, h 0, h.tick, hop]

lemma metadata_some {n : Node} (hn : s.node p = some n) :
    SftpServer.metadata p s = .ok n.metadata s :=
  request_ok h (by rw [statOp, hn])

lemma metadata_none (hn : s.node p = none) : SftpServer.metadata p s = .error .noSuchFile s :=
  request_error h (by rw [statOp, hn])

lemma tryExists_granting (p : Str) : tryExists p s = .ok (s.node p).isSome s := by
  unfold tryExists
  cases hn : s.node p with
  | none => rw [metadata_none h hn]; rfl
  | some n => rw [metadata_some h hn]; rfl

lemma create_ok (hp : s.node p ≠ some .dir) :
    SftpServer.create p s = .ok ⟨p, 0⟩ (s.set p (some (.file []))) :=
  request_ok h (if_neg hp)

lemma create_dir (hp : s.node p = some .dir) : SftpServer.create p s = .error .failure s :=
  request_error h (if_pos hp)

lemma openWrite_file (hc : s.content p = some c) : SftpServer.openWrite p s = .ok ⟨p, 0⟩ s :=
  request_ok h (by rw [openOp, node_of_content hc])

lemma createDir_ok (hp : s.node p = none) :
    SftpServer.createDir p s = .ok () (s.set p (some .dir)) :=
  request_ok h (if_pos hp)

lemma writeAll_ok (handle : Handle) (hc : s.content handle.path = some c) (data : Bytes) :
    SftpServer.writeAll handle data s =
      .ok ⟨handle.path, handle.pos + data.length⟩
        (s.set handle.path (some (.file (overwrite c handle.pos data)))) := by
  change writeAll handle data s = _
  simp [writeAll, hc, h 0, h.tick]

lemma rename_ok {a : Str} {n : Node} (ha : s.node a = some n) (hb : s.node b = none) :
    SftpServer.rename a b s = .ok () (s.moved a b n) :=
  request_ok h (by simp [renameOp, ha, hb])

lemma rename_taken {a : Str} {n : Node} (ha : s.node a = some n) (hb : s.node b ≠ none) :
    SftpServer.rename a b s = .error .failure s :=
  request_error h (by simp [renameOp, ha, hb])

end Server

end CrossHostOps.Sftp
