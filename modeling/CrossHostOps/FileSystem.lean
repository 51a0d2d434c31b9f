import CrossHostOps.Filepath
import CrossHostOps.Hoare

/-!
The local file system of the CLI, as the operations the download writer calls on it, and
`Disk`, the file system of one directory of regular files.

A `Disk` carries the number of effects the process still gets to make. Every byte written
counts as one effect, so a budget cuts a run at any point, also inside a write; once it is
spent nothing reaches the disk any more, which is what killing the process does.
-/

namespace CrossHostOps.FileSystem

open Text Filepath Hoare

inductive IoError
  | notFound
  | alreadyExists
  | notADirectory
  | isADirectory
  | tooManyLinks
  | killed
  deriving DecidableEq

class LocalFs (σ : Type) (H : outParam Type) where
  pathIsExistingDir : PathBuf → EStateM IoError σ Bool
  createDirAll : PathBuf → EStateM IoError σ Unit
  /-- `File::create`: truncates what is there. -/
  create : PathBuf → EStateM IoError σ H
  openAppend : PathBuf → EStateM IoError σ H
  writeAll : H → Bytes → EStateM IoError σ Unit
  flush : H → EStateM IoError σ Unit
  applyMode : PathBuf → ℕ → EStateM IoError σ Unit
  removeFile : PathBuf → EStateM IoError σ Unit
  createSymlink : (target link : PathBuf) → EStateM IoError σ Unit
  rename : PathBuf → PathBuf → EStateM IoError σ Unit
  /-- `tokio::fs::write`: create or truncate, then write. -/
  write : PathBuf → Bytes → EStateM IoError σ Unit
  /-- `read_to_string`. -/
  read : PathBuf → EStateM IoError σ Bytes
  /-- `metadata(path).len()`. -/
  len : PathBuf → EStateM IoError σ ℕ

/-- A link of a `Disk` is never followed: it is no directory, and opening it replaces it. -/
inductive Node
  | file (content : Bytes)
  | dir
  | link (target : PathBuf)
  deriving DecidableEq

structure Disk where
  node : PathBuf → Option Node
  /-- Effects left before the process is killed; `none` when it is not. -/
  budget : Option ℕ
  /-- The renames made so far. -/
  renamed : List (PathBuf × PathBuf)

namespace Disk

def content (d : Disk) (p : PathBuf) : Option Bytes :=
  match d.node p with
  | some (.file c) => some c
  | _ => none

def set (d : Disk) (p : PathBuf) (n : Option Node) : Disk :=
  { d with node := Function.update d.node p n }

/-- How many of `n` effects still happen. -/
def granted (d : Disk) (n : ℕ) : ℕ := min (d.budget.getD n) n

def spend (d : Disk) (n : ℕ) : Disk := { d with budget := d.budget.map (· - n) }

def effect (f : Disk → Disk) : EStateM IoError Disk Unit := fun d =>
  if d.granted 1 = 1 then .ok () (f (d.spend 1)) else .error .killed d

/-- Appending to the file at `p`, byte by byte. -/
def append (p : PathBuf) (data : Bytes) : EStateM IoError Disk Unit := fun d =>
  let n := d.granted data.length
  let d' := match d.content p with
    | some c => (d.set p (some (.file (c ++ data.take n)))).spend n
    | none => d.spend n
  if n = data.length then .ok () d' else .error .killed d'

def create (p : PathBuf) : EStateM IoError Disk Unit := fun d =>
  if d.node p = some .dir then .error .isADirectory d
  else effect (fun d => d.set p (some (.file []))) d

def openAppend (p : PathBuf) : EStateM IoError Disk Unit := fun d =>
  match d.node p with
  | some (.file _) => .ok () d
  | some .dir => .error .isADirectory d
  | _ => effect (fun d => d.set p (some (.file []))) d

def removeFile (p : PathBuf) : EStateM IoError Disk Unit := fun d =>
  match d.node p with
  | none => .error .notFound d
  | some .dir => .error .isADirectory d
  | some _ => effect (fun d => d.set p none) d

/-- The file at `a` moved over `b`. -/
def moved (d : Disk) (a b : PathBuf) (n : Node) : Disk :=
  { (d.set a none).set b (some n) with renamed := d.renamed ++ [(a, b)] }

def rename (a b : PathBuf) : EStateM IoError Disk Unit := fun d =>
  match d.node a with
  | none => .error .notFound d
  | some n =>
    if d.node b = some .dir then .error .isADirectory d
    else effect (fun d => d.moved a b n) d

def createSymlink (target link : PathBuf) : EStateM IoError Disk Unit := fun d =>
  if d.node link = none then effect (fun d => d.set link (some (.link target))) d
  else .error .alreadyExists d

def write (p : PathBuf) (data : Bytes) : EStateM IoError Disk Unit := do
  Disk.create p
  append p data

def read (p : PathBuf) : EStateM IoError Disk Bytes := fun d =>
  match d.content p with
  | some c => .ok c d
  | none => .error .notFound d

def len (p : PathBuf) : EStateM IoError Disk ℕ := fun d =>
  match d.content p with
  | some c => .ok c.length d
  | none => .error .notFound d

/-- Directories of a `Disk` are never made: the paths it serves lie in one directory. -/
instance : LocalFs Disk PathBuf where
  pathIsExistingDir p := fun d => .ok (d.node p == some .dir) d
  createDirAll _ := pure ()
  create p := do Disk.create p; pure p
  openAppend p := do Disk.openAppend p; pure p
  writeAll := append
  flush _ := pure ()
  applyMode _ _ := pure ()
  removeFile := Disk.removeFile
  createSymlink := Disk.createSymlink
  rename := Disk.rename
  write := Disk.write
  read := Disk.read
  len := Disk.len

/-! ### What the operations do -/

variable {d : Disk} {p q : PathBuf} {n : Option Node}

@[simp] lemma set_node_self : (d.set p n).node p = n := by simp [set]

@[simp] lemma set_node_ne (h : q ≠ p) : (d.set p n).node q = d.node q := by
  simp [set, h]

lemma set_eq_self (h : d.node p = n) : d.set p n = d := by
  unfold set
  rw [← h, Function.update_eq_self]

lemma moved_node_to (a b : PathBuf) (n : Node) : (d.moved a b n).node b = some n := by
  simp [moved]

variable {a b : PathBuf} {c : Bytes}

lemma moved_node_from (h : a ≠ b) (n : Node) : (d.moved a b n).node a = none := by
  simp [moved, h]

lemma moved_node_ne (n : Node) (ha : q ≠ a) (hb : q ≠ b) : (d.moved a b n).node q = d.node q := by
  simp [moved, ha, hb]

lemma content_of_node (h : d.node p = some (.file c)) : d.content p = some c := by
  rw [content, h]

lemma content_eq_none (h : d.node p = none) : d.content p = none := by
  rw [content, h]

lemma content_congr {d' : Disk} (h : d'.node p = d.node p) : d'.content p = d.content p := by
  rw [content, content, h]

@[simp] lemma set_budget : (d.set p n).budget = d.budget := rfl

@[simp] lemma spend_node (k : ℕ) : (d.spend k).node = d.node := rfl

@[simp] lemma content_spend (k : ℕ) : (d.spend k).content p = d.content p := rfl

@[simp] lemma content_set_file (c : Bytes) : (d.set p (some (.file c))).content p = some c := by
  simp [content]

@[simp] lemma content_set_ne (h : q ≠ p) : (d.set p n).content q = d.content q := by
  simp [content, h]

lemma node_of_content (h : d.content p = some c) : d.node p = some (.file c) := by
  unfold content at h
  split at h
  · simp_all
  · cases h

/-- An effect happens, or the process is dead and nothing does. -/
lemma effect_cases (f : Disk → Disk) (d : Disk) :
    effect f d = .ok () (f (d.spend 1)) ∨ effect f d = .error .killed d := by
  unfold effect
  split
  · exact .inl rfl
  · exact .inr rfl

lemma effect_dead (h : d.budget = some 0) (f : Disk → Disk) :
    effect f d = .error .killed d := by
  simp [effect, granted, h]

lemma create_cases (p : PathBuf) (d : Disk) :
    Disk.create p d = .ok () ((d.spend 1).set p (some (.file []))) ∨
      ∃ e, Disk.create p d = .error e d := by
  unfold Disk.create
  split_ifs
  · exact .inr ⟨_, rfl⟩
  · exact (effect_cases _ d).imp id fun h => ⟨_, h⟩

lemma localCreate_cases (p : PathBuf) (d : Disk) :
    (LocalFs.create p : EStateM IoError Disk PathBuf) d =
        .ok p ((d.spend 1).set p (some (.file []))) ∨
      ∃ e, (LocalFs.create p : EStateM IoError Disk PathBuf) d = .error e d := by
  rcases create_cases p d with h | ⟨e, h⟩
  · exact .inl (bind_of_ok h)
  · exact .inr ⟨e, bind_of_error h⟩

lemma create_dead (h : d.budget = some 0) (p : PathBuf) :
    ∃ e, Disk.create p d = .error e d := by
  unfold Disk.create
  split_ifs
  · exact ⟨_, rfl⟩
  · exact ⟨_, effect_dead h _⟩

lemma removeFile_cases (p : PathBuf) (d : Disk) :
    Disk.removeFile p d = .ok () ((d.spend 1).set p none) ∨
      ∃ e, Disk.removeFile p d = .error e d := by
  unfold Disk.removeFile
  cases d.node p with
  | none => exact .inr ⟨_, rfl⟩
  | some n =>
    cases n with
    | dir => exact .inr ⟨_, rfl⟩
    | file | link => exact (effect_cases _ d).imp id fun h => ⟨_, h⟩

lemma rename_cases (p q : PathBuf) (d : Disk) :
    (∃ n, d.node p = some n ∧ Disk.rename p q d = .ok () ((d.spend 1).moved p q n)) ∨
      ∃ e, Disk.rename p q d = .error e d := by
  unfold Disk.rename
  cases d.node p with
  | none => exact .inr ⟨_, rfl⟩
  | some n =>
    split_ifs
    · exact .inr ⟨_, rfl⟩
    · exact (effect_cases _ d).imp (fun h => ⟨n, rfl, h⟩) fun h => ⟨_, h⟩

/-- An append stops after some prefix of its data; short of all of it, the process is dead. -/
lemma append_cases (data : Bytes) (h : d.content p = some c) :
    ∃ d' : Disk, ∃ pre, pre <+: data ∧ d'.content p = some (c ++ pre) ∧
      (∀ q, q ≠ p → d'.node q = d.node q) ∧
      (append p data d = .ok () d' ∧ pre = data ∨
        append p data d = .error .killed d' ∧ d'.budget = some 0) := by
  refine ⟨(d.set p (some (.file (c ++ data.take (d.granted data.length))))).spend
      (d.granted data.length), data.take (d.granted data.length), List.take_prefix _ _, by simp,
    fun q hq => by simp [hq], ?_⟩
  unfold append
  simp only [h]
  split_ifs with hall
  · exact .inl ⟨rfl, by rw [hall, List.take_length]⟩
  · refine .inr ⟨rfl, ?_⟩
    unfold granted spend at *
    cases hb : d.budget with
    | none => simp [hb] at hall
    | some b =>
      have : b ≤ data.length := by
        simp [hb] at hall
        omega
      simp [hb, this]

/-- What a `write` leaves at its path: the old node, or the beginning of the new text. -/
lemma after_write_cases (p : PathBuf) (data : Bytes) (d : Disk) :
    (∀ q, q ≠ p → (after (Disk.write p data) d).node q = d.node q) ∧
      ((after (Disk.write p data) d).node p = d.node p ∨
        ∃ pre, pre <+: data ∧ (after (Disk.write p data) d).content p = some pre) := by
  rcases create_cases p d with hc | ⟨e, hc⟩
  · have hfile : ((d.spend 1).set p (some (.file []))).content p = some [] := by simp
    obtain ⟨d', pre, hpre, hcont, hothers, hend⟩ := append_cases data hfile
    have hafter : after (Disk.write p data) d = d' := by
      rcases hend with ⟨ha, -⟩ | ⟨ha, -⟩
      · exact after_ok ((bind_of_ok hc).trans ha)
      · exact after_error ((bind_of_ok hc).trans ha)
    rw [hafter]
    refine ⟨fun q hq => ?_, .inr ⟨pre, hpre, by simpa using hcont⟩⟩
    rw [hothers q hq]
    simp [hq]
  · have hafter : after (Disk.write p data) d = d := after_error (bind_of_error hc)
    rw [hafter]
    exact ⟨fun _ _ => rfl, .inl rfl⟩

lemma after_write_dead (h : d.budget = some 0) (p : PathBuf) (data : Bytes) :
    after (Disk.write p data) d = d := by
  obtain ⟨e, hc⟩ := create_dead h p
  exact after_error (bind_of_error hc)

/-! ### On a disk whose process is not killed -/

@[simp] lemma spend_none (h : d.budget = none) (k : ℕ) : d.spend k = d := by
  cases d; simp_all [spend]

lemma effect_live (h : d.budget = none) (f : Disk → Disk) : effect f d = .ok () (f d) := by
  simp [effect, granted, h]

lemma append_live (h : d.budget = none) (hc : d.content p = some c) (data : Bytes) :
    append p data d = .ok () (d.set p (some (.file (c ++ data)))) := by
  simp [append, granted, h, hc]

lemma create_live (h : d.budget = none) (hp : d.node p ≠ some .dir) :
    (LocalFs.create p : EStateM IoError Disk PathBuf) d =
      .ok p (d.set p (some (.file []))) := by
  change EStateM.bind (Disk.create p) (fun _ => pure p) d = _
  rw [EStateM.bind, Disk.create, if_neg hp, effect_live h]
  rfl

lemma openAppend_file (hc : d.content p = some c) :
    (LocalFs.openAppend p : EStateM IoError Disk PathBuf) d = .ok p d := by
  change EStateM.bind (Disk.openAppend p) (fun _ => pure p) d = _
  rw [EStateM.bind, Disk.openAppend, node_of_content hc]
  rfl

lemma rename_live (h : d.budget = none) {n : Node} (hp : d.node p = some n)
    (hq : d.node q ≠ some .dir) : Disk.rename p q d = .ok () (d.moved p q n) := by
  simp [Disk.rename, hp, hq, effect_live h]

lemma createSymlink_live (h : d.budget = none) (hp : d.node p = none) (target : PathBuf) :
    Disk.createSymlink target p d = .ok () (d.set p (some (.link target))) := by
  rw [Disk.createSymlink, if_pos hp, effect_live h]

lemma after_removeFile_live (h : d.budget = none) (hp : d.node p ≠ some .dir) :
    after (Disk.removeFile p) d = d.set p none := by
  unfold after Disk.removeFile
  cases hn : d.node p with
  | none => exact (set_eq_self hn).symm
  | some n =>
    cases n with
    | dir => exact absurd hn hp
    | file | link => simp [effect_live h]

end Disk

end CrossHostOps.FileSystem
