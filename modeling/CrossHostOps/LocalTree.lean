import CrossHostOps.FileSystem
import CrossHostOps.PosixTree

/-!
`Volume`, a local file system with directories and symbolic links, for the question where
the writes of a download end up.

Files are inodes, so that an open file outlives its name. Permissions are left out, and nothing
is killed. Every place where a node is made, truncated or removed is recorded.
-/

namespace CrossHostOps.LocalTree

open Text Filepath FileSystem PosixTree

structure Volume where
  tree : FileTree Str
  /-- The working directory. -/
  cwd : Loc Str
  data : ℕ → Bytes
  nextInode : ℕ
  touched : List (Loc Str)

def stepOf (seg : Str) : Step Str :=
  if seg = dot then .here else if seg = dotdot then .up else .down seg

/-- The links a path may lead through on Linux. -/
def maxLinks : ℕ := 40

def ofWalk : WalkError → IoError
  | .notFound => .notFound
  | .notADirectory => .notADirectory
  | .tooManyLinks => .tooManyLinks

namespace Volume

/-- Where the walk of a path starts. -/
def base (fs : Volume) (p : PathBuf) : Loc Str := if p.absolute then [] else fs.cwd

def locate (fs : Volume) (follow : Bool) (p : PathBuf) : Except IoError (Loc Str) :=
  if p = ⟨false, []⟩ then .error .notFound
  else (walk fs.tree follow maxLinks (fs.base p) (p.segs.map stepOf)).mapError ofWalk

def put (fs : Volume) (l : Loc Str) (n : Option (Node Str)) : Volume :=
  { fs with tree := Function.update fs.tree l n, touched := fs.touched ++ [l] }

def atPath {α : Type} (follow : Bool) (p : PathBuf)
    (op : Loc Str → EStateM IoError Volume α) : EStateM IoError Volume α := fun fs =>
  match fs.locate follow p with
  | .ok l => op l fs
  | .error e => .error e fs

def isDir (fs : Volume) (p : PathBuf) : Bool :=
  match fs.locate true p with
  | .ok l => fs.tree l == some .dir
  | .error _ => false

def pathIsExistingDir (p : PathBuf) : EStateM IoError Volume Bool := fun fs =>
  match fs.locate true p with
  | .ok l => .ok (fs.tree l == some .dir) fs
  | .error .notFound => .ok false fs
  | .error e => .error e fs

def mkdir (p : PathBuf) : EStateM IoError Volume Unit :=
  atPath false p fun l fs =>
    if fs.tree l = none then .ok () (fs.put l (some .dir)) else .error .alreadyExists fs

/-- `mkdir`, where a directory that exists is fine. -/
def mkdirIfMissing (p : PathBuf) : EStateM IoError Volume Unit := fun fs =>
  match mkdir p fs with
  | .ok _ fs => .ok () fs
  | .error e fs => if fs.isDir p then .ok () fs else .error e fs

/-- `Path::ancestors` up to the empty path, at most `n` parents of them. -/
def ancestorsUpTo : ℕ → PathBuf → List PathBuf
  | 0, p => [p]
  | n + 1, p =>
    match p.parent with
    | some q => if q = ⟨false, []⟩ then [p] else p :: ancestorsUpTo n q
    | none => [p]

/-- A path and those above it; a parent has fewer pieces. -/
def ancestors (p : PathBuf) : List PathBuf := ancestorsUpTo p.segs.length p

/-- A directory is made, and before it those that it lacks. -/
def createDirs : List PathBuf → EStateM IoError Volume Unit
  | [] => pure ()
  | p :: above => fun fs =>
    match mkdir p fs with
    | .ok _ fs => .ok () fs
    | .error .notFound fs => (do createDirs above; mkdirIfMissing p) fs
    | .error e fs => if fs.isDir p then .ok () fs else .error e fs

def createDirAll (p : PathBuf) : EStateM IoError Volume Unit :=
  if p = ⟨false, []⟩ then pure () else createDirs (ancestors p)

def newFile (l : Loc Str) : EStateM IoError Volume ℕ := fun fs =>
  .ok fs.nextInode { fs.put l (some (.file fs.nextInode)) with
    data := Function.update fs.data fs.nextInode []
    nextInode := fs.nextInode + 1 }

def create (p : PathBuf) : EStateM IoError Volume ℕ :=
  atPath true p fun l fs =>
    match fs.tree l with
    | none => newFile l fs
    | some (.file inode) =>
      .ok inode { fs with
        data := Function.update fs.data inode []
        touched := fs.touched ++ [l] }
    | some .dir => .error .isADirectory fs
    | some (.link ..) => .error .tooManyLinks fs

def openAppend (p : PathBuf) : EStateM IoError Volume ℕ :=
  atPath true p fun l fs =>
    match fs.tree l with
    | none => newFile l fs
    | some (.file inode) => .ok inode fs
    | some .dir => .error .isADirectory fs
    | some (.link ..) => .error .tooManyLinks fs

def writeAll (inode : ℕ) (bytes : Bytes) : EStateM IoError Volume Unit := fun fs =>
  .ok () { fs with data := Function.update fs.data inode (fs.data inode ++ bytes) }

def removeFile (p : PathBuf) : EStateM IoError Volume Unit :=
  atPath false p fun l fs =>
    match fs.tree l with
    | none => .error .notFound fs
    | some .dir => .error .isADirectory fs
    | some _ => .ok () (fs.put l none)

def createSymlink (target link : PathBuf) : EStateM IoError Volume Unit :=
  atPath false link fun l fs =>
    if target = ⟨false, []⟩ then .error .notFound fs
    else if fs.tree l = none then
      .ok () (fs.put l (some (.link target.absolute (target.segs.map stepOf))))
    else .error .alreadyExists fs

def rename (p q : PathBuf) : EStateM IoError Volume Unit :=
  atPath false p fun l => atPath false q fun l' fs =>
    match fs.tree l with
    | none => .error .notFound fs
    | some n =>
      if fs.tree l' = some .dir then .error .isADirectory fs
      else .ok () ((fs.put l none).put l' (some n))

def read (p : PathBuf) : EStateM IoError Volume Bytes :=
  atPath true p fun l fs =>
    match fs.tree l with
    | some (.file inode) => .ok (fs.data inode) fs
    | some _ => .error .isADirectory fs
    | none => .error .notFound fs

instance : LocalFs Volume ℕ where
  pathIsExistingDir := pathIsExistingDir
  createDirAll := createDirAll
  create := create
  openAppend := openAppend
  writeAll := writeAll
  flush _ := pure ()
  applyMode p _ := atPath true p fun _ => pure ()
  removeFile := removeFile
  createSymlink := createSymlink
  rename := rename
  write p bytes := do writeAll (← create p) bytes
  read := read
  len p := do return (← read p).length

variable {fs : Volume} {l m : Loc Str} {n : Option (Node Str)}

@[simp] lemma put_base (p : PathBuf) : (fs.put l n).base p = fs.base p := rfl

@[simp] lemma put_tree_self : (fs.put l n).tree l = n := by simp [put]

@[simp] lemma put_tree_ne (h : m ≠ l) : (fs.put l n).tree m = fs.tree m := by simp [put, h]

end Volume

end CrossHostOps.LocalTree
