import CrossHostOps.Text

/-!
Paths: the `PathBuf` of a Unix host, and the operating-system neutral `NormalizedPath` of
`filepath.rs` between the wire and the local file system.

A `PathBuf` is held as the non-empty pieces between its slashes, `.` and `..` included,
since the kernel sees those too.
-/

namespace CrossHostOps.Filepath

open Text

def dot : Str := "."
def dotdot : Str := ".."

/-! ### `std::path` on Unix -/

structure PathBuf where
  absolute : Bool
  segs : List Str
  deriving DecidableEq

namespace PathBuf

def ofStr (s : Str) : PathBuf :=
  ⟨s.head? == some '/', (split '/' s).filter (· ≠ [])⟩

variable (p : PathBuf)

def display : Str :=
  (if p.absolute then ['/'] else []) ++ List.intercalate ['/'] p.segs

inductive Component
  | rootDir
  | curDir
  | parentDir
  | normal (name : Str)

/-- `Path::components`: a `.` survives only at the head of a relative path. -/
def components : List Component :=
  (if p.absolute then [.rootDir] else if p.segs.head? = some dot then [.curDir] else []) ++
    (p.segs.filter (· ≠ dot)).map fun s => if s = dotdot then .parentDir else .normal s

/-- Trailing `.` pieces are no components, unless the path is nothing else. -/
def trimRight : PathBuf :=
  let t := p.segs.rdropWhile (· == dot)
  if t = [] ∧ p.absolute = false ∧ p.segs ≠ [] then ⟨false, [dot]⟩ else ⟨p.absolute, t⟩

def parent : Option PathBuf :=
  let t := p.trimRight
  if t.segs = [] then none
  else some (trimRight ⟨t.absolute, t.segs.dropLast⟩)

/-- `PathBuf::push` of a name without a slash. -/
def push (name : Str) : PathBuf := ⟨p.absolute, p.segs ++ [name]⟩

def pop : PathBuf := p.parent.getD p

def join (p q : PathBuf) : PathBuf := if q.absolute then q else ⟨p.absolute, p.segs ++ q.segs⟩

def fileName : Option Str :=
  match p.components.getLast? with
  | some (.normal s) => some s
  | _ => none

/-- The characters of a parsed path, slashes aside, are those of the string. -/
lemma flatten_ofStr (s : Str) : (ofStr s).segs.flatten = s.filter (· != '/') := by
  rw [← flatten_split]
  exact List.flatten_filter_ne_nil

lemma filter_display :
    p.display.filter (· != '/') = p.segs.flatten.filter (· != '/') := by
  unfold display
  rw [List.filter_append, filter_intercalate]
  cases p.absolute <;> simp

end PathBuf

/-! ### `NormalizedPath` -/

inductive PathKind
  | absolute
  | relative
  | windowsDrive (drive : Char)
  deriving DecidableEq

structure NormalizedPath where
  segments : List Str
  kind : PathKind
  deriving DecidableEq

/-- A backslash separates only where there is no slash. -/
def splitSegments (s : Str) : List Str :=
  if '\\' ∈ s ∧ '/' ∉ s then (split '\\' s).filter (· ≠ []) else (split '/' s).filter (· ≠ [])

namespace NormalizedPath

def fromStr (s : Str) : NormalizedPath :=
  let s := trim s
  match s with
  | [] => ⟨[], .relative⟩
  | '/' :: _ => ⟨splitSegments s, .absolute⟩
  | d :: ':' :: sep :: rest =>
    if d.isAlpha ∧ (sep = '\\' ∨ sep = '/') then
      ⟨splitSegments (sep :: rest), .windowsDrive d.toUpper⟩
    else ⟨splitSegments s, .relative⟩
  | '.' :: sep :: c :: rest =>
    if sep = '/' ∨ sep = '\\' then ⟨splitSegments (c :: rest), .relative⟩
    else ⟨splitSegments s, .relative⟩
  | _ => ⟨splitSegments s, .relative⟩

variable (np : NormalizedPath)

/-- One component of `from_local`: `.` vanishes, and on Unix no prefix component exists. -/
def addComponent : PathBuf.Component → NormalizedPath
  | .rootDir => if np.kind = .relative then { np with kind := .absolute } else np
  | .curDir => np
  | .parentDir => { np with segments := np.segments ++ [dotdot] }
  | .normal name => { np with segments := np.segments ++ [name] }

def fromLocal (path : PathBuf) : NormalizedPath :=
  path.components.foldl addComponent ⟨[], .relative⟩

/-- One segment of `to_local`: `..` pops what is there. -/
def pushSegment (pb : PathBuf) (seg : Str) : PathBuf :=
  if seg = dotdot then pb.pop else if seg ≠ [] then pb.push seg else pb

def toLocal : PathBuf :=
  np.segments.foldl pushSegment <| match np.kind with
    | .windowsDrive drive => ⟨false, [[drive, ':']]⟩
    | .absolute => ⟨true, []⟩
    | .relative => ⟨false, []⟩

def toStringNormalized : Str :=
  match np.kind with
  | .windowsDrive drive => drive :: ':' :: np.segments.flatMap fun seg => '/' :: seg
  | .absolute => '/' :: List.intercalate ['/'] np.segments
  | .relative => List.intercalate ['/'] np.segments

/-- Only the segments of `other` are appended: its kind is dropped. -/
def join (other : Str) : NormalizedPath :=
  { np with segments := np.segments ++ (fromStr other).segments }

def basename : Option Str := np.segments.getLast?

def parent : Option NormalizedPath :=
  if np.segments = [] then none else some { np with segments := np.segments.dropLast }

def isAbsolute : Bool := np.kind != .relative

inductive RelativePathError
  | absolute (path : Str)
  | parentDir (path : Str)

def validateRelative : Except RelativePathError Unit :=
  if np.kind ≠ .relative then .error (.absolute np.toStringNormalized)
  else if dotdot ∈ np.segments then .error (.parentDir np.toStringNormalized)
  else .ok ()

end NormalizedPath

/-! ### Copy-protocol helpers -/

def nonEmptyName (value fallback : Str) : Str :=
  if trim value = [] then fallback else trim value

def copyEntryName (relativePath sourceName fallback : Str) : Str :=
  match (NormalizedPath.fromStr relativePath).basename.filter (· ≠ []) with
  | some name => name
  | none => if trim sourceName ≠ [] then trim sourceName else fallback

def pathToString (path : PathBuf) : Str := (NormalizedPath.fromLocal path).toStringNormalized

/-- `join_relative_path`: the frame's path is not validated on the way. -/
def joinRelativePath (root : PathBuf) (relativePath : Str) : PathBuf :=
  ((NormalizedPath.fromLocal root).join relativePath).toLocal

end CrossHostOps.Filepath
