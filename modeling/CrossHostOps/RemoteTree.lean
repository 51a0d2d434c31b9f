import Mathlib.Data.List.Nodup
import Mathlib.Data.List.Perm.Subperm
import CrossHostOps.Lines
import CrossHostOps.Utf8

/-!
A directory of a remote host, whose names are bytes, and what `find -printf` prints of it. A
directory that cannot be listed is printed itself, and nothing below it.
-/

namespace CrossHostOps.RemoteTree

open Text Utf8 List

def tab : UInt8 := 9
def newline : UInt8 := 10
def slash : UInt8 := 47

/-! ### Trees -/

/-- `fraction` are the digits behind the seconds; the size of a file is that of its content. -/
structure Stat where
  mode : ℕ
  mtime : ℤ
  fraction : List (Fin 10)
  size : ℕ

mutual

inductive Node
  | file (stat : Stat) (content : Bytes) (readable : Bool)
  | symlink (stat : Stat) (target : Bytes)
  | directory (stat : Stat) (listable : Bool) (children : Children)

inductive Children
  | nil
  | cons (name : Bytes) (node : Node) (rest : Children)

end

inductive Kind
  | file (content : Bytes) (readable : Bool)
  | symlink (target : Bytes)
  | directory

/-- An entry with its path from the root, which is empty for the root itself. -/
structure Entry where
  path : Bytes
  stat : Stat
  kind : Kind

def below (path name : Bytes) : Bytes := if path = [] then name else path ++ slash :: name

mutual

/-- The entries at and below a path, a directory before what is in it. With `all` also those that
cannot be listed. -/
def Node.entries (all : Bool) (path : Bytes) : Node → List Entry
  | .file stat content readable => [⟨path, stat, .file content readable⟩]
  | .symlink stat target => [⟨path, stat, .symlink target⟩]
  | .directory stat listable children =>
    ⟨path, stat, .directory⟩ :: if all || listable then children.entries all path else []

def Children.entries (all : Bool) (path : Bytes) : Children → List Entry
  | .nil => []
  | .cons name node rest => node.entries all (below path name) ++ rest.entries all path

end

/-- A name is any bytes but slash and NUL. -/
def IsName (name : Bytes) : Prop := name ≠ [] ∧ slash ∉ name ∧ 0 ∉ name

mutual

def Node.Named : Node → Prop
  | .file .. | .symlink .. => True
  | .directory _ _ children => children.Named

def Children.Named : Children → Prop
  | .nil => True
  | .cons name node rest => IsName name ∧ node.Named ∧ rest.Named

end

/-- A directory; no two entries of it have one path. -/
structure Directory where
  stat : Stat
  listable : Bool
  children : Children
  named : children.Named
  nodup : (((Node.directory stat listable children).entries true []).map Entry.path).Nodup

namespace Directory

def root (d : Directory) : Node := .directory d.stat d.listable d.children

def entries (d : Directory) : List Entry := d.root.entries true []

/-- What `find` comes to. -/
def listed (d : Directory) : List Entry := d.root.entries false []

end Directory

mutual

lemma Node.listed_sublist (path : Bytes) :
    ∀ node : Node, List.Sublist (node.entries false path) (node.entries true path)
  | .file .. => .refl _
  | .symlink .. => .refl _
  | .directory _ true children => (children.listed_sublist path).cons_cons _
  | .directory _ false _ => (List.nil_sublist _).cons_cons _

lemma Children.listed_sublist (path : Bytes) :
    ∀ children : Children, List.Sublist (children.entries false path) (children.entries true path)
  | .nil => .refl _
  | .cons _ node rest => (node.listed_sublist _).append (rest.listed_sublist path)

end

/-- A path from the root does not begin with a slash. -/
def Inside (path : Bytes) : Prop := path.head? ≠ some slash

lemma inside_below {path name : Bytes} (hpath : Inside path) (hname : IsName name) :
    Inside (below path name) := by
  unfold below Inside
  split
  · intro hhead
    exact hname.2.1 (mem_of_head? hhead)
  next hne => rwa [head?_append_of_ne_nil _ hne]

mutual

lemma Node.inside {path : Bytes} (hpath : Inside path) :
    ∀ node : Node, node.Named → ∀ e ∈ node.entries true path, Inside e.path
  | .file .., _ => by simpa [Node.entries] using hpath
  | .symlink .., _ => by simpa [Node.entries] using hpath
  | .directory _ _ children, h => by
    simp only [Node.entries, Bool.true_or, if_true, List.mem_cons, forall_eq_or_imp]
    exact ⟨hpath, children.inside hpath h⟩

lemma Children.inside {path : Bytes} (hpath : Inside path) :
    ∀ children : Children, children.Named → ∀ e ∈ children.entries true path, Inside e.path
  | .nil, _ => by simp [Children.entries]
  | .cons name node rest, ⟨hname, hnode, hrest⟩ => by
    intro e he
    rcases List.mem_append.1 he with he | he
    · exact node.inside (inside_below hpath hname) hnode e he
    · exact rest.inside hpath hrest e he

end

namespace Directory

variable {d : Directory} {e e' : Entry}

lemma listed_sublist (d : Directory) : List.Sublist d.listed d.entries := d.root.listed_sublist []

lemma mem_entries (h : e ∈ d.listed) : e ∈ d.entries := d.listed_sublist.subset h

lemma inside (he : e ∈ d.entries) : Inside e.path :=
  d.root.inside (by simp [Inside]) d.named e he

lemma eq_of_path (he : e ∈ d.entries) (he' : e' ∈ d.entries) (h : e.path = e'.path) : e = e' :=
  inj_on_of_nodup_map d.nodup he he' h

lemma root_listed (d : Directory) : ⟨[], d.stat, .directory⟩ ∈ d.listed := by
  simp [listed, root, Node.entries]

lemma listed_eq (h : ∀ e ∈ d.entries, e ∈ d.listed) : d.listed = d.entries := by
  have hnodup : d.entries.Nodup := List.Nodup.of_map _ d.nodup
  have hle : d.entries.length ≤ d.listed.length := (subperm_of_subset hnodup h).length_le
  exact d.listed_sublist.eq_of_length_le hle

end Directory

/-! ### The listing -/

/-- What is not printed is a question mark. -/
def shown (prints : Char → Bool) (t : Str) : Str := t.map fun c => if prints c then c else '?'

section Shown

variable {prints : Char → Bool} {t u : Str} {c : Char}

lemma shown_append (prints : Char → Bool) (t u : Str) :
    shown prints (t ++ u) = shown prints t ++ shown prints u := map_append

lemma mem_of_mem_shown (hc : c ≠ '?') (h : c ∈ shown prints t) : c ∈ t := by
  obtain ⟨x, hx, rfl⟩ := mem_map.1 h
  split at hc
  next hprints => rwa [if_pos hprints]
  · exact absurd rfl hc

/-- What was printed is printed as it is. -/
lemma shown_of_mem (h : ∀ c ∈ u, c ∈ shown prints t) : shown prints u = u := by
  refine (map_congr_left fun c hc => ?_).trans (map_id u)
  obtain ⟨x, -, rfl⟩ := mem_map.1 (h c hc)
  by_cases hx : prints x = true
  · simp [hx]
  · simp [hx]

end Shown

/-- How `find` quotes a name: not at all, or with question marks if it writes to a terminal. What it
makes of a name that is not text is left open. -/
structure Quoting where
  quote : Bytes → Bytes
  prints : Char → Bool
  prints_slash : prints '/' = true
  quote_encode : ∀ t, quote (encode t) = encode (shown prints t)

namespace Entry

variable (q : Quoting) (root : Str) (e : Entry)

def typeChar : Char :=
  match e.kind with
  | .file .. => 'f'
  | .symlink _ => 'l'
  | .directory => 'd'

def size : ℕ :=
  match e.kind with
  | .file content _ => content.length
  | _ => e.stat.size

def target : Bytes :=
  match e.kind with
  | .symlink target => target
  | _ => []

/-- `%T@` -/
def time : Str :=
  showInt e.stat.mtime ++ '.' :: e.stat.fraction.map fun d : Fin 10 => Nat.digitChar d.val

/-- The root with the slash that joins a path to it. -/
def joint : Str := if root.getLast? = some '/' then root else root ++ ['/']

def fullPath : Bytes := if e.path = [] then encode root else encode (joint root) ++ e.path

/-- `%y\t%m\t%T@\t%s\t%p\t%l` -/
def fields : List Bytes :=
  [encode [e.typeChar], encode (Nat.toDigits 8 e.stat.mode), encode e.time, encode (showNat e.size),
    q.quote (e.fullPath root), q.quote e.target]

def line : Bytes := List.intercalate [tab] (e.fields q root)

/-- The path as it is read. -/
def fullText : Str := if e.path = [] then root else joint root ++ decodeLossy e.path

/-- The fields as they are read. -/
def texts : List Str :=
  [[e.typeChar], Nat.toDigits 8 e.stat.mode, e.time, showNat e.size,
    shown q.prints (e.fullText root), shown q.prints (decodeLossy e.target)]

def lineText : Str := List.intercalate ['\t'] (e.texts q root)

end Entry

/-- What `find` prints. -/
def listing (q : Quoting) (root : Str) (es : List Entry) : Bytes :=
  es.flatMap fun e => e.line q root ++ [newline]

/-- Bytes that are the encoding of a text. -/
def IsText (b : Bytes) : Prop := encode (decodeLossy b) = b

lemma IsText.eq_of_decode {b b' : Bytes} (h : IsText b) (h' : IsText b')
    (heq : decodeLossy b = decodeLossy b') : b = b' :=
  calc b = encode (decodeLossy b) := h.symm
    _ = encode (decodeLossy b') := by rw [heq]
    _ = b' := h'

section Decode

variable {q : Quoting} {root : Str} {e : Entry}

lemma encode_append (s t : Str) : encode (s ++ t) = encode s ++ encode t := flatMap_append

lemma encode_intercalate (texts : List Str) :
    encode (List.intercalate ['\t'] texts) = List.intercalate [tab] (texts.map encode) := by
  induction texts with
  | nil => rfl
  | cons x texts ih =>
    cases texts with
    | nil => simp
    | cons y texts =>
      rw [intercalate_cons_cons, map_cons, map_cons, intercalate_cons_cons,
        encode_append, encode_append, ih]
      rfl

lemma encode_fullText (root : Str) (hpath : IsText e.path) :
    encode (e.fullText root) = e.fullPath root := by
  unfold Entry.fullText Entry.fullPath
  split
  · rfl
  · rw [encode_append, hpath]

lemma encode_lineText (hpath : IsText e.path) (htarget : IsText e.target) :
    encode (e.lineText q root) = e.line q root := by
  rw [Entry.lineText, encode_intercalate, Entry.line, Entry.texts, Entry.fields]
  simp only [map_cons, map_nil, ← q.quote_encode]
  rw [encode_fullText root hpath, show encode (decodeLossy e.target) = e.target from htarget]

/-- **The listing as it is read**, where all names are text. -/
theorem decodeLossy_listing {es : List Entry}
    (h : ∀ e ∈ es, IsText e.path ∧ IsText e.target) :
    decodeLossy (listing q root es) = es.flatMap fun e => e.lineText q root ++ ['\n'] := by
  have hencode : listing q root es = encode (es.flatMap fun e => e.lineText q root ++ ['\n']) := by
    induction es with
    | nil => rfl
    | cons e es ih =>
      rw [forall_mem_cons] at h
      rw [flatMap_cons, encode_append, encode_append, ← ih h.2, encode_lineText h.1.1 h.1.2]
      rfl
  rw [hencode, decodeLossy_encode]

end Decode

end CrossHostOps.RemoteTree
