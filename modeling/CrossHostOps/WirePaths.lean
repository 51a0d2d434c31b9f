import CrossHostOps.Containment
import CrossHostOps.Lines
import CrossHostOps.RemoteOperands
import CrossHostOps.UploadWalk

/-!
The path of an entry on the wire: `relative_path_to_string` writes it with slashes, and
`join_relative_path` reads it with `from_str`, which does not know that it was written on Unix.
-/

namespace CrossHostOps.WirePaths

open Text Filepath RemoteOperands UploadWalk Containment List NormalizedPath

/-- `PartialEq` of `Path`. -/
def SamePath (p q : PathBuf) : Prop := p.components = q.components

/-- A name that a Unix directory can hold. -/
structure IsName (name : Str) : Prop where
  ne_nil : name ≠ []
  slash : '/' ∉ name
  nul : '\x00' ∉ name
  dot : name ≠ dot
  dotdot : name ≠ dotdot

instance (name : Str) : Decidable (IsName name) :=
  decidable_of_iff
    (name ≠ [] ∧ '/' ∉ name ∧ '\x00' ∉ name ∧ name ≠ Filepath.dot ∧ name ≠ Filepath.dotdot)
    ⟨fun ⟨hnil, hslash, hnul, hdot, hdotdot⟩ => ⟨hnil, hslash, hnul, hdot, hdotdot⟩,
      fun h => ⟨h.ne_nil, h.slash, h.nul, h.dot, h.dotdot⟩⟩

structure RelativePath where
  names : List Str
  ne_nil : names ≠ []
  isName : ∀ name ∈ names, IsName name

namespace RelativePath

variable (r : RelativePath)

def path : PathBuf := ⟨false, r.names⟩

/-- The path as it is written on the wire. -/
def text : Str := ['/'].intercalate r.names

end RelativePath

/-- What `from_str` makes nothing else of: no blanks at the ends, no drive in front, and a backslash
only where there is a slash as well, but not behind a leading dot. -/
structure ReadsBack (s : Str) : Prop where
  trimmed : trim s = s
  noDrive : startsWithDrive s = false
  backslash : '\\' ∈ s → '/' ∈ s ∧ ¬['.', '\\'] <+: s

/-- Nothing of a root is resolved or dropped by `from_local` and `to_local`. -/
structure Kept (root : PathBuf) : Prop where
  noParent : dotdot ∉ root.segs
  noCurrent : root.absolute = true ∨ root.segs.head? ≠ some dot

/-- The entry gets to its place below the root. -/
def Arrives (root : PathBuf) (r : RelativePath) : Prop :=
  ∃ s, relativePathToString r.path = .ok s ∧
    SamePath (joinRelativePath root s) (root.join r.path)

/-! ### How much of a text is left -/

/-- The characters of a text, slashes aside. -/
def weight (s : Str) : ℕ := (s.filter (· != '/')).length

section weight

variable {s t : Str}

lemma weight_cons {c : Char} (h : c ≠ '/') : weight (c :: s) = weight s + 1 := by simp [weight, h]

lemma weight_append : weight (s ++ t) = weight s + weight t := by simp [weight]

lemma weight_of_notMem (h : '/' ∉ s) : weight s = s.length := by
  have hall : ∀ c ∈ s, (c != '/') = true := by
    intro c hc
    rw [bne_iff_ne]
    rintro rfl
    exact h hc
  rw [weight, filter_eq_self.2 hall]

lemma isWhitespace_ne_slash {c : Char} (h : isWhitespace c = true) : c ≠ '/' := by
  rintro rfl
  cases h

/-- What is trimmed has weight. -/
lemma weight_eq_trim (s : Str) :
    ∃ front back, s = front ++ (trim s ++ back) ∧
      weight s = front.length + (weight (trim s) + back.length) := by
  have hblank : ∀ {u : Str}, (∀ c ∈ u, isWhitespace c = true) → weight u = u.length := by
    intro u hu
    refine weight_of_notMem fun hslash => ?_
    exact isWhitespace_ne_slash (hu '/' hslash) rfl
  obtain ⟨front, hfront, hstart⟩ : ∃ front, (∀ c ∈ front, isWhitespace c = true) ∧
      s = front ++ trimStart s :=
    ⟨s.takeWhile isWhitespace, fun c hc => mem_takeWhile_imp hc,
      (takeWhile_append_dropWhile).symm⟩
  obtain ⟨back, hend, hback⟩ := exists_eq_trimEnd_append (trimStart s)
  have hs : s = front ++ (trim s ++ back) := by
    rw [trim, ← hend]
    exact hstart
  have hweight : weight s = front.length + (weight (trim s) + back.length) := by
    have hsum := congrArg weight hs
    rwa [weight_append, weight_append, hblank hfront, hblank hback] at hsum
  exact ⟨front, back, hs, hweight⟩

lemma weight_trim_le (s : Str) : weight (trim s) ≤ weight s := by
  obtain ⟨front, back, -, hweight⟩ := weight_eq_trim s
  omega

lemma trim_of_weight (h : weight s ≤ weight (trim s)) : trim s = s := by
  obtain ⟨front, back, hs, hweight⟩ := weight_eq_trim s
  have hnone : front.length = 0 ∧ back.length = 0 := by omega
  rw [length_eq_zero_iff, length_eq_zero_iff] at hnone
  rw [hnone.1, hnone.2, append_nil] at hs
  exact hs.symm

/-- Splitting at backslashes loses them. -/
lemma weight_splitSegments (s : Str) : (splitSegments s).flatten.length ≤ weight s ∧
    (weight s ≤ (splitSegments s).flatten.length → '\\' ∈ s → '/' ∈ s) := by
  rw [splitSegments]
  split_ifs with hback
  · obtain ⟨hmem, hslash⟩ := hback
    rw [flatten_filter_ne_nil, flatten_split, weight_of_notMem hslash]
    have hless : (s.filter (· != '\\')).length < s.length := by
      rw [length_filter_lt_length_iff_exists]
      exact ⟨'\\', hmem, by decide⟩
    exact ⟨hless.le, fun hle => absurd hle (by omega)⟩
  · rw [flatten_filter_ne_nil, flatten_split]
    refine ⟨le_rfl, fun _ hmem => ?_⟩
    by_contra hslash
    exact hback ⟨hmem, hslash⟩

end weight

/-! ### What `from_str` reads -/

/-- A dot and a separator in front of something. -/
def startsWithDot (s : Str) : Bool :=
  s[0]? == some '.' && (s[1]?.any fun sep => sep == '\\' || sep == '/') && decide (2 < s.length)

/-- The segments of a trimmed text: a drive, or a dot and a separator, in front is left out. -/
inductive Read (t : Str) : List Str → Prop
  | whole (noDrive : startsWithDrive t = false) (noDot : startsWithDot t = false) :
      Read t (splitSegments t)
  | drive {d sep : Char} {rest : Str} (text : t = d :: ':' :: sep :: rest) (letter : d.isAlpha)
      (separator : sep = '\\' ∨ sep = '/') : Read t (splitSegments (sep :: rest))
  | dotted {sep : Char} {rest : Str} (text : t = '.' :: sep :: rest)
      (separator : sep = '/' ∨ sep = '\\') : Read t (splitSegments rest)

lemma read_fromStr (s : Str) : Read (trim s) (NormalizedPath.fromStr s).segments := by
  unfold fromStr
  simp only
  split
  case h_1 hnil =>
    rw [hnil]
    exact .whole rfl rfl
  case h_2 rest hslash =>
    refine .whole ?_ ?_
    · simp [hslash, startsWithDrive]
    · simp [hslash, startsWithDot]
  case h_3 d sep rest hslash hcolon =>
    split_ifs with hdrive
    · exact .drive hcolon hdrive.1 hdrive.2
    · refine .whole ?_ ?_
      · simpa [hcolon, startsWithDrive] using hdrive
      · simp [hcolon, startsWithDot]
  case h_4 sep c rest hslash hnocolon hdot =>
    split_ifs with hsep
    · exact .dotted hdot hsep
    · refine .whole ?_ ?_
      · simp [hdot, startsWithDrive]
      · simpa [hdot, startsWithDot, and_comm] using hsep
  case h_5 hnil hslash hcolon hdot =>
    rcases htext : trim s with _ | ⟨c, _ | ⟨c', _ | ⟨c'', rest⟩⟩⟩
    · exact absurd htext hnil
    · exact .whole (by simp [startsWithDrive]) (by simp [startsWithDot])
    · exact .whole (by simp [startsWithDrive]) (by simp [startsWithDot])
    · have hc' : c' ≠ ':' := by
        rintro rfl
        exact hcolon c c'' rest htext
      have hc : c ≠ '.' := by
        rintro rfl
        exact hdot c' c'' rest htext
      exact .whole (by simp [startsWithDrive, hc']) (by simp [startsWithDot, hc])

/-- A text that loses nothing to `from_str` is read back. -/
lemma readsBack_of_weight {s : Str}
    (h : weight s ≤ (NormalizedPath.fromStr s).segments.flatten.length) : ReadsBack s := by
  have hread := read_fromStr s
  generalize (fromStr s).segments = segments at h hread
  have hle := weight_trim_le s
  cases hread with
  | whole noDrive noDot =>
    obtain ⟨hlight, hback⟩ := weight_splitSegments (trim s)
    have htrim : trim s = s := trim_of_weight (by omega)
    rw [htrim] at hback noDrive noDot h
    refine ⟨htrim, noDrive, fun hmem => ⟨hback h hmem, ?_⟩⟩
    rintro ⟨rest, rfl⟩
    -- with nothing behind it the backslash is lost
    cases rest with
    | nil => exact absurd (hback h hmem) (by decide)
    | cons c rest => simp [startsWithDot] at noDot
  | @drive d sep rest text letter separator =>
    obtain ⟨hlight, -⟩ := weight_splitSegments (sep :: rest)
    have hd : d ≠ '/' := by
      rintro rfl
      cases letter
    rw [text, weight_cons hd, weight_cons (by decide)] at hle
    omega
  | @dotted sep rest text separator =>
    obtain ⟨hlight, -⟩ := weight_splitSegments rest
    rw [text, weight_cons (by decide)] at hle
    have hsep : weight rest ≤ weight (sep :: rest) := by
      simp only [weight, filter_cons]
      split_ifs <;> simp
    omega

/-- What is read back is split at its slashes. -/
lemma segments_of_readsBack {s : Str} (h : ReadsBack s) (hdot : ¬['.', '/'] <+: s) :
    (NormalizedPath.fromStr s).segments = (split '/' s).filter (· ≠ []) := by
  have hread := read_fromStr s
  rw [h.trimmed] at hread
  generalize (fromStr s).segments = segments at hread
  cases hread with
  | whole noDrive noDot =>
    have hslash : ¬('\\' ∈ s ∧ '/' ∉ s) := fun hback => hback.2 (h.backslash hback.1).1
    rw [splitSegments, if_neg hslash]
  | drive text letter separator =>
    have hdrive := h.noDrive
    rw [text] at hdrive
    simp [startsWithDrive] at hdrive
    tauto
  | @dotted sep rest text separator =>
    exfalso
    rcases separator with rfl | rfl
    · exact hdot ⟨rest, text.symm⟩
    · exact (h.backslash (by simp [text])).2 ⟨rest, text.symm⟩

/-! ### What is left of a path -/

def size (p : PathBuf) : ℕ := p.segs.flatten.length

section size

variable {p pb : PathBuf} {seg : Str}

lemma length_flatten_le {xs ys : List Str} (h : xs <+: ys) :
    xs.flatten.length ≤ ys.flatten.length := by
  obtain ⟨zs, rfl⟩ := h
  simp

lemma length_clean_le (segs : List Str) :
    (clean segs).flatten.length ≤ segs.flatten.length := by
  induction segs with
  | nil => exact le_rfl
  | cons seg segs ih =>
    have hcons : (clean (seg :: segs)).flatten.length ≤
        seg.length + (clean segs).flatten.length := by
      by_cases hdot : seg = dot <;> simp [clean, hdot]
    rw [flatten_cons, length_append]
    omega

lemma pop_isPrefix (p : PathBuf) : p.pop.segs <+: p.segs := by
  rw [PathBuf.pop]
  cases hparent : p.parent with
  | none => exact prefix_rfl
  | some q => exact (parent_isPrefix hparent).2

lemma size_pushSegment_le (pb : PathBuf) (seg : Str) :
    size (NormalizedPath.pushSegment pb seg) ≤ size pb + seg.length := by
  rw [pushSegment]
  split_ifs
  · have hpop : size pb.pop ≤ size pb := length_flatten_le (pop_isPrefix pb)
    omega
  · simp [size, PathBuf.push]
  · omega

lemma size_foldl_le (segs : List Str) (pb : PathBuf) :
    size (segs.foldl NormalizedPath.pushSegment pb) ≤ size pb + segs.flatten.length := by
  induction segs generalizing pb with
  | nil => simp
  | cons seg segs ih =>
    have hone := size_pushSegment_le pb seg
    have hrest := ih (pushSegment pb seg)
    simp only [foldl_cons, flatten_cons, length_append]
    omega

/-- `to_local` leaves no `..` behind. -/
lemma dotdot_notMem_foldl (segs : List Str) (h : dotdot ∉ pb.segs) :
    dotdot ∉ (segs.foldl NormalizedPath.pushSegment pb).segs := by
  induction segs generalizing pb with
  | nil => exact h
  | cons seg segs ih =>
    refine ih ?_
    rw [pushSegment]
    split_ifs with hup
    · exact fun hmem => h ((pop_isPrefix pb).subset hmem)
    · simp only [PathBuf.push, mem_append, mem_singleton, not_or]
      exact ⟨h, Ne.symm hup⟩
    · exact h

lemma dotdot_notMem_toLocal (np : NormalizedPath) : dotdot ∉ np.toLocal.segs := by
  refine dotdot_notMem_foldl _ ?_
  cases np.kind with
  | windowsDrive drive =>
    rw [dotdot]
    simp
  | absolute | relative => exact not_mem_nil

end size

/-! ### Equal paths -/

/-- The piece that a component stands for. -/
def piece : PathBuf.Component → Option Str
  | .parentDir => some dotdot
  | .normal name => some name
  | .rootDir | .curDir => none

lemma filterMap_components (p : PathBuf) : p.components.filterMap piece = clean p.segs := by
  have hmap : ((clean p.segs).map fun s => if s = dotdot then PathBuf.Component.parentDir
      else .normal s).filterMap piece = clean p.segs := by
    rw [filterMap_map]
    refine (filterMap_congr fun s _ => ?_).trans filterMap_some
    rw [Function.comp_apply]
    split_ifs with hs
    · rw [piece, hs]
    · rfl
  rw [PathBuf.components, filterMap_append]
  refine (congrArg _ hmap).trans ?_
  split_ifs <;> simp [piece]

lemma SamePath.clean_segs {p q : PathBuf} (h : SamePath p q) : clean p.segs = clean q.segs := by
  rw [← filterMap_components, ← filterMap_components, h]

lemma curDir_mem_components {p : PathBuf} :
    .curDir ∈ p.components ↔ p.absolute = false ∧ p.segs.head? = some dot := by
  have hmap : .curDir ∉ (p.segs.filter (· ≠ dot)).map fun s =>
      if s = dotdot then PathBuf.Component.parentDir else .normal s := by
    intro hmem
    obtain ⟨s, -, hs⟩ := mem_map.1 hmem
    split_ifs at hs
  rw [PathBuf.components, mem_append, or_iff_left hmap]
  cases p.absolute with
  | true => simp
  | false => by_cases hhead : p.segs.head? = some dot <;> simp

lemma samePath_of_clean {p q : PathBuf} (habs : p.absolute = q.absolute)
    (hclean : clean p.segs = clean q.segs)
    (hhead : p.absolute = true ∨ p.segs.head? ≠ some dot ∧ q.segs.head? ≠ some dot) :
    SamePath p q := by
  rw [SamePath, PathBuf.components, PathBuf.components, ← habs]
  congr 1
  · rcases hhead with hroot | ⟨hp, hq⟩
    · rw [hroot]
      rfl
    · rw [if_neg hp, if_neg hq]
  · exact congrArg _ hclean

/-! ### Entries -/

namespace RelativePath

variable (r : RelativePath)

lemma clean_names : clean r.names = r.names :=
  filter_eq_self.2 fun name hname => by simpa using (r.isName name hname).dot

lemma nil_notMem : [] ∉ r.names := fun hnil => (r.isName [] hnil).ne_nil rfl

lemma dotdot_notMem : dotdot ∉ r.names := fun hup => (r.isName dotdot hup).dotdot rfl

lemma toString_path : relativePathToString r.path = .ok r.text := by
  have hlocal : fromLocal r.path = ⟨r.names, .relative⟩ := by
    rw [fromLocal_eq]
    simp [path, clean_names]
  have hvalid : validateRelative ⟨r.names, .relative⟩ = .ok () := by
    simp [validateRelative, r.dotdot_notMem]
  rw [relativePathToString, hlocal, hvalid]
  rfl

lemma split_text : split '/' r.text = r.names :=
  splitOn_intercalate '/' (fun name hname => (r.isName name hname).slash) r.ne_nil

lemma weight_text : weight r.text = r.names.flatten.length := by
  rw [weight, ← flatten_split, split_text]

lemma segments_text (h : ReadsBack r.text) :
    (NormalizedPath.fromStr r.text).segments = r.names := by
  have hdot : ¬['.', '/'] <+: r.text := by
    rintro ⟨rest, hrest⟩
    have hfirst : r.names = dot :: split '/' rest := by
      rw [← split_text, ← hrest]
      simp [split, splitOn, splitOnP_cons_eq_if_modifyHead, dot]
    exact (r.isName dot (by simp [hfirst])).dot rfl
  have hnonempty : r.names.filter (· ≠ []) = r.names :=
    filter_eq_self.2 fun name hname => by simpa using (r.isName name hname).ne_nil
  rw [segments_of_readsBack h hdot, split_text, hnonempty]

end RelativePath

variable {root : PathBuf} {r r' : RelativePath}

lemma nil_notMem_ofStr (text : Str) : [] ∉ (PathBuf.ofStr text).segs := by simp [PathBuf.ofStr]

lemma joinRelativePath_text (h : ReadsBack r.text) :
    joinRelativePath root r.text = ⟨(NormalizedPath.fromLocal root).toLocal.absolute,
      (NormalizedPath.fromLocal root).toLocal.segs ++ r.names⟩ := by
  have hjoin : ((fromLocal root).join r.text).toLocal =
      r.names.foldl pushSegment (fromLocal root).toLocal := by
    rw [join, r.segments_text h, toLocal, foldl_append]
    rfl
  rw [joinRelativePath, hjoin, foldl_pushSegment r.dotdot_notMem r.nil_notMem]

lemma size_joinRelativePath_le (root : PathBuf) (s : Str) :
    size (joinRelativePath root s) ≤
      (clean root.segs).flatten.length + (NormalizedPath.fromStr s).segments.flatten.length := by
  rw [joinRelativePath, fromLocal_eq, join]
  refine (size_foldl_le _ _).trans ?_
  cases root.absolute <;> simp [size]

/-- An entry that arrives has been read back, below a root that has no `..`. -/
lemma Arrives.readsBack (h : Arrives root r) : dotdot ∉ root.segs ∧ ReadsBack r.text := by
  obtain ⟨s, hs, hsame⟩ := h
  rw [r.toString_path] at hs
  cases hs
  have hclean : clean (joinRelativePath root r.text).segs = clean root.segs ++ r.names := by
    rw [hsame.clean_segs, PathBuf.join]
    simp [RelativePath.path, clean_append, r.clean_names]
  have hroot : dotdot ∉ root.segs := by
    intro hup
    refine dotdot_notMem_toLocal ((fromLocal root).join r.text) ?_
    have hmem : dotdot ∈ clean (joinRelativePath root r.text).segs := by
      rw [hclean]
      exact mem_append_left _ (mem_filter.2 ⟨hup, by decide⟩)
    exact mem_of_mem_filter hmem
  refine ⟨hroot, readsBack_of_weight ?_⟩
  have hsize := size_joinRelativePath_le root r.text
  have hless : (clean (joinRelativePath root r.text).segs).flatten.length ≤
      size (joinRelativePath root r.text) := length_clean_le _
  rw [hclean, flatten_append, length_append] at hless
  rw [r.weight_text]
  omega

lemma joinRelativePath_kept (hnil : [] ∉ root.segs) (hroot : dotdot ∉ root.segs)
    (h : ReadsBack r.text) :
    joinRelativePath root r.text = ⟨root.absolute, clean root.segs ++ r.names⟩ := by
  have hup : dotdot ∉ (fromStr r.text).segments := by
    rw [r.segments_text h]
    exact r.dotdot_notMem
  rw [joinRelativePath_eq hroot hnil hup, r.segments_text h]

/-- What does not begin with a `.` does not do so with names behind it. -/
lemma head?_append_ne {segs : List Str} (h : segs.head? ≠ some dot) :
    (segs ++ r.names).head? ≠ some dot := by
  intro hhead
  cases segs with
  | nil => exact (r.isName dot (mem_of_mem_head? hhead)).dot rfl
  | cons seg segs => exact h hhead

lemma head?_clean_ne (segs : List Str) : (clean segs).head? ≠ some dot := by
  intro hhead
  have hmem := of_mem_filter (mem_of_mem_head? hhead)
  simp at hmem

/-- **An entry gets to its place if, and only if, its path is read back and the root has nothing to
resolve.** Entries that are read back do not get into each other's way. -/
theorem wire_path_iff (rootText : Str) (r : RelativePath) :
    (Arrives (.ofStr rootText) r ↔ Kept (.ofStr rootText) ∧ ReadsBack r.text) ∧
      ∀ r', ReadsBack r.text → ReadsBack r'.text →
        joinRelativePath (.ofStr rootText) r.text = joinRelativePath (.ofStr rootText) r'.text →
        r = r' := by
  have hnil := nil_notMem_ofStr rootText
  generalize PathBuf.ofStr rootText = root at hnil
  refine ⟨⟨fun h => ?_, ?_⟩, fun r' hr hr' hjoin => ?_⟩
  · obtain ⟨hroot, hread⟩ := h.readsBack
    refine ⟨⟨hroot, ?_⟩, hread⟩
    by_contra hcurrent
    rw [not_or, not_not] at hcurrent
    obtain ⟨s, hs, hsame⟩ := h
    rw [r.toString_path] at hs
    cases hs
    rw [joinRelativePath_kept hnil hroot hread] at hsame
    have hmem : .curDir ∈ (root.join r.path).components := by
      refine curDir_mem_components.2 ⟨?_, ?_⟩
      · simpa [PathBuf.join, RelativePath.path] using hcurrent.1
      · simp [PathBuf.join, RelativePath.path, hcurrent.2]
    rw [← hsame, curDir_mem_components] at hmem
    exact head?_append_ne (head?_clean_ne root.segs) hmem.2
  · rintro ⟨hkept, hread⟩
    refine ⟨r.text, r.toString_path, ?_⟩
    rw [joinRelativePath_kept hnil hkept.noParent hread]
    refine samePath_of_clean rfl ?_ ?_
    · simp [PathBuf.join, RelativePath.path, clean_append, clean_clean]
    · exact hkept.noCurrent.imp id fun hhead =>
        ⟨head?_append_ne (head?_clean_ne root.segs), head?_append_ne hhead⟩
  · rw [joinRelativePath_text hr, joinRelativePath_text hr'] at hjoin
    have hnames : r.names = r'.names := append_cancel_left (PathBuf.mk.inj hjoin).2
    cases r
    cases r'
    cases hnames
    rfl

/-- A backslash, a colon and blanks inside a path of two names. -/
def spaced : RelativePath := ⟨["a\\b: c", "d e"], by decide, by decide⟩

theorem wire_path_spaced : Arrives (.ofStr "/srv") spaced := by
  refine (wire_path_iff "/srv" spaced).1.2 ⟨⟨by decide, .inl (by decide)⟩, ?_⟩
  exact ⟨by decide +kernel, by decide, fun _ => ⟨by decide, by decide⟩⟩

def backslash : RelativePath := ⟨["a\\b"], by decide, by decide⟩

def nested : RelativePath := ⟨["a", "b"], by decide, by decide⟩

def blank : RelativePath := ⟨["a "], by decide, by decide⟩

def drive : RelativePath := ⟨["C:", "a"], by decide, by decide⟩

/-- A backslash makes a directory out of a file, which may be there already; a blank at the end is
lost, and so is a directory with the name of a drive. -/
theorem wire_path_lost :
    (¬Arrives (.ofStr "/srv") backslash ∧ backslash.names ≠ nested.names ∧
      joinRelativePath (.ofStr "/srv") backslash.text =
        joinRelativePath (.ofStr "/srv") nested.text) ∧
    joinRelativePath (.ofStr "/srv") blank.text = .ofStr "/srv/a" ∧
    joinRelativePath (.ofStr "/srv") drive.text = .ofStr "/srv/a" := by
  refine ⟨⟨fun h => ?_, by decide, by decide +kernel⟩, by decide +kernel, by decide +kernel⟩
  have hslash := (h.readsBack.2.backslash (by decide)).1
  exact absurd hslash (by decide)

end CrossHostOps.WirePaths
