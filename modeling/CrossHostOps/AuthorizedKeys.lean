import CrossHostOps.Config
import CrossHostOps.Lines

/-!
The `authorized_keys` file of `daemon/authorized_keys.rs`: whether a key is in it, and the append
that bootstraps a key.

The text format of a key belongs to `ssh_key`. What is used of it is `KeyFormat`: a line is an
algorithm, the key in base64 and a comment, parted by single spaces.
-/

namespace CrossHostOps.AuthorizedKeys

open Text Config List

/-! ### The format of a key -/

def isBase64 (c : Char) : Bool := c.isAlphanum || c == '+' || c == '/' || c == '='

/-- The text format of key data: the characters a segment may have, and the codec of the two
segments. Every algorithm name has a character outside base64: a hyphen, or the at sign before its
domain. -/
structure KeyFormat (K : Type) where
  isSegment : Char → Bool
  decode : Str → Str → Option K
  algorithm : K → Str
  base64 : K → Str
  isWhitespace_of_isSegment : ∀ c, isSegment c = true → isWhitespace c = false
  decode_encode : ∀ k, decode (algorithm k) (base64 k) = some k
  isBase64_of_decode : ∀ a b k, decode a b = some k → ∀ c ∈ b, isBase64 c = true
  algorithm_ne_nil : ∀ k, algorithm k ≠ []
  base64_ne_nil : ∀ k, base64 k ≠ []
  isSegment_algorithm : ∀ k, ∀ c ∈ algorithm k, isSegment c = true
  isSegment_base64 : ∀ k, ∀ c ∈ base64 k, isSegment c = true
  algorithm_mark : ∀ k, ∃ c ∈ algorithm k, isBase64 c = false

structure PublicKey (K : Type) where
  keyData : K
  comment : Str

variable {K : Type} (fmt : KeyFormat K)

/-- The characters up to the next space or the end, and what follows the space. -/
def segment (s : Str) : Option (Str × Str) :=
  match s.dropWhile fmt.isSegment with
  | [] => some (s, [])
  | c :: rest => if c = ' ' then some (s.takeWhile fmt.isSegment, rest) else none

/-- `PublicKey::from_openssh` of a trimmed line. -/
def fromOpenssh (line : Str) : Option (PublicKey K) := do
  let (algorithm, rest) ← segment fmt line
  let (base64, comment) ← segment fmt rest
  if algorithm = [] ∨ base64 = [] then none
  else
    let keyData ← fmt.decode algorithm base64
    some ⟨keyData, comment⟩

def toOpenssh (key : PublicKey K) : Str :=
  fmt.algorithm key.keyData ++ ' ' :: (fmt.base64 key.keyData ++
    if key.comment = [] then [] else ' ' :: key.comment)

/-- The key on a line of the file, if the line is not blank and no comment. -/
def keyOnLine (path : Str) (idx : ℕ) (rawLine : Str) : Except Str (Option (PublicKey K)) :=
  let line := trim rawLine
  if line = [] ∨ line.head? = some '#' then .ok none
  else
    match (splitWhitespace line).head? with
    | none => .error ("invalid authorized_keys line " ++ showNat (idx + 1))
    | some first =>
      if '=' ∈ first ∨ ',' ∈ first then
        .error ("authorized_keys options are not supported in " ++ path ++
          " line " ++ showNat (idx + 1))
      else
        match fromOpenssh fmt line with
        | none =>
          .error ("failed to parse " ++ path ++ " line " ++ showNat (idx + 1))
        | some parsed => .ok (some parsed)

/-- The text a write in append mode goes on after. -/
def written : FileContent Str → Str
  | .missing => []
  | .unreadable _ => []
  | .content text => text

/-! ### Reading one line -/

section Lines

variable {fmt}

lemma isSegment_space : fmt.isSegment ' ' = false := by
  cases h : fmt.isSegment ' ' with
  | false => rfl
  | true => exact absurd (fmt.isWhitespace_of_isSegment _ h) (by decide)

variable {a tail p rawLine : Str} {key parsed : PublicKey K} {k : K} {idx : ℕ}

lemma segment_end (ha : ∀ c ∈ a, fmt.isSegment c = true) : segment fmt a = some (a, []) := by
  unfold segment
  rw [dropWhile_eq_nil_iff.2 ha]

lemma segment_space (ha : ∀ c ∈ a, fmt.isSegment c = true) (rest : Str) :
    segment fmt (a ++ ' ' :: rest) = some (a, rest) := by
  have hdrop : (a ++ ' ' :: rest).dropWhile fmt.isSegment = ' ' :: rest := by
    rw [dropWhile_append_of_pos ha, dropWhile_cons_of_neg (by simp [isSegment_space])]
  have htake : (a ++ ' ' :: rest).takeWhile fmt.isSegment = a := by
    rw [takeWhile_append_of_pos ha, takeWhile_cons_of_neg (by simp [isSegment_space]), append_nil]
  unfold segment
  rw [hdrop, htake]
  rfl

lemma segment_other (ha : ∀ c ∈ a, fmt.isSegment c = true) {c : Char}
    (hc : fmt.isSegment c = false) (hspace : c ≠ ' ') (rest : Str) :
    segment fmt (a ++ c :: rest) = none := by
  have hdrop : (a ++ c :: rest).dropWhile fmt.isSegment = c :: rest := by
    rw [dropWhile_append_of_pos ha, dropWhile_cons_of_neg (by simp [hc])]
  unfold segment
  rw [hdrop]
  exact if_neg hspace

lemma segment_some {s rest : Str} (h : segment fmt s = some (a, rest)) :
    (∀ c ∈ a, fmt.isSegment c = true) ∧ (s = a ∧ rest = [] ∨ s = a ++ ' ' :: rest) := by
  unfold segment at h
  split at h
  next hnil =>
    cases h
    exact ⟨dropWhile_eq_nil_iff.1 hnil, .inl ⟨rfl, rfl⟩⟩
  next c r hcons =>
    split at h
    next hc =>
      cases h
      refine ⟨fun c hc => mem_takeWhile_imp hc, .inr ?_⟩
      rw [← hc, ← hcons, takeWhile_append_dropWhile]
    · cases h

lemma fromOpenssh_some {line : Str} (h : fromOpenssh fmt line = some key) :
    ∃ a b rest, (∀ c ∈ a, fmt.isSegment c = true) ∧ line = a ++ ' ' :: rest ∧
      segment fmt rest = some (b, key.comment) ∧ fmt.decode a b = some key.keyData := by
  unfold fromOpenssh at h
  simp only [Option.bind_eq_bind, Option.bind_eq_some_iff, Prod.exists] at h
  obtain ⟨a, rest, ha, b, comment, hb, h⟩ := h
  split at h
  · cases h
  next hne =>
    obtain ⟨k, hk, hkey⟩ := Option.bind_eq_some_iff.1 h
    cases hkey
    obtain ⟨hsegment, ⟨-, rfl⟩ | hline⟩ := segment_some ha
    · -- nothing after the algorithm: the second segment would be empty
      cases hb
      exact absurd (.inr rfl) hne
    · exact ⟨a, b, rest, hsegment, hline, hb, hk⟩

/-- The end of a line after its base64: nothing, or a space and more. -/
def Spaced (tail : Str) : Prop := tail = [] ∨ ∃ comment, tail = ' ' :: comment

variable (fmt) in
def encoded (k : K) (tail : Str) : Str := fmt.algorithm k ++ ' ' :: (fmt.base64 k ++ tail)

variable (fmt) in
lemma fromOpenssh_encoded (k : K) (htail : Spaced tail) :
    ∃ comment, fromOpenssh fmt (encoded fmt k tail) = some ⟨k, comment⟩ := by
  have halgorithm := segment_space (fmt.isSegment_algorithm k) (fmt.base64 k ++ tail)
  have hbase64 : ∃ comment, segment fmt (fmt.base64 k ++ tail) = some (fmt.base64 k, comment) := by
    rcases htail with rfl | ⟨comment, rfl⟩
    · rw [append_nil]
      exact ⟨[], segment_end (fmt.isSegment_base64 k)⟩
    · exact ⟨comment, segment_space (fmt.isSegment_base64 k) comment⟩
  obtain ⟨comment, hbase64⟩ := hbase64
  refine ⟨comment, ?_⟩
  unfold fromOpenssh encoded
  simp [halgorithm, hbase64, fmt.algorithm_ne_nil, fmt.base64_ne_nil, fmt.decode_encode]

/-- A key written after a line that holds one: the line holds the first key still, or none. -/
lemma fromOpenssh_glued {w : Str} {key' : PublicKey K} (hp : fromOpenssh fmt p = some key)
    (hw : ∀ c ∈ w, isWhitespace c = true)
    (h : fromOpenssh fmt (p ++ (w ++ encoded fmt k tail)) = some key') :
    key'.keyData = key.keyData := by
  obtain ⟨a, b, rest, ha, rfl, hb, hdecode⟩ := fromOpenssh_some hp
  obtain ⟨a', b', rest', ha', hline, hb', hdecode'⟩ := fromOpenssh_some h
  have hsplit := segment_space ha (rest ++ (w ++ encoded fmt k tail))
  rw [append_assoc, cons_append] at hline
  rw [hline, segment_space ha' rest'] at hsplit
  cases hsplit
  obtain ⟨hbsegment, ⟨rfl, -⟩ | rfl⟩ := segment_some hb
  · cases w with
    | nil =>
      -- the algorithm of the second key would be part of the first key's base64
      have hjoined : ∀ c ∈ rest ++ fmt.algorithm k, fmt.isSegment c = true := by
        intro c hc
        rcases mem_append.1 hc with hc | hc
        · exact hbsegment c hc
        · exact fmt.isSegment_algorithm k c hc
      have hb'' := segment_space hjoined (fmt.base64 k ++ tail)
      rw [append_assoc] at hb''
      rw [nil_append, encoded, hb''] at hb'
      obtain rfl := congrArg Prod.fst (Option.some.inj hb')
      obtain ⟨c, hc, hmark⟩ := fmt.algorithm_mark k
      have := fmt.isBase64_of_decode _ _ _ hdecode' c (mem_append_right _ hc)
      rw [hmark] at this
      cases this
    | cons c w =>
      by_cases hspace : c = ' '
      · subst hspace
        rw [cons_append, segment_space hbsegment] at hb'
        obtain rfl := congrArg Prod.fst (Option.some.inj hb')
        exact Option.some.inj (hdecode'.symm.trans hdecode)
      · have hc : fmt.isSegment c = false := by
          cases hseg : fmt.isSegment c with
          | false => rfl
          | true =>
            have := fmt.isWhitespace_of_isSegment c hseg
            rw [hw c mem_cons_self] at this
            cases this
        rw [cons_append, segment_other hbsegment hc hspace] at hb'
        cases hb'
  · rw [append_assoc, cons_append, segment_space hbsegment] at hb'
    obtain rfl := congrArg Prod.fst (Option.some.inj hb')
    exact Option.some.inj (hdecode'.symm.trans hdecode)

lemma Spaced.trimEnd (h : Spaced tail) : Spaced (trimEnd tail) := by
  obtain ⟨w, hw, -⟩ := exists_eq_trimEnd_append tail
  rcases h with rfl | ⟨comment, rfl⟩
  · exact .inl rfl
  · cases htrim : Text.trimEnd (' ' :: comment) with
    | nil => exact .inl rfl
    | cons c rest =>
      rw [htrim, cons_append] at hw
      cases hw
      exact .inr ⟨rest, rfl⟩

lemma isWhitespace_algorithm (k : K) : ∀ c ∈ fmt.algorithm k, isWhitespace c = false :=
  fun c hc => fmt.isWhitespace_of_isSegment c (fmt.isSegment_algorithm k c hc)

lemma trimEnd_encoded (k : K) (tail : Str) :
    trimEnd (encoded fmt k tail) = encoded fmt k (trimEnd tail) := by
  have hjoin : ∀ t, encoded fmt k t = (fmt.algorithm k ++ ' ' :: fmt.base64 k) ++ t := by
    intro t
    simp [encoded]
  rw [hjoin, hjoin]
  by_cases hnil : trimEnd tail = []
  · have hblank : ∀ c ∈ tail, isWhitespace c = true := rdropWhile_eq_nil_iff.1 hnil
    have hlast : trimEnd (fmt.base64 k) = fmt.base64 k := by
      refine rdropWhile_eq_self_iff.2 fun hne => ?_
      have hseg := fmt.isSegment_base64 k _ (getLast_mem hne)
      simp [fmt.isWhitespace_of_isSegment _ hseg]
    rw [trimEnd_append_of_forall hblank, hnil, append_nil, append_cons,
      trimEnd_append _ (by rw [hlast]; exact fmt.base64_ne_nil k), hlast]
  · exact trimEnd_append _ hnil

lemma trim_encoded (k : K) (tail : Str) :
    trim (encoded fmt k tail) = encoded fmt k (trimEnd tail) := by
  have hstart : trimStart (encoded fmt k tail) = encoded fmt k tail := by
    obtain ⟨c, cs, hcs⟩ := exists_cons_of_ne_nil (fmt.algorithm_ne_nil k)
    have hc : isWhitespace c = false := isWhitespace_algorithm k c (by rw [hcs]; simp)
    unfold trimStart encoded
    rw [hcs, cons_append, dropWhile_cons_of_neg (by simp [hc])]
  rw [trim, hstart, trimEnd_encoded]

lemma trim_blank (h : trim p = []) :
    trim (stripCr (p ++ encoded fmt k tail)) = encoded fmt k (trimEnd tail) := by
  rw [trim_stripCr, trim_append_of_blank h, trim_encoded]

/-- A key written after text that is not blank: the line begins with that text. -/
lemma trim_glued (k : K) (tail : Str) (hp : trim p ≠ []) :
    trim (p ++ encoded fmt k tail) = trimStart p ++ encoded fmt k (trimEnd tail) := by
  have hne : trimEnd (encoded fmt k tail) ≠ [] := by
    rw [trimEnd_encoded]
    simp [encoded]
  rw [trim_append hp hne, trimEnd_encoded]

lemma firstWord_encoded (k : K) (tail : Str) :
    (splitWhitespace (encoded fmt k tail)).head? = some (fmt.algorithm k) := by
  unfold splitWhitespace encoded
  rw [splitOnP_append_cons _ _ rfl, splitOnP_eq_singleton (isWhitespace_algorithm k),
    singleton_append, filter_cons_of_pos (by simpa using fmt.algorithm_ne_nil k)]
  rfl

lemma keyOnLine_none {path : Str} (h : keyOnLine fmt path idx rawLine = .ok none) :
    trim rawLine = [] ∨ (trim rawLine).head? = some '#' := by
  revert h
  fun_cases keyOnLine fmt path idx rawLine <;> intro h <;> cases h
  next hskip => exact hskip

lemma keyOnLine_some {path : Str} (h : keyOnLine fmt path idx rawLine = .ok (some parsed)) :
    (trim rawLine).head? ≠ some '#' ∧
      (∃ first, (splitWhitespace (trim rawLine)).head? = some first ∧ '=' ∉ first ∧ ',' ∉ first) ∧
      fromOpenssh fmt (trim rawLine) = some parsed := by
  revert h
  fun_cases keyOnLine fmt path idx rawLine <;> intro h <;> cases h
  next hskip first hfirst hoptions hkey =>
    rw [not_or] at hskip hoptions
    exact ⟨hskip.2, ⟨first, hfirst, hoptions.1, hoptions.2⟩, hkey⟩

variable (fmt) in
/-- An algorithm name at the start of a line reads as neither a comment nor options. -/
def Plain (k : K) : Prop :=
  (fmt.algorithm k).head? ≠ some '#' ∧ '=' ∉ fmt.algorithm k ∧ ',' ∉ fmt.algorithm k

lemma head?_encoded (k : K) (tail : Str) :
    (encoded fmt k tail).head? = (fmt.algorithm k).head? := by
  obtain ⟨c, cs, hcs⟩ := exists_cons_of_ne_nil (fmt.algorithm_ne_nil k)
  unfold encoded
  rw [hcs]
  rfl

/-- A line that trims to a key's text holds the key, if its algorithm name is plain. -/
lemma keyOnLine_encoded (path : Str) (idx : ℕ) (hline : trim rawLine = encoded fmt k tail)
    (htail : Spaced tail) (hplain : Plain fmt k) :
    ∃ comment, keyOnLine fmt path idx rawLine = .ok (some ⟨k, comment⟩) := by
  obtain ⟨comment, hkey⟩ := fromOpenssh_encoded fmt k htail
  obtain ⟨hhash, heq, hcomma⟩ := hplain
  have hskip : ¬ (trim rawLine = [] ∨ (trim rawLine).head? = some '#') := by
    rw [hline, head?_encoded]
    rintro (hnil | h)
    · exact absurd hnil (by simp [encoded])
    · exact hhash h
  refine ⟨comment, ?_⟩
  unfold keyOnLine
  rw [if_neg hskip, hline, firstWord_encoded]
  simp [heq, hcomma, hkey]

lemma plain_of_keyOnLine {path : Str} (hline : trim rawLine = encoded fmt k tail)
    (h : keyOnLine fmt path idx rawLine = .ok (some parsed)) : Plain fmt k := by
  obtain ⟨hhash, ⟨first, hfirst, heq, hcomma⟩, -⟩ := keyOnLine_some h
  rw [hline, head?_encoded] at hhash
  rw [hline, firstWord_encoded] at hfirst
  cases hfirst
  exact ⟨hhash, heq, hcomma⟩

variable (fmt) in
/-- The first line of what is appended, and what follows it if the comment has lines of its own. -/
lemma exists_firstLine (key : PublicKey K) :
    ∃ tail more, Spaced tail ∧ '\n' ∉ encoded fmt key.keyData tail ∧
      toOpenssh fmt key ++ ['\n'] = encoded fmt key.keyData tail ++ '\n' :: more ∧
      ('\n' ∉ key.comment → more = []) := by
  have hsegments : ∀ tail, '\n' ∉ tail → '\n' ∉ encoded fmt key.keyData tail := by
    intro tail htail hmem
    simp only [encoded, mem_append, mem_cons] at hmem
    rcases hmem with hmem | hmem | hmem | hmem
    · exact absurd (isWhitespace_algorithm _ _ hmem) (by decide)
    · cases hmem
    · have hbase64 := fmt.isWhitespace_of_isSegment _ (fmt.isSegment_base64 _ _ hmem)
      exact absurd hbase64 (by decide)
    · exact htail hmem
  by_cases hcomment : '\n' ∈ key.comment
  · obtain ⟨before, more, hsplit, hbefore⟩ := eq_append_cons_of_mem hcomment
    refine ⟨' ' :: before, more ++ ['\n'], .inr ⟨before, rfl⟩, hsegments _ ?_, ?_,
      fun h => absurd hcomment h⟩
    · simpa using hbefore
    · simp [toOpenssh, encoded, hsplit]
  · refine ⟨if key.comment = [] then [] else ' ' :: key.comment, [], ?_, hsegments _ ?_, rfl,
      fun _ => rfl⟩
    · split
      · exact .inl rfl
      · exact .inr ⟨_, rfl⟩
    · split
      · simp
      · simpa using hcomment

variable (fmt) in
/-- The file with `key` appended: the lines that were complete, the line the key goes on, and the
further lines of its comment. -/
lemma exists_lines_appended (file : FileContent Str) (key : PublicKey K) :
    ∃ ls tail more, Spaced tail ∧ ('\n' ∉ key.comment → more = []) ∧
      lines (written file) = ls ++ lines (lastPiece '\n' (written file)) ∧
      lines (written file ++ toOpenssh fmt key ++ ['\n']) =
        ls ++ stripCr (lastPiece '\n' (written file) ++ encoded fmt key.keyData tail) ::
          lines more := by
  obtain ⟨ls, hls⟩ := exists_lines_append (written file)
  obtain ⟨tail, more, htail, hnewline, htext, hmore⟩ := exists_firstLine fmt key
  refine ⟨ls, tail, more, htail, hmore, ?_, ?_⟩
  · simpa using hls []
  · have hline : '\n' ∉ lastPiece '\n' (written file) ++ encoded fmt key.keyData tail := by
      simp only [mem_append, not_or]
      exact ⟨not_mem_lastPiece _ _, hnewline⟩
    rw [append_assoc, htext, hls, ← append_assoc, lines_terminated hline]

end Lines

/-! ### The file -/

variable [DecidableEq K]

/-- The loop of `is_authorized_key` from line `idx` on. -/
def scan (path : Str) (candidate : K) : ℕ → List Str → Except Str Bool
  | _, [] => .ok false
  | idx, rawLine :: rest =>
    match keyOnLine fmt path idx rawLine with
    | .error e => .error e
    | .ok none => scan path candidate (idx + 1) rest
    | .ok (some parsed) =>
      if parsed.keyData = candidate then .ok true else scan path candidate (idx + 1) rest

def isAuthorizedKey (path : Str) (file : FileContent Str) (candidate : K) : Except Str Bool :=
  match file with
  | .missing => .ok false
  | .unreadable _ => .error ("failed to read " ++ path)
  | .content text => scan fmt path candidate 0 (lines text)

/-- `append_authorized_key` with the file it leaves. `disk` is the error of the directory, the open
or the write, with what it leaves, if there is one. -/
def appendAuthorizedKey (path : Str) (disk : Option (Str × FileContent Str))
    (file : FileContent Str) (key : PublicKey K) : Except Str (Bool × Bool) × FileContent Str :=
  match isAuthorizedKey fmt path file key.keyData with
  | .error e => (.error e, file)
  | .ok true => (.ok (false, true), file)
  | .ok false =>
    match disk with
    | some (e, left) => (.error e, left)
    | none => (.ok (true, false), .content (written file ++ toOpenssh fmt key ++ ['\n']))

variable {fmt} {path : Str}

lemma scan_append (candidate : K) (idx : ℕ) (ls ms : List Str) :
    scan fmt path candidate idx (ls ++ ms) =
      match scan fmt path candidate idx ls with
      | .ok false => scan fmt path candidate (idx + ls.length) ms
      | r => r := by
  induction ls generalizing idx with
  | nil => rfl
  | cons l ls ih =>
    have hlength : idx + (l :: ls).length = idx + 1 + ls.length := by
      rw [length_cons]
      omega
    rw [cons_append, hlength, scan, scan]
    cases keyOnLine fmt path idx l with
    | error e => rfl
    | ok found =>
      cases found with
      | none => exact ih (idx + 1)
      | some parsed =>
        dsimp only
        split
        · rfl
        · exact ih (idx + 1)

variable {file : FileContent Str} {candidate : K} {idx : ℕ} {l p : Str} {key : PublicKey K}

lemma isAuthorizedKey_of_ok {found : Bool}
    (h : isAuthorizedKey fmt path file candidate = .ok found) (k : K) :
    isAuthorizedKey fmt path file k = scan fmt path k 0 (lines (written file)) := by
  cases file with
  | missing => rfl
  | unreadable e => cases h
  | content text => rfl

lemma exists_of_scan_single (h : scan fmt path candidate idx [l] = .ok true) :
    ∃ parsed, keyOnLine fmt path idx l = .ok (some parsed) ∧ parsed.keyData = candidate := by
  rw [scan] at h
  split at h
  · cases h
  · cases h
  next parsed hparsed =>
    split at h
    next hdata => exact ⟨parsed, hparsed, hdata⟩
    · cases h

lemma keyOnLine_of_scan_single (h : scan fmt path candidate idx [l] = .ok false) :
    keyOnLine fmt path idx l = .ok none ∨
      ∃ parsed, keyOnLine fmt path idx l = .ok (some parsed) ∧ parsed.keyData ≠ candidate := by
  rw [scan] at h
  split at h
  · cases h
  next hnone => exact .inl hnone
  next parsed hparsed =>
    split at h
    · cases h
    next hdata => exact .inr ⟨parsed, hparsed, hdata⟩

lemma scan_lines_of_blank (candidate : K) (idx : ℕ) (hp : '\n' ∉ p) (hblank : trim p = []) :
    scan fmt path candidate idx (lines p) = .ok false := by
  by_cases hnil : p = []
  · rw [hnil]
    rfl
  · have hline : keyOnLine fmt path idx p = .ok none := by
      unfold keyOnLine
      rw [if_pos (.inl hblank)]
    rw [lines_of_not_mem hp hnil, scan, hline]
    rfl

variable (fmt) in
/-- What bootstrapping a key promises of the file it leaves. -/
def Kept (path : Str) (file file' : FileContent Str) (k : K) : Prop :=
  isAuthorizedKey fmt path file' k = .ok true ∧
    ∀ other, isAuthorizedKey fmt path file other = .ok true →
      isAuthorizedKey fmt path file' other = .ok true

variable (fmt) in
/-- The key is there already, or its text begins a line of its own and reads as a key there. -/
def Fits (path : Str) (file : FileContent Str) (k : K) : Prop :=
  isAuthorizedKey fmt path file k = .ok true ∨
    trim (lastPiece '\n' (written file)) = [] ∧ Plain fmt k

/-- On a line of its own, the key is added and none is lost. -/
lemma kept_of_fits (hauthorized : isAuthorizedKey fmt path file key.keyData = .ok false)
    (hblank : trim (lastPiece '\n' (written file)) = []) (hplain : Plain fmt key.keyData) :
    Kept fmt path file (.content (written file ++ toOpenssh fmt key ++ ['\n'])) key.keyData := by
  obtain ⟨ls, tail, more, htail, -, hbefore, hafter⟩ := exists_lines_appended fmt file key
  have hold : ∀ k, isAuthorizedKey fmt path file k = scan fmt path k 0 ls := by
    intro k
    rw [isAuthorizedKey_of_ok hauthorized, hbefore, scan_append]
    split
    next hls => rw [scan_lines_of_blank _ _ (not_mem_lastPiece _ _) hblank, hls]
    · rfl
  have hnew : ∀ k, isAuthorizedKey fmt path
      (.content (written file ++ toOpenssh fmt key ++ ['\n'])) k =
      scan fmt path k 0 (ls ++ stripCr
        (lastPiece '\n' (written file) ++ encoded fmt key.keyData tail) :: lines more) := by
    intro k
    rw [← hafter]
    rfl
  constructor
  · obtain ⟨comment, hkey⟩ :=
      keyOnLine_encoded path (0 + ls.length) (trim_blank hblank) htail.trimEnd hplain
    rw [hnew, scan_append, ← hold, hauthorized]
    rw [scan, hkey]
    exact if_pos rfl
  · intro other hother
    rw [hold] at hother
    rw [hnew, scan_append, hother]

/-- A key that is written after other text on its line is not found there, if that text did not
hold it already. -/
lemma scan_glued {tail : Str} {k : K} (hp : trim p ≠ [])
    (hbefore : scan fmt path k idx [p] = .ok false) :
    scan fmt path k idx [stripCr (p ++ encoded fmt k tail)] ≠ .ok true := by
  intro hfound
  obtain ⟨parsed, hparsed, hdata⟩ := exists_of_scan_single hfound
  obtain ⟨hhash, -, hopenssh⟩ := keyOnLine_some hparsed
  obtain ⟨w, hw, hspaces⟩ := exists_eq_trimEnd_append (trimStart p)
  change _ = trim p ++ w at hw
  rw [trim_stripCr, trim_glued _ _ hp, hw, append_assoc] at hhash hopenssh
  rcases keyOnLine_of_scan_single hbefore with hnone | ⟨other, hother, hdiffers⟩
  · rcases keyOnLine_none hnone with hnil | hcommented
    · exact absurd hnil hp
    · rw [head?_append, hcommented] at hhash
      exact absurd rfl hhash
  · have hsame := fromOpenssh_glued (keyOnLine_some hother).2.2 hspaces hopenssh
    exact absurd (hsame.symm.trans hdata) hdiffers

/-- A key that is found after the append stands on a line of its own. -/
lemma fits_of_authorized (hauthorized : isAuthorizedKey fmt path file key.keyData = .ok false)
    (hcomment : '\n' ∉ key.comment)
    (hfound : isAuthorizedKey fmt path
      (.content (written file ++ toOpenssh fmt key ++ ['\n'])) key.keyData = .ok true) :
    trim (lastPiece '\n' (written file)) = [] ∧ Plain fmt key.keyData := by
  obtain ⟨ls, tail, more, -, hmore, hbefore, hafter⟩ := exists_lines_appended fmt file key
  obtain rfl := hmore hcomment
  rw [isAuthorizedKey_of_ok hauthorized, hbefore, scan_append] at hauthorized
  unfold isAuthorizedKey at hfound
  dsimp only at hfound
  rw [hafter, scan_append] at hfound
  -- none of the complete lines has the key, so the line it was appended to does
  cases hls : scan fmt path key.keyData 0 ls with
  | error e =>
    rw [hls] at hfound
    cases hfound
  | ok inLs =>
    rw [hls] at hauthorized hfound
    cases inLs with
    | true => cases hauthorized
    | false =>
      by_cases hblank : trim (lastPiece '\n' (written file)) = []
      · obtain ⟨parsed, hparsed, -⟩ := exists_of_scan_single hfound
        exact ⟨hblank, plain_of_keyOnLine (trim_blank hblank) hparsed⟩
      · have hne : lastPiece '\n' (written file) ≠ [] := fun h => hblank (by rw [h]; rfl)
        rw [lines_of_not_mem (not_mem_lastPiece _ _) hne] at hauthorized
        exact absurd hfound (scan_glued hblank hauthorized)

lemma appendAuthorizedKey_ok {disk : Option (Str × FileContent Str)} {file' : FileContent Str}
    {r : Bool × Bool} (h : appendAuthorizedKey fmt path disk file key = (.ok r, file')) :
    isAuthorizedKey fmt path file key.keyData = .ok true ∧ file' = file ∨
      isAuthorizedKey fmt path file key.keyData = .ok false ∧
        file' = .content (written file ++ toOpenssh fmt key ++ ['\n']) := by
  unfold appendAuthorizedKey at h
  split at h
  · cases h
  next htrue =>
    cases h
    exact .inl ⟨htrue, rfl⟩
  next hfalse =>
    split at h
    · cases h
    · cases h
      exact .inr ⟨hfalse, rfl⟩

/-- **Bootstrapping**: an append that returns keeps its promise when the key was there already or
its text begins a line of its own; and, for a comment on one line, only then. -/
theorem append_authorized_key_kept_iff {disk : Option (Str × FileContent Str)}
    {file file' : FileContent Str} {key : PublicKey K} {r : Bool × Bool}
    (happend : appendAuthorizedKey fmt path disk file key = (.ok r, file')) :
    (Fits fmt path file key.keyData → Kept fmt path file file' key.keyData) ∧
      ('\n' ∉ key.comment →
        Kept fmt path file file' key.keyData → Fits fmt path file key.keyData) := by
  rcases appendAuthorizedKey_ok happend with ⟨hthere, rfl⟩ | ⟨hmissing, rfl⟩
  · exact ⟨fun _ => ⟨hthere, fun _ h => h⟩, fun _ _ => .inl hthere⟩
  · constructor
    · rintro (hthere | ⟨hblank, hplain⟩)
      · rw [hmissing] at hthere
        cases hthere
      · exact kept_of_fits hmissing hblank hplain
    · intro hcomment hkept
      exact .inr (fits_of_authorized hmissing hcomment hkept.1)

/-! ### A file without a final line feed -/

def segmentCharacters : Str :=
  "ABCDEFGHIJKLMNOPQRSTUVWXYZabcdefghijklmnopqrstuvwxyz0123456789+-/=@."

def twoKeys : KeyFormat Bool where
  isSegment c := segmentCharacters.contains c
  decode a b :=
    if a = "ssh-ed25519" then
      if b = "AAAA" then some false else if b = "BBBB" then some true else none
    else none
  algorithm _ := "ssh-ed25519"
  base64 k := if k then "BBBB" else "AAAA"
  isWhitespace_of_isSegment c hc := by
    have hall : ∀ c ∈ segmentCharacters, (!isWhitespace c) = true :=
      List.all_eq_true.1 (by decide +kernel)
    simpa using hall c (by simpa using hc)
  decode_encode k := by cases k <;> rfl
  isBase64_of_decode a b k h := by
    split at h
    · split at h
      next hb =>
        rw [hb]
        exact List.all_eq_true.1 (by decide)
      · split at h
        next hb =>
          rw [hb]
          exact List.all_eq_true.1 (by decide)
        · cases h
    · cases h
  algorithm_ne_nil _ := by decide
  base64_ne_nil k := by cases k <;> decide
  isSegment_algorithm _ := List.all_eq_true.1 (by decide +kernel)
  isSegment_base64 k := by cases k <;> exact List.all_eq_true.1 (by decide +kernel)
  algorithm_mark _ := ⟨'-', by decide, by decide⟩

/-- After an append to a last line without its line feed, the new key is not authorized and the
key of that line no more. -/
theorem append_after_unterminated_line :
    (appendAuthorizedKey twoKeys [] none (.content "ssh-ed25519 AAAA") ⟨true, []⟩).1 =
        .ok (true, false) ∧
      isAuthorizedKey twoKeys [] (.content "ssh-ed25519 AAAA") false = .ok true ∧
      ∀ k, (isAuthorizedKey twoKeys []
        (appendAuthorizedKey twoKeys [] none (.content "ssh-ed25519 AAAA") ⟨true, []⟩).2
        k) = .error "failed to parse  line 1" := by
  refine ⟨rfl, rfl, fun k => ?_⟩
  cases k <;> rfl

theorem append_authorized_key_kept_terminated :
    Kept twoKeys [] (.content "ssh-ed25519 AAAA\n")
      (.content "ssh-ed25519 AAAA\nssh-ed25519 BBBB\n") true := by
  have happend : appendAuthorizedKey twoKeys [] none (.content "ssh-ed25519 AAAA\n")
      ⟨true, []⟩ =
      (.ok (true, false), .content "ssh-ed25519 AAAA\nssh-ed25519 BBBB\n") := rfl
  exact (append_authorized_key_kept_iff happend).1 (.inr ⟨rfl, by decide, by decide, by decide⟩)

end CrossHostOps.AuthorizedKeys
