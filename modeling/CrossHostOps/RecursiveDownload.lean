import CrossHostOps.RemoteTree
import CrossHostOps.ShellDownload

/-!
`download_recursive` of `daemon/session/shell_copy.rs` on a directory of the remote host. The tree
is read back from the lines of `find`, whose fields are separated by tabs.
-/

namespace CrossHostOps.RecursiveDownload

open Text Utf8 Filepath Frames Hoare Shell ShellDownload RemoteTree List

/-! ### The remote host -/

/-- `find` takes this for a path, and not for the beginning of its expression. -/
def isOperand (root : Str) : Bool :=
  root ≠ [] && root.head? ≠ some '-' && root ≠ ['('] && root ≠ ['!']

/-- A shell of the host where `d` is at `root`: what the commands answer, if they are answered. -/
structure Serves (sh : PtyShell) (q : Quoting) (root : Str) (d : Directory) : Prop where
  find : isOperand root = true → ∀ out code, sh.raw (findCommand root) = .ok (out, code) →
    out = decodeLossy (listing q root d.listed)
  /-- The bytes of a file from `start` on. -/
  read : ∀ e ∈ d.entries, ∀ content, e.kind = .file content true →
    ∀ path, encode path = e.fullPath root → ∀ size start chunks,
      readFrom sh path size start = (chunks, .ok 0) → chunks.flatten = content.drop start
  /-- `base64` fails on a file that cannot be read. -/
  unread : ∀ e ∈ d.entries, ∀ content, e.kind = .file content false →
    ∀ path, encode path = e.fullPath root → ∀ size, (readFrom sh path size 0).2 ≠ .ok 0

def fileGroup (path : Str) (mode size : ℕ) (mtime : ℤ) (start : ℕ) (chunks : List Bytes) :
    List CopyFrame :=
  .beginFile path mode size mtime start :: (chunks.map .fileData ++ [.endFile])

/-- A file begins at its beginning, or where a hint of its path says. -/
def Offered (ledger : ResumeLedger) (path : Str) (start : ℕ) : Prop :=
  start = 0 ∨ ∃ hint, ledger.hint path = some hint ∧ hint.offset = start

/-- The frames of one entry; the content of a file is sent from where it begins. -/
def Delivered (ledger : ResumeLedger) (e : Entry) (group : List CopyFrame) : Prop :=
  ∃ path, encode path = e.path ∧
    match e.kind with
    | .directory => ∃ mode mtime, group = [.beginDirectory path mode mtime]
    | .symlink target => ∃ text, encode text = target ∧ group = [.symlink path text]
    | .file content _ => ∃ mode size mtime start chunks,
      group = fileGroup path mode size mtime start chunks ∧
      chunks.flatten = content.drop start ∧ Offered ledger path start

/-- One group for each entry, in some order, and nothing else. -/
def Faithful (d : Directory) (ledger : ResumeLedger) (frames : List CopyFrame) : Prop :=
  ∃ es groups, es.Perm d.entries ∧ List.Forall₂ (Delivered ledger) es groups ∧
    frames = groups.flatten

/-- Text that a field of the listing can hold. -/
def Unbroken (t : Str) : Prop := '\t' ∉ t ∧ '\n' ∉ t
  deriving Decidable

/-- Bytes that come back from a field as they were. -/
structure PlainText (q : Quoting) (b : Bytes) : Prop where
  isText : IsText b
  unbroken : Unbroken (decodeLossy b)
  printed : shown q.prints (decodeLossy b) = decodeLossy b

/-- A root that is printed in one field. -/
def RegularRoot (root : Str) : Prop := isOperand root = true ∧ Unbroken root
  deriving Decidable

instance (q : Quoting) (b : Bytes) : Decidable (PlainText q b) :=
  decidable_of_iff (encode (decodeLossy b) = b ∧ Unbroken (decodeLossy b) ∧
    shown q.prints (decodeLossy b) = decodeLossy b)
    ⟨fun h => ⟨h.1, h.2.1, h.2.2⟩, fun h => ⟨h.1, h.2, h.3⟩⟩

/-- A directory whose listing can be read back: it has a name, the paths and the targets of links
are text that is printed as it is and has no separators, no target ends in a carriage return, and
nothing is in a directory that cannot be listed. -/
structure Plain (q : Quoting) (root : Str) (d : Directory) : Prop where
  regular : RegularRoot root
  fileName : (PathBuf.ofStr root).fileName.getD [] ≠ []
  printed : shown q.prints root = root
  path : ∀ e ∈ d.entries, PlainText q e.path
  target : ∀ e ∈ d.entries, PlainText q e.target ∧ (decodeLossy e.target).getLast? ≠ some '\r'
  listed : d.listed = d.entries

/-- No file that cannot be read is to be resumed: of `tail … | base64` the exit code is that of
`base64`. -/
def Unhinted (d : Directory) (ledger : ResumeLedger) : Prop :=
  ∀ e ∈ d.entries, ∀ content, e.kind = .file content false →
    ∀ hint, ledger.hint (decodeLossy e.path) = some hint → hint.offset = 0

variable {sh : PtyShell} {q : Quoting} {s s' : Sending} {root : Str} {d : Directory}
  {ledger : ResumeLedger} {e : Entry}

/-! ### What is sent -/

section Sent

lemma send_ok {f : CopyFrame} (h : send f s = .ok () s') :
    s' = { s with sent := s.sent ++ [f] } := by
  rcases Bool.eq_false_or_eq_true s.isOpen with hopen | hopen
  · rw [send_open hopen] at h
    exact (EStateM.Result.ok.inj h).2.symm
  · rw [send_closed hopen] at h
    cases h

lemma offered_hintedStart (l : ResumeLedger) (name : Str) (size : ℕ) (mtime : ℤ) :
    Offered l name (hintedStart l name size mtime) := by
  unfold hintedStart
  cases hhint : l.hint name with
  | none => exact .inl rfl
  | some hint =>
    rw [Option.filter_some]
    split
    · exact .inr ⟨hint, hhint, rfl⟩
    · exact .inl rfl

lemma streamFile_ok {path name : Str} {mode size : ℕ} {mtime : ℤ}
    (h : streamFile sh path name mode size mtime s = .ok () s') :
    ∃ start chunks, readFrom sh path size start = (chunks, .ok 0) ∧ Offered s.ledger name start ∧
      s'.sent = s.sent ++ fileGroup name mode size mtime start chunks ∧
      ∀ other, other ≠ name → s'.ledger.hint other = s.ledger.hint other := by
  cases hopen : s.isOpen with
  | false =>
    rw [streamFile_closed hopen] at h
    cases h
  | true =>
    rw [streamFile_open hopen rfl] at h
    rcases hread : readFrom sh path size (hintedStart s.ledger name size mtime) with
      ⟨chunks, result⟩
    rw [hread] at h
    by_cases hresult : result = .ok 0
    · subst hresult
      have hs' := send_ok h
      refine ⟨_, chunks, hread, offered_hintedStart _ _ _ _, ?_, ?_⟩
      · rw [hs']
        simp [Sending.read, fileGroup]
      · intro other hother
        rw [hs', Sending.read, ResumeLedger.update, ResumeLedger.hint_insert, if_neg hother.symm]
    · rw [finishFile_error hresult] at h
      cases h

end Sent

/-! ### Fields -/

section Fields

/-- Frames that come from fields of lines. -/
def Tidy : CopyFrame → Prop
  | .beginDirectory path _ _ | .beginFile path _ _ _ _ => Unbroken path
  | .symlink path target => Unbroken path ∧ Unbroken target
  | .fileData _ | .endFile | .endOfStream => True

variable {line : Str}

lemma unbroken_field {field : Str} (hline : '\n' ∉ line) (h : field ∈ split '\t' line) :
    Unbroken field :=
  ⟨not_mem_of_mem_split h, fun hmem => hline (mem_of_mem_split h hmem)⟩

/-- The path in the frames, from the field of the path. -/
def relative (root fullPath : Str) : Str :=
  if (PathBuf.ofStr root).fileName.getD [] = [] then fullPath
  else (if root <+: fullPath then fullPath.drop root.length else fullPath).dropWhile (· == '/')

lemma mem_of_mem_relative {field : Str} {x : Char} (h : x ∈ relative root field) : x ∈ field := by
  unfold relative at h
  split at h
  · exact h
  · have hmem := (dropWhile_sublist _).subset h
    split at hmem
    · exact mem_of_mem_drop hmem
    · exact hmem

variable (sh root) in
/-- A line of five fields or more is sent as its type says. -/
lemma downloadLine_fields {ftype mode mtime size fullPath : Str} {rest : List Str}
    (hfields : split '\t' (trimEndMatches '\r' line) =
      ftype :: mode :: mtime :: size :: fullPath :: rest) :
    ∃ m n τ, downloadLine sh root line =
      match ftype.head?.getD 'f' with
      | 'd' => send (.beginDirectory (relative root fullPath) m τ)
      | 'l' => send (.symlink (relative root fullPath) (rest.head?.getD []))
      | _ => streamFile sh fullPath (relative root fullPath) m n τ := by
  have hne : trimEndMatches '\r' line ≠ [] := by
    intro hnil
    rw [hnil] at hfields
    cases hfields
  refine ⟨(parseUnsigned 8 (2 ^ 32) mode).getD 0, (parseU64 size).getD 0,
    ((split '.' mtime).head?.bind parseI64).getD 0, ?_⟩
  unfold downloadLine
  simp only [hne, hfields]
  rfl

lemma downloadLine_short (h : (split '\t' (trimEndMatches '\r' line)).length < 5) :
    downloadLine sh root line = pure () := by
  unfold downloadLine
  dsimp only
  rcases hfields : split '\t' (trimEndMatches '\r' line) with
    _ | ⟨a, _ | ⟨b, _ | ⟨c, _ | ⟨d, _ | ⟨e, rest⟩⟩⟩⟩⟩
  · split <;> rfl
  · split <;> rfl
  · split <;> rfl
  · split <;> rfl
  · split <;> rfl
  · rw [hfields] at h
    simp only [length_cons] at h
    omega

lemma tidy_fileGroup {name : Str} {mode size start : ℕ} {mtime : ℤ} {chunks : List Bytes}
    (h : Unbroken name) :
    ∀ f ∈ fileGroup name mode size mtime start chunks, Tidy f := by
  intro f hf
  rcases mem_cons.1 hf with rfl | hf
  · exact h
  · rcases mem_append.1 hf with hf | hf
    · obtain ⟨data, -, rfl⟩ := mem_map.1 hf
      trivial
    · rw [mem_singleton.1 hf]
      trivial

lemma downloadLine_tidy (hline : '\n' ∉ line) (h : downloadLine sh root line s = .ok () s') :
    ∃ group, s'.sent = s.sent ++ group ∧ ∀ f ∈ group, Tidy f := by
  have hsent : ∀ {f : CopyFrame}, send f s = .ok () s' → Tidy f →
      ∃ group, s'.sent = s.sent ++ group ∧ ∀ f ∈ group, Tidy f := by
    intro f hsend hf
    rw [send_ok hsend]
    exact ⟨[f], rfl, by simpa using hf⟩
  have htrimmed : '\n' ∉ trimEndMatches '\r' line := fun hmem =>
    hline ((List.rdropWhile_prefix _ _).subset hmem)
  rcases Nat.lt_or_ge (split '\t' (trimEndMatches '\r' line)).length 5 with hshort | hlong
  · rw [downloadLine_short hshort] at h
    cases h
    exact ⟨[], (append_nil _).symm, nofun⟩
  · obtain ⟨ftype, mode, mtime, size, fullPath, rest, hfields⟩ :
        ∃ ftype mode mtime size fullPath rest, split '\t' (trimEndMatches '\r' line) =
          ftype :: mode :: mtime :: size :: fullPath :: rest := by
      match split '\t' (trimEndMatches '\r' line), hlong with
      | a :: b :: c :: d :: e :: rest, _ => exact ⟨a, b, c, d, e, rest, rfl⟩
    have hfield : ∀ field ∈ fullPath :: rest, Unbroken field := by
      intro field hmem
      refine unbroken_field htrimmed ?_
      rw [hfields]
      tauto
    have hpath := hfield fullPath mem_cons_self
    have hrelative : Unbroken (relative root fullPath) :=
      ⟨fun hmem => hpath.1 (mem_of_mem_relative hmem),
        fun hmem => hpath.2 (mem_of_mem_relative hmem)⟩
    obtain ⟨m, n, τ, hline⟩ := downloadLine_fields sh root hfields
    rw [hline] at h
    split at h
    · exact hsent h hrelative
    · refine hsent h ⟨hrelative, ?_⟩
      cases rest with
      | nil => exact ⟨not_mem_nil, not_mem_nil⟩
      | cons target rest => exact hfield target (by simp)
    · obtain ⟨start, chunks, -, -, hs', -⟩ := streamFile_ok h
      exact ⟨_, hs', tidy_fileGroup hrelative⟩

lemma downloadLines_tidy {lines : List Str} (hlines : ∀ line ∈ lines, '\n' ∉ line)
    (h : downloadLines sh root lines s = .ok () s') :
    ∃ frames, s'.sent = s.sent ++ frames ∧ ∀ f ∈ frames, Tidy f := by
  induction lines generalizing s with
  | nil =>
    cases h
    exact ⟨[], (append_nil _).symm, nofun⟩
  | cons line lines ih =>
    obtain ⟨⟨⟩, t, hline, hrest⟩ := bind_ok.1 h
    obtain ⟨group, ht, hgroup⟩ := downloadLine_tidy (hlines line mem_cons_self) hline
    obtain ⟨frames, hs', hframes⟩ := ih (fun l hl => hlines l (mem_cons_of_mem _ hl)) hrest
    refine ⟨group ++ frames, ?_, fun f hf => (mem_append.1 hf).elim (hgroup f) (hframes f)⟩
    rw [hs', ht, append_assoc]

end Fields

/-! ### The lines of a plain listing -/

section Lines

lemma unbroken_of_isDigit {t : Str} (h : ∀ c ∈ t, c.isDigit = true) : Unbroken t :=
  ⟨fun hc => absurd (h _ hc) (by decide), fun hc => absurd (h _ hc) (by decide)⟩

lemma unbroken_toDigits {b n : ℕ} (hb : 0 < b) (hb' : b ≤ 10) : Unbroken (Nat.toDigits b n) :=
  unbroken_of_isDigit fun _ hc => Nat.isDigit_of_mem_toDigits hb hb' hc

lemma Unbroken.append {t u : Str} (ht : Unbroken t) (hu : Unbroken u) : Unbroken (t ++ u) :=
  ⟨fun h => (mem_append.1 h).elim ht.1 hu.1, fun h => (mem_append.1 h).elim ht.2 hu.2⟩

lemma unbroken_time (e : Entry) : Unbroken e.time := by
  have hsign : Unbroken (if e.stat.mtime < 0 then ['-'] else []) := by
    split <;> exact ⟨by decide, by decide⟩
  have hfraction : Unbroken ('.' :: e.stat.fraction.map fun d : Fin 10 => Nat.digitChar d.val) := by
    constructor <;>
    · intro h
      rcases mem_cons.1 h with h | h
      · exact absurd h (by decide)
      · obtain ⟨d, -, hd⟩ := mem_map.1 h
        revert hd
        revert d
        decide
  exact (hsign.append (unbroken_toDigits (by decide) (by decide))).append hfraction

lemma unbroken_shown {t : Str} (h : Unbroken t) (prints : Char → Bool) :
    Unbroken (shown prints t) :=
  ⟨fun hmem => h.1 (mem_of_mem_shown (by decide) hmem),
    fun hmem => h.2 (mem_of_mem_shown (by decide) hmem)⟩

lemma unbroken_texts (hfull : Unbroken (e.fullText root))
    (htarget : Unbroken (decodeLossy e.target)) :
    ∀ t ∈ e.texts q root, Unbroken t := by
  have htype : Unbroken [e.typeChar] := by
    unfold Entry.typeChar
    split <;> exact ⟨by decide, by decide⟩
  simp only [Entry.texts, forall_mem_cons]
  exact ⟨htype, unbroken_toDigits (by decide) (by decide), unbroken_time e, unbroken_toDigits (by
    decide) (by decide), unbroken_shown hfull _, unbroken_shown htarget _, forall_mem_nil _⟩

lemma trimEndMatches_stripCr (t : Str) :
    trimEndMatches '\r' (stripCr t) = trimEndMatches '\r' t := by
  unfold stripCr
  split
  next hlast =>
    have ht : t = t.dropLast ++ ['\r'] := (dropLast_append_getLast? _ hlast).symm
    conv_rhs => rw [ht]
    exact (rdropWhile_concat_pos _ _ _ rfl).symm
  · rfl

/-- What is trimmed of a line is trimmed of its last field. -/
lemma trimEndMatches_field (x t : Str) :
    trimEndMatches '\r' (x ++ '\t' :: t) = x ++ '\t' :: trimEndMatches '\r' t := by
  induction t using reverseRecOn with
  | nil => exact rdropWhile_concat_neg _ _ _ (by decide)
  | append_singleton t c ih =>
    by_cases hc : c = '\r'
    · subst hc
      have hcons : x ++ '\t' :: (t ++ ['\r']) = (x ++ '\t' :: t) ++ ['\r'] := by simp
      rw [hcons]
      unfold trimEndMatches at ih ⊢
      rw [rdropWhile_concat_pos _ _ _ rfl, rdropWhile_concat_pos _ _ _ rfl, ih]
    · have hcons : x ++ '\t' :: (t ++ [c]) = (x ++ '\t' :: t) ++ [c] := by simp
      rw [hcons]
      unfold trimEndMatches
      rw [rdropWhile_concat_neg _ _ _ (by simpa using hc),
        rdropWhile_concat_neg _ _ _ (by simpa using hc), hcons]

/-- The fields of a line, as the loop splits it. -/
lemma split_lineText (hfull : Unbroken (e.fullText root))
    (htarget : Unbroken (decodeLossy e.target)) :
    split '\t' (trimEndMatches '\r' (stripCr (e.lineText q root))) =
      [[e.typeChar], Nat.toDigits 8 e.stat.mode, e.time, showNat e.size,
        shown q.prints (e.fullText root),
        trimEndMatches '\r' (shown q.prints (decodeLossy e.target))] := by
  have hlast : ∀ a b c d f t : Str, intercalate ['\t'] [a, b, c, d, f, t] =
      intercalate ['\t'] [a, b, c, d, f] ++ '\t' :: t := by
    intro a b c d f t
    simp
  have htexts := unbroken_texts (q := q) hfull htarget
  simp only [Entry.texts, forall_mem_cons] at htexts
  obtain ⟨ha, hb, hc, hd, hf, ht, -⟩ := htexts
  rw [trimEndMatches_stripCr, Entry.lineText, Entry.texts, hlast, trimEndMatches_field, ← hlast]
  refine splitOn_intercalate _ ?_ (cons_ne_nil _ _)
  simp only [forall_mem_cons]
  refine ⟨ha.1, hb.1, hc.1, hd.1, hf.1, fun hmem => ht.1 ?_, forall_mem_nil _⟩
  exact (List.rdropWhile_prefix _ _).subset hmem

lemma newline_notMem_lineText (hfull : Unbroken (e.fullText root))
    (htarget : Unbroken (decodeLossy e.target)) : '\n' ∉ e.lineText q root := by
  have htexts := unbroken_texts (q := q) hfull htarget
  simp only [Entry.texts, forall_mem_cons] at htexts
  obtain ⟨ha, hb, hc, hd, hf, ht, -⟩ := htexts
  have htype : '\n' ≠ e.typeChar := fun h => ha.2 (h ▸ mem_singleton_self _)
  simp [Entry.lineText, Entry.texts, htype, hb.2, hc.2, hd.2, hf.2, ht.2]

lemma lines_listing {es : List Entry} (h : ∀ e ∈ es, '\n' ∉ e.lineText q root) :
    lines (es.flatMap fun e => e.lineText q root ++ ['\n']) =
      es.map fun e => stripCr (e.lineText q root) := by
  induction es with
  | nil => rfl
  | cons e es ih =>
    rw [flatMap_cons, append_assoc]
    exact (lines_terminated (h e mem_cons_self) _).trans
      (congrArg _ (ih fun e' he' => h e' (mem_cons_of_mem _ he')))

end Lines

/-! ### The frames of an entry -/

section Entries

variable {starts : Str → ℕ → Prop}

lemma unbroken_fullText (hroot : Unbroken root) (hpath : Unbroken (decodeLossy e.path)) :
    Unbroken (e.fullText root) := by
  have hjoint : Unbroken (Entry.joint root) := by
    unfold Entry.joint
    split
    · exact hroot
    · exact hroot.append ⟨by decide, by decide⟩
  unfold Entry.fullText
  split
  · exact hroot
  · exact hjoint.append hpath

lemma dropWhile_slash_path (hinside : Inside e.path) (htext : IsText e.path) :
    (shown q.prints (decodeLossy e.path)).dropWhile (· == '/') =
      shown q.prints (decodeLossy e.path) := by
  cases hpath : decodeLossy e.path with
  | nil => rfl
  | cons c t =>
    refine dropWhile_cons_of_neg fun hc => hinside ?_
    have hmem : '/' ∈ shown q.prints [c] := mem_singleton.2 (eq_of_beq hc).symm
    have hslash : '/' = c := mem_singleton.1 (mem_of_mem_shown (by decide) hmem)
    rw [← show encode (decodeLossy e.path) = e.path from htext, hpath, ← hslash]
    rfl

/-- The path in the frames of an entry. -/
def sentPath (q : Quoting) (root : Str) (e : Entry) : Str :=
  relative root (shown q.prints (e.fullText root))

/-- From a root with a name, the path in the frames is that of the entry. -/
lemma sentPath_eq (hname : (PathBuf.ofStr root).fileName.getD [] ≠ [])
    (hroot : shown q.prints root = root) (hinside : Inside e.path) (htext : IsText e.path) :
    sentPath q root e = shown q.prints (decodeLossy e.path) := by
  have hpath := dropWhile_slash_path (q := q) hinside htext
  unfold sentPath relative Entry.fullText
  rw [if_neg hname]
  split
  next hnil =>
    rw [hroot, if_pos (prefix_refl root), drop_length, hnil]
    rfl
  · unfold Entry.joint
    split
    · rw [shown_append, hroot, if_pos (prefix_append _ _), drop_left, hpath]
    · have hslash : shown q.prints ['/'] = ['/'] := by simp [shown, q.prints_slash]
      rw [shown_append, shown_append, hroot, hslash, append_assoc,
        if_pos (prefix_append _ _), drop_left]
      exact hpath

/-- The frames of the line of an entry; `starts` says where files may begin. -/
def Sends (sh : PtyShell) (q : Quoting) (root : Str) (starts : Str → ℕ → Prop) (e : Entry)
    (group : List CopyFrame) : Prop :=
  match e.kind with
  | .directory => ∃ mode mtime, group = [.beginDirectory (sentPath q root e) mode mtime]
  | .symlink target =>
    group = [.symlink (sentPath q root e)
      (trimEndMatches '\r' (shown q.prints (decodeLossy target)))]
  | .file _ _ => ∃ mode size mtime start chunks,
    group = fileGroup (sentPath q root e) mode size mtime start chunks ∧
    readFrom sh (shown q.prints (e.fullText root)) size start = (chunks, .ok 0) ∧
    starts (sentPath q root e) start

/-- An entry whose line is read back. -/
def Readable (root : Str) (e : Entry) : Prop :=
  Unbroken (e.fullText root) ∧ Unbroken (decodeLossy e.target)

lemma downloadLine_sends (hread : Readable root e)
    (hstarts : ∀ start, Offered s.ledger (sentPath q root e) start →
      starts (sentPath q root e) start)
    (h : downloadLine sh root (stripCr (e.lineText q root)) s = .ok () s') :
    ∃ group, Sends sh q root starts e group ∧ s'.sent = s.sent ++ group ∧
      ∀ other, other ≠ sentPath q root e → s'.ledger.hint other = s.ledger.hint other := by
  obtain ⟨m, n, τ, hline⟩ := downloadLine_fields sh root (split_lineText hread.1 hread.2)
  rw [hline] at h
  obtain ⟨path, stat, kind⟩ := e
  cases kind with
  | directory =>
    have hs' := send_ok h
    exact ⟨_, ⟨m, τ, rfl⟩, by rw [hs']; rfl, fun _ _ => by rw [hs']⟩
  | symlink target =>
    have hs' := send_ok h
    exact ⟨_, rfl, by rw [hs']; rfl, fun _ _ => by rw [hs']⟩
  | file content readable =>
    obtain ⟨start, chunks, hread, hstart, hsent, hledger⟩ := streamFile_ok h
    exact ⟨_, ⟨m, n, τ, start, chunks, rfl, hread, hstarts start hstart⟩, hsent, hledger⟩

/-- The frames of a listing, one group for each line. -/
lemma downloadLines_sends {es : List Entry} (hread : ∀ e ∈ es, Readable root e)
    (hpaths : es.Pairwise fun e e' =>
      sentPath q root e' ≠ sentPath q root e ∨ ∀ start, starts (sentPath q root e') start)
    (hstarts : ∀ e ∈ es, ∀ start, Offered s.ledger (sentPath q root e) start →
      starts (sentPath q root e) start)
    (h : downloadLines sh root (es.map fun e => stripCr (e.lineText q root)) s = .ok () s') :
    ∃ groups, List.Forall₂ (Sends sh q root starts) es groups ∧
      s'.sent = s.sent ++ groups.flatten := by
  induction es generalizing s with
  | nil =>
    cases h
    exact ⟨[], .nil, (append_nil _).symm⟩
  | cons e es ih =>
    obtain ⟨⟨⟩, t, hline, hrest⟩ := bind_ok.1 h
    rw [forall_mem_cons] at hread hstarts
    rw [pairwise_cons] at hpaths
    obtain ⟨group, hgroup, ht, hledger⟩ := downloadLine_sends hread.1 hstarts.1 hline
    -- the line leaves the hints of the paths that follow as they were
    have hlater : ∀ e' ∈ es, ∀ start, Offered t.ledger (sentPath q root e') start →
        starts (sentPath q root e') start := by
      intro e' he' start hoffered
      rcases hpaths.1 e' he' with hne | hany
      · rw [Offered, hledger _ hne] at hoffered
        exact hstarts.2 e' he' start hoffered
      · exact hany start
    obtain ⟨groups, hgroups, hs'⟩ := ih hread.2 hpaths.2 hlater hrest
    refine ⟨group :: groups, .cons hgroup hgroups, ?_⟩
    rw [hs', ht, append_assoc]
    rfl

end Entries

/-! ### Whole downloads -/

section Download

lemma downloadRecursive_ok (hserves : Serves sh q root d) (hroot : isOperand root = true)
    (h : downloadRecursive sh root s = .ok () s') :
    downloadLines sh root (lines (decodeLossy (listing q root d.listed))) s = .ok () s' := by
  obtain ⟨out, t, hout, hlines⟩ := bind_ok.1 h
  cases hraw : sh.raw (findCommand root) with
  | error e =>
    rw [runAndCaptureRaw, hraw] at hout
    cases hout
  | ok answer =>
    obtain ⟨text, code⟩ := answer
    rw [runAndCaptureRaw, hraw] at hout
    cases hout
    rwa [hserves.find hroot _ _ hraw] at hlines

/-- Where the names that are listed are text without separators, each entry has its group. -/
lemma downloadRecursive_sends (starts : Str → ℕ → Prop) (hserves : Serves sh q root d)
    (hroot : RegularRoot root)
    (hpath : ∀ e ∈ d.listed, IsText e.path ∧ Unbroken (decodeLossy e.path))
    (htarget : ∀ e ∈ d.listed, IsText e.target ∧ Unbroken (decodeLossy e.target))
    (hpaths : d.listed.Pairwise fun e e' =>
      sentPath q root e' ≠ sentPath q root e ∨ ∀ start, starts (sentPath q root e') start)
    (hstarts : ∀ e ∈ d.listed, ∀ start, Offered s.ledger (sentPath q root e) start →
      starts (sentPath q root e) start)
    (h : downloadRecursive sh root s = .ok () s') :
    ∃ groups, List.Forall₂ (Sends sh q root starts) d.listed groups ∧
      s'.sent = s.sent ++ groups.flatten := by
  have hread : ∀ e ∈ d.listed, Readable root e := fun e he =>
    ⟨unbroken_fullText hroot.2 (hpath e he).2, (htarget e he).2⟩
  have hlines := downloadRecursive_ok hserves hroot.1 h
  rw [decodeLossy_listing fun e he => ⟨(hpath e he).1, (htarget e he).1⟩,
    lines_listing fun e he => newline_notMem_lineText (hread e he).1 (hread e he).2] at hlines
  exact downloadLines_sends hread hpaths hstarts hlines

lemma Plain.shown_fullText (hplain : Plain q root d) {e : Entry} (he : e ∈ d.entries) :
    shown q.prints (e.fullText root) = e.fullText root := by
  have hjoint : shown q.prints (Entry.joint root) = Entry.joint root := by
    unfold Entry.joint
    split
    · exact hplain.printed
    · rw [shown_append, hplain.printed]
      simp [shown, q.prints_slash]
  unfold Entry.fullText
  split
  · exact hplain.printed
  · rw [shown_append, hjoint, (hplain.path e he).printed]

lemma Plain.sentPath_decode (hplain : Plain q root d) {e : Entry} (he : e ∈ d.entries) :
    sentPath q root e = decodeLossy e.path :=
  (sentPath_eq hplain.fileName hplain.printed (d.inside he) (hplain.path e he).isText).trans
    (hplain.path e he).printed

/-- The frames of a plain entry are those it should have. -/
lemma delivered_of_sends {e : Entry} {group : List CopyFrame} (hserves : Serves sh q root d)
    (hunhinted : Unhinted d ledger) (hplain : Plain q root d) (he : e ∈ d.entries)
    (h : Sends sh q root (Offered ledger) e group) :
    Delivered ledger e group := by
  have hpath := hplain.path e he
  have hencode := encode_fullText root hpath.isText
  have htarget := hplain.target e he
  unfold Sends at h
  rw [hplain.sentPath_decode he, hplain.shown_fullText he] at h
  refine ⟨decodeLossy e.path, hpath.isText, ?_⟩
  cases hkind : e.kind with
  | directory =>
    rw [hkind] at h
    exact h
  | symlink target =>
    rw [hkind] at h
    have heq : e.target = target := by rw [Entry.target, hkind]
    rw [heq] at htarget
    have htrim : trimEndMatches '\r' (decodeLossy target) = decodeLossy target := by
      rw [trimEndMatches, rdropWhile_eq_self_iff]
      intro hne hlast
      refine htarget.2 ?_
      rw [getLast?_eq_getLast_of_ne_nil hne, eq_of_beq hlast]
    have hgroup : group = [.symlink (decodeLossy e.path)
        (trimEndMatches '\r' (shown q.prints (decodeLossy target)))] := h
    rw [htarget.1.printed, htrim] at hgroup
    exact ⟨_, htarget.1.isText, hgroup⟩
  | file content readable =>
    rw [hkind] at h
    obtain ⟨mode, size, mtime, start, chunks, hgroup, hread, hstart⟩ := h
    refine ⟨mode, size, mtime, start, chunks, hgroup, ?_, hstart⟩
    cases readable with
    | true => exact hserves.read e he content hkind _ hencode size start chunks hread
    | false =>
      -- it is read from its beginning, which fails
      have hzero : start = 0 := by
        rcases hstart with hzero | ⟨hint, hhint, rfl⟩
        · exact hzero
        · exact hunhinted e he content hkind hint hhint
      rw [hzero] at hread
      exact absurd (congrArg Prod.snd hread) (hserves.unread e he content hkind _ hencode size)

lemma faithful_of_plain {isOpen : Bool} (hserves : Serves sh q root d)
    (hunhinted : Unhinted d ledger) (hplain : Plain q root d)
    (h : downloadRecursive sh root ⟨isOpen, [], ledger⟩ = .ok () s') :
    Faithful d ledger s'.sent := by
  have hpaths : d.listed.Pairwise fun e e' => sentPath q root e' ≠ sentPath q root e ∨
      ∀ start, Offered ledger (sentPath q root e') start := by
    rw [hplain.listed]
    refine (pairwise_map.1 d.nodup).imp_of_mem fun {e e'} he he' hne => .inl fun heq => hne ?_
    rw [hplain.sentPath_decode he, hplain.sentPath_decode he'] at heq
    exact (hplain.path e he).isText.eq_of_decode (hplain.path e' he').isText heq.symm
  have hpath : ∀ e ∈ d.listed, IsText e.path ∧ Unbroken (decodeLossy e.path) := fun e he =>
    ⟨(hplain.path e (d.mem_entries he)).isText, (hplain.path e (d.mem_entries he)).unbroken⟩
  have htarget : ∀ e ∈ d.listed, IsText e.target ∧ Unbroken (decodeLossy e.target) := fun e he =>
    ⟨(hplain.target e (d.mem_entries he)).1.isText,
      (hplain.target e (d.mem_entries he)).1.unbroken⟩
  obtain ⟨groups, hgroups, hsent⟩ := downloadRecursive_sends (Offered ledger) hserves
    hplain.regular hpath htarget hpaths (fun _ _ _ hoffered => hoffered) h
  rw [hplain.listed] at hgroups
  refine ⟨d.entries, groups, .refl _, ?_, hsent⟩
  have hmem := (forall₂_and_left _ _).2 ⟨fun e (he : e ∈ d.entries) => he, hgroups⟩
  exact hmem.imp fun {e group} hsends =>
    delivered_of_sends hserves hunhinted hplain hsends.1 hsends.2

end Download

/-! ### The other way round -/

section Necessity

variable {group : List CopyFrame}

/-- The path of the entry that a frame begins. -/
def entryPath : CopyFrame → Option Str
  | .beginDirectory path _ _ | .beginFile path _ _ _ _ | .symlink path _ => some path
  | .fileData _ | .endFile | .endOfStream => none

lemma entryPath_fileGroup {path p : Str} {mode size start : ℕ} {mtime : ℤ} {chunks : List Bytes}
    {f : CopyFrame} (hf : f ∈ fileGroup path mode size mtime start chunks)
    (h : entryPath f = some p) : f = .beginFile path mode size mtime start := by
  rcases mem_cons.1 hf with rfl | hf
  · rfl
  · rcases mem_append.1 hf with hf | hf
    · obtain ⟨data, -, rfl⟩ := mem_map.1 hf
      cases h
    · rw [mem_singleton.1 hf] at h
      cases h

/-- A frame names the entry, and of a link also the target. -/
def Names (frames : List CopyFrame) (e : Entry) : Prop :=
  ∃ f ∈ frames, ∃ path, entryPath f = some path ∧ encode path = e.path ∧
    ∀ target, e.kind = .symlink target → ∃ text, encode text = target ∧ f = .symlink path text

lemma Delivered.named (h : Delivered ledger e group) : Names group e := by
  unfold Names
  obtain ⟨path, hpath, h⟩ := h
  cases hkind : e.kind with
  | directory =>
    rw [hkind] at h
    obtain ⟨mode, mtime, rfl⟩ := h
    exact ⟨_, mem_cons_self, path, rfl, hpath, nofun⟩
  | symlink target =>
    rw [hkind] at h
    obtain ⟨text, htext, rfl⟩ := h
    refine ⟨_, mem_cons_self, path, rfl, hpath, fun target' htarget => ⟨text, ?_, rfl⟩⟩
    rw [htext, Kind.symlink.inj htarget]
  | file content readable =>
    rw [hkind] at h
    obtain ⟨mode, size, mtime, start, chunks, rfl, -⟩ := h
    exact ⟨_, mem_cons_self, path, rfl, hpath, nofun⟩

/-- What begins an entry in the frames of a line has the path of that line, and if it is a link the
target of that line. -/
lemma Sends.named {starts : Str → ℕ → Prop} (h : Sends sh q root starts e group) {f : CopyFrame}
    {path : Str} (hf : f ∈ group) (hpath : entryPath f = some path) :
    path = sentPath q root e ∧ ∀ text, f = .symlink path text →
      ∃ target, text = trimEndMatches '\r' (shown q.prints target) := by
  unfold Sends at h
  split at h
  · obtain ⟨mode, mtime, rfl⟩ := h
    rw [mem_singleton.1 hf] at hpath ⊢
    exact ⟨(Option.some.inj hpath).symm, nofun⟩
  next target _ =>
    subst h
    rw [mem_singleton.1 hf] at hpath ⊢
    refine ⟨(Option.some.inj hpath).symm, fun text htext => ⟨decodeLossy target, ?_⟩⟩
    exact (CopyFrame.symlink.inj htext).2.symm
  · obtain ⟨mode, size, mtime, start, chunks, rfl, -⟩ := h
    obtain rfl := entryPath_fileGroup hf hpath
    exact ⟨(Option.some.inj hpath).symm, nofun⟩

lemma exists_of_mem {α β : Type} {R : α → β → Prop} {l : List α} {l' : List β} {a : α}
    (h : List.Forall₂ R l l') (ha : a ∈ l) : ∃ b ∈ l', R a b := by
  induction h with
  | nil => cases ha
  | cons hR _ ih =>
    rcases mem_cons.1 ha with rfl | ha
    · exact ⟨_, mem_cons_self, hR⟩
    · obtain ⟨b, hb, hab⟩ := ih ha
      exact ⟨b, mem_cons_of_mem _ hb, hab⟩

lemma Faithful.named {frames : List CopyFrame} (h : Faithful d ledger frames) (he : e ∈ d.entries) :
    Names frames e := by
  obtain ⟨es, groups, hperm, hgroups, rfl⟩ := h
  obtain ⟨group, hgroup, hdelivered⟩ := exists_of_mem hgroups (hperm.mem_iff.2 he)
  obtain ⟨f, hf, hnamed⟩ := hdelivered.named
  exact ⟨f, mem_flatten.2 ⟨group, hgroup, hf⟩, hnamed⟩

lemma root_prefix_fullText (root : Str) (e : Entry) : root <+: e.fullText root := by
  unfold Entry.fullText Entry.joint
  split
  · exact prefix_refl root
  · split
    · exact prefix_append _ _
    · rw [append_assoc]
      exact prefix_append _ _

/-- Only a root that has a name and is printed as it is gives an empty path. -/
lemma root_shown (hroot : root ≠ []) (h : sentPath q root e = []) :
    (PathBuf.ofStr root).fileName.getD [] ≠ [] ∧ shown q.prints root = root := by
  obtain ⟨rest, hrest⟩ := root_prefix_fullText root e
  have hfull : shown q.prints (e.fullText root) = shown q.prints root ++ shown q.prints rest := by
    rw [← hrest, shown_append]
  have hlength : (shown q.prints root).length = root.length := length_map _
  have hne : shown q.prints root ≠ [] := by simpa [shown] using hroot
  unfold sentPath relative at h
  rw [hfull] at h
  split at h
  · exact absurd (append_eq_nil_iff.1 h).1 hne
  next hname =>
    refine ⟨hname, ?_⟩
    by_contra hshown
    have hprefix : ¬ root <+: shown q.prints root ++ shown q.prints rest := by
      rintro ⟨t, ht⟩
      exact hshown (append_inj ht hlength.symm).1.symm
    rw [if_neg hprefix, dropWhile_eq_nil_iff] at h
    -- all of it is slashes, and those are printed
    have hslash : ∀ c ∈ root, c = '/' := by
      intro c hc
      have hmem : '/' ∈ shown q.prints [c] := by
        have hprinted : (if q.prints c then c else '?') ∈ shown q.prints root :=
          mem_map_of_mem hc
        have := eq_of_beq (h _ (mem_append_left _ hprinted))
        exact mem_singleton.2 this.symm
      exact (mem_singleton.1 (mem_of_mem_shown (by decide) hmem)).symm
    refine hshown ((map_congr_left fun c hc => ?_).trans (map_id root))
    rw [hslash c hc, q.prints_slash]
    rfl

lemma getLast?_trimEndMatches (t : Str) : (trimEndMatches '\r' t).getLast? ≠ some '\r' := by
  intro hlast
  have hne : trimEndMatches '\r' t ≠ [] := by
    intro hnil
    rw [hnil] at hlast
    cases hlast
  rw [getLast?_eq_getLast_of_ne_nil hne] at hlast
  exact rdropWhile_last_not _ _ hne (beq_of_eq (Option.some.inj hlast))

variable (hserves : Serves sh q root d) (hroot : RegularRoot root) (hsent : s.sent = [])
  (h : downloadRecursive sh root s = .ok () s') (hfaithful : Faithful d ledger s'.sent)

include hserves hroot hsent h hfaithful

/-- The frames of a download begin no entry that has a separator in its path or target. -/
lemma text_of_faithful (he : e ∈ d.entries) :
    (IsText e.path ∧ Unbroken (decodeLossy e.path)) ∧
      IsText e.target ∧ Unbroken (decodeLossy e.target) := by
  obtain ⟨frames, hframes, htidy⟩ := downloadLines_tidy (fun _ hl => not_mem_of_mem_lines hl)
    (downloadRecursive_ok hserves hroot.1 h)
  rw [hsent] at hframes
  obtain ⟨f, hf, path, hpath, hencode, htarget⟩ := hfaithful.named he
  rw [hframes] at hf
  have htext : ∀ {t : Str} {b : Bytes}, encode t = b → Unbroken t →
      IsText b ∧ Unbroken (decodeLossy b) := by
    rintro t - rfl ht
    rw [IsText, decodeLossy_encode]
    exact ⟨rfl, ht⟩
  have hunbroken : Unbroken path := by
    have hf := htidy f hf
    cases f with
    | beginDirectory | beginFile =>
      cases hpath
      exact hf
    | symlink =>
      cases hpath
      exact hf.1
    | fileData | endFile | endOfStream => cases hpath
  refine ⟨htext hencode hunbroken, ?_⟩
  unfold Entry.target
  split
  next target hkind =>
    obtain ⟨text, hlink, rfl⟩ := htarget target hkind
    exact htext hlink (htidy _ hf).2
  · exact ⟨rfl, not_mem_nil, not_mem_nil⟩

/-- Every entry is named by the line of one that is listed. -/
lemma listed_of_faithful (he : e ∈ d.entries) :
    ∃ e' ∈ d.listed, sentPath q root e' = decodeLossy e.path ∧
      ∃ target, decodeLossy e.target = trimEndMatches '\r' (shown q.prints target) := by
  have htext : ∀ e ∈ d.listed, _ := fun e he =>
    text_of_faithful hserves hroot hsent h hfaithful (d.mem_entries he)
  obtain ⟨groups, hgroups, hs'⟩ := downloadRecursive_sends (fun _ _ => True) hserves hroot
    (fun e he => (htext e he).1) (fun e he => (htext e he).2)
    (pairwise_of_forall fun _ _ => .inr fun _ => trivial) (fun _ _ _ _ => trivial) h
  rw [hsent] at hs'
  obtain ⟨f, hf, path, hpath, hencode, htarget⟩ := hfaithful.named he
  rw [hs'] at hf
  obtain ⟨group, hgroup, hf⟩ := mem_flatten.1 hf
  obtain ⟨e', he', hsends⟩ : ∃ e' ∈ d.listed, Sends sh q root (fun _ _ => True) e' group :=
    exists_of_mem hgroups.flip hgroup
  obtain ⟨rfl, hlink⟩ := hsends.named hf hpath
  refine ⟨e', he', ?_, ?_⟩
  · rw [← hencode, decodeLossy_encode]
  · unfold Entry.target
    split
    next target hkind =>
      obtain ⟨text, htarget, hframe⟩ := htarget target hkind
      rw [← htarget, decodeLossy_encode]
      exact hlink text hframe
    · exact ⟨[], rfl⟩

lemma plain_of_faithful : Plain q root d := by
  have htext := fun e he => text_of_faithful (e := e) hserves hroot hsent h hfaithful he
  have hlisted := fun e he => listed_of_faithful (e := e) hserves hroot hsent h hfaithful he
  obtain ⟨hname, hshown⟩ : (PathBuf.ofStr root).fileName.getD [] ≠ [] ∧
      shown q.prints root = root := by
    obtain ⟨e', -, hempty, -⟩ := hlisted _ (d.mem_entries d.root_listed)
    have hne : root ≠ [] := by
      rintro rfl
      exact absurd hroot.1 (by decide)
    exact root_shown hne hempty
  -- the path of an entry is that of a listed one as it is printed
  have hpath : ∀ e ∈ d.entries, ∃ e' ∈ d.listed,
      decodeLossy e.path = shown q.prints (decodeLossy e'.path) := by
    intro e he
    obtain ⟨e', he', hpath, -⟩ := hlisted e he
    have hmem := d.mem_entries he'
    rw [← hpath, sentPath_eq hname hshown (d.inside hmem) (htext e' hmem).1.1]
    exact ⟨e', he', rfl⟩
  have hprinted : ∀ e ∈ d.entries, shown q.prints (decodeLossy e.path) = decodeLossy e.path := by
    intro e he
    obtain ⟨e', -, hpath⟩ := hpath e he
    rw [hpath]
    exact shown_of_mem fun _ hc => hc
  refine ⟨hroot, hname, hshown, fun e he => ?_, fun e he => ?_, d.listed_eq fun e he => ?_⟩
  · exact ⟨(htext e he).1.1, (htext e he).1.2, hprinted e he⟩
  · obtain ⟨-, -, -, target, htarget⟩ := hlisted e he
    refine ⟨⟨(htext e he).2.1, (htext e he).2.2, ?_⟩, ?_⟩
    · rw [htarget]
      exact shown_of_mem fun _ hc => (List.rdropWhile_prefix _ _).subset hc
    · rw [htarget]
      exact getLast?_trimEndMatches _
  · obtain ⟨e', he', hpath⟩ := hpath e he
    have hmem := d.mem_entries he'
    rw [hprinted e' hmem] at hpath
    have heq : e'.path = e.path := (htext e' hmem).1.1.eq_of_decode (htext e he).1.1 hpath.symm
    rwa [← d.eq_of_path hmem he heq]

end Necessity

/-- A recursive download that succeeds is faithful exactly if the listing can be read back, at a
root that is one field of it. -/
theorem recursive_download_faithful_iff {sh : PtyShell} {q : Quoting} {root : Str} {d : Directory}
    {ledger : ResumeLedger} {isOpen : Bool} {s' : Sending} (hserves : Serves sh q root d)
    (hok : downloadRecursive sh root ⟨isOpen, [], ledger⟩ = .ok () s') :
    (Plain q root d → Unhinted d ledger → Faithful d ledger s'.sent) ∧
      (RegularRoot root → Faithful d ledger s'.sent → Plain q root d) :=
  ⟨fun hplain hunhinted => faithful_of_plain hserves hunhinted hplain hok,
    fun hroot hfaithful => plain_of_faithful hserves hroot rfl hok hfaithful⟩

/-! ### Three directories -/

def asIs : Quoting := ⟨id, fun _ => true, rfl, fun t => by simp [shown]⟩

/-- Names on a terminal that prints ASCII. -/
def onTerminal : Quoting where
  quote b := encode (shown (fun c => decide (0x20 ≤ c.toNat ∧ c.toNat < 0x7f)) (decodeLossy b))
  prints c := decide (0x20 ≤ c.toNat ∧ c.toNat < 0x7f)
  prints_slash := rfl
  quote_encode t := by rw [decodeLossy_encode]

/-- A host that answers the listing of `d`, and reads as `read` says. -/
def host (q : Quoting) (root : Str) (d : Directory) (code : ℤ)
    (read : Str → List Bytes × Except Str ℤ) : PtyShell where
  plain _ := .error "not asked"
  raw command :=
    if command = findCommand root then .ok (decodeLossy (listing q root d.listed), code)
    else .error "not asked"
  rawB64 command _ := read command

lemma serves_host {q : Quoting} {root : Str} {d : Directory} {code : ℤ}
    {read : Str → List Bytes × Except Str ℤ}
    (hread : ∀ e ∈ d.entries, ∀ content readable, e.kind = .file content readable →
      ∀ path, encode path = e.fullPath root → ∀ start chunks,
        read (base64ReadCommand path start) = (chunks, .ok 0) →
          readable = true ∧ chunks.flatten = content.drop start) :
    Serves (host q root d code read) q root d where
  find _ out _ h := by
    have hanswer : (host q root d code read).raw (findCommand root) =
        .ok (decodeLossy (listing q root d.listed), code) := if_pos rfl
    rw [hanswer] at h
    cases h
    rfl
  read e he content hkind path hpath _ start chunks h :=
    (hread e he content true hkind path hpath start chunks h).2
  unread e he content hkind path hpath size h := by
    have hanswer : read (base64ReadCommand path 0) =
        ((read (base64ReadCommand path 0)).1, .ok 0) := Prod.ext rfl h
    exact absurd (hread e he content false hkind path hpath 0 _ hanswer).1 (by decide)

def remotePath : Str := "/x"

def commonStat : Stat := ⟨0o755, 0, [0], 0⟩

def noHints : ResumeLedger := ⟨[], List.nodup_nil⟩

/-- A file, and a link to it. -/
def linked : Directory where
  stat := commonStat
  listable := true
  children := .cons (encode "a") (.file commonStat (encode "hi") true)
    (.cons (encode "b") (.symlink commonStat (encode "a")) .nil)
  named := by
    simp only [Children.Named, Node.Named, IsName, true_and, and_true]
    decide
  nodup := by decide +kernel

def linkedHost : PtyShell :=
  host onTerminal remotePath linked 0 fun command =>
    if command = base64ReadCommand "/x/a" 0 then ([encode "hi"], .ok 0)
    else ([], .error "not asked")

lemma serves_linkedHost : Serves linkedHost onTerminal remotePath linked := by
  refine serves_host fun e he content readable hkind path hpath start chunks h => ?_
  have hfile : e = ⟨encode "a", commonStat, .file (encode "hi") true⟩ := by
    simp only [Directory.entries, Directory.root, linked, Node.entries, Children.entries,
      Bool.true_or, if_true, cons_append, nil_append, mem_cons, not_mem_nil, or_false] at he
    rcases he with rfl | rfl | rfl
    · cases hkind
    · rfl
    · cases hkind
  subst hfile
  obtain ⟨rfl, rfl⟩ := Kind.file.inj hkind
  have hpath : path = "/x/a" := by
    rw [← decodeLossy_encode path, hpath]
    decide +kernel
  subst hpath
  by_cases hstart : start = 0
  · subst hstart
    cases h
    exact ⟨rfl, rfl⟩
  · have hother : base64ReadCommand "/x/a" start ≠ base64ReadCommand "/x/a" 0 := by
      intro heq
      rw [base64ReadCommand, if_pos (Nat.pos_of_ne_zero hstart)] at heq
      exact absurd (List.cons.inj heq).1 (by decide)
    rw [if_neg hother] at h
    cases h

def linkedFrames : List CopyFrame :=
  [.beginDirectory [] 0o755 0,
    .beginFile "a" 0o755 2 0 0, .fileData (encode "hi"), .endFile,
    .symlink "b" "a"]

theorem recursive_download_faithful_linked :
    downloadRecursive linkedHost remotePath ⟨true, [], noHints⟩ =
      .ok () ⟨true, linkedFrames, noHints.update "a" 2 2 0⟩ ∧
    Faithful linked noHints linkedFrames := by
  have hok : downloadRecursive linkedHost remotePath ⟨true, [], noHints⟩ =
      .ok () ⟨true, linkedFrames, noHints.update "a" 2 2 0⟩ := rfl
  have hplain : Plain onTerminal remotePath linked :=
    ⟨by decide +kernel, by decide +kernel, by decide +kernel, by decide +kernel, by decide +kernel,
      rfl⟩
  exact ⟨hok, (recursive_download_faithful_iff serves_linkedHost hok).1 hplain nofun⟩

/-- A directory in it has a tab in its name. -/
def tabbed : Directory where
  stat := commonStat
  listable := true
  children := .cons (encode "a\tb") (.directory commonStat true .nil) .nil
  named := by
    simp only [Children.Named, Node.Named, IsName, and_true]
    decide
  nodup := by decide +kernel

/-- A directory in it cannot be listed. -/
def locked : Directory where
  stat := commonStat
  listable := true
  children := .cons (encode "a")
    (.directory commonStat false
      (.cons (encode "b") (.directory commonStat true .nil) .nil)) .nil
  named := by
    simp only [Children.Named, Node.Named, IsName, and_true]
    decide
  nodup := by decide +kernel

def unread (_ : Str) : List Bytes × Except Str ℤ := ([], .error "not asked")

lemma not_faithful {d : Directory} {ledger : ResumeLedger} {frames : List CopyFrame} {e : Entry}
    (he : e ∈ d.entries) (h : ∀ f ∈ frames, (entryPath f).map encode ≠ some e.path) :
    ¬ Faithful d ledger frames := by
  intro hfaithful
  obtain ⟨f, hf, path, hpath, hencode, -⟩ := hfaithful.named he
  refine h f hf ?_
  rw [hpath, Option.map_some, hencode]

/-- The download of `d` sends `frames` and returns, and they are not those of `d`. -/
def Loses (q : Quoting) (d : Directory) (code : ℤ) (frames : List CopyFrame) : Prop :=
  Serves (host q remotePath d code unread) q remotePath d ∧
    downloadRecursive (host q remotePath d code unread) remotePath ⟨true, [], noHints⟩ =
      .ok () ⟨true, frames, noHints⟩ ∧
    ¬ Faithful d noHints frames

/-- The name is cut at the tab, or has a question mark there on a terminal. What is in the directory
that cannot be listed is left out, though `find` exits with 1. -/
theorem recursive_download_unfaithful :
    Loses asIs tabbed 0
      [.beginDirectory [] 0o755 0, .beginDirectory "a" 0o755 0] ∧
    Loses onTerminal tabbed 0
      [.beginDirectory [] 0o755 0, .beginDirectory "a?b" 0o755 0] ∧
    Loses onTerminal locked 1
      [.beginDirectory [] 0o755 0, .beginDirectory "a" 0o755 0] := by
  have htabbed : ⟨encode "a\tb", commonStat, .directory⟩ ∈ tabbed.entries :=
    mem_cons_of_mem _ mem_cons_self
  have hlocked : ⟨encode "a/b", commonStat, .directory⟩ ∈ locked.entries :=
    mem_cons_of_mem _ (mem_cons_of_mem _ mem_cons_self)
  refine ⟨⟨serves_host nofun, rfl, ?_⟩, ⟨serves_host nofun, rfl, ?_⟩, serves_host nofun, rfl, ?_⟩
  · exact not_faithful htabbed (by decide +kernel)
  · exact not_faithful htabbed (by decide +kernel)
  · exact not_faithful hlocked (by decide +kernel)

end CrossHostOps.RecursiveDownload
