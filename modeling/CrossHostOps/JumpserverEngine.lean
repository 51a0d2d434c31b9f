import CrossHostOps.Text
import CrossHostOps.Utf8

/-!
How `daemon/jumpserver_engine.rs` reads what a bastion shows: prompts, asset tables and page
numbers, in text from which the escape sequences have been taken.
-/

namespace CrossHostOps.JumpserverEngine

open Text

inductive EngineError
  /-- The panic of a slice that begins between the bytes of a character. -/
  | notACharBoundary
  | manyMatches (ip : Str) (count : ℕ)
  deriving DecidableEq

/-! ### Escape sequences -/

def esc : Char := Char.ofNat 0x1B
def bel : Char := Char.ofNat 0x07

/-- Where `strip_ansi` stands: in text, behind an escape character, inside a control sequence or
inside an operating system command. -/
inductive AnsiMode
  | text
  | escape
  | control
  | command
  /-- Behind an escape character inside a command. -/
  | commandEscape

/-- `strip_ansi` steps over one byte behind an escape character, and panics when that byte is not
a whole character. -/
def stripAnsiFrom : AnsiMode → Str → Except EngineError Str
  | _, [] => .ok []
  | .text, c :: s =>
    if c = esc then stripAnsiFrom .escape s else (stripAnsiFrom .text s).map (c :: ·)
  | .escape, c :: s =>
    if c = '[' then stripAnsiFrom .control s
    else if c = ']' then stripAnsiFrom .command s
    else if c.toNat < 128 then stripAnsiFrom .text s
    else .error .notACharBoundary
  | .control, c :: s =>
    if 0x40 ≤ c.toNat ∧ c.toNat ≤ 0x7E then stripAnsiFrom .text s else stripAnsiFrom .control s
  | .command, c :: s =>
    if c = bel then stripAnsiFrom .text s
    else if c = esc then stripAnsiFrom .commandEscape s
    else stripAnsiFrom .command s
  | .commandEscape, c :: s =>
    if c = '\\' ∨ c = bel then stripAnsiFrom .text s
    else if c = esc then stripAnsiFrom .commandEscape s
    else stripAnsiFrom .command s

def stripAnsi (input : Str) : Except EngineError Str := stripAnsiFrom .text input

/-! ### Prompts -/

def menuPrompt : Str := "Opt"
def mfaPrompt : Str := "MFA"
def pagePrompt : Str := "上一页"
def shellPromptSuffixes : List Str := ["$ ", "# "]

def looksLikePrompt (buffer : Bytes) : Bool :=
  let tail := trimEndMatches '\r' (lastPiece '\n' (Utf8.decodeLossy buffer))
  shellPromptSuffixes.any fun suffix => decide (suffix <:+ tail)

section Prompt

variable {b : UInt8}

lemma char_of_ascii (hb : b < 0x80) (hspace : b ≠ 0x20) (hcr : b ≠ 0x0D) :
    Char.ofNat b.toNat ≠ ' ' ∧ Char.ofNat b.toNat ≠ '\r' := by
  have hall : ∀ n < 128, n ≠ 32 → n ≠ 13 → Char.ofNat n ≠ ' ' ∧ Char.ofNat n ≠ '\r' := by decide
  refine hall b.toNat (UInt8.lt_iff_toNat_lt.1 hb) (fun h => hspace ?_) fun h => hcr ?_
  · exact UInt8.toNat_inj.1 h
  · exact UInt8.toNat_inj.1 h

lemma decodeLossy_concat (hb : b < 0x80) (x : Bytes) :
    Utf8.decodeLossy (x ++ [b]) = Utf8.decodeLossy x ++ [Char.ofNat b.toNat] := by
  rw [Utf8.decodeLossy_append hb, Utf8.decodeLossy_cons hb]
  rfl

lemma not_prompt_line {c : Char} (hspace : c ≠ ' ') (hcr : c ≠ '\r') (s : Str) :
    (shellPromptSuffixes.any fun suffix =>
      decide (suffix <:+ trimEndMatches '\r' (lastPiece '\n' (s ++ [c])))) = false := by
  by_cases hc : c = '\n'
  · subst hc
    simp [lastPiece, trimEndMatches, shellPromptSuffixes]
  · have hline : trimEndMatches '\r' (lastPiece '\n' (s ++ [c])) = lastPiece '\n' s ++ [c] := by
      rw [lastPiece, List.rtakeWhile_concat_pos _ _ _ (by simpa using hc), trimEndMatches,
        List.rdropWhile_concat_neg _ _ _ (by simpa using hcr)]
      rfl
    have hlast : ∀ d : Char, ¬ [d, ' '] <:+ lastPiece '\n' s ++ [c] := by
      rintro d ⟨t, ht⟩
      have hend := congrArg List.getLast? ht
      simp only [List.getLast?_append, List.getLast?_cons_cons, List.getLast?_singleton,
        Option.some_or, Option.some.injEq] at hend
      exact hspace hend.symm
    have hsuffixes : shellPromptSuffixes = [['$', ' '], ['#', ' ']] := rfl
    rw [hline, hsuffixes]
    simp [hlast]

/-- What ends in a visible character, or in the end of a line, is no prompt. -/
lemma not_prompt_concat (hb : b < 0x80) (hspace : b ≠ 0x20) (hcr : b ≠ 0x0D) (x : Bytes) :
    looksLikePrompt (x ++ [b]) = false := by
  obtain ⟨hspace', hcr'⟩ := char_of_ascii hb hspace hcr
  rw [looksLikePrompt, decodeLossy_concat hb]
  exact not_prompt_line hspace' hcr' _

lemma not_prompt_concat_cr (hb : b < 0x80) (hspace : b ≠ 0x20) (hcr : b ≠ 0x0D) (x : Bytes) :
    looksLikePrompt (x ++ [b, 0x0D]) = false := by
  obtain ⟨hspace', hcr'⟩ := char_of_ascii hb hspace hcr
  have hsplit : x ++ [b, 0x0D] = x ++ [b] ++ [0x0D] := by simp
  have htrim : ∀ s : Str, trimEndMatches '\r' (lastPiece '\n' (s ++ ['\r'])) =
      trimEndMatches '\r' (lastPiece '\n' s) := by
    intro s
    rw [lastPiece, List.rtakeWhile_concat_pos _ _ _ (by decide), trimEndMatches,
      List.rdropWhile_concat_pos _ _ _ (by decide)]
    rfl
  have hchar : Char.ofNat (0x0D : UInt8).toNat = '\r' := rfl
  rw [looksLikePrompt, hsplit, decodeLossy_concat (by decide), decodeLossy_concat hb, hchar, htrim]
  exact not_prompt_line hspace' hcr' _

lemma prompt_of_suffix {d : UInt8} (hd : d = 0x24 ∨ d = 0x23) (x : Bytes) :
    looksLikePrompt (x ++ [d, 0x20]) = true := by
  have hascii : d < 0x80 := by rcases hd with rfl | rfl <;> decide
  have hsplit : x ++ [d, 0x20] = x ++ [d] ++ [0x20] := by simp
  have hline : trimEndMatches '\r' (lastPiece '\n' (Utf8.decodeLossy x ++ [Char.ofNat d.toNat] ++
      [' '])) = lastPiece '\n' (Utf8.decodeLossy x) ++ [Char.ofNat d.toNat] ++ [' '] := by
    rw [lastPiece, List.rtakeWhile_concat_pos _ _ _ (by decide),
      List.rtakeWhile_concat_pos _ _ _ (by rcases hd with rfl | rfl <;> decide), trimEndMatches,
      List.rdropWhile_concat_neg _ _ _ (by decide)]
    rfl
  have hchar : Char.ofNat (0x20 : UInt8).toNat = ' ' := rfl
  have hsuffixes : shellPromptSuffixes = [['$', ' '], ['#', ' ']] := rfl
  rw [looksLikePrompt, hsplit, decodeLossy_concat (by decide), decodeLossy_concat hascii, hchar,
    hline, hsuffixes]
  rcases hd with rfl | rfl <;> simp

end Prompt

def containsMfaPrompt (text : Str) : Except EngineError Bool :=
  (stripAnsi text).map (contains mfaPrompt)

def containsMenuPrompt (text : Str) : Except EngineError Bool :=
  (stripAnsi text).map (contains menuPrompt)

def isPagePrompt (clean : Str) : Bool :=
  contains pagePrompt clean && (trimEnd clean).getLast? == some ':'

def containsPagePrompt (text : Str) : Except EngineError Bool := (stripAnsi text).map isPagePrompt

/-! ### Asset tables -/

structure JumpserverAssetRow where
  id : Str
  ip : Str
  deriving DecidableEq

def looksLikeIpv4 (value : Str) : Bool :=
  let parts := split '.' value
  parts.length == 4 && parts.all fun part => part ≠ [] && part.all Char.isDigit

/-- A table line; an empty id passes as digits. -/
def parseAssetRow (line : Str) : Option JumpserverAssetRow :=
  match (split '|' line).map trim with
  | id :: _ :: ip :: _ =>
    if id.all Char.isDigit ∧ looksLikeIpv4 ip then some ⟨id, ip⟩ else none
  | _ => none

/-- The rows of a text without escape sequences. -/
def assetRows (clean : Str) : List JumpserverAssetRow := (lines clean).filterMap parseAssetRow

def parseAssetRows (text : Str) : Except EngineError (List JumpserverAssetRow) :=
  (stripAnsi text).map assetRows

def selectExactAssetId (text ip : Str) : Except EngineError (Option Str) := do
  match (← parseAssetRows text).filter (·.ip = ip) with
  | [] => pure none
  | [row] => pure (some row.id)
  | rows => throw (.manyMatches ip rows.length)

structure PageStatus where
  current : ℕ
  total : ℕ

/-- `split_once`, what comes behind. -/
def behind (pat : Str) : Str → Option Str
  | [] => if pat = [] then some [] else none
  | c :: s => if pat <+: c :: s then some ((c :: s).drop pat.length) else behind pat s

/-- The first run of digits, as a `u32`. -/
def firstNumber (s : Str) : Option ℕ :=
  parseUnsigned 10 (2 ^ 32) ((s.dropWhile fun c => !c.isDigit).takeWhile Char.isDigit)

def pageStatus (clean : Str) : Option PageStatus := do
  let current ← firstNumber (← behind "页码：" clean)
  let total ← firstNumber (← behind "总页数：" clean)
  return ⟨current, total⟩

def parsePageStatus (text : Str) : Except EngineError (Option PageStatus) :=
  (stripAnsi text).map pageStatus

/-- `derive_target_ip` of `resolver.rs`: the address at the end of a name such as
`foo-192-0-2-163`. -/
def deriveTargetIp (input : Str) : Str :=
  let parts := split '-' input
  let tail := parts.drop (parts.length - 4)
  if 4 ≤ parts.length ∧ tail.all fun segment => segment.all Char.isDigit then
    List.intercalate ['.'] tail
  else input

example : deriveTargetIp "foo-192-0-2-163" = "192.0.2.163" := by decide +kernel

end CrossHostOps.JumpserverEngine
