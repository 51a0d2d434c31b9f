import CrossHostOps.Text

/-!
The `--` between the target and the command of `xho exec`. The parser of the command line takes it
away, so `detect_double_dash_separator` looks for it in the words themselves. The grammar is that of
`cli/args.rs`: the options of the program, the word `exec`, its options, the target and the rest.
-/

namespace CrossHostOps.ExecSeparator

open Text

def execWord : Str := "exec"

def separator : Str := "--"

/-- `detect_double_dash_separator`, on the words of the command line with the program's name. -/
def detectDoubleDashSeparator (rawArgs : List Str) (target : Str) : Bool :=
  let afterExec := (rawArgs.dropWhile (· ≠ execWord)).tail
  let afterTarget := (afterExec.dropWhile (· ≠ target)).tail
  afterTarget.head? = some separator

/-! ### The grammar -/

inductive CliOption
  | output | yes
  | tty | noTty | stdin | noStdin | timeout | shell | noShell
  deriving DecidableEq

/-- The long options of a command with whether they take a value, and the short ones. -/
structure Options where
  long : List (Str × CliOption × Bool)
  short : Char → Option CliOption

def programOptions : Options where
  long := [("--output", .output, true), ("--yes", .yes, false)]
  short c := if c = 'y' then some .yes else none

def execOptions : Options where
  long := [("--tty", .tty, false), ("--no-tty", .noTty, false),
    ("--stdin", .stdin, false), ("--no-stdin", .noStdin, false),
    ("--timeout", .timeout, true), ("--shell", .shell, true),
    ("--no-shell", .noShell, false)]
  short c := if c = 't' then some .tty else if c = 'i' then some .stdin else none

inductive Token
  | flags (options : List CliOption)
  | assigned (option : CliOption) (value : Str)
  | awaiting (option : CliOption)
  | escape
  | positional
  | unknown

def hyphenated (word : Str) : Prop := word.head? = some '-' ∧ word ≠ "-"
  deriving Decidable

def Options.read (options : Options) (word : Str) : Token :=
  if word = separator then .escape
  else if separator <+: word then
    match options.long.lookup (word.takeWhile (· ≠ '=')), word.dropWhile (· ≠ '=') with
    | some (option, true), [] => .awaiting option
    | some (option, true), _ :: value => .assigned option value
    | some (option, false), [] => .flags [option]
    | _, _ => .unknown
  else if hyphenated word then ((word.tail.mapM options.short).map .flags).getD .unknown
  else .positional

/-- The options with their values, the words up to the first positional one, that one, and the
rest. -/
structure Scan where
  given : List (CliOption × Str)
  before : List Str
  positional : Str
  after : List Str

def Scan.push (words : List Str) (given : List (CliOption × Str)) (s : Scan) : Scan :=
  { s with given := given ++ s.given, before := words ++ s.before }

def Options.scan (options : Options) : List Str → Option Scan
  | [] => none
  | word :: rest =>
    match options.read word, rest with
    | .positional, rest => some ⟨[], [], word, rest⟩
    | .escape, target :: after => some ⟨[], [word], target, after⟩
    | .flags given, rest => (options.scan rest).map (.push [word] (given.map (·, [])))
    | .assigned option value, rest => (options.scan rest).map (.push [word] [(option, value)])
    | .awaiting option, value :: rest =>
      if hyphenated value then none
      else (options.scan rest).map (.push [word, value] [(option, value)])
    | _, _ => none

/-- No option is given twice, nor with one that it conflicts with. -/
def compatible (given : List (CliOption × Str)) : Prop :=
  (given.map Prod.fst).Nodup ∧
    ∀ pair ∈ [(.tty, .noTty), (.stdin, .noStdin), (.noShell, .shell)],
      pair.1 ∉ given.map Prod.fst ∨ pair.2 ∉ given.map Prod.fst

instance (given : List (CliOption × Str)) : Decidable (compatible given) :=
  inferInstanceAs (Decidable (_ ∧ _))

/-- The words up to the target, the target, and the words behind it. -/
def parseExec : List Str → Option (List Str × Str × List Str)
  | [] => none
  | program :: words => do
    let outer ← programOptions.scan words
    let inner ← execOptions.scan outer.after
    if compatible outer.given ∧
        (∀ g ∈ outer.given, g.1 = .output → g.2 = "text" ∨ g.2 = "json") ∧
        -- behind a separator `exec` would be no command
        separator ∉ outer.before ∧ outer.positional = execWord ∧ compatible inner.given then
      some (program :: outer.before ++ execWord :: inner.before, inner.positional, inner.after)
    else none

lemma Options.scan_eq {options : Options} {words : List Str} {s : Scan}
    (h : options.scan words = some s) : words = s.before ++ s.positional :: s.after := by
  fun_induction Options.scan options words generalizing s with
  | case1 => cases h
  | case2 word rest hread =>
    cases h
    rfl
  | case3 word target after hread =>
    cases h
    rfl
  | case4 word given rest hread ih =>
    obtain ⟨s, hs, rfl⟩ := Option.map_eq_some_iff.1 h
    rw [ih hs]
    rfl
  | case5 word option value rest hread ih =>
    obtain ⟨s, hs, rfl⟩ := Option.map_eq_some_iff.1 h
    rw [ih hs]
    rfl
  | case6 => cases h
  | case7 word option value rest hread hvalue ih =>
    obtain ⟨s, hs, rfl⟩ := Option.map_eq_some_iff.1 h
    rw [ih hs]
    rfl
  | case8 => cases h

variable {rawArgs before after : List Str} {target : Str}

lemma parseExec_eq (h : parseExec rawArgs = some (before, target, after)) :
    rawArgs = before ++ target :: after ∧ execWord ∈ before := by
  cases rawArgs with
  | nil => cases h
  | cons program words =>
    obtain ⟨outer, houter, h⟩ := Option.bind_eq_some_iff.1 h
    obtain ⟨inner, hinner, h⟩ := Option.bind_eq_some_iff.1 h
    split_ifs at h with haccepted
    obtain ⟨-, -, -, hword, -⟩ := haccepted
    cases h
    refine ⟨?_, by simp⟩
    rw [Options.scan_eq houter, hword, Options.scan_eq hinner]
    simp

lemma tail_dropWhile_append {word : Str} {a : List Str} (h : word ∈ a) (b : List Str) :
    ((a ++ b).dropWhile (· ≠ word)).tail = (a.dropWhile (· ≠ word)).tail ++ b := by
  obtain ⟨x, y, rfl, hx⟩ := List.eq_append_cons_of_mem h
  have hall : ∀ w ∈ x, decide (w ≠ word) := fun w hw => decide_eq_true fun heq => hx (heq ▸ hw)
  rw [List.append_assoc, List.dropWhile_append_of_pos hall, List.dropWhile_append_of_pos hall]
  simp

/-- The words between the first `exec` and the target. -/
def between (before : List Str) : List Str := (before.dropWhile (· ≠ execWord)).tail

/-- No word between the first `exec` and the target is the target's, or what follows the first such
word is the separator just if it follows the target. -/
def Unmistakable (before : List Str) (target : Str) (after : List Str) : Prop :=
  target ∉ between before ∨
    (((between before ++ [target]).dropWhile (· ≠ target)).tail.head? = some separator ↔
      after.head? = some separator)

/-- **The separator is detected where it stands exactly if the target cannot be mistaken** for an
earlier word of the command line. -/
theorem separator_detected_iff (h : parseExec rawArgs = some (before, target, after)) :
    (detectDoubleDashSeparator rawArgs target = true ↔ after.head? = some separator) ↔
      Unmistakable before target after := by
  obtain ⟨rfl, hexec⟩ := parseExec_eq h
  have hdetect : detectDoubleDashSeparator (before ++ target :: after) target = true ↔
      ((between before ++ target :: after).dropWhile (· ≠ target)).tail.head? = some separator := by
    rw [detectDoubleDashSeparator, tail_dropWhile_append hexec, decide_eq_true_eq, between]
  rw [hdetect, Unmistakable]
  by_cases htarget : target ∈ between before
  · -- the first word like the target is an earlier one
    have hnext : ((between before ++ target :: after).dropWhile (· ≠ target)).tail.head? =
        ((between before ++ [target]).dropWhile (· ≠ target)).tail.head? := by
      rw [tail_dropWhile_append htarget, tail_dropWhile_append htarget, List.head?_append,
        List.head?_append]
      rfl
    rw [hnext, or_iff_right (not_not.2 htarget)]
  · have hall : ∀ w ∈ between before, decide (w ≠ target) :=
      fun w hw => decide_eq_true fun heq => htarget (heq ▸ hw)
    rw [List.dropWhile_append_of_pos hall]
    simp [htarget]

def plainArgs : List Str :=
  ["xho", "-y", "exec", "--timeout=5s", "-ti", "web", "--", "ls", "-l"].map String.toList

theorem separator_detected_plain :
    detectDoubleDashSeparator plainArgs "web".toList = true ↔
      (["--", "ls", "-l"].map String.toList).head? = some separator := by
  have hparse : parseExec plainArgs = some
      (["xho", "-y", "exec", "--timeout=5s", "-ti"].map String.toList, "web".toList,
        ["--", "ls", "-l"].map String.toList) := by decide +kernel
  exact (separator_detected_iff hparse).2 (.inl (by decide +kernel))

/-- The value of `--shell` is taken for the target, and the command is refused. -/
theorem separator_overlooked :
    let rawArgs := ["xho", "exec", "--shell", "bash", "bash", "--", "ls", "-l"].map String.toList
    parseExec rawArgs = some (["xho", "exec", "--shell", "bash"].map String.toList, "bash".toList,
        ["--", "ls", "-l"].map String.toList) ∧
      detectDoubleDashSeparator rawArgs "bash" = false := by
  decide +kernel

end CrossHostOps.ExecSeparator
