import CrossHostOps.Handlers
import CrossHostOps.Shell
import CrossHostOps.ShellWords

/-!
`daemon/shell.rs`: the command that the direct and the localhost gateway make of a request, and how
a POSIX shell reads it. The review is shown the arguments; the shell around them comes from the
request as well.
-/

namespace CrossHostOps.ExecCommand

open Text Shell ShellWords Handlers List

/-! ### `daemon/shell.rs` and `filepath::quote` -/

def buildRemoteCommand (argv : List Str) : Str := [' '].intercalate (argv.map shellQuote)

def isSafeShellCommandWord (arg : Str) : Bool :=
  arg ≠ [] && arg.all fun c => c.isAlphanum || c ∈ ['_', '-', '.', '/', '+']

/-- A safe first word is left as it is, so that an alias can be expanded. -/
def buildInteractiveShellCommand : List Str → Str
  | [] => []
  | arg :: args =>
    [' '].intercalate ((if isSafeShellCommandWord arg then arg else shellQuote arg) ::
      args.map shellQuote)

/-- What follows the last separator; a name that ends with one is kept as it is. -/
def shellBasename (name : Str) : Str :=
  let last := name.rtakeWhile (· ∉ ['/', '\\'])
  if last = [] then name else last

def shellFlags (shellName : Str) : Str :=
  if (shellBasename shellName).map Char.toLower ∈
      ["bash", "bash.exe", "zsh", "zsh.exe"].map String.toList then "-ic".toList
  else "-c".toList

def wrapInShell (innerCmd shellName : Str) : Str :=
  let escaped := innerCmd.flatMap fun c => if c = '\'' then "'\\''".toList else [c]
  shellBasename shellName ++ " ".toList ++ shellFlags shellName ++ " '".toList ++ escaped ++
    "'".toList

def buildFinalCommand (argv : List Str) (shell : Str) : Str :=
  if shell = [] then buildRemoteCommand argv
  else wrapInShell (buildInteractiveShellCommand argv) shell

def resolveShell (cliShell : Option Str) (noShell : Bool) (serverShell : Option Str)
    (defaultsShell : Str) : Option Str :=
  if noShell then none
  else
    match cliShell with
    | some name => if name = "false".toList then none else some name
    | none =>
      match serverShell with
      | some shell => if shell = [] then none else some shell
      | none => if defaultsShell = [] then none else some defaultsShell

/-! ### The gateways -/

/-- What is configured: for a server and by default, or for the host itself. -/
inductive Gateway
  | direct (shell : Option Str) (defaultsShell : Str)
  | localhost (shell : Str)

def Gateway.effectiveShell (g : Gateway) (shell : Str) (noShell : Bool) : Str :=
  let cliShell := if shell = [] then none else some shell
  (match g with
    | direct server defaultsShell => resolveShell cliShell noShell server defaultsShell
    | localhost own => resolveShell cliShell noShell (some own) []).getD []

/-- The command of `open_exec_session`. -/
def Gateway.openExecSession (g : Gateway) (request : ExecRequest) : Str :=
  buildFinalCommand request.argv (g.effectiveShell request.shell request.noShell)

structure Shown where
  argv : List Str
  command : Str

def shown (request : ExecRequest) : Shown := ⟨request.argv, [' '].intercalate request.argv⟩

/-- The command has the words that were shown: by themselves, or in the argument of a shell. -/
def RunsAsShown (g : Gateway) (request : ExecRequest) : Prop :=
  let shell := g.effectiveShell request.shell request.noShell
  (shell = [] ∧ simpleCommand (g.openExecSession request) = some (shown request).argv) ∨
    (shell ≠ [] ∧ ∃ flag inner, flag ∈ ["-c".toList, "-ic".toList] ∧
      simpleCommand (g.openExecSession request) = some [shellBasename shell, flag, inner] ∧
      fields inner = some (shown request).argv)

/-! ### Quoted words -/

/-- Quotes that are escaped are read back. -/
lemma spell_escaped (s : Str) :
    spell .single (s.flatMap fun c => if c = '\'' then "'\\''".toList else [c]) =
      some (s, .single) := by
  induction s with
  | nil => rfl
  | cons c s ih =>
    by_cases hc : c = '\''
    · subst hc
      exact spell_append_eq_some.2 ⟨['\''], .single, s, rfl, ih, rfl⟩
    · refine spell_append_eq_some.2 ⟨[c], .single, s, ?_, ih, rfl⟩
      simp [spell, Mode.step, hc]

lemma spelled_quoted (s : Str) :
    (⟨'\'' :: (s.flatMap fun c => if c = '\'' then "'\\''".toList else [c]) ++ ['\''], s⟩ :
      Word).Spelled := by
  refine ⟨?_, cons_ne_nil _ _, by simp⟩
  refine spell_cons_eq_some.2 ⟨[], .single, s, rfl, ?_, rfl⟩
  exact spell_append_eq_some.2 ⟨s, .single, [], spell_escaped s, rfl, (append_nil s).symm⟩

lemma shellQuote_eq (arg : Str) : shellQuote arg =
    '\'' :: (arg.flatMap fun c => if c = '\'' then "'\\''".toList else [c]) ++ ['\''] := by
  rw [shellQuote]
  split_ifs with harg
  · subst harg
    rfl
  · rfl

lemma spelled_shellQuote (arg : Str) : (⟨shellQuote arg, arg⟩ : Word).Spelled := by
  rw [shellQuote_eq]
  exact spelled_quoted arg

lemma spelled_shellQuotes (args : List Str) :
    ∀ w ∈ args.map (fun a => (⟨shellQuote a, a⟩ : Word)), w.Spelled := by
  intro w hw
  obtain ⟨a, -, rfl⟩ := mem_map.1 hw
  exact spelled_shellQuote a

lemma isCommand_shellQuote (arg : Str) : (⟨shellQuote arg, arg⟩ : Word).isCommand = true := by
  rw [shellQuote_eq]
  simp [Word.isCommand, reserved, isAssignment]

/-- A safe word has no character that is special to the shell. -/
lemma spelled_safe {arg : Str} (h : isSafeShellCommandWord arg = true) :
    (⟨arg, arg⟩ : Word).Spelled := by
  let isSafe := fun c : Char => c.isAlphanum || c ∈ ['_', '-', '.', '/', '+']
  simp only [isSafeShellCommandWord, Bool.and_eq_true, decide_eq_true_eq] at h
  obtain ⟨hne, hall⟩ := h
  have hsafe : ∀ c ∈ arg, isSafe c = true := all_eq_true.1 hall
  have hnone : (activeChars ++ quoteChars ++ ['#', '~']).all (fun c => !isSafe c) = true := by
    decide
  have hspecial : ∀ c ∈ activeChars ++ quoteChars ++ ['#', '~'], isSafe c = false :=
    fun c hc => by simpa using all_eq_true.1 hnone c hc
  refine spelled_of_plain hne (fun c hc => ?_) (fun c hc hhead => ?_)
  · by_contra hplain
    have hmem := isPlain_eq_false.1 (Bool.eq_false_iff.2 hplain)
    have hunsafe := hspecial c (mem_append_left _ hmem)
    rw [hsafe c hc] at hunsafe
    cases hunsafe
  · have hunsafe := hspecial c (mem_append_right _ hhead)
    rw [hsafe c (mem_of_mem_head? hc)] at hunsafe
    cases hunsafe

/-! ### The commands -/

lemma simpleCommand_buildRemoteCommand (argv : List Str) :
    simpleCommand (buildRemoteCommand argv) = some argv := by
  cases argv with
  | nil => rfl
  | cons arg args =>
    have hcommand := simpleCommand_intercalate (spelled_shellQuotes (arg :: args))
      (isCommand_shellQuote arg)
    simpa [buildRemoteCommand, Function.comp_def] using hcommand

/-- The argument of the shell has the arguments as its words. -/
lemma fields_buildInteractiveShellCommand (argv : List Str) :
    fields (buildInteractiveShellCommand argv) = some argv := by
  cases argv with
  | nil => rfl
  | cons arg args =>
    let first : Word := ⟨if isSafeShellCommandWord arg then arg else shellQuote arg, arg⟩
    have hfirst : first.Spelled := by
      by_cases hsafe : isSafeShellCommandWord arg = true
      · simpa [first, hsafe] using spelled_safe hsafe
      · simpa [first, hsafe] using spelled_shellQuote arg
    have hread := words_intercalate (forall_mem_cons.2 ⟨hfirst, spelled_shellQuotes args⟩)
    rw [map_cons, map_map] at hread
    have hfields : fields (buildInteractiveShellCommand (arg :: args)) =
        some ((first :: args.map fun a => (⟨shellQuote a, a⟩ : Word)).map Word.value) :=
      congrArg (Option.map _) hread
    simpa [Function.comp_def] using hfields

lemma wrapInShell_eq (innerCmd shellName : Str) : wrapInShell innerCmd shellName =
    [' '].intercalate [shellBasename shellName, shellFlags shellName,
      '\'' :: (innerCmd.flatMap fun c => if c = '\'' then "'\\''".toList else [c]) ++ ['\'']] := by
  simp [wrapInShell]

lemma shellFlags_mem (shellName : Str) :
    shellFlags shellName ∈ ["-c".toList, "-ic".toList] := by
  rw [shellFlags]
  split_ifs <;> simp

variable {name shellName innerCmd : Str}

lemma shellBasename_ne_nil (h : name ≠ []) : shellBasename name ≠ [] := by
  simp only [shellBasename]
  split_ifs with hlast
  · exact h
  · exact hlast

lemma spelled_shellFlags (shellName : Str) :
    (⟨shellFlags shellName, shellFlags shellName⟩ : Word).Spelled := by
  rw [shellFlags]
  split_ifs
  · refine spelled_of_plain (by decide) (all_eq_true.1 (by decide)) ?_
    rintro c ⟨⟩
    decide
  · refine spelled_of_plain (by decide) (all_eq_true.1 (by decide)) ?_
    rintro c ⟨⟩
    decide

/-- The words of a wrapped command, when the shell is one word. -/
lemma spelled_wrapInShell (innerCmd : Str)
    (hname : (⟨shellBasename shellName, shellBasename shellName⟩ : Word).Spelled) :
    ∀ w ∈ [(⟨shellBasename shellName, shellBasename shellName⟩ : Word),
      ⟨shellFlags shellName, shellFlags shellName⟩,
      ⟨'\'' :: (innerCmd.flatMap fun c => if c = '\'' then "'\\''".toList else [c]) ++ ['\''],
        innerCmd⟩], w.Spelled :=
  forall_mem_cons.2 ⟨hname, forall_mem_cons.2
    ⟨spelled_shellFlags shellName, forall_mem_singleton.2 (spelled_quoted innerCmd)⟩⟩

lemma simpleCommand_wrapInShell (hshell : shellName ≠ [])
    (hplain : isPlainName (shellBasename shellName) = true) :
    simpleCommand (wrapInShell innerCmd shellName) =
      some [shellBasename shellName, shellFlags shellName, innerCmd] := by
  simp only [isPlainName, Bool.and_eq_true, all_eq_true, Option.all_eq_true,
    decide_eq_true_eq] at hplain
  obtain ⟨⟨⟨hchars, hhead⟩, hreserved⟩, hassignment⟩ := hplain
  have hname : (⟨shellBasename shellName, shellBasename shellName⟩ : Word).Spelled :=
    spelled_of_plain (shellBasename_ne_nil hshell) hchars hhead
  have hcommand : (⟨shellBasename shellName, shellBasename shellName⟩ : Word).isCommand = true := by
    simp [Word.isCommand, hreserved, hassignment]
  rw [wrapInShell_eq]
  exact simpleCommand_intercalate (spelled_wrapInShell innerCmd hname) hcommand

lemma isPlainName_of_wrapInShell {more : List Str} (hshell : shellName ≠ [])
    (h : simpleCommand (wrapInShell innerCmd shellName) = some (shellBasename shellName :: more)) :
    isPlainName (shellBasename shellName) = true := by
  obtain ⟨flag, hflag⟩ : ∃ flag, shellFlags shellName = '-' :: flag := by
    rw [shellFlags]
    split_ifs <;> exact ⟨_, rfl⟩
  rw [wrapInShell_eq, hflag] at h
  exact isPlainName_of_simpleCommand (shellBasename_ne_nil hshell) h

/-- Whatever a shell is called, it is a word of its own in front of the flag and the command. -/
lemma fields_wrapInShell
    (hname : (⟨shellBasename shellName, shellBasename shellName⟩ : Word).Spelled) :
    fields (wrapInShell innerCmd shellName) =
      some [shellBasename shellName, shellFlags shellName, innerCmd] := by
  have hread := words_intercalate (spelled_wrapInShell innerCmd hname)
  rw [wrapInShell_eq]
  exact congrArg (Option.map _) hread

lemma fields_buildRemoteCommand (argv : List Str) :
    fields (buildRemoteCommand argv) = some argv := by
  have hread := words_intercalate (spelled_shellQuotes argv)
  rw [map_map] at hread
  have hfields : fields (buildRemoteCommand argv) =
      some ((argv.map fun a => (⟨shellQuote a, a⟩ : Word)).map Word.value) :=
    congrArg (Option.map _) hread
  simpa [Function.comp_def] using hfields

def isNameChar (c : Char) : Bool := c.isAlphanum || c ∈ ['.', '_', '-']

lemma isSafe_of_nameChars (hne : name ≠ []) (hchars : ∀ c ∈ name, isNameChar c = true) :
    isSafeShellCommandWord name = true := by
  simp only [isSafeShellCommandWord, Bool.and_eq_true, decide_eq_true_eq, all_eq_true]
  refine ⟨hne, fun c hc => ?_⟩
  have hname := hchars c hc
  simp only [isNameChar, Bool.or_eq_true, decide_eq_true_eq, mem_cons] at hname ⊢
  tauto

/-- **The arguments are read back as they were given**: by themselves without a shell, and in the
last of three words behind a shell with an ordinary name. -/
theorem argv_read_back (argv : List Str) :
    fields (buildRemoteCommand argv) = some argv ∧
      ∀ shell, shellBasename shell ≠ [] → (∀ c ∈ shellBasename shell, isNameChar c = true) →
        ∃ flag inner, flag ∈ ["-c".toList, "-ic".toList] ∧
          fields (buildFinalCommand argv shell) = some [shellBasename shell, flag, inner] ∧
          fields inner = some argv := by
  refine ⟨fields_buildRemoteCommand argv, fun shell hne hchars => ?_⟩
  have hshell : shell ≠ [] := by
    rintro rfl
    exact hne rfl
  have hname := spelled_safe (isSafe_of_nameChars hne hchars)
  refine ⟨shellFlags shell, buildInteractiveShellCommand argv, shellFlags_mem shell, ?_,
    fields_buildInteractiveShellCommand argv⟩
  rw [buildFinalCommand, if_neg hshell, fields_wrapInShell hname]

/-- A blank and a quote in an argument, behind a shell with a path. -/
theorem argv_read_back_bash :
    ∃ flag inner, flag ∈ ["-c".toList, "-ic".toList] ∧
      fields (buildFinalCommand ["echo".toList, "it's so".toList] "/bin/bash".toList) =
        some ["bash".toList, flag, inner] ∧
      fields inner = some ["echo".toList, "it's so".toList] :=
  (argv_read_back ["echo".toList, "it's so".toList]).2 "/bin/bash".toList (by decide)
    (all_eq_true.1 (by decide))

/-- What runs is what was shown if, and only if, there is no shell or its name is plain. -/
theorem exec_runs_as_shown_iff (g : Gateway) (request : ExecRequest) :
    RunsAsShown g request ↔
      g.effectiveShell request.shell request.noShell = [] ∨
        isPlainName (shellBasename (g.effectiveShell request.shell request.noShell)) = true := by
  simp only [RunsAsShown, Gateway.openExecSession, buildFinalCommand]
  generalize g.effectiveShell request.shell request.noShell = shell
  by_cases hshell : shell = []
  · simp only [hshell, true_and, true_or, iff_true]
    exact .inl (simpleCommand_buildRemoteCommand request.argv)
  · simp only [hshell, false_and, false_or, ne_eq, not_false_eq_true, true_and]
    constructor
    · rintro ⟨flag, inner, -, hcommand, -⟩
      exact isPlainName_of_wrapInShell hshell hcommand
    · intro hplain
      exact ⟨shellFlags shell, buildInteractiveShellCommand request.argv, shellFlags_mem shell,
        simpleCommand_wrapInShell hshell hplain, fields_buildInteractiveShellCommand request.argv⟩

/-- A request whose shell has words and operators of its own. -/
def smuggling (shell : Str) : ExecRequest :=
  ⟨"host".toList, ["ls".toList], false, false, 0, false, 0, 0, shell, false⟩

/-- The shell of a request can run another program than the one that was shown. -/
theorem exec_runs_other :
    simpleCommand ((Gateway.direct none []).openExecSession (smuggling "rm -r home".toList)) =
        some ["rm".toList, "-r".toList, "home".toList, "-c".toList, "ls".toList] ∧
      ¬RunsAsShown (.direct none []) (smuggling "rm -r home".toList) ∧
      (Gateway.localhost []).openExecSession (smuggling "sh;halt;:".toList) =
        "sh;halt;: -c 'ls'".toList ∧
      ¬RunsAsShown (.localhost []) (smuggling "sh;halt;:".toList) := by
  have hwords : simpleCommand
      ((Gateway.direct none []).openExecSession (smuggling "rm -r home".toList)) =
        some ["rm".toList, "-r".toList, "home".toList, "-c".toList, "ls".toList] := by
    decide +kernel
  refine ⟨hwords, ?_, by decide +kernel, ?_⟩
  · rintro (⟨hshell, -⟩ | ⟨-, flag, inner, -, hcommand, -⟩)
    · cases hshell
    · cases hcommand
  · rintro (⟨hshell, -⟩ | ⟨-, flag, inner, -, hcommand, -⟩)
    · cases hshell
    · cases hcommand

end CrossHostOps.ExecCommand
