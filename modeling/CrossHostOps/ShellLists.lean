import CrossHostOps.ShellWords

/-!
Lists of shell commands, from the characters of a line to the commands that it runs.

Where words, quotes, expansions and compound commands begin and end is left to a `Scanner`, and a
`Shell` is one that keeps the rules of the standard for the little that is needed of them. What the
operators between the commands mean is written out: `|` binds more tightly than `&&` and `||`,
which are equal, and these more tightly than `;` and `&`.
-/

namespace CrossHostOps.ShellLists

open ShellWords List

/-- The operators between the commands of a list. -/
inductive Op
  | pipe
  | andIf
  | orIf
  | seq
  | async
  deriving DecidableEq

/-- What a character is to a list: part of a command, part of an operator, or what stands first
behind one. -/
inductive Mark
  | text
  | operator
  | behind (op : Op)

structure Scanner where
  State : Type
  /-- A command is to begin. -/
  start : State
  next : State → Char → Option (State × Mark)
  /-- A command has been read, and nothing is left open. -/
  closed : State → Bool
  /-- The text of a pipeline begins with the reserved word `!`. -/
  bang : List Char → Bool

namespace Scanner

variable (S : Scanner)

/-- Reads a text that is part of one command. -/
def scan : S.State → List Char → Option S.State
  | s, [] => some s
  | s, c :: text =>
    match S.next s c with
    | some (s', .text) => scan s' text
    | _ => none

/-- The commands of a complete list, each but the first with the operator before it. -/
def read : S.State → List Char → Option (List Char × List (Op × List Char))
  | s, [] => if S.closed s then some ([], []) else none
  | s, c :: text =>
    (S.next s c).bind fun (s', mark) => (read s' text).map fun (first, rest) =>
      match mark with
      | .text => (c :: first, rest)
      | .operator => (first, rest)
      | .behind op => ([], (op, c :: first) :: rest)

/-- One command, from its first character on. -/
def Command (text : List Char) : Prop := ∃ s, S.scan S.start text = some s ∧ S.closed s = true

end Scanner

structure Pipeline where
  negated : Bool
  command : List Char
  readers : List (List Char)
  deriving DecidableEq

def Pipeline.commands (p : Pipeline) : List (List Char) := p.command :: p.readers

/-- The pipelines of a list. A `!` can stand before a pipeline only. -/
def Scanner.pipelines (S : Scanner) :
    List Char → List (Op × List Char) → Option (Pipeline × List (Op × Pipeline))
  | text, [] => some (⟨S.bang text, text.dropWhile isBlank, []⟩, [])
  | text, (op, behind) :: rest =>
    (S.pipelines behind rest).bind fun (next, more) =>
      if op ≠ .pipe then some (⟨S.bang text, text.dropWhile isBlank, []⟩, (op, next) :: more)
      else if next.negated then none
      else some (⟨S.bang text, text.dropWhile isBlank, next.commands⟩, more)

def Scanner.parse (S : Scanner) (text : List Char) : Option (Pipeline × List (Op × Pipeline)) :=
  (S.read S.start text).bind fun (first, rest) => S.pipelines first rest

def quoted (text : List Char) : List Char := '\'' :: text ++ ['\'']

def brace (text : List Char) : List Char := "\x7b ".toList ++ text ++ "; \x7d".toList

/-- A scanner that keeps the rules of the standard. -/
structure Shell extends Scanner where
  /-- Among the words of a simple command, outside quotes. -/
  Words : State → Prop
  /-- Inside single quotes there. -/
  Quoted : State → Prop
  /-- The same inside a brace group. -/
  nest : State → State
  closed_of_words : ∀ s, Words s → closed s = true
  operator : ∀ s c op, closed s = true → (c, op) ∈ [('|', Op.pipe), (';', Op.seq)] →
    ∃ s', next s c = some (s', .operator) ∧ next s' ' ' = some (start, .behind op)
  name : ∀ name : List Char, name ≠ [] → (∀ c ∈ name, c.isAlphanum = true) → name ∉ reserved →
    ∃ s, toScanner.scan start (name ++ [' ']) = some s ∧ Words s
  plain : ∀ s c, Words s → c.isAlphanum = true ∨ c = '-' ∨ c = ' ' →
    ∃ s', next s c = some (s', .text) ∧ Words s'
  quote : ∀ s, Words s → ∃ s', next s '\'' = some (s', .text) ∧ Quoted s'
  quoted : ∀ s c, Quoted s →
    ∃ s', next s c = some (s', .text) ∧ if c = '\'' then Words s' else Quoted s'
  parameter : ∀ s name, Words s → (∀ c ∈ name, c.isAlpha = true) →
    ∃ s', toScanner.scan s ('"' :: '$' :: name ++ ['"']) = some s' ∧ Words s'
  assignment : ∀ name, name ≠ [] → (∀ c ∈ name, c.isAlpha = true) →
    toScanner.Command (name ++ "=$?".toList)
  enter : toScanner.scan start "\x7b ".toList = some (nest start)
  inside : ∀ s c s' mark, next s c = some (s', mark) → next (nest s) c = some (nest s', .text)
  leave : ∀ s, closed s = true →
    ∃ s', toScanner.scan (nest s) "; \x7d".toList = some s' ∧ closed s' = true
  bang_alpha : ∀ c text, c.isAlpha = true → bang (c :: text) = false
  bang_blank : ∀ text, bang (' ' :: text) = bang text

section read

variable {S : Scanner} {s s' : S.State} {c : Char} {x y : List Char}

lemma scan_text (h : S.next s c = some (s', .text)) : S.scan s (c :: x) = S.scan s' x := by
  simp [Scanner.scan, h]

lemma scan_append : S.scan s (x ++ y) = (S.scan s x).bind fun s' => S.scan s' y := by
  induction x generalizing s with
  | nil => rfl
  | cons c x ih =>
    simp only [cons_append, Scanner.scan]
    split
    · exact ih
    · rfl

lemma read_scan (h : S.scan s x = some s') :
    S.read s (x ++ y) = (S.read s' y).map fun (first, rest) => (x ++ first, rest) := by
  induction x generalizing s with
  | nil =>
    cases h
    simp
  | cons c x ih =>
    simp only [Scanner.scan] at h
    split at h
    · next s₁ hnext =>
      simp only [cons_append, Scanner.read, hnext, Option.bind_some, ih h, Option.map_map]
      rfl
    · cases h

lemma read_of_command (h : S.Command x) : S.read S.start x = some (x, []) := by
  obtain ⟨s, hscan, hclosed⟩ := h
  have hread := read_scan (y := []) hscan
  rw [append_nil] at hread
  simp [hread, Scanner.read, hclosed]

end read

section Shell

variable {S : Shell} {s s' : S.State} {op : Op} {c : Char} {x y text : List Char}

/-- Behind an operator the reading begins anew. -/
lemma read_operator (hop : (c, op) ∈ [('|', Op.pipe), (';', Op.seq)]) (h : S.Command x) :
    S.read S.start (x ++ c :: ' ' :: y) =
      (S.read S.start y).map fun (first, rest) => (x, (op, ' ' :: first) :: rest) := by
  obtain ⟨s, hscan, hclosed⟩ := h
  obtain ⟨s', hnext, hbehind⟩ := S.operator s c op hclosed hop
  rw [read_scan hscan]
  simp only [Scanner.read, hnext, hbehind, Option.bind_some, Option.map_map]
  congr 1
  funext ⟨first, rest⟩
  simp

/-- What is read as a list is read inside a brace group too. -/
lemma scan_nest {pieces} (h : S.read s x = some pieces) :
    ∃ s', S.closed s' = true ∧ S.scan (S.nest s) x = some (S.nest s') := by
  induction x generalizing s pieces with
  | nil =>
    by_cases hclosed : S.closed s = true
    · exact ⟨s, hclosed, rfl⟩
    · simp [Scanner.read, hclosed] at h
  | cons c x ih =>
    obtain ⟨⟨s₁, mark⟩, hnext, hrest⟩ := Option.bind_eq_some_iff.1 h
    obtain ⟨pieces', hread, -⟩ := Option.map_eq_some_iff.1 hrest
    obtain ⟨s', hclosed, hscan⟩ := ih hread
    refine ⟨s', hclosed, ?_⟩
    rw [scan_text (S.inside _ _ _ _ hnext), hscan]

lemma command_brace {pieces} (h : S.read S.start x = some pieces) : S.Command (brace x) := by
  obtain ⟨s, hclosed, hscan⟩ := scan_nest h
  obtain ⟨s', hleave, hclosed'⟩ := S.leave s hclosed
  refine ⟨s', ?_, hclosed'⟩
  rw [brace, scan_append, scan_append, S.enter, Option.bind_some, hscan, Option.bind_some, hleave]

/-- A simple command so far, outside quotes. -/
def Simple (S : Shell) (text : List Char) : Prop :=
  ∃ s, S.scan S.start text = some s ∧ S.Words s

lemma Simple.command (h : Simple S x) : S.Command x :=
  let ⟨s, hscan, hwords⟩ := h
  ⟨s, hscan, S.closed_of_words s hwords⟩

lemma Simple.append (h : Simple S x)
    (hy : ∀ s, S.Words s → ∃ s', S.scan s y = some s' ∧ S.Words s') : Simple S (x ++ y) := by
  obtain ⟨s, hscan, hwords⟩ := h
  obtain ⟨s', hscan', hwords'⟩ := hy s hwords
  exact ⟨s', by rw [scan_append, hscan, Option.bind_some, hscan'], hwords'⟩

lemma Simple.plain (h : Simple S x) (hc : c.isAlphanum = true ∨ c = '-' ∨ c = ' ') :
    Simple S (x ++ [c]) := by
  refine h.append fun s hs => ?_
  obtain ⟨s', hnext, hwords⟩ := S.plain s c hs hc
  exact ⟨s', scan_text hnext, hwords⟩

/-- Single quotes hide all characters but their own. -/
lemma Simple.quoted (h : Simple S x) (htext : '\'' ∉ text) : Simple S (x ++ quoted text) := by
  refine h.append fun s hs => ?_
  unfold ShellLists.quoted
  obtain ⟨s₁, hnext, hquoted⟩ := S.quote s hs
  rw [cons_append, scan_text hnext]
  clear hs hnext
  induction text generalizing s₁ with
  | nil =>
    obtain ⟨s', hnext, hwords⟩ := S.quoted s₁ '\'' hquoted
    exact ⟨s', scan_text hnext, hwords⟩
  | cons c text ih =>
    obtain ⟨hc, htext⟩ := not_or.1 (mem_cons.not.1 htext)
    obtain ⟨s', hnext, hstay⟩ := S.quoted s₁ c hquoted
    rw [if_neg (Ne.symm hc)] at hstay
    rw [cons_append, scan_text hnext]
    exact ih htext s' hstay

lemma pipelines_blank (rest : List (Op × List Char)) :
    S.pipelines (' ' :: text) rest = S.pipelines text rest := by
  have htrim : (' ' :: text).dropWhile isBlank = text.dropWhile isBlank := rfl
  cases rest <;> simp [Scanner.pipelines, S.bang_blank, htrim]

lemma pipelines_pipe (rest : List (Op × List Char)) : S.pipelines x ((.pipe, y) :: rest) =
    (S.pipelines y rest).bind fun (next, more) =>
      if next.negated then none
      else some (⟨S.bang x, x.dropWhile isBlank, next.commands⟩, more) := by
  simp [Scanner.pipelines]

end Shell

/-! ### Running a list -/

/-- Where a command reads its standard input. -/
inductive Input
  | terminal
  | stream (data : List UInt8)
  | written (command : List Char) (input : Input)
  deriving DecidableEq

structure Outcome (World : Type) where
  world : World
  runs : List (List Char × Input)
  status : ℕ

/-- What the commands do. The commands of a pipeline run together, up to the exit status of the
last. -/
structure Machine where
  World : Type
  run : World → List (List Char × Input) → World × ℕ
  /-- What a command writes, as the input of the next command of its pipeline. -/
  output : List Char → Input → Input
  /-- The input of a list that is started in the background. -/
  background : Input → Input

/-- Whether the pipeline behind an operator is run. -/
def Op.goesOn : Op → ℕ → Bool
  | .andIf, status => status == 0
  | .orIf, status => status != 0
  | _, _ => true

namespace Machine

variable (M : Machine)

def assign : Input → List (List Char) → List (List Char × Input)
  | _, [] => []
  | input, command :: commands => (command, input) :: assign (M.output command input) commands

def runPipeline (input : Input) (o : Outcome M.World) (p : Pipeline) : Outcome M.World :=
  let runs := M.assign input p.commands
  let (world, status) := M.run o.world runs
  ⟨world, o.runs ++ runs, if p.negated then (if status = 0 then 1 else 0) else status⟩

/-- The input of pipelines up to the next `;` or `&`, from what follows. -/
def inputBefore (input : Input) (rest : List (Op × Pipeline)) : Input :=
  if (rest.find? fun x => x.1 ∈ [.seq, .async]).any (·.1 = .async) then M.background input
  else input

def runList (input : Input) : Outcome M.World → List (Op × Pipeline) → Outcome M.World
  | o, [] => o
  | o, (op, p) :: rest =>
    let o' := if op.goesOn o.status then M.runPipeline (M.inputBefore input rest) o p else o
    runList input o' rest

def execute (world : M.World) (input : Input) (list : Pipeline × List (Op × Pipeline)) :
    Outcome M.World :=
  M.runList input (M.runPipeline (M.inputBefore input list.2) ⟨world, [], 0⟩ list.1) list.2

variable {M}

lemma runs_runList (input : Input) (o : Outcome M.World) (rest : List (Op × Pipeline)) :
    ∃ runs, (M.runList input o rest).runs = o.runs ++ runs := by
  induction rest generalizing o with
  | nil => exact ⟨[], (append_nil _).symm⟩
  | cons next rest ih =>
    obtain ⟨runs, hruns⟩ := ih
      (if next.1.goesOn o.status then M.runPipeline (M.inputBefore input rest) o next.2 else o)
    simp only [runList, hruns]
    split_ifs
    · exact ⟨M.assign (M.inputBefore input rest) next.2.commands ++ runs, by
        simp [runPipeline]⟩
    · exact ⟨runs, rfl⟩

end Machine

/-! ### A small shell -/

/-- Where a shell stands that knows quotes and brace groups. -/
inductive Spot
  | start
  | brace
  | word
  | single
  | double
  | operator (op : Op)
  deriving DecidableEq

def Spot.step : Spot → Char → Option (Spot × Mark)
  | .start, c =>
    if c = ' ' then some (.start, .text)
    else if c = '\x7b' then some (.brace, .text)
    else if c ∈ ['\x7d', '|', ';', '&', '\'', '"'] then none
    else some (.word, .text)
  | .brace, _ => none
  | .word, c =>
    some <| if c = '\'' then (.single, .text)
      else if c = '"' then (.double, .text)
      else if c = '|' then (.operator .pipe, .operator)
      else if c = ';' then (.operator .seq, .operator)
      else if c = '&' then (.operator .async, .operator)
      else (.word, .text)
  | .single, c => some (if c = '\'' then .word else .single, .text)
  | .double, c => some (if c = '"' then .word else .double, .text)
  | .operator op, c =>
    if c = ' ' then some (.start, .behind op)
    else if op = .pipe ∧ c = '|' then some (.operator .orIf, .operator)
    else if op = .async ∧ c = '&' then some (.operator .andIf, .operator)
    else none

/-- Braces count where a command is to begin, and inside them no operator does. -/
def Spot.next (s : ℕ × Spot) (c : Char) : Option ((ℕ × Spot) × Mark) :=
  if s.2 = .brace ∧ c = ' ' then some ((s.1 + 1, .start), .text)
  else if s.2 = .start ∧ c = '\x7d' ∧ s.1 ≠ 0 then some ((s.1 - 1, .word), .text)
  else (s.2.step c).map fun (spot, mark) => ((s.1, spot), if s.1 = 0 then mark else .text)

def braces : Scanner where
  State := ℕ × Spot
  start := (0, .start)
  next := Spot.next
  closed := fun s => s = (0, .word)
  bang := fun text => (text.dropWhile isBlank).head? = some '!'

variable {c : Char} {text : List Char}

lemma not_mem_of_any {p : Char → Bool} {chars : List Char} (h : p c = true)
    (hchars : chars.any p = false) : c ∉ chars :=
  fun hc => any_eq_false.1 hchars c hc h

def isWordChar (c : Char) : Bool := c.isAlphanum || c ∈ ['-', ' ', '=', '$', '?']

lemma next_word (h : isWordChar c = true) : Spot.next (0, .word) c = some ((0, .word), .text) := by
  have hne : c ∉ ['\'', '"', '|', ';', '&'] := not_mem_of_any h (by decide)
  simp only [mem_cons, not_or] at hne
  simp [Spot.next, Spot.step, hne]

lemma next_start (h : c.isAlphanum = true) :
    Spot.next (0, .start) c = some ((0, .word), .text) := by
  have hne : c ∉ [' ', '\x7b', '\x7d', '|', ';', '&', '\'', '"'] := not_mem_of_any h (by decide)
  simp only [mem_cons, not_or] at hne
  simp [Spot.next, Spot.step, hne]

lemma scan_word (htext : ∀ c ∈ text, isWordChar c = true) :
    braces.scan (0, .word) text = some (0, .word) := by
  induction text with
  | nil => rfl
  | cons c text ih =>
    obtain ⟨hc, htext⟩ := forall_mem_cons.1 htext
    have hnext : braces.next (0, .word) c = some ((0, .word), .text) := next_word hc
    rw [scan_text hnext]
    exact ih htext

lemma scan_name {name : List Char} (hne : name ≠ []) (hname : ∀ c ∈ name, c.isAlphanum = true)
    (htext : ∀ c ∈ text, isWordChar c = true) :
    braces.scan (0, .start) (name ++ text) = some (0, .word) := by
  obtain ⟨c, name, rfl⟩ := exists_cons_of_ne_nil hne
  obtain ⟨hc, hname⟩ := forall_mem_cons.1 hname
  have hnext : braces.next (0, .start) c = some ((0, .word), .text) := next_start hc
  rw [cons_append, scan_text hnext]
  refine scan_word (forall_mem_append.2 ⟨fun c hc => ?_, htext⟩)
  simp [isWordChar, hname c hc]

lemma scan_double (htext : '"' ∉ text) :
    braces.scan (0, .double) (text ++ ['"']) = some (0, .word) := by
  induction text with
  | nil => rfl
  | cons c text ih =>
    obtain ⟨hc, htext⟩ := not_or.1 (mem_cons.not.1 htext)
    have hnext : braces.next (0, .double) c = some ((0, .double), .text) := by
      simp [braces, Spot.next, Spot.step, Ne.symm hc]
    rw [cons_append, scan_text hnext]
    exact ih htext

lemma next_nest {s s' : ℕ × Spot} {mark : Mark} (h : Spot.next s c = some (s', mark)) :
    Spot.next (s.1 + 1, s.2) c = some ((s'.1 + 1, s'.2), .text) := by
  obtain ⟨depth, spot⟩ := s
  unfold Spot.next at h ⊢
  by_cases hbrace : spot = .brace ∧ c = ' '
  · rw [if_pos hbrace] at h ⊢
    cases h
    rfl
  rw [if_neg hbrace] at h ⊢
  by_cases hend : spot = .start ∧ c = '\x7d'
  · obtain ⟨rfl, rfl⟩ := hend
    cases depth <;> cases h
    rfl
  · rw [if_neg fun h' => hend ⟨h'.1, h'.2.1⟩] at h ⊢
    obtain ⟨⟨spot', mark'⟩, hstep, heq⟩ := Option.map_eq_some_iff.1 h
    cases heq
    simp [hstep]

/-- Quotes and brace groups are read as the standard has them. -/
def bracesShell : Shell where
  toScanner := braces
  Words := (· = (0, .word))
  Quoted := (· = (0, .single))
  nest := fun (depth, spot) => (depth + 1, spot)
  closed_of_words := by
    rintro _ rfl
    rfl
  operator := by
    intro s c op hclosed hop
    obtain rfl : s = ((0, .word) : ℕ × Spot) := by simpa [braces] using hclosed
    simp only [List.mem_cons, List.not_mem_nil, or_false, Prod.mk.injEq] at hop
    obtain ⟨rfl, rfl⟩ | ⟨rfl, rfl⟩ := hop <;> exact ⟨_, rfl, rfl⟩
  name := fun name hne hname _ => ⟨_, scan_name hne hname (List.all_eq_true.1 (by decide)), rfl⟩
  plain := by
    rintro _ c rfl hc
    refine ⟨_, next_word ?_, rfl⟩
    obtain h | rfl | rfl := hc
    · simp [isWordChar, h]
    · rfl
    · rfl
  quote := by
    rintro _ rfl
    exact ⟨_, rfl, rfl⟩
  quoted := by
    rintro _ c rfl
    refine ⟨_, rfl, ?_⟩
    split_ifs <;> rfl
  parameter := by
    rintro _ name rfl hname
    refine ⟨(0, .word), ?_, rfl⟩
    have hquote : '"' ∉ '$' :: name := by
      simpa using fun h => absurd (hname _ h) (by decide)
    exact scan_double hquote
  assignment := by
    intro name hne hname
    refine ⟨_, scan_name hne (fun c hc => ?_) (List.all_eq_true.1 (by decide)), rfl⟩
    simp [Char.isAlphanum, hname c hc]
  enter := rfl
  inside := fun _ _ _ _ => next_nest
  leave := by
    intro s hclosed
    obtain rfl : s = ((0, .word) : ℕ × Spot) := by simpa [braces] using hclosed
    exact ⟨_, rfl, rfl⟩
  bang_alpha := by
    intro c text hc
    have hne : c ∉ [' ', '\t', '!'] := not_mem_of_any hc (by decide)
    simp only [List.mem_cons, List.not_mem_nil, or_false, not_or] at hne
    simp [braces, isBlank, hne]
  bang_blank := fun _ => rfl

end CrossHostOps.ShellLists
