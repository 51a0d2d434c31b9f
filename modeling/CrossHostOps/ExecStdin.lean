import CrossHostOps.B64
import CrossHostOps.ShellLists

/-!
The input of a command on a jumpserver (`JumpserverSession::exec` without a terminal, and
`PtyShell::run_command_plain`): what the daemon has received is written into the command line and
piped into the command there. The pipe reaches the first pipeline of the command and no further.
-/

namespace CrossHostOps.ExecStdin

open Text ShellLists B64 List

/-- The input in the text of the command line. -/
def encoded (stdinData : Bytes) : Str := (encodeGroup stdinData).map fun b => Char.ofNat b.toNat

def printCommand (stdinData : Bytes) : Str :=
  "printf " ++ quoted "%s" ++ [' '] ++ quoted (encoded stdinData) ++ [' ']

def decodeCommand : Str := "base64 -d "

/-- `exec`: the command that is run once the input is complete. -/
def exec (command : Str) (stdinData : Bytes) : Str :=
  if stdinData = [] then command
  else printCommand stdinData ++ "| " ++ decodeCommand ++ "| " ++ command

def report (marker : Str) : Str :=
  "printf " ++ quoted (marker ++ ":%s\\n") ++ [' '] ++
    ('"' :: '$' :: "status" ++ ['"'])

/-- `run_command_plain`: the line that is typed. -/
def runCommandPlain (marker command : Str) : Str :=
  "\x7b " ++ command ++ "; \x7d; status=$?; " ++ report marker

/-! ### What the shell of the asset makes of it -/

/-- The list inside a text that is one brace group. -/
def group (S : Scanner) (text : Str) : Option Str :=
  let body := (text.drop 2).take (text.length - 5)
  if text = brace body ∧ S.read S.start text = some (text, []) then some body else none

def runGroup (S : Scanner) (M : Machine) (world : M.World) (input : Input) (text : Str) :
    Option (Outcome M.World) :=
  (group S text).bind fun body => (S.parse body).map (M.execute world input)

/-- A line at the prompt that runs a group, keeps its exit status and prints this behind the
marker. -/
def typed (S : Scanner) (M : Machine) (world : M.World) (marker line : Str) :
    Option (Outcome M.World) :=
  match S.read S.start line with
  | some (first, [(.seq, saved), (.seq, last)]) =>
    if saved = " status=$?" ∧ last = ' ' :: report marker then
      runGroup S M world .terminal first
    else none
  | _ => none

/-- The commands that bring the input, as they run. -/
def helpers (stdinData : Bytes) : List (Str × Input) :=
  [(printCommand stdinData, .terminal), (decodeCommand, .stream (encodeGroup stdinData))]

/-- The documented behaviour of `printf` and `base64`: they write what they are to write, and a
pipeline that they begin ends as the last of its commands does. -/
structure Helped (M : Machine) (stdinData : Bytes) : Prop where
  printf : M.output (printCommand stdinData) .terminal = .stream (encodeGroup stdinData)
  base64 : M.output decodeCommand (.stream (encodeGroup stdinData)) = .stream stdinData
  helps : ∀ world run runs,
    (M.run world (helpers stdinData ++ run :: runs)).2 = (M.run world (run :: runs)).2

/-- The commands that run and the exit status that is reported. -/
def shown {World : Type} (helpers : List (Str × Input)) (o : Outcome World) :
    List (Str × Input) × ℕ :=
  (helpers ++ o.runs, o.status)

/-- The line runs what `{ command; }` runs with the input, next to the helpers, and reports the
exit status of that. -/
def FedWhole (S : Scanner) (M : Machine) (marker command : Str) (stdinData : Bytes) : Prop :=
  ∀ world,
    (typed S M world marker (runCommandPlain marker (exec command stdinData))).map (shown []) =
      (runGroup S M world (.stream stdinData) (brace command)).map (shown (helpers stdinData))

section Shell

variable {S : Shell} {M : Machine} {world : M.World} {input : Input} {marker command text : Str}
  {d : Bytes} {first : Pipeline} {rest : List (Op × Pipeline)}

lemma quote_ne_symbol (v : ℕ) : '\'' ≠ Char.ofNat (symbol v).toNat := by
  obtain hv | hv := Nat.lt_or_ge v 64
  · have hall : ∀ v < 64, '\'' ≠ Char.ofNat (symbol v).toNat := by decide
    exact hall v hv
  · have hlast : symbol v = 47 := by
      have hne : ¬ v < 26 ∧ ¬ v < 52 ∧ ¬ v < 62 ∧ ¬ v = 62 := by omega
      simp [symbol, hne]
    rw [hlast]
    decide

lemma quote_notMem_encoded (d : Bytes) : '\'' ∉ encoded d := by
  have hpad : '\'' ≠ Char.ofNat pad.toNat := by decide
  unfold encoded
  induction d using encodeGroup.induct with
  | case1 => exact not_mem_nil
  | case2 | case3 => simp [encodeGroup, quote_ne_symbol, hpad]
  | case4 a b c rest ih => simpa [encodeGroup, quote_ne_symbol] using ih

lemma simple_printf (htext : '\'' ∉ text) : Simple S ("printf " ++ quoted text ++ [' ']) :=
  have hname : Simple S "printf " :=
    S.name "printf" (by decide) (all_eq_true.1 (by decide)) (by decide)
  (hname.quoted htext).plain (.inr (.inr rfl))

lemma command_printCommand (d : Bytes) : S.Command (printCommand d) := by
  have hformat : Simple S ("printf " ++ quoted "%s" ++ [' ']) :=
    simple_printf (by decide)
  exact ((hformat.quoted (quote_notMem_encoded d)).plain (.inr (.inr rfl))).command

lemma command_decodeCommand : S.Command decodeCommand := by
  have hname : Simple S "base64 " :=
    S.name "base64" (by decide) (all_eq_true.1 (by decide)) (by decide)
  have hoption : Simple S ("base64 " ++ ['-'] ++ ['d'] ++ [' ']) :=
    ((hname.plain (.inr (.inl rfl))).plain (.inl rfl)).plain (.inr (.inr rfl))
  exact hoption.command

lemma command_report (hmarker : '\'' ∉ marker) : S.Command (report marker) := by
  have htext : '\'' ∉ marker ++ ":%s\\n" := by
    rw [mem_append, not_or]
    exact ⟨hmarker, by decide⟩
  have hformat : Simple S ("printf " ++ quoted (marker ++ ":%s\\n".toList) ++ [' ']) :=
    simple_printf htext
  have hname : ∀ c ∈ "status".toList, c.isAlpha = true := all_eq_true.1 (by decide)
  exact (hformat.append fun s hs => S.parameter s "status".toList hs hname).command

lemma runGroup_brace {pieces} (h : S.read S.start text = some pieces) :
    runGroup S.toScanner M world input (brace text) =
      (S.parse text).map (M.execute world input) := by
  have hbody : ((brace text).drop 2).take ((brace text).length - 5) = text := by
    simp [brace]
  have hgroup : group S.toScanner (brace text) = some text := by
    simp only [group, hbody]
    exact if_pos ⟨trivial, read_of_command (command_brace h)⟩
  rw [runGroup, hgroup, Option.bind_some]

lemma typed_runCommandPlain {pieces} (hmarker : '\'' ∉ marker)
    (h : S.read S.start text = some pieces) :
    typed S.toScanner M world marker (runCommandPlain marker text) =
      (S.parse text).map (M.execute world .terminal) := by
  have hline : runCommandPlain marker text =
      brace text ++ ';' :: ' ' :: ("status=$?" ++ ';' :: ' ' :: report marker) := by
    simp [runCommandPlain, brace]
  have hsaved : S.Command "status=$?" :=
    S.assignment "status" (by decide) (all_eq_true.1 (by decide))
  have hseq : (';', Op.seq) ∈ [('|', Op.pipe), (';', Op.seq)] := by decide
  have hread : S.read S.start (runCommandPlain marker text) =
      some (brace text, [(.seq, " status=$?".toList), (.seq, ' ' :: report marker)]) := by
    rw [hline, read_operator hseq (command_brace h), read_operator hseq hsaved,
      read_of_command (command_report hmarker)]
    rfl
  rw [typed, hread]
  exact (if_pos ⟨rfl, rfl⟩).trans (runGroup_brace h)

/-- The pipe is read as part of the first pipeline. -/
lemma parse_exec (hd : d ≠ []) (h : S.parse command = some (first, rest)) :
    (∃ pieces, S.read S.start (exec command d) = some pieces) ∧ S.parse (exec command d) =
      if first.negated then none
      else some (⟨false, printCommand d, decodeCommand :: first.commands⟩, rest) := by
  obtain ⟨⟨text, behind⟩, hread, hpipelines⟩ := Option.bind_eq_some_iff.1 h
  have hline : exec command d =
      printCommand d ++ '|' :: ' ' :: (decodeCommand ++ '|' :: ' ' :: command) := by
    simp [exec, hd]
  have hpipe : ('|', Op.pipe) ∈ [('|', Op.pipe), (';', Op.seq)] := by decide
  have hpieces : S.read S.start (exec command d) = some (printCommand d,
      (.pipe, ' ' :: decodeCommand) :: (.pipe, ' ' :: text) :: behind) := by
    rw [hline, read_operator hpipe (command_printCommand d),
      read_operator hpipe command_decodeCommand, hread]
    rfl
  refine ⟨⟨_, hpieces⟩, ?_⟩
  have hprint : S.bang (printCommand d) = false := S.bang_alpha _ _ (by decide)
  have hdecode : S.bang decodeCommand = false := S.bang_alpha _ _ (by decide)
  have htrim : (printCommand d).dropWhile ShellWords.isBlank = printCommand d := rfl
  have htrim' : decodeCommand.dropWhile ShellWords.isBlank = decodeCommand := rfl
  dsimp only at hpipelines
  rw [Scanner.parse, hpieces, Option.bind_some]
  dsimp only
  rw [pipelines_pipe, pipelines_blank, pipelines_pipe, pipelines_blank, hpipelines]
  cases hneg : first.negated <;>
    simp [hneg, hprint, hdecode, htrim, htrim', Pipeline.commands]

lemma fedWhole_iff (hd : d ≠ []) (hmarker : '\'' ∉ marker)
    (h : S.parse command = some (first, rest)) :
    FedWhole S.toScanner M marker command d ↔ ∀ world,
      (if first.negated then none
        else some (shown [] (M.execute world .terminal
          (⟨false, printCommand d, decodeCommand :: first.commands⟩, rest)))) =
      some (shown (helpers d) (M.execute world (.stream d) (first, rest))) := by
  obtain ⟨⟨pieces, hpieces⟩, hparse⟩ := parse_exec hd h
  obtain ⟨pieces', hread, -⟩ := Option.bind_eq_some_iff.1 h
  refine forall_congr' fun world => ?_
  rw [typed_runCommandPlain hmarker hpieces, hparse, runGroup_brace hread, h]
  cases first.negated <;> rfl

lemma assign_piped (h : Helped M d) (commands : List Str) :
    M.assign .terminal (printCommand d :: decodeCommand :: commands) =
      helpers d ++ M.assign (.stream d) commands := by
  simp [Machine.assign, helpers, h.printf, h.base64]

/-- A pipeline takes the helpers in at its front. -/
lemma execute_piped (h : Helped M d) (hneg : first.negated = false) (world : M.World) :
    shown [] (M.execute world .terminal
        (⟨false, printCommand d, decodeCommand :: first.commands⟩, [])) =
      shown (helpers d) (M.execute world (.stream d) (first, [])) := by
  have hassign : M.assign .terminal
      (⟨false, printCommand d, decodeCommand :: first.commands⟩ : Pipeline).commands = _ :=
    assign_piped h first.commands
  have hstatus : (M.run world (helpers d ++ M.assign (.stream d) first.commands)).2 =
      (M.run world (M.assign (.stream d) first.commands)).2 := h.helps _ _ _
  change shown [] (M.runPipeline .terminal ⟨world, [], 0⟩ _) =
    shown (helpers d) (M.runPipeline (.stream d) ⟨world, [], 0⟩ first)
  simp only [Machine.runPipeline, hassign, hneg]
  rw [hstatus]
  rfl

end Shell

/-! ### Commands that always end alike -/

def steady (d : Bytes) (status : ℕ) : Machine where
  World := Unit
  run := fun _ _ => ((), status)
  output := fun command _ =>
    .stream (if command = printCommand d then encodeGroup d else d)
  background := id

lemma helped_steady (d : Bytes) (status : ℕ) : Helped (steady d status) d where
  printf := by simp [steady]
  base64 := by
    have hne : decodeCommand ≠ printCommand d := by
      intro h
      have hhead : some 'b' = some 'p' := congrArg head? h
      cases hhead
    simp [steady, hne]
  helps _ _ _ := rfl

/-- What follows the first pipeline has the input of the whole list. -/
lemma runs_steady {d : Bytes} {status : ℕ} {op : Op} {first : Pipeline} (input : Input)
    (p : Pipeline) (rest : List (Op × Pipeline)) (hneg : first.negated = false)
    (hop : op.goesOn status = true) :
    ∃ runs, ((steady d status).execute () input (first, (op, p) :: rest)).runs =
      (steady d status).assign input first.commands ++ (p.command, input) :: runs := by
  have hinput : ∀ rest, (steady d status).inputBefore input rest = input := by
    intro rest
    unfold Machine.inputBefore
    split_ifs <;> rfl
  simp only [Machine.execute, hinput, Machine.runList]
  have hstatus : ((steady d status).runPipeline input ⟨(), [], 0⟩ first).status = status := by
    simp [Machine.runPipeline, hneg, steady]
  rw [hstatus, if_pos hop]
  obtain ⟨runs, hruns⟩ := Machine.runs_runList input ((steady d status).runPipeline input
    ((steady d status).runPipeline input ⟨(), [], 0⟩ first) p) rest
  refine ⟨(steady d status).assign ((steady d status).output p.command input) p.readers ++ runs, ?_⟩
  rw [hruns]
  simp [Machine.runPipeline, Machine.assign, Pipeline.commands]

/-- **The input reaches the whole command exactly if the command is one pipeline**, without `!`:
what `;`, `&`, `&&` or `||` set off reads from the terminal, and behind the pipe a `!` is an error
of syntax. -/
theorem stdin_feeds_whole_iff (S : Shell) (marker command : Str) (d : Bytes) (first : Pipeline)
    (rest : List (Op × Pipeline)) (hd : d ≠ []) (hmarker : '\'' ∉ marker)
    (h : S.parse command = some (first, rest)) :
    (∀ M, Helped M d → FedWhole S.toScanner M marker command d) ↔
      first.negated = false ∧ rest = [] := by
  constructor
  · intro hfed
    have hsteady : ∀ status, _ := fun status =>
      (fedWhole_iff hd hmarker h).1 (hfed _ (helped_steady d status)) ()
    have hneg : first.negated = false := by
      cases hneg : first.negated
      · rfl
      · have hnone := hsteady 0
        rw [hneg] at hnone
        cases hnone
    refine ⟨hneg, ?_⟩
    cases rest with
    | nil => rfl
    | cons next rest =>
      -- a status at which the second pipeline is run
      obtain ⟨op, p⟩ := next
      obtain ⟨status, hop⟩ : ∃ status, op.goesOn status = true := by
        cases op <;> first | exact ⟨0, rfl⟩ | exact ⟨1, rfl⟩
      have hsome := hsteady status
      rw [hneg, if_neg Bool.false_ne_true, Option.some_inj] at hsome
      have hruns := congrArg Prod.fst hsome
      obtain ⟨piped, hpiped⟩ := runs_steady (d := d) .terminal p rest
        (rfl : (⟨false, printCommand d, decodeCommand :: first.commands⟩ : Pipeline).negated = _)
        hop
      obtain ⟨fed, hfed⟩ := runs_steady (d := d) (.stream d) p rest hneg hop
      have hassign : (steady d status).assign .terminal
          (⟨false, printCommand d, decodeCommand :: first.commands⟩ : Pipeline).commands = _ :=
        assign_piped (helped_steady d status) first.commands
      rw [shown, hpiped, hassign, nil_append, append_assoc, shown, hfed] at hruns
      cases append_cancel_left (append_cancel_left hruns)
  · rintro ⟨hneg, rfl⟩ M hM
    rw [fedWhole_iff hd hmarker h]
    intro world
    rw [hneg, if_neg Bool.false_ne_true, execute_piped hM hneg]

theorem stdin_feeds_whole_sorted :
    bracesShell.parse "sort | uniq -c" =
        some (⟨false, "sort ", ["uniq -c"]⟩, []) ∧
      ∀ M, Helped M [104, 105] → FedWhole bracesShell.toScanner M "__XHO_E_0__"
        "sort | uniq -c" [104, 105] := by
  have hparse : bracesShell.parse "sort | uniq -c" =
      some (⟨false, "sort ", ["uniq -c"]⟩, []) := by decide +kernel
  exact ⟨hparse, (stdin_feeds_whole_iff bracesShell _ _ _ _ _ (by decide) (by decide) hparse).2
    ⟨rfl, rfl⟩⟩

/-- Behind `;` a command reads from the terminal of the session. -/
theorem stdin_misses_second :
    Helped (steady [104] 0) [104] ∧
      (typed bracesShell.toScanner (steady [104] 0) () "__XHO_E_0__"
        (runCommandPlain "__XHO_E_0__".toList (exec "sort; cat".toList [104]))).map Outcome.runs =
        some (helpers [104] ++ [("sort".toList, .stream [104]), ("cat".toList, .terminal)]) ∧
      ¬ FedWhole bracesShell.toScanner (steady [104] 0) "__XHO_E_0__" "sort; cat"
        [104] :=
  ⟨helped_steady _ _, by decide +kernel, fun h => absurd (h ()) (by decide +kernel)⟩

end CrossHostOps.ExecStdin
