import CrossHostOps.Mediation
import CrossHostOps.Runs

/-!
`adapt_split` of `daemon/session/mod.rs`, around a `JumpserverSession` whose `exec` has succeeded:
the mediation task goes on while the task of the session runs the command.
-/

namespace CrossHostOps.SplitSession

open Text Runs

/-- The task that `exec` spawns. Without a terminal it sends the exit code before the output ends,
with one it is the other way round. -/
inductive Worker
  | buffering (stdinData : Bytes)
  | running (stdinData : Bytes)
  | finishing
  | done
  deriving DecidableEq

def Worker.reads : Worker → Bool
  | .buffering _ | .running _ => true
  | .finishing | .done => false

/-- A session that has been split, with all the output that its command has made. -/
structure Split extends Mediation where
  eofSent : Bool
  writer : Bool
  worker : Worker
  produced : List Bytes

inductive Event
  /-- The writer sends a command, or is dropped. -/
  | send (command : SessionCommand)
  | dropWriter
  /-- The mediation task takes a command, finds the commands closed, or polls for an event. -/
  | receive
  | closed
  | poll (exitFirst : Bool)
  /-- The task of the session. -/
  | readStdin
  | run
  | output (data : Bytes)
  | exit (code : ℤ)
  | closeStdout

namespace Split

def start (backend : Backend) : Split where
  toMediation := .start backend []
  eofSent := false
  writer := true
  worker := match backend with
    | .exec => .buffering []
    | .raw => .running []
  produced := []

variable (s : Split)

def step : Event → Option Split
  | .send command =>
    if s.writer ∧ ¬ s.eofSent then
      some { s with commands := s.commands ++ [command], eofSent := command = .eof }
    else none
  | .dropWriter => if s.eofSent then some { s with writer := false } else none
  | .receive =>
    match s.receive s.worker.reads with
    | some m => some { s with toMediation := m }
    | none => none
  | .closed =>
    if s.ended ∨ s.writer ∨ s.commands ≠ [] then none
    else some { s with toMediation := s.finish }
  | .poll exitFirst =>
    if s.ended then none else some { s with toMediation := s.mediate exitFirst }
  | .readStdin =>
    match s.worker, s.session.stdin with
    | .buffering data, chunk :: rest =>
      some { s with
        worker := .buffering (data ++ chunk), session := { s.session with stdin := rest } }
    | .running data, _ :: rest =>
      some { s with worker := .running data, session := { s.session with stdin := rest } }
    | _, _ => none
  | .run =>
    match s.worker with
    | .buffering data =>
      if s.session.stdin = [] ∧ ¬ s.session.stdinOpen then some { s with worker := .running data }
      else none
    | _ => none
  | .output data =>
    match s.worker with
    | .running _ =>
      some { s with
        session := { s.session with stdout := s.session.stdout ++ [data] }
        produced := s.produced ++ [data] }
    | _ => none
  | .exit code =>
    match s.session.backend, s.worker with
    | .exec, .running _ =>
      some { s with session := { s.session with exitCode := some code }, worker := .finishing }
    | .raw, .finishing =>
      some { s with session := { s.session with exitCode := some code }, worker := .done }
    | _, _ => none
  | .closeStdout =>
    match s.session.backend, s.worker with
    | .exec, .finishing =>
      some { s with session := { s.session with stdoutOpen := false }, worker := .done }
    | .raw, .running _ =>
      some { s with session := { s.session with stdoutOpen := false }, worker := .finishing }
    | _, _ => none

end Split

/-! ### `drive_exec` -/

inductive ServerEvent
  | stdout (data : Bytes)
  | stderr (data : Bytes)
  deriving DecidableEq

/-- What is sent on of the events of the stream, and the code that is returned. -/
def driveExec : List SessionEvent → List ServerEvent × ℤ
  | [] => ([], 0)
  | .stdout data :: events => (.stdout data :: (driveExec events).1, (driveExec events).2)
  | .stderr data :: events => (.stderr data :: (driveExec events).1, (driveExec events).2)
  | .exitStatus code :: _ => ([], code)
  | .exitSignal name :: _ =>
    ([.stderr (ascii ("killed by signal " ++ name ++ ['\n']))], 255)
  | .eof :: _ => ([], 0)

lemma driveExec_stdout (outputs : List Bytes) (code : ℤ) :
    driveExec (outputs.map .stdout ++ [.exitStatus code]) = (outputs.map .stdout, code) := by
  induction outputs with
  | nil => rfl
  | cons d outputs ih => simp [driveExec, ih]

/-! ### What holds of a split session -/

/-- How far the task of the session has come. -/
def Worker.Fits (session : JumpserverSession) : Worker → Prop
  | .buffering _ =>
    session.stdoutOpen = true ∧ session.exitCode = none ∧ session.backend = .exec
  | .running _ => session.stdoutOpen = true ∧ session.exitCode = none
  | .finishing =>
    match session.backend with
    | .exec => session.stdoutOpen = true ∧ session.exitCode ≠ none
    | .raw => session.stdoutOpen = false ∧ session.exitCode = none
  | .done => session.stdoutOpen = false ∧ session.exitCode ≠ none

namespace Worker

variable {worker : Worker} {session session' : JumpserverSession}

lemma Fits.of_eq (h : worker.Fits session) (hbackend : session'.backend = session.backend)
    (hopen : session'.stdoutOpen = session.stdoutOpen)
    (hexit : session'.exitCode = session.exitCode) : worker.Fits session' := by
  unfold Fits at h ⊢
  rw [hbackend, hopen, hexit]
  exact h

lemma Fits.exitCode_ne_none (h : worker.Fits session) (hexec : session.backend = .exec)
    (hclosed : session.stdoutOpen = false) : session.exitCode ≠ none := by
  cases worker with
  | finishing =>
    rw [Fits, hexec] at h
    exact h.2
  | done => exact h.2
  | _ => exact absurd (h.1.symm.trans hclosed) (by decide)

lemma Fits.leaves {m m' : Mediation} (h : worker.Fits m.session) (hleaves : m.Leaves m') :
    worker.Fits m'.session :=
  h.of_eq hleaves.backend hleaves.stdoutOpen hleaves.exitCode

end Worker

namespace Split

/-- All output has been sent or waits to be; when the exit code has been sent it came last. -/
structure Kept (s : Split) : Prop where
  told : s.Told s.produced
  fits : s.worker.Fits s.session

variable {s s' : Split}

def isExitStatus : SessionEvent → Bool
  | .exitStatus _ => true
  | _ => false

/-- The commands are not found closed before the exit status has been sent, and no command is taken
while the exit code is waited for behind the end of the output. -/
def Unbroken (s : Split) : Event → Prop
  | .receive => s.future ≠ .exit
  | .closed => s.sent.any isExitStatus = true
  | _ => True

/-- As long as the exit code is owed it has not been sent. -/
lemma not_exitStatus (output : s.sent ++ s.session.stdout.map .stdout = s.produced.map .stdout) :
    s.sent.any isExitStatus = false := by
  rw [List.any_eq_false]
  intro e he
  have hmem : e ∈ s.produced.map SessionEvent.stdout := output ▸ List.mem_append_left _ he
  obtain ⟨data, -, rfl⟩ := List.mem_map.1 hmem
  simp [isExitStatus]

/-- What a poll keeps, and what it does when the task of the session is done: it sends an event, or
ends. -/
lemma Kept.mediate (h : Kept s) (exitFirst : Bool) :
    Kept { s with toMediation := s.mediate exitFirst } ∧
      (s.session.stdinOpen = false → (s.mediate exitFirst).session.stdinOpen = false) ∧
      (s.worker = .done → (s.mediate exitFirst).ended = true ∨
        (s.mediate exitFirst).sent.length = s.sent.length + 1) := by
  obtain ⟨htold, hleaves, hclosed, hprogress⟩ := h.told.mediate h.fits.exitCode_ne_none exitFirst
  refine ⟨⟨htold, h.fits.leaves hleaves⟩, hclosed, fun hdone => ?_⟩
  have hfits := h.fits
  rw [hdone] at hfits
  exact hprogress hfits.1 hfits.2

variable {e : Event} {stdinData : Bytes}

/-- **Every event that breaks nothing off keeps what is owed.** -/
theorem Kept.step (h : Kept s) (hunbroken : Unbroken s e) (hstep : s.step e = some s') :
    Kept s' := by
  obtain ⟨htold, hfits⟩ := h
  revert hunbroken hstep
  fun_cases Split.step s e <;> intro hunbroken hstep <;> cases hstep
  · exact ⟨htold, hfits⟩
  · exact ⟨htold, hfits⟩
  next hreceive =>
    obtain ⟨htold', hleaves⟩ := htold.receive hunbroken hreceive
    exact ⟨htold', hfits.leaves hleaves⟩
  · cases htold with
    | owing running owes output =>
      rw [Unbroken, not_exitStatus output] at hunbroken
      cases hunbroken
    | settled code settled future exitCode output =>
      have hended : s.session.Told s.future true s.sent s.produced :=
        .settled code settled future exitCode output
      exact ⟨hended.stdin _ _, hfits.of_eq rfl rfl rfl⟩
  · exact (Kept.mediate ⟨htold, hfits⟩ _).1
  next hworker =>
    rw [hworker] at hfits
    exact ⟨htold.stdin _ _, hfits⟩
  next hworker =>
    rw [hworker] at hfits
    exact ⟨htold.stdin _ _, hfits⟩
  next hworker _ =>
    rw [hworker] at hfits
    exact ⟨htold, hfits.1, hfits.2.1⟩
  next hworker =>
    have hopen : s.session.stdoutOpen = true := by
      rw [hworker] at hfits
      exact hfits.1
    exact ⟨htold.output hopen _, hfits.of_eq rfl rfl rfl⟩
  next hworker hbackend =>
    rw [hworker] at hfits
    refine ⟨htold.exit hfits.2 _, ?_⟩
    simp [Worker.Fits, hbackend, hfits.1]
  next hworker hbackend =>
    simp only [hworker, Worker.Fits, hbackend] at hfits
    exact ⟨htold.exit hfits.2 _, hfits.1, Option.some_ne_none _⟩
  next hworker hbackend =>
    simp only [hworker, Worker.Fits, hbackend] at hfits
    exact ⟨htold.close hfits.1, rfl, hfits.2⟩
  next hworker hbackend =>
    rw [hworker] at hfits
    refine ⟨htold.close hfits.1, ?_⟩
    simp [Worker.Fits, hbackend, hfits.2]

/-- The writer is there until the end of the input has been sent, and the end is not lost. -/
structure Fed (s : Split) : Prop where
  writer : s.writer = true ∨ s.eofSent = true
  eof : s.eofSent = true → .eof ∈ s.commands ∨ s.session.stdinOpen = false

/-- The end of the input is kept by every event. -/
theorem Fed.step (h : Fed s) (hkept : Kept s) (hstep : s.step e = some s') : Fed s' := by
  revert hstep
  fun_cases Split.step s e <;> intro hstep <;> cases hstep
  next hopen =>
    refine ⟨.inl hopen.1, fun heof => .inl ?_⟩
    rw [of_decide_eq_true heof]
    exact List.mem_append_right _ (List.mem_singleton.2 rfl)
  next hsent => exact ⟨.inr hsent, h.eof⟩
  next hreceive =>
    exact ⟨h.writer, fun heof => Mediation.receive_closes hreceive (h.eof heof)⟩
  · exact ⟨h.writer, fun _ => .inr rfl⟩
  next exitFirst _ =>
    obtain ⟨-, hclosed, -⟩ := hkept.mediate exitFirst
    refine ⟨h.writer, fun heof => ?_⟩
    rw [Mediation.mediate_commands]
    exact (h.eof heof).imp_right hclosed
  -- the task of the session leaves the writer alone, and does not open its input again
  all_goals exact ⟨h.writer, h.eof⟩

/-! ### The end of a command -/

/-- The stream has brought all the output and then the exit code, and `drive_exec` returns them. -/
def Delivered (s : Split) : Prop :=
  ∃ code, s.session.exitCode = some code ∧ s.sent = s.produced.map .stdout ++ [.exitStatus code] ∧
    driveExec s.sent = (s.produced.map .stdout, code)

lemma Kept.delivered (h : Kept s) (hended : s.ended = true) : s.Delivered := by
  obtain ⟨code, hcode, hsent⟩ := h.told.delivered hended
  exact ⟨code, hcode, hsent, hsent ▸ driveExec_stdout s.produced code⟩

/-- When the task of the session is done the mediation task comes to its end by itself. -/
lemma Kept.exists_end (h : Kept s) (hdone : s.worker = .done) (exitFirst : Bool) :
    ∃ k s', run Split.step s (List.replicate k (.poll exitFirst)) = some s' ∧
      (Kept s' ∧ s'.worker = .done ∧ s'.produced = s.produced) ∧ s'.ended = true := by
  refine exists_run_replicate (fun s' => s'.produced.length + 1 - s'.sent.length) ?_
    ⟨h, hdone, rfl⟩
  rintro t ⟨hkept, hworker, hproduced⟩ hended
  have hstep : t.step (.poll exitFirst) = some { t with toMediation := t.mediate exitFirst } := by
    simp [Split.step, hended]
  obtain ⟨hkept', -, hprogress⟩ := hkept.mediate exitFirst
  refine ⟨_, hstep, ⟨hkept', hworker, hproduced⟩, ?_⟩
  refine (hprogress hworker).imp_right fun hsent => ?_
  have hle := hkept'.told.length_sent_le
  dsimp only at hle ⊢
  omega

/-- The command can come to an end from here, with nothing broken off, and all is delivered. -/
def Finishes (s : Split) : Prop :=
  ∃ s', Leads Split.step Unbroken s s' ∧ s'.ended = true ∧ s'.Delivered

namespace Kept

variable (h : Kept s)

include h

lemma finishes_step (hstep : s.step e = some s') (hunbroken : Unbroken s e)
    (hnext : Kept s' → Finishes s') : Finishes s := by
  obtain ⟨t, hleads, hended⟩ := hnext (h.step hunbroken hstep)
  exact ⟨t, hleads.head hunbroken hstep, hended⟩

lemma finishes_done (hdone : s.worker = .done) : Finishes s := by
  obtain ⟨k, s', hpolls, ⟨hkept, -⟩, hended⟩ := h.exists_end hdone true
  exact ⟨s', .replicate (e := .poll true) (fun _ => trivial) hpolls, hended, hkept.delivered hended⟩

lemma finishes_finishing (hworker : s.worker = .finishing) : Finishes s := by
  cases hbackend : s.session.backend with
  | exec =>
    have hstep : s.step .closeStdout = some { s with
        session := { s.session with stdoutOpen := false }, worker := .done } := by
      simp [Split.step, hbackend, hworker]
    exact h.finishes_step hstep trivial fun hkept => hkept.finishes_done rfl
  | raw =>
    have hstep : s.step (.exit 0) = some { s with
        session := { s.session with exitCode := some 0 }, worker := .done } := by
      simp [Split.step, hbackend, hworker]
    exact h.finishes_step hstep trivial fun hkept => hkept.finishes_done rfl

lemma finishes_running (hworker : s.worker = .running stdinData) : Finishes s := by
  cases hbackend : s.session.backend with
  | exec =>
    have hstep : s.step (.exit 0) = some { s with
        session := { s.session with exitCode := some 0 }, worker := .finishing } := by
      simp [Split.step, hbackend, hworker]
    exact h.finishes_step hstep trivial fun hkept => hkept.finishes_finishing rfl
  | raw =>
    have hstep : s.step .closeStdout = some { s with
        session := { s.session with stdoutOpen := false }, worker := .finishing } := by
      simp [Split.step, hbackend, hworker]
    exact h.finishes_step hstep trivial fun hkept => hkept.finishes_finishing rfl

/-- The input has ended: what is left of it is read, and the command runs. -/
lemma finishes_stdin (hworker : s.worker = .buffering stdinData)
    (hclosed : s.session.stdinOpen = false) :
    Finishes s := by
  induction hstdin : s.session.stdin generalizing s stdinData with
  | nil =>
    have hstep : s.step .run = some { s with worker := .running stdinData } := by
      simp [Split.step, hworker, hstdin, hclosed]
    exact h.finishes_step hstep trivial fun hkept => hkept.finishes_running rfl
  | cons chunk rest ih =>
    have hstep : s.step .readStdin = some { s with
        worker := .buffering (stdinData ++ chunk)
        session := { s.session with stdin := rest } } := by
      simp [Split.step, hworker, hstdin]
    exact h.finishes_step hstep trivial fun hkept => ih hkept rfl hclosed rfl

/-- A task that reads its input has no exit code that could be waited for. -/
lemma receives (hworker : s.worker = .buffering stdinData) :
    s.ended = false ∧ s.future ≠ .exit := by
  have hfits := h.fits
  rw [hworker] at hfits
  cases h.told with
  | owing running owes output =>
    refine ⟨running, fun hexit => ?_⟩
    obtain ⟨hraw, -⟩ := owes.exit hexit
    exact absurd (hfits.2.2.symm.trans hraw) nofun
  | settled code settled => exact absurd (hfits.1.symm.trans settled.closed) (by decide)

/-- The end of the input has been sent: the commands before it are taken. -/
lemma finishes_commands (hworker : s.worker = .buffering stdinData)
    (heof : .eof ∈ s.commands ∨ s.session.stdinOpen = false) : Finishes s := by
  induction hcommands : s.commands generalizing s with
  | nil =>
    rw [hcommands] at heof
    exact h.finishes_stdin hworker (heof.resolve_left List.not_mem_nil)
  | cons command rest ih =>
    obtain ⟨hended, hfuture⟩ := h.receives hworker
    have hreceive : s.receive s.worker.reads = _ :=
      Mediation.receive_eq_some.2 ⟨command, rest, hcommands, hended, rfl⟩
    have hstep : s.step .receive = some { s with
        commands := rest
        session := applyCommand s.worker.reads s.session command
        future := .fresh } := by
      simp [Split.step, hreceive]
    exact h.finishes_step hstep hfuture fun hkept =>
      ih hkept hworker (Mediation.receive_closes hreceive heof) rfl

end Kept

/-- **From every state the command can come to its end.** -/
theorem Kept.finishes (h : Kept s) (hfed : Fed s) : Finishes s := by
  cases hworker : s.worker with
  | buffering stdinData =>
    by_cases hsent : s.eofSent = true
    · exact h.finishes_commands hworker (hfed.eof hsent)
    · -- the writer is still there to end the input
      have hwriter := hfed.writer.resolve_right hsent
      have hstep : s.step (.send .eof) =
          some { s with commands := s.commands ++ [.eof], eofSent := true } := by
        simp [Split.step, hwriter, hsent]
      refine h.finishes_step hstep trivial fun hkept => hkept.finishes_commands hworker (.inl ?_)
      exact List.mem_append_right _ (List.mem_singleton.2 rfl)
  | running stdinData => exact h.finishes_running hworker
  | finishing => exact h.finishes_finishing hworker
  | done => exact h.finishes_done hworker

lemma kept_start (backend : Backend) : Kept (start backend) := by
  refine ⟨JumpserverSession.told_start backend, ?_⟩
  cases backend with
  | exec => exact ⟨rfl, rfl, rfl⟩
  | raw => exact ⟨rfl, rfl⟩

/-- **A split session delivers all its output and its exit code** in every run that breaks nothing
off: where the mediation task has ended they have been sent, once the command has ended the task
gets there by polling alone, and nothing that has happened keeps the command from its end. -/
theorem split_delivers {backend : Backend} {events : List Event}
    (hmeets : Meets step Unbroken (start backend) events)
    (hrun : run step (start backend) events = some s) :
    (s.ended = true → s.Delivered) ∧
    (s.worker = .done → ∀ exitFirst, ∃ k s',
      run step s (List.replicate k (.poll exitFirst)) = some s' ∧ s'.ended = true ∧
        s'.produced = s.produced ∧ s'.Delivered) ∧
    ∃ s', Leads step Unbroken s s' ∧ s'.ended = true ∧ s'.Delivered := by
  have hstart : Kept (start backend) ∧ Fed (start backend) :=
    ⟨kept_start backend, .inl rfl, nofun⟩
  obtain ⟨hkept, hfed⟩ := run_invariant (I := fun s => Kept s ∧ Fed s)
    (fun h hunbroken hstep => ⟨h.1.step hunbroken hstep, h.2.step h.1 hstep⟩) hstart hmeets hrun
  refine ⟨hkept.delivered, fun hdone exitFirst => ?_, hkept.finishes hfed⟩
  obtain ⟨k, s', hpolls, ⟨hkept', -, hproduced⟩, hended⟩ := hkept.exists_end hdone exitFirst
  exact ⟨k, s', hpolls, hended, hproduced, hkept'.delivered hended⟩

instance decidableUnbroken (s : Split) : ∀ e, Decidable (Unbroken s e)
  | .receive => inferInstanceAs (Decidable (s.future ≠ .exit))
  | .closed => inferInstanceAs (Decidable (s.sent.any isExitStatus = true))
  | .send _ | .dropWriter | .poll _ | .readStdin | .run | .output _ | .exit _ | .closeStdout =>
    inferInstanceAs (Decidable True)

/-- The writer is dropped when the output has been sent, and the commands are found closed behind
the exit code. -/
def piped : List Event :=
  [.send (.data (ascii "a")), .send .eof, .receive, .receive, .readStdin, .run,
    .output (ascii "hi"), .poll true, .dropWriter, .exit 3, .closeStdout, .poll true,
    .closed]

theorem split_delivers_piped :
    ∃ s, run step (start .exec) piped = some s ∧ s.produced = [ascii "hi"] ∧
      s.Delivered := by
  have hsome : (run step (start .exec) piped).map (fun s => (s.ended, s.produced)) =
      some (true, [ascii "hi"]) := by decide +kernel
  obtain ⟨s, hrun, hs⟩ := Option.map_eq_some_iff.1 hsome
  obtain ⟨hended, hproduced⟩ := Prod.mk.inj hs
  exact ⟨s, hrun, hproduced, (split_delivers (by decide +kernel) hrun).1 hended⟩

/-- The writer is dropped behind the end of the input, before the command has run. -/
def cutOff : List Event :=
  [.send .eof, .dropWriter, .receive, .closed, .run, .output (ascii "hi"), .exit 3,
    .closeStdout]

/-- The end of the input is taken when the output has ended and the exit code has not come. -/
def overtaken : List Event :=
  [.output (ascii "hi"), .closeStdout, .poll false, .poll false, .send .eof, .receive,
    .exit 3, .poll false]

theorem split_loses_exit_code :
    (run step (start .exec) cutOff).map (fun s => (s.ended, s.produced, s.session.exitCode)) =
      some (true, [ascii "hi"], some 3) ∧
    (run step (start .exec) cutOff).map (fun s => driveExec s.sent) = some ([], 0) ∧
    (run step (start .raw) overtaken).map (fun s => (s.ended, driveExec s.sent)) =
      some (true, [.stdout (ascii "hi")], 0) := by
  decide +kernel

end Split

end CrossHostOps.SplitSession
