import CrossHostOps.Mediation
import CrossHostOps.Runs

/-!
A raw session behind `adapt_split` of `daemon/session/mod.rs`: an interactive command, a shell or
the SFTP server that `start_raw` of `daemon/session/jumpserver.rs` has started.
-/

namespace CrossHostOps.RawSession

open Text Runs SplitSession

/-- The task that `start_raw` spawns. When the passthrough returns the output ends; the shell is
handed back before the exit code is sent. -/
inductive Task
  | passthrough
  | returned
  | handedBack
  | done
  deriving DecidableEq

/-- A raw session that has been split, with what the passthrough has sent to it. -/
structure Raw extends Mediation where
  task : Task
  produced : List Bytes

/-- The writer, which is there all the time, sends a command; the mediation task takes one, or
polls for an event; the task of the session goes on. -/
inductive Event
  | send (command : SessionCommand)
  | receive
  | poll (exitFirst : Bool)
  | readStdin
  | output (data : Bytes)
  | closeStdout
  | returnShell
  | exit (code : ℤ)

namespace Raw

/-- A session that has been started, with the commands that wait behind the one that did it. -/
def start (commands : List SessionCommand) : Raw where
  toMediation := .start .raw commands
  task := .passthrough
  produced := []

variable (s : Raw)

def step : Event → Option Raw
  | .send command => some { s with commands := s.commands ++ [command] }
  | .receive =>
    match s.receive (s.task = .passthrough) with
    | some m => some { s with toMediation := m }
    | none => none
  | .poll exitFirst =>
    if s.ended then none else some { s with toMediation := s.mediate exitFirst }
  | .readStdin =>
    match s.task, s.session.stdin with
    | .passthrough, _ :: rest => some { s with session := { s.session with stdin := rest } }
    | _, _ => none
  | .output data =>
    match s.task with
    | .passthrough => some { s with
        session := { s.session with stdout := s.session.stdout ++ [data] }
        produced := s.produced ++ [data] }
    | _ => none
  | .closeStdout =>
    match s.task with
    | .passthrough => some { s with
        session := { s.session with stdoutOpen := false }, task := .returned }
    | _ => none
  | .returnShell =>
    match s.task with
    | .returned => some { s with task := .handedBack }
    | _ => none
  | .exit code =>
    match s.task with
    | .handedBack => some { s with
        session := { s.session with exitCode := some code }, task := .done }
    | _ => none

end Raw

/-! ### What holds of a raw session -/

/-- How far the task of the session has come. -/
def Task.Fits (session : JumpserverSession) : Task → Prop
  | .passthrough => session.stdoutOpen = true ∧ session.exitCode = none
  | .returned | .handedBack => session.stdoutOpen = false ∧ session.exitCode = none
  | .done => session.stdoutOpen = false ∧ session.exitCode ≠ none

namespace Task

variable {task : Task} {session session' : JumpserverSession}

lemma Fits.of_eq (h : task.Fits session) (hopen : session'.stdoutOpen = session.stdoutOpen)
    (hexit : session'.exitCode = session.exitCode) : task.Fits session' := by
  unfold Fits at h ⊢
  rw [hopen, hexit]
  exact h

lemma Fits.leaves {m m' : Mediation} (h : task.Fits m.session) (hleaves : m.Leaves m') :
    task.Fits m'.session :=
  h.of_eq hleaves.stdoutOpen hleaves.exitCode

end Task

namespace Raw

/-- All output has been sent or waits to be; when the exit code has been sent it came last. -/
structure Kept (s : Raw) : Prop where
  raw : s.session.backend = .raw
  told : s.Told s.produced
  fits : s.task.Fits s.session

/-- The session counts as ended, and the exit code has not been sent. -/
structure Lost (s : Raw) : Prop where
  exited : s.session.exited = true
  future : s.future = .fresh
  unsent : ∀ code, .exitStatus code ∉ s.sent

/-- No command is taken while the exit code is waited for behind the end of the output. -/
def Undisturbed (s : Raw) : Event → Prop
  | .receive => s.future ≠ .exit
  | _ => True

variable {s s' : Raw}

/-- What a poll keeps, and what it does when the task of the session is done: it sends an event, or
ends. -/
lemma Kept.mediate (h : Kept s) (exitFirst : Bool) :
    Kept { s with toMediation := s.mediate exitFirst } ∧
      (s.task = .done → (s.mediate exitFirst).ended = true ∨
        (s.mediate exitFirst).sent.length = s.sent.length + 1) := by
  obtain ⟨htold, hleaves, -, hprogress⟩ := h.told.mediate
    (fun hexec => by rw [h.raw] at hexec; cases hexec) exitFirst
  refine ⟨⟨hleaves.backend.trans h.raw, htold, h.fits.leaves hleaves⟩, fun hdone => ?_⟩
  have hfits := h.fits
  rw [hdone] at hfits
  exact hprogress hfits.1 hfits.2

/-- **Every event that does not disturb keeps what is owed.** -/
theorem Kept.step {e : Event} (h : Kept s) (hquiet : Undisturbed s e)
    (hstep : s.step e = some s') : Kept s' := by
  obtain ⟨hraw, htold, hfits⟩ := h
  revert hquiet hstep
  fun_cases Raw.step s e <;> intro hquiet hstep <;> cases hstep
  · exact ⟨hraw, htold, hfits⟩
  next hreceive =>
    obtain ⟨htold', hleaves⟩ := htold.receive hquiet hreceive
    exact ⟨hleaves.backend.trans hraw, htold', hfits.leaves hleaves⟩
  · exact (Kept.mediate ⟨hraw, htold, hfits⟩ _).1
  · exact ⟨hraw, htold.stdin _ _, hfits.of_eq rfl rfl⟩
  next htask =>
    have hopen : s.session.stdoutOpen = true := by
      rw [htask] at hfits
      exact hfits.1
    exact ⟨hraw, htold.output hopen _, hfits.of_eq rfl rfl⟩
  next htask =>
    rw [htask] at hfits
    exact ⟨hraw, htold.close hfits.1, rfl, hfits.2⟩
  next htask =>
    rw [htask] at hfits
    exact ⟨hraw, htold, hfits⟩
  next htask =>
    rw [htask] at hfits
    exact ⟨hraw, htold.exit hfits.2 _, hfits.1, Option.some_ne_none _⟩

/-! ### What is lost -/

/-- A command that is taken where the exit code is waited for drops the only future that would give
it. -/
lemma Kept.disturb {e : Event} (h : Kept s) (hdisturb : ¬ Undisturbed s e)
    (hstep : s.step e = some s') : Lost s' := by
  revert hdisturb hstep
  fun_cases Raw.step s e <;> intro hdisturb hstep <;> cases hstep <;>
    try exact absurd trivial hdisturb
  next hreceive =>
    have hfuture : s.future = .exit := not_not.1 hdisturb
    obtain ⟨command, rest, -, -, rfl⟩ := Mediation.receive_eq_some.1 hreceive
    obtain ⟨stdin, stdinOpen, hsession⟩ := Mediation.exists_applyCommand _ s.session command
    cases h.told with
    | owing running owes output =>
      obtain ⟨-, hexited, -⟩ := owes.exit hfuture
      refine ⟨by rw [hsession]; exact hexited, rfl, fun code hmem => ?_⟩
      have hmem' : SessionEvent.exitStatus code ∈ s.produced.map .stdout :=
        output ▸ List.mem_append_left _ hmem
      simp at hmem'
    | settled code settled future =>
      rw [hfuture] at future
      cases future

lemma Lost.step {e : Event} (h : Lost s) (hstep : s.step e = some s') : Lost s' := by
  revert hstep
  fun_cases Raw.step s e <;> intro hstep <;> cases hstep
  · exact ⟨h.exited, h.future, h.unsent⟩
  next hreceive =>
    obtain ⟨command, rest, -, -, rfl⟩ := Mediation.receive_eq_some.1 hreceive
    obtain ⟨stdin, stdinOpen, hsession⟩ := Mediation.exists_applyCommand _ s.session command
    exact ⟨by rw [hsession]; exact h.exited, rfl, h.unsent⟩
  next exitFirst _ =>
    have hpoll : s.session.poll exitFirst s.future = (s.session, .ended) := by
      rw [h.future, JumpserverSession.poll, JumpserverSession.nextEvent, if_pos h.exited]
    rw [Mediation.mediate, hpoll]
    exact ⟨h.exited, rfl, h.unsent⟩
  all_goals exact ⟨h.exited, h.future, h.unsent⟩

/-! ### The end of a session -/

/-- The stream has brought all the output, in order, and then the exit code. -/
def Delivered (s : Raw) : Prop :=
  ∃ code, s.session.exitCode = some code ∧ s.sent = s.produced.map .stdout ++ [.exitStatus code]

lemma Kept.delivered (h : Kept s) (hended : s.ended = true) : s.Delivered :=
  h.told.delivered hended

lemma Lost.not_delivered (h : Lost s) : ¬ s.Delivered := by
  rintro ⟨code, -, hsent⟩
  exact h.unsent code (by simp [hsent])

/-- When the task of the session is done the mediation task comes to its end by polling alone. -/
lemma Kept.exists_end (h : Kept s) (hdone : s.task = .done) (exitFirst : Bool) :
    ∃ k s', run Raw.step s (List.replicate k (.poll exitFirst)) = some s' ∧
      (Kept s' ∧ s'.task = .done ∧ s'.produced = s.produced) ∧ s'.ended = true := by
  refine exists_run_replicate (fun s' => s'.produced.length + 1 - s'.sent.length) ?_
    ⟨h, hdone, rfl⟩
  rintro t ⟨hkept, htask, hproduced⟩ hended
  have hstep : t.step (.poll exitFirst) = some { t with toMediation := t.mediate exitFirst } := by
    simp [Raw.step, hended]
  obtain ⟨hkept', hprogress⟩ := hkept.mediate exitFirst
  refine ⟨_, hstep, ⟨hkept', htask, hproduced⟩, ?_⟩
  refine (hprogress htask).imp_right fun hsent => ?_
  have hle := hkept'.told.length_sent_le
  dsimp only at hle ⊢
  omega

/-- The session can come to an end from here, with nothing disturbed, and all is delivered. -/
def Finishes (s : Raw) : Prop :=
  ∃ s', Leads Raw.step Undisturbed s s' ∧ s'.ended = true ∧ s'.Delivered

lemma Kept.finishes_step {e : Event} (h : Kept s) (hstep : s.step e = some s')
    (hquiet : Undisturbed s e) (hnext : Kept s' → Finishes s') : Finishes s := by
  obtain ⟨t, hleads, hended⟩ := hnext (h.step hquiet hstep)
  exact ⟨t, hleads.head hquiet hstep, hended⟩

lemma Kept.finishes_done (h : Kept s) (hdone : s.task = .done) : Finishes s := by
  obtain ⟨k, s', hpolls, ⟨hkept, -⟩, hended⟩ := h.exists_end hdone true
  exact ⟨s', .replicate (e := .poll true) (fun _ => trivial) hpolls, hended, hkept.delivered hended⟩

lemma Kept.finishes_handedBack (h : Kept s) (htask : s.task = .handedBack) : Finishes s := by
  have hstep : s.step (.exit 0) = some { s with
      session := { s.session with exitCode := some 0 }, task := .done } := by
    simp [Raw.step, htask]
  exact h.finishes_step hstep trivial fun hkept => hkept.finishes_done rfl

lemma Kept.finishes_returned (h : Kept s) (htask : s.task = .returned) : Finishes s := by
  have hstep : s.step .returnShell = some { s with task := .handedBack } := by
    simp [Raw.step, htask]
  exact h.finishes_step hstep trivial fun hkept => hkept.finishes_handedBack rfl

/-- From every state the session can come to its end. -/
lemma Kept.finishes (h : Kept s) : Finishes s := by
  cases htask : s.task with
  | passthrough =>
    have hstep : s.step .closeStdout = some { s with
        session := { s.session with stdoutOpen := false }, task := .returned } := by
      simp [Raw.step, htask]
    exact h.finishes_step hstep trivial fun hkept => hkept.finishes_returned rfl
  | returned => exact h.finishes_returned htask
  | handedBack => exact h.finishes_handedBack htask
  | done => exact h.finishes_done htask

lemma kept_start (commands : List SessionCommand) : Kept (start commands) :=
  ⟨rfl, JumpserverSession.told_start .raw, rfl, rfl⟩

/-- **A raw session delivers all its output and its exit status if, and only if, no command is taken
while the exit code is waited for behind the end of the output.** In a run without such a command
the mediation task gets to its end by polling alone once the task of the session is done, and
nothing that has happened keeps it from there. -/
theorem raw_delivers_iff {commands : List SessionCommand} {events : List Event}
    (hrun : run step (start commands) events = some s) :
    (s.ended = true →
      (s.Delivered ↔ Meets step Undisturbed (start commands) events)) ∧
    (Meets step Undisturbed (start commands) events →
      (s.task = .done → ∀ exitFirst, ∃ k s',
        run step s (List.replicate k (.poll exitFirst)) = some s' ∧ s'.ended = true ∧
          s'.produced = s.produced ∧ s'.Delivered) ∧
      ∃ s', Leads step Undisturbed s s' ∧ s'.ended = true ∧ s'.Delivered) := by
  obtain ⟨hkept, hlost⟩ := run_dichotomy Kept.step Kept.disturb Lost.step (kept_start commands) hrun
  refine ⟨fun hended => ⟨fun hdelivered => ?_, fun hmeets => (hkept hmeets).delivered hended⟩,
    fun hmeets => ⟨fun hdone exitFirst => ?_, (hkept hmeets).finishes⟩⟩
  · by_contra hdisturbed
    exact (hlost hdisturbed).not_delivered hdelivered
  · obtain ⟨k, s', hpolls, ⟨hkept', -, hproduced⟩, hended⟩ :=
      (hkept hmeets).exists_end hdone exitFirst
    exact ⟨k, s', hpolls, hended, hproduced, hkept'.delivered hended⟩

instance decidableUndisturbed (s : Raw) : ∀ e, Decidable (Undisturbed s e)
  | .receive => inferInstanceAs (Decidable (s.future ≠ .exit))
  | .send _ | .poll _ | .readStdin | .output _ | .closeStdout | .returnShell | .exit _ =>
    inferInstanceAs (Decidable True)

/-- Commands come all the time, but none where the exit code is waited for. -/
def busy : List Event :=
  [.receive, .poll true, .output (ascii "$ "), .send (.data (ascii "x")), .receive,
    .readStdin, .poll true, .poll true, .send (.resize 80 24), .receive, .output (ascii "x"),
    .closeStdout, .returnShell, .exit 3, .send .eof, .poll true, .poll true, .receive, .poll true]

theorem raw_delivers_busy :
    ∃ s, run step (start [.signal "INT"]) busy = some s ∧
      s.produced = [ascii "$ ", ascii "x"] ∧ s.session.exitCode = some 3 ∧
      s.Delivered := by
  have hsome : (run step (start [.signal "INT"]) busy).map
      (fun s => (s.ended, s.produced, s.session.exitCode)) =
      some (true, [ascii "$ ", ascii "x"], some 3) := by decide +kernel
  obtain ⟨s, hrun, hs⟩ := Option.map_eq_some_iff.1 hsome
  simp only [Prod.mk.injEq] at hs
  obtain ⟨hended, hproduced, hexit⟩ := hs
  refine ⟨s, hrun, hproduced, hexit, ((raw_delivers_iff hrun).1 hended).2 ?_⟩
  decide +kernel

/-- The window is resized between the end of the output and the exit code. -/
def resized : List Event :=
  [.output (ascii "hi"), .poll true, .closeStdout, .poll true, .send (.resize 80 24),
    .receive, .returnShell, .exit 3, .poll true]

/-- The stream ends without the exit status. -/
theorem raw_loses_exit_status :
    (run step (start []) resized).map (fun s => (s.ended, s.session.exitCode, s.sent)) =
      some (true, some 3, [.stdout (ascii "hi")]) := by
  decide +kernel

end Raw

end CrossHostOps.RawSession
