import Mathlib.Logic.Function.Basic
import CrossHostOps.DriveExec

/-!
`spawn` of `daemon/session/local.rs` without a terminal: a child writes to two pipes, a task reads
each of them, a third one waits for the child, and all three send on one channel, which `drive_exec`
reads.
-/

namespace CrossHostOps.LocalExec

open Text Runs SplitSession DriveExec

/-- What has been written to a pipe, what of it has not been read, what the reader has read and not
sent yet, and whether the child and the reader still have their ends. -/
structure Pipe where
  buffer : Bytes
  held : Bytes
  written : Bytes
  writing : Bool
  reading : Bool

inductive Waiter
  | waiting
  | exited
  | done
  deriving DecidableEq

/-- The child and its tasks. The exit of a child that is killed has no code. -/
structure LocalSession where
  pipe : Stream → Pipe
  exit : Option (Option ℤ)
  waiter : Waiter
  sent : List SessionEvent

inductive Event
  /-- The child. -/
  | write (stream : Stream) (data : Bytes)
  | close (stream : Stream)
  | exit (status : Option ℤ)
  /-- `spawn_pipe_reader`: some bytes are read, or the end of the pipe; what was read is sent. -/
  | read (stream : Stream) (n : ℕ)
  | readEnd (stream : Stream)
  | send (stream : Stream)
  /-- `spawn_waiter`. -/
  | wait
  | waitEof
  deriving DecidableEq

/-- The bytes a reader takes at most. -/
def bufLen : ℕ := 8192

namespace LocalSession

def start : LocalSession := ⟨fun _ => ⟨[], [], [], true, true⟩, none, .waiting, []⟩

variable (s : LocalSession)

def setPipe (stream : Stream) (p : Pipe) : LocalSession :=
  { s with pipe := Function.update s.pipe stream p }

def step : Event → Option LocalSession
  | .write stream data =>
    if s.exit = none ∧ (s.pipe stream).writing then
      some (s.setPipe stream { s.pipe stream with
        buffer := (s.pipe stream).buffer ++ data, written := (s.pipe stream).written ++ data })
    else none
  | .close stream =>
    if s.exit = none then some (s.setPipe stream { s.pipe stream with writing := false }) else none
  | .exit status => if s.exit = none then some { s with exit := some status } else none
  | .read stream n =>
    if (s.pipe stream).reading ∧ (s.pipe stream).held = [] ∧ 0 < n ∧ n ≤ bufLen ∧
        n ≤ (s.pipe stream).buffer.length then
      some (s.setPipe stream { s.pipe stream with
        buffer := (s.pipe stream).buffer.drop n, held := (s.pipe stream).buffer.take n })
    else none
  | .readEnd stream =>
    if (s.pipe stream).reading ∧ (s.pipe stream).held = [] ∧ (s.pipe stream).buffer = [] ∧
        ((s.pipe stream).writing = false ∨ s.exit ≠ none) then
      some (s.setPipe stream { s.pipe stream with reading := false })
    else none
  | .send stream =>
    if (s.pipe stream).held ≠ [] then
      some { s.setPipe stream { s.pipe stream with held := [] } with
        sent := s.sent ++ [stream.event (s.pipe stream).held] }
    else none
  | .wait =>
    match s.waiter, s.exit with
    | .waiting, some status => some { s with
        waiter := .exited, sent := s.sent ++ [.exitStatus (status.getD 1)] }
    | _, _ => none
  | .waitEof =>
    match s.waiter with
    | .exited => some { s with waiter := .done, sent := s.sent ++ [.eof] }
    | _ => none

/-- `drive_exec` forwards every byte that the child has written. -/
def Complete : Prop :=
  ∀ stream, forwarded stream (driveExec s.sent).1 = (s.pipe stream).written

/-- The exit status is not sent before all that has been written has been read and sent. -/
def Drained : Event → Prop
  | .wait => ∀ stream, (s.pipe stream).held = [] ∧ (s.pipe stream).buffer = []
  | _ => True

instance decidableDrained : ∀ s e, Decidable (Drained s e)
  | s, .wait => decidable_of_iff
      (((s.pipe .stdout).held = [] ∧ (s.pipe .stdout).buffer = []) ∧
        (s.pipe .stderr).held = [] ∧ (s.pipe .stderr).buffer = [])
      ⟨fun h stream => stream.casesOn h.1 h.2, fun h => ⟨h .stdout, h .stderr⟩⟩
  | _, .write .. | _, .close _ | _, .exit _ | _, .read .. | _, .readEnd _ | _, .send _
  | _, .waitEof => inferInstanceAs (Decidable True)

variable {s} {s' : LocalSession} {status : Option ℤ}

/-- All that has been written to the pipes has been sent, or a reader has it, or it is in its
pipe. -/
def Read (sent : List SessionEvent) (pipe : Stream → Pipe) : Prop :=
  ∀ stream, output stream sent ++ ((pipe stream).held ++ (pipe stream).buffer) =
    (pipe stream).written

variable {stream : Stream} {p : Pipe} {e : Event}

lemma Read.setPipe {sent' : List SessionEvent} (h : Read s.sent s.pipe)
    (hp : output stream sent' ++ (p.held ++ p.buffer) = p.written)
    (hother : ∀ stream', stream' ≠ stream → output stream' sent' = output stream' s.sent) :
    Read sent' (s.setPipe stream p).pipe := by
  refine (Function.forall_update_iff s.pipe fun stream' q =>
    output stream' sent' ++ (q.held ++ q.buffer) = q.written).2 ⟨hp, fun stream' hstream => ?_⟩
  rw [hother stream' hstream]
  exact h stream'

lemma written_setPipe (hp : p.written = (s.pipe stream).written) (stream' : Stream) :
    ((s.setPipe stream p).pipe stream').written = (s.pipe stream').written :=
  (Function.forall_update_iff s.pipe fun stream' q => q.written = (s.pipe stream').written).2
    ⟨hp, fun _ _ => rfl⟩ stream'

/-- Before the exit status nothing is lost; behind it nothing is forwarded. -/
inductive Sound (s : LocalSession) : Prop
  | waiting (waiter : s.waiter = .waiting) (running : ¬ Terminated s.sent)
      (read : Read s.sent s.pipe)
  | told (before rest : List SessionEvent) (status : Option ℤ) (waiter : s.waiter ≠ .waiting)
      (exit : s.exit = some status) (running : ¬ Terminated before)
      (sent : s.sent = before ++ .exitStatus (status.getD 1) :: rest)

lemma sound_start : Sound start :=
  .waiting rfl (by simp [start, Terminated]) fun _ => rfl

lemma isTerminal_event (stream : Stream) (data : Bytes) :
    isTerminal (stream.event data) = false := by
  cases stream <;> rfl

lemma output_event (stream stream' : Stream) (data : Bytes) :
    output stream' [stream.event data] = if stream' = stream then data else [] := by
  cases stream <;> cases stream' <;> simp [Stream.event, output]

/-- As long as the waiter waits, what has been read has been sent. -/
lemma Sound.step_waiting (h : s.Sound) (hwaiter : s.waiter = .waiting) (he : e ≠ .wait)
    (hstep : s.step e = some s') : s'.Sound ∧ s'.waiter = .waiting := by
  cases h with
  | told before rest status waiter => exact absurd hwaiter waiter
  | waiting _ running read =>
    revert he hstep
    fun_cases LocalSession.step s e <;> intro he hstep <;> cases hstep
    next stream data _ =>
      refine ⟨.waiting hwaiter running (read.setPipe ?_ fun _ _ => rfl), hwaiter⟩
      simpa only [List.append_assoc, setPipe] using congrArg (· ++ data) (read stream)
    next stream _ =>
      exact ⟨.waiting hwaiter running (read.setPipe (read stream) fun _ _ => rfl), hwaiter⟩
    · exact ⟨.waiting hwaiter running read, hwaiter⟩
    next stream n hread =>
      refine ⟨.waiting hwaiter running (read.setPipe ?_ fun _ _ => rfl), hwaiter⟩
      have hstream := read stream
      rwa [hread.2.1, List.nil_append, ← List.take_append_drop n (s.pipe stream).buffer] at hstream
    next stream _ =>
      exact ⟨.waiting hwaiter running (read.setPipe (read stream) fun _ _ => rfl), hwaiter⟩
    next stream _ =>
      refine ⟨.waiting hwaiter ?_ (read.setPipe ?_ fun stream' hstream => ?_), hwaiter⟩
      · simp only [not_terminated] at running ⊢
        intro e he
        rcases List.mem_append.1 he with he | he
        · exact running e he
        · rw [List.mem_singleton.1 he]
          exact isTerminal_event stream _
      · rw [output_append, output_event, if_pos rfl, List.nil_append, List.append_assoc]
        exact read stream
      · rw [output_append, output_event, if_neg hstream, List.append_nil]
    · exact absurd rfl he
    next hexited =>
      rw [hwaiter] at hexited
      cases hexited

/-- What has not been sent when the exit status is sent is not forwarded. -/
lemma Sound.step_wait (h : s.Sound) (hstep : s.step .wait = some s') :
    s'.Sound ∧ s.waiter = .waiting ∧ s'.waiter ≠ .waiting ∧ (s'.Complete ↔ s.Drained .wait) := by
  simp only [step] at hstep
  split at hstep
  · rename_i status hwaiter hexit
    cases hstep
    cases h with
    | told before rest status waiter => exact absurd hwaiter waiter
    | waiting _ running read =>
      refine ⟨.told s.sent [] status nofun hexit running rfl, hwaiter, nofun,
        forall_congr' fun stream => ?_⟩
      rw [driveExec_status running, forwarded_driveExec running, ← read stream,
        List.self_eq_append_right, List.append_eq_nil_iff]
  · cases hstep

lemma step_exited (hexit : s.exit = some status) (hwaiter : s.waiter ≠ .waiting)
    (hstep : s.step e = some s') :
    s'.exit = s.exit ∧ s'.waiter ≠ .waiting ∧ (∃ more, s'.sent = s.sent ++ more) ∧
      ∀ stream, (s'.pipe stream).written = (s.pipe stream).written := by
  revert hstep
  fun_cases LocalSession.step s e <;> intro hstep <;> cases hstep
  next hrunning => simp [hexit] at hrunning
  next hrunning => simp [hexit] at hrunning
  next hrunning => simp [hexit] at hrunning
  · exact ⟨rfl, hwaiter, ⟨[], (List.append_nil _).symm⟩, written_setPipe rfl⟩
  · exact ⟨rfl, hwaiter, ⟨[], (List.append_nil _).symm⟩, written_setPipe rfl⟩
  · exact ⟨rfl, hwaiter, ⟨_, rfl⟩, written_setPipe rfl⟩
  next hwaiting => exact absurd hwaiting hwaiter
  · exact ⟨rfl, nofun, ⟨_, rfl⟩, fun _ => rfl⟩

/-- Behind the exit status the channel may grow, and nothing else changes for `drive_exec`. -/
lemma Sound.step_told (h : s.Sound) (hwaiter : s.waiter ≠ .waiting) (hstep : s.step e = some s') :
    s'.Sound ∧ s'.waiter ≠ .waiting ∧ (s'.Complete ↔ s.Complete) := by
  cases h with
  | waiting waiter => exact absurd waiter hwaiter
  | told before rest status _ exit running sent =>
    obtain ⟨hexit, hwaiter', ⟨more, hsent⟩, hwritten⟩ := step_exited exit hwaiter hstep
    have hsent' : s'.sent = before ++ .exitStatus (status.getD 1) :: (rest ++ more) := by
      simp [hsent, sent]
    refine ⟨.told before (rest ++ more) status hwaiter' (hexit.trans exit) running hsent', hwaiter',
      forall_congr' fun stream => ?_⟩
    rw [hsent', sent, driveExec_status running, driveExec_status running, hwritten]

/-- The waiter waits, or all output has been delivered. -/
def InTime (s : LocalSession) : Prop := s.waiter = .waiting ∨ s.Complete

lemma drained_of_ne (he : e ≠ .wait) : s.Drained e := by
  cases e with
  | wait => exact absurd rfl he
  | _ => trivial

lemma Sound.step (h : s.Sound) (hstep : s.step e = some s') :
    s'.Sound ∧ (s'.InTime ↔ s.InTime ∧ s.Drained e) := by
  unfold InTime
  by_cases hwait : e = .wait
  · subst hwait
    obtain ⟨hs', hwaiting, hwaiter', hcomplete⟩ := h.step_wait hstep
    simp [hs', hwaiting, hwaiter', hcomplete]
  · rw [and_iff_left (drained_of_ne hwait)]
    by_cases hwaiter : s.waiter = .waiting
    · obtain ⟨hs', hwaiter'⟩ := h.step_waiting hwaiter hwait hstep
      simp [hs', hwaiter, hwaiter']
    · obtain ⟨hs', hwaiter', hcomplete⟩ := h.step_told hwaiter hstep
      simp [hs', hwaiter, hwaiter', hcomplete]

/-- **`drive_exec` delivers all output of a local command** just when the exit status is sent with
nothing left in the pipes and with the readers. -/
theorem localExec_complete_iff {events : List Event} (hrun : run step start events = some s)
    (hexit : s.exit = some status) (htold : s.waiter ≠ .waiting) :
    (s.Complete ∧ (driveExec s.sent).2 = status.getD 1) ↔ Meets step Drained start events := by
  obtain ⟨hsound, hintime⟩ := run_iff_meets Sound.step sound_start hrun
  have hcode : (driveExec s.sent).2 = status.getD 1 := by
    cases hsound with
    | waiting waiter => exact absurd waiter htold
    | told before rest status' _ exit running sent =>
      rw [exit, Option.some.injEq] at hexit
      rw [sent, driveExec_status running, hexit]
  have hcomplete : s.InTime ↔ s.Complete := or_iff_right htold
  rw [and_iff_left hcode, ← hcomplete]
  exact hintime.trans (and_iff_right (.inl rfl))

/-- A child that writes to both streams, and whose output is read before the waiter runs. -/
def drained : List Event :=
  [.write .stdout (ascii "out"), .read .stdout 2, .write .stderr (ascii "err"),
    .exit (some 3), .send .stdout, .read .stderr 3, .read .stdout 1, .send .stdout, .send .stderr,
    .wait, .readEnd .stderr, .waitEof]

theorem localExec_complete_iff_drained :
    Meets step Drained start drained ∧
      ∃ s, run step start drained = some s ∧ s.Complete ∧ (driveExec s.sent).2 = 3 := by
  have hmeets : Meets step Drained start drained := by decide +kernel
  have hrun : run step start drained = some _ := rfl
  exact ⟨hmeets, _, hrun, (localExec_complete_iff hrun rfl fun h => by cases h).2 hmeets⟩

/-- The waiter is scheduled before the reader has read, or before it has sent what it read: the
child's output comes behind its exit status. -/
def overtaken : List (List Event) :=
  [[.wait, .read .stdout 3, .send .stdout], [.read .stdout 3, .wait, .send .stdout]].map
    ([.write .stdout (ascii "out"), .exit (some 0)] ++ ·)

theorem localExec_overtaken :
    overtaken.map (fun events => (run step start events).map fun s =>
        ((s.pipe .stdout).written, (s.pipe .stdout).buffer, driveExec s.sent)) =
      List.replicate 2 (some (ascii "out", [], [], 0)) := by
  decide +kernel

end LocalSession

end CrossHostOps.LocalExec
