import CrossHostOps.NextEvent

/-!
The mediation task of `adapt_split` in `daemon/session/mod.rs`, around a `JumpserverSession` that
has been started: it takes commands and events in turn. Every command that it takes drops the future
of `next_event` where it waits.
-/

namespace CrossHostOps.SplitSession

open Text

inductive SessionCommand
  | pty (term : Str) (cols rows : ℕ)
  | env (key value : Str)
  | exec (command : Str)
  | shell
  | subsystem (name : Str)
  | resize (cols rows : ℕ)
  | signal (signal : Str)
  | data (bytes : Bytes)
  | eof
  deriving DecidableEq

/-- `apply_command`, for a session that has been started; `reads` says whether its task still takes
input. The errors go into the replies. -/
def applyCommand (reads : Bool) (session : JumpserverSession) : SessionCommand → JumpserverSession
  | .data bytes => if reads then session.writeStdin bytes else session
  | .eof => session.eof
  -- `jumpserver session already started`
  | .exec _ | .shell | .subsystem _ => session
  | .pty .. | .env .. | .resize .. | .signal _ => session

/-- The task, with what it has sent to the stream. -/
structure Mediation where
  commands : List SessionCommand
  session : JumpserverSession
  future : Await
  ended : Bool
  sent : List SessionEvent

namespace Mediation

def start (backend : Backend) (commands : List SessionCommand) : Mediation :=
  ⟨commands, .start backend, .fresh, false, []⟩

variable (m : Mediation)

/-- The task ends, and the session is dropped with it. -/
def finish : Mediation := { m with ended := true, session := m.session.eof }

/-- The branch of the `select!` for an event. -/
def mediate (exitFirst : Bool) : Mediation :=
  match m.session.poll exitFirst m.future with
  | (session, .pending future) => { m with session := session, future := future }
  | (session, .event e) =>
    { m with session := session, future := .fresh, sent := m.sent ++ [e] }
  | (session, .ended) => finish { m with session := session, future := .fresh }

/-- The branch for a command. -/
def receive (reads : Bool) : Option Mediation :=
  match m.commands with
  | command :: rest =>
    if m.ended then none
    else some { m with
      commands := rest, session := applyCommand reads m.session command, future := .fresh }
  | [] => none

/-! ### What the task keeps -/

/-- All output has been sent or waits to be; when the exit code has been sent it came last. -/
def Told (produced : List Bytes) : Prop := m.session.Told m.future m.ended m.sent produced

/-- What the task leaves to the task of the session. -/
structure Leaves (m m' : Mediation) : Prop where
  backend : m'.session.backend = m.session.backend
  stdoutOpen : m'.session.stdoutOpen = m.session.stdoutOpen
  exitCode : m'.session.exitCode = m.session.exitCode

variable {m} {m' : Mediation} {command : SessionCommand} {session : JumpserverSession}
  {reads : Bool} {produced : List Bytes}

/-- Commands change what the task of the session reads, and nothing else. -/
lemma exists_applyCommand (reads : Bool) (session : JumpserverSession) (command : SessionCommand) :
    ∃ stdin stdinOpen, applyCommand reads session command =
      { session with stdin := stdin, stdinOpen := stdinOpen } := by
  cases command with
  | data bytes =>
    unfold applyCommand JumpserverSession.writeStdin
    split_ifs
    · exact ⟨_, _, rfl⟩
    · exact ⟨session.stdin, session.stdinOpen, rfl⟩
    · exact ⟨session.stdin, session.stdinOpen, rfl⟩
  | eof => exact ⟨_, _, rfl⟩
  | _ => exact ⟨session.stdin, session.stdinOpen, rfl⟩

/-- Commands never open the input again, and `eof` closes it. -/
lemma applyCommand_closes (h : .eof = command ∨ session.stdinOpen = false) :
    (applyCommand reads session command).stdinOpen = false := by
  cases command with
  | eof => rfl
  | data bytes =>
    have hclosed : session.stdinOpen = false := h.resolve_left nofun
    simp [applyCommand, JumpserverSession.writeStdin, hclosed]
  | _ => exact h.resolve_left nofun

lemma receive_eq_some : m.receive reads = some m' ↔ ∃ command rest, m.commands = command :: rest ∧
    m.ended = false ∧ m' = { m with
      commands := rest, session := applyCommand reads m.session command, future := .fresh } := by
  unfold receive
  cases m.commands with
  | nil => simp
  | cons command rest => cases m.ended <;> simp [eq_comm]

/-- What a command keeps that is not taken while the exit code is waited for. -/
lemma Told.receive (h : m.Told produced) (hfuture : m.future ≠ .exit)
    (hreceive : m.receive reads = some m') : m'.Told produced ∧ Leaves m m' := by
  obtain ⟨command, rest, -, -, rfl⟩ := receive_eq_some.1 hreceive
  obtain ⟨stdin, stdinOpen, hsession⟩ := exists_applyCommand reads m.session command
  have htold := (JumpserverSession.Told.restart h hfuture).stdin stdin stdinOpen
  rw [← hsession] at htold
  exact ⟨htold, by rw [hsession], by rw [hsession], by rw [hsession]⟩

/-- The end of the input stays in sight when a command is taken. -/
lemma receive_closes (hreceive : m.receive reads = some m')
    (h : .eof ∈ m.commands ∨ m.session.stdinOpen = false) :
    .eof ∈ m'.commands ∨ m'.session.stdinOpen = false := by
  obtain ⟨command, rest, hcommands, -, rfl⟩ := receive_eq_some.1 hreceive
  rw [hcommands] at h
  rcases h with hmem | hclosed
  · rcases List.mem_cons.1 hmem with heof | hrest
    · exact .inr (applyCommand_closes (.inl heof))
    · exact .inl hrest
  · exact .inr (applyCommand_closes (.inr hclosed))

lemma mediate_commands (m : Mediation) (exitFirst : Bool) :
    (m.mediate exitFirst).commands = m.commands := by
  unfold mediate
  split <;> rfl

/-- What a poll keeps, and what it does when the task of the session is done: it sends an event, or
ends. -/
lemma Told.mediate (h : m.Told produced)
    (hcode : m.session.backend = .exec → m.session.stdoutOpen = false → m.session.exitCode ≠ none)
    (exitFirst : Bool) :
    (m.mediate exitFirst).Told produced ∧ Leaves m (m.mediate exitFirst) ∧
      (m.session.stdinOpen = false → (m.mediate exitFirst).session.stdinOpen = false) ∧
      (m.session.stdoutOpen = false → m.session.exitCode ≠ none →
        (m.mediate exitFirst).ended = true ∨
          (m.mediate exitFirst).sent.length = m.sent.length + 1) := by
  obtain ⟨session, result, hpoll, same, htold⟩ := JumpserverSession.Told.poll h hcode exitFirst
  have hleaves : ∀ {m' : Mediation}, m'.session = session → Leaves m m' := by
    rintro m' rfl
    exact ⟨same.backend, same.stdoutOpen, same.exitCode⟩
  rw [Mediation.mediate, hpoll]
  cases result with
  | pending future =>
    refine ⟨htold.1, hleaves rfl, same.stdinOpen.trans, fun hclosed hexit => ?_⟩
    simp [hclosed, hexit] at htold
  | event e => exact ⟨htold, hleaves rfl, same.stdinOpen.trans, fun _ _ => .inr (by simp)⟩
  | ended =>
    exact ⟨htold.stdin _ _, ⟨same.backend, same.stdoutOpen, same.exitCode⟩, fun _ => rfl,
      fun _ _ => .inl rfl⟩

lemma Told.length_sent_le (h : m.Told produced) : m.sent.length ≤ produced.length + 1 :=
  JumpserverSession.Told.length_sent_le h

lemma Told.delivered (h : m.Told produced) (hended : m.ended = true) :
    ∃ code, m.session.exitCode = some code ∧
      m.sent = produced.map .stdout ++ [.exitStatus code] := by
  rw [Told, hended] at h
  exact JumpserverSession.Told.delivered h

end Mediation

end CrossHostOps.SplitSession
