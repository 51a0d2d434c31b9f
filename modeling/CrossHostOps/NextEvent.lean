import CrossHostOps.Text

/-!
`next_event` of `daemon/session/jumpserver.rs`, for a `JumpserverSession` whose `exec` has
succeeded. A future of it can be dropped where it waits, and the next one begins anew.
-/

namespace CrossHostOps.SplitSession

open Text List

inductive SessionEvent
  | stdout (data : Bytes)
  | stderr (data : Bytes)
  | exitStatus (code : ℤ)
  | exitSignal (name : Str)
  | eof
  deriving DecidableEq

/-- `exec` without a terminal runs the command when its input has ended; with one it passes bytes
through in both directions. -/
inductive Backend
  | exec
  | raw
  deriving DecidableEq

/-- A session whose command has been started. The queues are what the channels to and from its task
hold. -/
structure JumpserverSession where
  backend : Backend
  stdin : List Bytes
  stdinOpen : Bool
  stdout : List Bytes
  stdoutOpen : Bool
  exitCode : Option ℤ
  exitSeen : Bool
  exited : Bool
  pendingExit : Option ℤ

/-- Where a future of `next_event` stands. -/
inductive Await
  | fresh
  | receiving
  | selecting
  | exit
  deriving DecidableEq

inductive Poll
  | pending (future : Await)
  | event (e : SessionEvent)
  | ended

namespace JumpserverSession

variable (s : JumpserverSession)

def start (backend : Backend) : JumpserverSession where
  backend := backend
  stdin := []
  stdinOpen := true
  stdout := []
  stdoutOpen := true
  exitCode := none
  exitSeen := false
  exited := false
  pendingExit := none

def writeStdin (data : Bytes) : JumpserverSession :=
  if s.stdinOpen then { s with stdin := s.stdin ++ [data] } else s

def eof : JumpserverSession := { s with stdinOpen := false }

def awaitExit : JumpserverSession × Poll :=
  match s.exitCode with
  | some code => (s, .event (.exitStatus code))
  | none => (s, .pending .exit)

/-- `Backend::Exec`. -/
def pollExec : JumpserverSession × Poll :=
  match s.stdout with
  | d :: rest => ({ s with stdout := rest }, .event (.stdout d))
  | [] =>
    if s.stdoutOpen then (s, .pending .receiving)
    else if s.exitSeen then ({ s with exited := true }, .ended)
    else awaitExit { s with exitSeen := true }

/-- `Backend::Raw`, when the exit code has been taken before the end of the output. -/
def pollDrain (code : ℤ) : JumpserverSession × Poll :=
  match s.stdout with
  | d :: rest => ({ s with stdout := rest }, .event (.stdout d))
  | [] =>
    if s.stdoutOpen then (s, .pending .receiving)
    else ({ s with exited := true, pendingExit := none }, .event (.exitStatus code))

/-- `Backend::Raw`, for output and exit code at the same time. Where both are there either may come
first. -/
def pollSelect (exitFirst : Bool) : JumpserverSession × Poll :=
  match s.exitCode, exitFirst with
  | some code, true => pollDrain { s with pendingExit := some code } code
  | _, _ =>
    match s.stdout with
    | d :: rest => ({ s with stdout := rest }, .event (.stdout d))
    | [] =>
      if s.stdoutOpen then
        match s.exitCode with
        | some code => pollDrain { s with pendingExit := some code } code
        | none => (s, .pending .selecting)
      else awaitExit { s with exited := true }

def pollRaw (exitFirst : Bool) : JumpserverSession × Poll :=
  match s.pendingExit with
  | some code => s.pollDrain code
  | none =>
    match s.stdout with
    | d :: rest => ({ s with stdout := rest }, .event (.stdout d))
    | [] => if s.stdoutOpen then s.pollSelect exitFirst else awaitExit { s with exited := true }

def nextEvent (exitFirst : Bool) : JumpserverSession × Poll :=
  if s.exited then (s, .ended)
  else
    match s.backend with
    | .exec => s.pollExec
    | .raw => s.pollRaw exitFirst

/-- A future of `next_event` goes on where it stands. -/
def poll (exitFirst : Bool) : Await → JumpserverSession × Poll
  | .fresh => s.nextEvent exitFirst
  | .receiving =>
    match s.backend, s.pendingExit with
    | .raw, some code => s.pollDrain code
    | _, _ => s.pollExec
  | .selecting => s.pollSelect exitFirst
  | .exit => s.awaitExit

end JumpserverSession

/-! ### What a poll gives -/

namespace JumpserverSession

/-- The parts of a session that polling leaves alone. -/
structure Same (s s' : JumpserverSession) : Prop where
  backend : s'.backend = s.backend
  stdinOpen : s'.stdinOpen = s.stdinOpen
  stdoutOpen : s'.stdoutOpen = s.stdoutOpen
  exitCode : s'.exitCode = s.exitCode

/-- The exit code is still to be given. -/
structure Unspent (s : JumpserverSession) : Prop where
  captured : ∀ code, s.pendingExit = some code → s.exitCode = some code
  unseen : s.exitSeen = false

/-- The exit code is owed to a future that stands there. -/
structure Owes (s : JumpserverSession) (future : Await) : Prop extends Unspent s where
  exited : future ≠ .exit → s.exited = false
  receiving : future = .receiving → s.backend = .raw → s.pendingExit ≠ none
  selecting : future = .selecting → s.backend = .raw
  exit : future = .exit →
    s.backend = .raw ∧ s.exited = true ∧ s.stdout = [] ∧ s.stdoutOpen = false

variable {s s' : JumpserverSession}

lemma Unspent.owes (h : Unspent s) (hexited : s.exited = false) : Owes s .fresh :=
  ⟨h, fun _ => hexited, nofun, nofun, nofun⟩

lemma Owes.update {future : Await} (h : Owes s future) (hbackend : s'.backend = s.backend)
    (hexited : s'.exited = s.exited) (hpending : s'.pendingExit = s.pendingExit)
    (hunseen : s'.exitSeen = s.exitSeen)
    (hcaptured : ∀ code, s.pendingExit = some code → s'.exitCode = some code)
    (hexit : s.stdout = [] → s.stdoutOpen = false → s'.stdout = [] ∧ s'.stdoutOpen = false) :
    Owes s' future where
  captured := hpending ▸ hcaptured
  unseen := hunseen.trans h.unseen
  exited hf := hexited.trans (h.exited hf)
  receiving hf hraw := hpending ▸ h.receiving hf (hbackend ▸ hraw)
  selecting hf := hbackend.trans (h.selecting hf)
  exit hf := by
    obtain ⟨hraw, hex, hstdout, hclosed⟩ := h.exit hf
    exact ⟨hbackend.trans hraw, hexited.trans hex, hexit hstdout hclosed⟩

/-- The exit code has been given. -/
structure Settled (s : JumpserverSession) : Prop where
  stdout : s.stdout = []
  closed : s.stdoutOpen = false
  seen : match s.backend with
    | .exec => s.exitSeen = true
    | .raw => s.exited = true

/-- What may come of a poll while the exit code is owed. -/
inductive Polled (s : JumpserverSession) : JumpserverSession × Poll → Prop
  | pending {s' : JumpserverSession} {future : Await} (same : Same s s') (owes : Owes s' future)
      (stdout : s'.stdout = s.stdout) (unfinished : s.stdoutOpen = true ∨ s.exitCode = none) :
      Polled s (s', .pending future)
  | stdout {s' : JumpserverSession} {data : Bytes} (same : Same s s') (owes : Owes s' .fresh)
      (stdout : s.stdout = data :: s'.stdout) : Polled s (s', .event (.stdout data))
  | exit {s' : JumpserverSession} {code : ℤ} (same : Same s s') (settled : Settled s')
      (stdout : s.stdout = []) (exitCode : s.exitCode = some code) :
      Polled s (s', .event (.exitStatus code))

variable {s : JumpserverSession} {exitFirst : Bool} {future : Await}

/-- What a poll gives does not depend on the other parts. -/
lemma Polled.of_same {r : JumpserverSession × Poll} (h : Polled s' r) (hsame : Same s s')
    (hstdout : s'.stdout = s.stdout) : Polled s r := by
  have htrans : ∀ {s'' : JumpserverSession}, Same s' s'' → Same s s'' := fun hs =>
    ⟨hs.backend.trans hsame.backend, hs.stdinOpen.trans hsame.stdinOpen,
      hs.stdoutOpen.trans hsame.stdoutOpen, hs.exitCode.trans hsame.exitCode⟩
  cases h with
  | pending same owes stdout unfinished =>
    rw [hsame.stdoutOpen, hsame.exitCode] at unfinished
    exact .pending (htrans same) owes (stdout.trans hstdout) unfinished
  | stdout same owes stdout => exact .stdout (htrans same) owes (hstdout ▸ stdout)
  | exit same settled stdout exitCode =>
    exact .exit (htrans same) settled (hstdout ▸ stdout) (hsame.exitCode ▸ exitCode)

section Unspent

variable (h : Unspent s)

include h

lemma polled_stdout (hexited : s.exited = false) {data : Bytes} {rest : List Bytes}
    (hs : s.stdout = data :: rest) :
    Polled s ({ s with stdout := rest }, .event (.stdout data)) :=
  .stdout ⟨rfl, rfl, rfl, rfl⟩ (Unspent.owes ⟨h.captured, h.unseen⟩ hexited) hs

lemma polled_exec (hexec : s.backend = .exec) (hexited : s.exited = false)
    (hcode : s.stdoutOpen = false → s.exitCode ≠ none) : Polled s s.pollExec := by
  fun_cases pollExec s
  next hs => exact polled_stdout h hexited hs
  next hopen =>
    have howes : Owes s .receiving := ⟨h, fun _ => hexited, by simp [hexec], nofun, nofun⟩
    exact .pending ⟨rfl, rfl, rfl, rfl⟩ howes rfl (.inl hopen)
  next hseen =>
    rw [h.unseen] at hseen
    cases hseen
  next hs hclosed _ =>
    -- the exit code has been sent before the output was closed
    rw [Bool.not_eq_true] at hclosed
    obtain ⟨code, hexit⟩ := Option.ne_none_iff_exists'.1 (hcode hclosed)
    simp only [hexit]
    exact .exit ⟨rfl, rfl, rfl, hexit.symm⟩ ⟨hs, hclosed, by simp [hexec]⟩ hs hexit

variable (hraw : s.backend = .raw)

include hraw

lemma polled_awaitExit (hs : s.stdout = []) (hclosed : s.stdoutOpen = false)
    (hexited : s.exited = true) : Polled s s.awaitExit := by
  unfold awaitExit
  cases hexit : s.exitCode with
  | none =>
    have howes : Owes s .exit := ⟨h, nofun, nofun, nofun, fun _ => ⟨hraw, hexited, hs, hclosed⟩⟩
    exact .pending ⟨rfl, rfl, rfl, rfl⟩ howes rfl (.inr hexit)
  | some code =>
    refine .exit ⟨rfl, rfl, rfl, rfl⟩ ⟨hs, hclosed, ?_⟩ hs hexit
    simp [hraw, hexited]

lemma polled_close (hs : s.stdout = []) (hclosed : s.stdoutOpen = false) :
    Polled s (awaitExit { s with exited := true }) := by
  have hclosing : Unspent { s with exited := true } := ⟨h.captured, h.unseen⟩
  exact (polled_awaitExit hclosing hraw hs hclosed rfl).of_same ⟨rfl, rfl, rfl, rfl⟩ rfl

variable (hexited : s.exited = false)

include hexited

lemma polled_drain {code : ℤ} (hpending : s.pendingExit = some code) :
    Polled s (s.pollDrain code) := by
  fun_cases pollDrain s code
  next hs => exact polled_stdout h hexited hs
  next hopen =>
    have howes : Owes s .receiving := ⟨h, fun _ => hexited, by simp [hpending], nofun, nofun⟩
    exact .pending ⟨rfl, rfl, rfl, rfl⟩ howes rfl (.inl hopen)
  next hs hclosed =>
    rw [Bool.not_eq_true] at hclosed
    exact .exit ⟨rfl, rfl, rfl, rfl⟩ ⟨hs, hclosed, by simp [hraw]⟩ hs (h.captured code hpending)

lemma polled_capture {code : ℤ} (hexit : s.exitCode = some code) :
    Polled s (pollDrain { s with pendingExit := some code } code) := by
  have hcaptured : Unspent { s with pendingExit := some code } := by
    refine ⟨?_, h.unseen⟩
    rintro code' ⟨⟩
    exact hexit
  exact (polled_drain hcaptured hraw hexited rfl).of_same ⟨rfl, rfl, rfl, rfl⟩ rfl

lemma polled_select (exitFirst : Bool) : Polled s (s.pollSelect exitFirst) := by
  fun_cases pollSelect s exitFirst
  next hexit => exact polled_capture h hraw hexited hexit
  next hs _ => exact polled_stdout h hexited hs
  next hexit _ => exact polled_capture h hraw hexited hexit
  next hopen _ _ =>
    have howes : Owes s .selecting := ⟨h, fun _ => hexited, nofun, fun _ => hraw, nofun⟩
    exact .pending ⟨rfl, rfl, rfl, rfl⟩ howes rfl (.inl hopen)
  next hs hclosed _ => exact polled_close h hraw hs (by simpa using hclosed)

lemma polled_raw (exitFirst : Bool) : Polled s (s.pollRaw exitFirst) := by
  fun_cases pollRaw s exitFirst
  next hpending => exact polled_drain h hraw hexited hpending
  next hs => exact polled_stdout h hexited hs
  · exact polled_select h hraw hexited exitFirst
  next hs hclosed => exact polled_close h hraw hs (by simpa using hclosed)

end Unspent

/-- **While the exit code is owed a poll gives the next output, or then the exit code.** -/
theorem polled (howes : Owes s future)
    (hcode : s.backend = .exec → s.stdoutOpen = false → s.exitCode ≠ none) :
    Polled s (s.poll exitFirst future) := by
  cases future with
  | fresh =>
    have hexited := howes.exited nofun
    rw [poll, nextEvent, hexited]
    cases hbackend : s.backend with
    | exec => exact polled_exec howes.toUnspent hbackend hexited (hcode hbackend)
    | raw => exact polled_raw howes.toUnspent hbackend hexited exitFirst
  | receiving =>
    have hexited := howes.exited nofun
    cases hbackend : s.backend with
    | exec =>
      simp only [poll, hbackend]
      exact polled_exec howes.toUnspent hbackend hexited (hcode hbackend)
    | raw =>
      obtain ⟨code, hpending⟩ := Option.ne_none_iff_exists'.1 (howes.receiving rfl hbackend)
      simp only [poll, hbackend, hpending]
      exact polled_drain howes.toUnspent hbackend hexited hpending
  | selecting =>
    exact polled_select howes.toUnspent (howes.selecting rfl) (howes.exited nofun) exitFirst
  | exit =>
    obtain ⟨hraw, hexited, hs, hclosed⟩ := howes.exit rfl
    exact polled_awaitExit howes.toUnspent hraw hs hclosed hexited

/-- When the exit code has been given a poll ends. -/
lemma poll_settled (h : Settled s) (exitFirst : Bool) :
    ∃ s', s.poll exitFirst .fresh = (s', .ended) ∧ Same s s' ∧ Settled s' := by
  obtain ⟨hs, hclosed, hseen⟩ := h
  obtain ⟨backend, stdin, stdinOpen, stdout, stdoutOpen, exitCode, exitSeen, exited, pending⟩ := s
  subst hs hclosed
  cases exited with
  | true => exact ⟨_, rfl, ⟨rfl, rfl, rfl, rfl⟩, rfl, rfl, hseen⟩
  | false =>
    cases backend with
    | exec =>
      subst hseen
      exact ⟨_, rfl, ⟨rfl, rfl, rfl, rfl⟩, rfl, rfl, rfl⟩
    | raw => cases hseen

/-! ### What a stream is told -/

/-- Of a session that is polled again and again all output has been sent or waits to be; when the
exit code has been sent it came last. -/
inductive Told (s : JumpserverSession) (future : Await) (ended : Bool) (sent : List SessionEvent)
    (produced : List Bytes) : Prop
  | owing (running : ended = false) (owes : s.Owes future)
      (output : sent ++ s.stdout.map .stdout = produced.map .stdout)
  | settled (code : ℤ) (settled : s.Settled) (future : future = .fresh)
      (exitCode : s.exitCode = some code)
      (output : sent = produced.map .stdout ++ [.exitStatus code])

lemma told_start (backend : Backend) : Told (start backend) .fresh false [] [] :=
  .owing rfl (Unspent.owes ⟨nofun, rfl⟩ rfl) rfl

variable {ended : Bool} {sent : List SessionEvent} {produced : List Bytes}

namespace Told

variable (h : Told s future ended sent produced)

include h

lemma stdin (stdin : List Bytes) (stdinOpen : Bool) :
    Told { s with stdin := stdin, stdinOpen := stdinOpen } future ended sent produced := by
  cases h with
  | owing running owes output =>
    exact .owing running (owes.update rfl rfl rfl rfl owes.captured fun hs hc => ⟨hs, hc⟩) output
  | settled code settled future exitCode output =>
    exact .settled code ⟨settled.stdout, settled.closed, settled.seen⟩ future exitCode output

/-- A future that does not wait for the exit code may be dropped. -/
lemma restart (hfuture : future ≠ .exit) : Told s .fresh ended sent produced := by
  cases h with
  | owing running owes output =>
    exact .owing running (owes.toUnspent.owes (owes.exited hfuture)) output
  | settled code settled future exitCode output => exact .settled code settled rfl exitCode output

lemma output (hopen : s.stdoutOpen = true) (data : Bytes) :
    Told { s with stdout := s.stdout ++ [data] } future ended sent (produced ++ [data]) := by
  cases h with
  | owing running owes output =>
    refine .owing running (owes.update rfl rfl rfl rfl owes.captured fun _ hclosed => ?_) ?_
    · rw [hopen] at hclosed
      cases hclosed
    · simp [← append_assoc, output]
  | settled code settled => exact absurd (hopen.symm.trans settled.closed) (by decide)

lemma exit (hnone : s.exitCode = none) (code : ℤ) :
    Told { s with exitCode := some code } future ended sent produced := by
  cases h with
  | owing running owes output =>
    refine .owing running (owes.update rfl rfl rfl rfl ?_ fun hs hc => ⟨hs, hc⟩) output
    intro code' hcode
    rw [owes.captured code' hcode] at hnone
    cases hnone
  | settled code' settled future exitCode => exact absurd (hnone.symm.trans exitCode) nofun

lemma close (hopen : s.stdoutOpen = true) :
    Told { s with stdoutOpen := false } future ended sent produced := by
  cases h with
  | owing running owes output =>
    exact .owing running (owes.update rfl rfl rfl rfl owes.captured fun hs _ => ⟨hs, rfl⟩) output
  | settled code settled => exact absurd (hopen.symm.trans settled.closed) (by decide)

/-- **What a poll tells.** -/
theorem poll (hcode : s.backend = .exec → s.stdoutOpen = false → s.exitCode ≠ none)
    (exitFirst : Bool) :
    ∃ s' result, s.poll exitFirst future = (s', result) ∧ Same s s' ∧
      match result with
      | .pending future' => Told s' future' ended sent produced ∧
          (s.stdoutOpen = true ∨ s.exitCode = none)
      | .event e => Told s' .fresh ended (sent ++ [e]) produced
      | .ended => Told s' .fresh true sent produced := by
  cases h with
  | owing running owes output =>
    have hpolled : s.Polled (s.poll exitFirst future) := polled owes hcode
    cases hpoll : s.poll exitFirst future with
    | mk s' result =>
      rw [hpoll] at hpolled
      refine ⟨s', result, rfl, ?_⟩
      cases hpolled with
      | pending same owes' stdout unfinished =>
        exact ⟨same, .owing running owes' (by rw [stdout]; exact output), unfinished⟩
      | stdout same owes' stdout =>
        rw [stdout] at output
        exact ⟨same, .owing running owes' (by simpa using output)⟩
      | exit same settled stdout exitCode =>
        rw [stdout, map_nil, append_nil] at output
        exact ⟨same, .settled _ settled rfl (same.exitCode.trans exitCode) (by rw [output])⟩
  | settled code settled hfuture exitCode output =>
    obtain ⟨s', hpoll, same, settled'⟩ := poll_settled settled exitFirst
    rw [hfuture, hpoll]
    exact ⟨s', .ended, rfl, same, .settled code settled' rfl (same.exitCode.trans exitCode) output⟩

lemma length_sent_le : sent.length ≤ produced.length + 1 := by
  cases h with
  | owing running owes output =>
    have hlen := congrArg length output
    simp only [length_append, length_map] at hlen
    omega
  | settled code settled future exitCode output =>
    rw [output, length_append, length_map, length_singleton]

end Told

lemma Told.delivered (h : Told s future true sent produced) :
    ∃ code, s.exitCode = some code ∧ sent = produced.map .stdout ++ [.exitStatus code] := by
  cases h with
  | owing running => cases running
  | settled code settled future exitCode output => exact ⟨code, exitCode, output⟩

end JumpserverSession

end CrossHostOps.SplitSession
