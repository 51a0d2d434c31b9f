import CrossHostOps.Mediation
import CrossHostOps.Runs

/-!
The input of a local process: `driver` and `WriteSide` of `daemon/session/local.rs` on Unix. What
comes before `exec` or `shell` waits, and is flushed when the process has been started; to a pipe
all of it is written, to a terminal each piece in one write.
-/

namespace CrossHostOps.LocalStdin

open Text Runs List
open SplitSession (SessionCommand)

/-- What a process is given: a byte, or the end of its input. To a terminal the end is written as
`\x04`, a pipe is closed. -/
inductive Input
  | byte (b : UInt8)
  | endOfInput
  deriving DecidableEq

/-- `Pipe(None)` is a pipe that has been closed. -/
inductive WriteSide
  | pty
  | pipe (stdin : Bool)
  deriving DecidableEq

/-- What the kernel says to a write. -/
inductive Answer
  | wouldBlock
  | wrote (n : ℕ)
  deriving DecidableEq

/-- What the driver has to write before it takes the next command. -/
inductive Work
  | write (data : Bytes)
  | eof

def inputOf (data : Bytes) : List Input := data.map .byte

def Work.input : Work → List Input
  | .write data => inputOf data
  | .eof => [.endOfInput]

def Work.bytes : Work → Bytes
  | .write data => data
  | .eof => [4]

namespace Answer

def Fits (data : Bytes) : Answer → Prop
  | .wouldBlock => True
  | .wrote n => n ≤ data.length ∧ (data ≠ [] → 0 < n)

instance (data : Bytes) : ∀ answer : Answer, Decidable (answer.Fits data)
  | .wouldBlock => inferInstanceAs (Decidable True)
  | .wrote n => inferInstanceAs (Decidable (n ≤ data.length ∧ (data ≠ [] → 0 < n)))

/-- The kernel takes a write whole, or it would block; and the write of the end would not block. -/
def Takes (answer : Answer) : Work → Prop
  | .write data => answer = .wouldBlock ∨ answer = .wrote data.length
  | .eof => answer ≠ .wouldBlock

instance (answer : Answer) : ∀ work, Decidable (answer.Takes work)
  | .write data =>
    inferInstanceAs (Decidable (answer = .wouldBlock ∨ answer = .wrote data.length))
  | .eof => inferInstanceAs (Decidable (answer ≠ .wouldBlock))

end Answer

/-- What a process is given in one turn, what is left to be written, and the write side then. -/
structure Turn where
  got : List Input
  more : List Work
  side : WriteSide

def Turn.input (turn : Turn) : List Input := turn.got ++ turn.more.flatMap Work.input

namespace WriteSide

/-- One turn of `write`: what is accepted, and what is still to be written. -/
def write (data : Bytes) (answer : Answer) : WriteSide → Bytes × Option Bytes
  | .pty =>
    match answer with
    | .wouldBlock => ([], some data)
    -- the rest of a partial write is dropped
    | .wrote n => (data.take n, none)
  | .pipe true =>
    if data = [] then ([], none)
    else
      match answer with
      | .wouldBlock => ([], some data)
      | .wrote n => (data.take n, if n < data.length then some (data.drop n) else none)
  | .pipe false => ([], none)

/-- `eof`: what is accepted, and the write side from then on. -/
def eof (answer : Answer) : WriteSide → List Input × WriteSide
  | .pty =>
    match answer with
    | .wouldBlock => ([], .pty)
    | .wrote _ => ([.endOfInput], .pty)
  | .pipe true => ([.endOfInput], .pipe false)
  | .pipe false => ([], .pipe false)

def turn (side : WriteSide) (answer : Answer) : Work → Turn
  | .write data =>
    let (got, rest) := side.write data answer
    ⟨inputOf got, (rest.map .write).toList, side⟩
  | .eof =>
    let (got, side) := side.eof answer
    ⟨got, [], side⟩

end WriteSide

def commandInput : SessionCommand → List Input
  | .data bytes => inputOf bytes
  | .eof => [.endOfInput]
  | _ => []

/-- The driver, with all input that it has been sent and all that the process has accepted. -/
structure LocalSession where
  commands : List SessionCommand
  eofSent : Bool
  pty : Option (Str × ℕ × ℕ)
  backend : Option WriteSide
  pendingStdin : List Bytes
  pendingEof : Bool
  work : List Work
  accepted : List Input
  sent : List Input

inductive Event
  /-- The writer sends a command. -/
  | send (command : SessionCommand)
  /-- The driver takes one; the process that it asks for may not start. -/
  | take (spawns : Bool)
  /-- The driver goes on writing. -/
  | proceed (answer : Answer)

def spawn (pty : Option (Str × ℕ × ℕ)) : WriteSide := if pty.isSome then .pty else .pipe true

namespace LocalSession

def new : LocalSession := ⟨[], false, none, none, [], false, [], [], []⟩

variable (s : LocalSession)

/-- Sessions of `exec` and `shell`, whose input ends with its end. -/
def allows : SessionCommand → Bool
  | .subsystem _ => false
  | .data _ | .eof => !s.eofSent
  | _ => true

/-- `flush_pending_stdin` for a process that has been started. -/
def flushPendingStdin : LocalSession :=
  { s with
    pendingStdin := []
    pendingEof := false
    work := s.pendingStdin.map .write ++ if s.pendingEof then [.eof] else [] }

def handle (spawns : Bool) : SessionCommand → LocalSession
  | .pty term cols rows => { s with pty := some (term, cols, rows) }
  | .exec _ | .shell =>
    -- `session already running`
    if s.backend.isSome then s
    else if spawns then flushPendingStdin { s with backend := some (spawn s.pty) }
    else s
  | .subsystem name =>
    if name = "sftp" ∧ spawns then flushPendingStdin { s with backend := some (.pipe true) }
    else s
  | .eof => if s.backend.isSome then { s with work := [.eof] } else { s with pendingEof := true }
  | .data bytes =>
    if s.backend.isSome then { s with work := [.write bytes] }
    else { s with pendingStdin := s.pendingStdin ++ [bytes] }
  | .env .. | .resize .. | .signal _ => s

def step : Event → Option LocalSession
  | .send command =>
    if s.allows command then
      some { s with
        commands := s.commands ++ [command]
        eofSent := s.eofSent || command = .eof
        sent := s.sent ++ commandInput command }
    else none
  | .take spawns =>
    match s.work, s.commands with
    | [], command :: rest => some (handle { s with commands := rest } spawns command)
    | _, _ => none
  | .proceed answer =>
    match s.backend, s.work with
    | some side, work :: rest =>
      if answer.Fits work.bytes then
        some { s with
          backend := some (side.turn answer work).side
          accepted := s.accepted ++ (side.turn answer work).got
          work := (side.turn answer work).more ++ rest }
      else none
    | _, _ => none

def pending : List Input :=
  inputOf s.pendingStdin.flatten ++ if s.pendingEof then [.endOfInput] else []

def left : List Input :=
  s.work.flatMap Work.input ++ s.pending ++ s.commands.flatMap commandInput

/-- The kernel takes what a terminal is given. -/
def Taken : Event → Prop
  | .proceed answer => s.backend = some .pty → ∀ work ∈ s.work.head?, answer.Takes work
  | _ => True

end LocalSession

/-! ### One turn -/

section turn

variable {side : WriteSide} {answer : Answer} {work : Work}

lemma input_turn_write (data : Bytes) : (side.turn answer (.write data)).input =
    inputOf ((side.write data answer).1 ++ (side.write data answer).2.getD []) := by
  cases hrest : (side.write data answer).2 <;>
    simp [Turn.input, WriteSide.turn, Work.input, inputOf, hrest]

lemma write_pipe {data : Bytes} {stdin : Bool} (hclosed : stdin = false → data = []) :
    (WriteSide.write data answer (.pipe stdin)).1 ++
      (WriteSide.write data answer (.pipe stdin)).2.getD [] = data := by
  by_cases hdata : data = []
  · cases stdin <;> simp [WriteSide.write, hdata]
  cases stdin with
  | false => exact absurd (hclosed rfl) hdata
  | true =>
    cases answer with
    | wouldBlock => simp [WriteSide.write, hdata]
    | wrote n =>
      by_cases hn : n < data.length
      · simp [WriteSide.write, hdata, hn]
      · simp [WriteSide.write, hdata, hn, take_of_length_le (not_lt.1 hn)]

/-- What is given in a turn, and then what is left, is all there was if the kernel takes it; what a
terminal does not take is lost. -/
lemma turn_input (hclosed : side = .pipe false → work.input = [])
    (hfits : answer.Fits work.bytes) :
    ((side = .pty → answer.Takes work) ∧ (side.turn answer work).input = work.input) ∨
    (¬(side = .pty → answer.Takes work) ∧ (side.turn answer work).input.Sublist work.input ∧
      (side.turn answer work).input.length < work.input.length) := by
  cases work with
  | write data =>
    rw [input_turn_write, Work.input]
    cases side with
    | pipe stdin =>
      refine .inl ⟨nofun, congrArg inputOf (write_pipe ?_)⟩
      rintro rfl
      exact map_eq_nil_iff.1 (hclosed rfl)
    | pty =>
      cases answer with
      | wouldBlock => exact .inl ⟨fun _ => .inl rfl, rfl⟩
      | wrote n =>
        by_cases hn : n = data.length
        · exact .inl ⟨fun _ => .inr (by rw [hn]), by simp [WriteSide.write, hn]⟩
        · have hlt : n < data.length := lt_of_le_of_ne hfits.1 hn
          refine .inr ⟨by simp [Answer.Takes, hn], ?_, ?_⟩
          · simpa [WriteSide.write, inputOf] using (take_sublist n data).map Input.byte
          · simp only [WriteSide.write, inputOf, length_map, Option.getD_none, append_nil,
              length_take]
            omega
  | eof =>
    cases side with
    | pty =>
      cases answer with
      | wouldBlock => exact .inr ⟨by simp [Answer.Takes], nil_sublist _, Nat.one_pos⟩
      | wrote n => exact .inl ⟨nofun, rfl⟩
    | pipe stdin =>
      cases stdin with
      | false => cases hclosed rfl
      | true => exact .inl ⟨nofun, rfl⟩

/-- Only the end of the input closes a pipe. -/
lemma turn_side (h : (side.turn answer work).side = .pipe false) :
    side = .pipe false ∨ .endOfInput ∈ (side.turn answer work).got := by
  cases work with
  | write data => exact .inl h
  | eof =>
    cases side with
    | pty => cases answer <;> cases h
    | pipe stdin =>
      cases stdin with
      | false => exact .inl rfl
      | true => exact .inr (mem_singleton.2 rfl)

lemma turn_done (side : WriteSide) (work : Work) :
    (side.turn (.wrote work.bytes.length) work).more = [] := by
  cases work with
  | eof => rfl
  | write data =>
    have hdone : (side.write data (.wrote data.length)).2 = none := by
      cases side with
      | pty => rfl
      | pipe stdin =>
        cases stdin with
        | false => rfl
        | true =>
          simp only [WriteSide.write]
          split_ifs <;> simp_all
    simp [WriteSide.turn, Work.bytes, hdone]

end turn

/-! ### Taking a command -/

namespace LocalSession

variable {s s' : LocalSession} {command : SessionCommand} {rest : List SessionCommand}

/-- What becomes of a command when nothing is left to be written: it goes to the process, it starts
the process, or it waits for it. -/
inductive Handled (s : LocalSession) (command : SessionCommand) : LocalSession → Prop
  | started {pty : Option (Str × ℕ × ℕ)} {work : List Work} (backend : s.backend ≠ none)
      (input : work.flatMap Work.input = commandInput command) (short : work.length ≤ 1) :
      Handled s command { s with pty := pty, work := work }
  | start (side : WriteSide) (backend : s.backend = none) (silent : commandInput command = [])
      (isOpen : side ≠ .pipe false) :
      Handled s command (flushPendingStdin { s with backend := some side })
  | waiting {pty : Option (Str × ℕ × ℕ)} {chunks : List Bytes} {ended : Bool}
      (backend : s.backend = none)
      (input : pending { s with pendingStdin := chunks, pendingEof := ended } =
        s.pending ++ commandInput command) :
      Handled s command { s with pty := pty, pendingStdin := chunks, pendingEof := ended }

lemma spawn_ne_closed (pty : Option (Str × ℕ × ℕ)) : spawn pty ≠ .pipe false := by
  rw [spawn]
  split_ifs <;> simp

lemma handled_silent (hwork : s.work = []) (hsilent : commandInput command = [])
    (pty : Option (Str × ℕ × ℕ)) : Handled s command { s with pty := pty } := by
  by_cases hbackend : s.backend = none
  · exact .waiting hbackend (by rw [hsilent, append_nil])
  · exact .started hbackend (by rw [hwork, hsilent]; rfl) (by simp [hwork])

lemma handled (hwork : s.work = []) (hsubsystem : ∀ name, command ≠ .subsystem name)
    (hlast : s.pendingEof = true → commandInput command = []) (spawns : Bool) :
    Handled s command (handle s spawns command) := by
  cases command with
  | data bytes =>
    rw [handle]
    split_ifs with hbackend
    · exact .started (Option.isSome_iff_ne_none.1 hbackend) (by simp [Work.input, commandInput])
        (by simp)
    · refine .waiting (by simpa using hbackend) ?_
      cases hended : s.pendingEof with
      | false => simp [pending, hended, commandInput, inputOf]
      | true =>
        have hnil : bytes = [] := by simpa [commandInput, inputOf] using hlast hended
        simp [pending, hended, hnil, commandInput, inputOf]
  | eof =>
    rw [handle]
    split_ifs with hbackend
    · exact .started (Option.isSome_iff_ne_none.1 hbackend) rfl (by simp)
    · refine .waiting (by simpa using hbackend) ?_
      cases hended : s.pendingEof with
      | false => simp [pending, hended, commandInput]
      | true => cases hlast hended
  | subsystem name => exact absurd rfl (hsubsystem name)
  | exec | shell =>
    rw [handle]
    split_ifs with hbackend
    · exact handled_silent hwork rfl s.pty
    · exact .start _ (by simpa using hbackend) rfl (spawn_ne_closed s.pty)
    · exact handled_silent hwork rfl s.pty
  | pty term cols rows => exact handled_silent hwork rfl _
  | env | resize | signal => exact handled_silent hwork rfl s.pty

lemma input_pending (chunks : List Bytes) (ended : Bool) :
    (chunks.map Work.write ++ if ended then [Work.eof] else []).flatMap Work.input =
      inputOf chunks.flatten ++ if ended then [.endOfInput] else [] := by
  have hchunks : (chunks.map Work.write).flatMap Work.input = inputOf chunks.flatten := by
    induction chunks with
    | nil => rfl
    | cons chunk chunks ih => simp [Work.input, inputOf, ih]
  rw [flatMap_append, hchunks]
  cases ended <;> rfl

/-- The input of a command joins what is on its way. -/
lemma Handled.left_eq (h : Handled s command s') (hwork : s.work = [])
    (hstarted : s.backend ≠ none → s.pending = []) :
    s'.left = s.pending ++ (commandInput command ++ s.commands.flatMap commandInput) := by
  cases h with
  | started backend input short =>
    have hpending := hstarted backend
    simp only [pending] at hpending
    simp [left, pending, input, hpending]
  | start side backend silent isOpen =>
    simp only [left, flushPendingStdin, pending, input_pending, silent]
    simp [inputOf]
  | waiting backend input =>
    rw [← append_assoc, ← input]
    simp [left, hwork, pending]

/-! ### Nothing is lost -/

def stream (s : LocalSession) : List Input := s.accepted ++ s.left

/-- What has been accepted and what is on its way is something of what has been sent, and the end of
the input comes last. -/
structure Held (s : LocalSession) : Prop where
  sublist : s.stream.Sublist s.sent
  last : .endOfInput ∉ s.sent.dropLast
  unsent : s.eofSent = false → .endOfInput ∉ s.sent
  idle : s.backend = none → s.work = []
  started : s.backend ≠ none → s.pending = []
  closed : s.backend = some (.pipe false) → .endOfInput ∈ s.accepted
  noSubsystem : ∀ name, .subsystem name ∉ s.commands

lemma held_new : Held new :=
  ⟨.refl _, nofun, nofun, fun _ => rfl, fun h => absurd rfl h, nofun, nofun⟩

/-- Nothing comes behind the end of the input. -/
lemma Held.nothing_behind {before behind : List Input} (h : Held s)
    (hstream : s.stream = before ++ behind) (hend : .endOfInput ∈ before) : behind = [] := by
  by_contra hne
  have hsub := h.sublist
  rw [hstream] at hsub
  obtain ⟨r₁, r₂, hsent, hbefore, hbehind⟩ := append_sublist_iff.1 hsub
  have hr₂ : r₂ ≠ [] := by
    rintro rfl
    exact hne (sublist_nil.1 hbehind)
  refine h.last ?_
  rw [hsent, dropLast_append_of_ne_nil hr₂]
  exact mem_append_left _ (hbefore.subset hend)

lemma Held.handled (h : Held s) (hwork : s.work = []) (hcommands : s.commands = command :: rest)
    (spawns : Bool) : Handled { s with commands := rest } command
      (handle { s with commands := rest } spawns command) := by
  refine LocalSession.handled (s := { s with commands := rest }) hwork ?_ ?_ spawns
  · rintro name rfl
    exact h.noSubsystem name (hcommands ▸ mem_cons_self)
  · intro hended
    have hstream : s.stream = (s.accepted ++ s.pending) ++
        (commandInput command ++ rest.flatMap commandInput) := by
      simp [stream, left, hwork, hcommands]
    have hend : Input.endOfInput ∈ s.accepted ++ s.pending := by
      simp only at hended
      simp [pending, hended]
    exact (append_eq_nil_iff.1 (h.nothing_behind hstream hend)).1

lemma Held.take (h : Held s) (hwork : s.work = []) (hcommands : s.commands = command :: rest)
    (spawns : Bool) : Held (handle { s with commands := rest } spawns command) ∧
      (handle { s with commands := rest } spawns command).stream = s.stream ∧
      (handle { s with commands := rest } spawns command).sent = s.sent := by
  have hhandled := h.handled hwork hcommands spawns
  have hsame := hhandled.left_eq hwork h.started
  generalize handle { s with commands := rest } spawns command = t at hhandled hsame ⊢
  have hstream : t.stream = s.stream := by
    have hleft : s.left = s.pending ++ (commandInput command ++ rest.flatMap commandInput) := by
      simp [left, hwork, hcommands]
    rw [stream, stream, hsame, hleft]
    cases hhandled <;> rfl
  have hsub : t.stream.Sublist s.sent := hstream ▸ h.sublist
  have hrest : ∀ name, .subsystem name ∉ rest := fun name hname =>
    h.noSubsystem name (hcommands ▸ mem_cons_of_mem _ hname)
  cases hhandled with
  | started backend =>
    exact ⟨{ h with
      sublist := hsub
      idle := fun hnone => absurd hnone backend
      noSubsystem := hrest }, hstream, rfl⟩
  | start side backend silent isOpen =>
    exact ⟨{ h with
      sublist := hsub
      idle := nofun
      started := fun _ => rfl
      closed := fun hclosed => absurd (Option.some.inj hclosed) isOpen
      noSubsystem := hrest }, hstream, rfl⟩
  | waiting backend =>
    exact ⟨{ h with
      sublist := hsub
      started := fun hne => absurd backend hne
      noSubsystem := hrest }, hstream, rfl⟩

lemma stream_send (s : LocalSession) (command : SessionCommand) {eofSent : Bool}
    {sent : List Input} : stream { s with
      commands := s.commands ++ [command], eofSent := eofSent, sent := sent } =
    s.stream ++ commandInput command := by
  simp [stream, left, pending]

lemma Held.send (h : Held s) (hallowed : s.allows command = true) : Held { s with
    commands := s.commands ++ [command]
    eofSent := s.eofSent || command = .eof
    sent := s.sent ++ commandInput command } := by
  have hend : .endOfInput ∈ commandInput command → command = .eof := by
    cases command with
    | eof => exact fun _ => rfl
    | data bytes => simp [commandInput, inputOf]
    | _ => nofun
  refine { h with sublist := ?_, last := ?_, unsent := ?_, noSubsystem := ?_ }
  · rw [stream_send]
    exact h.sublist.append (.refl _)
  · by_cases hsilent : commandInput command = []
    · rw [hsilent, append_nil]
      exact h.last
    · have hunsent : s.eofSent = false := by
        cases command with
        | data | eof => simpa [allows] using hallowed
        | _ => exact absurd rfl hsilent
      rw [dropLast_append_of_ne_nil hsilent, mem_append, not_or]
      refine ⟨h.unsent hunsent, fun hmem => ?_⟩
      rw [hend (mem_of_mem_dropLast hmem)] at hmem
      cases hmem
  · intro heof
    simp only [Bool.or_eq_false_iff, decide_eq_false_iff_not] at heof
    rw [mem_append, not_or]
    exact ⟨h.unsent heof.1, fun hmem => heof.2 (hend hmem)⟩
  · intro name hmem
    rcases mem_append.1 hmem with hold | hnew
    · exact h.noSubsystem name hold
    · rw [← mem_singleton.1 hnew] at hallowed
      cases hallowed

lemma Held.proceed {side : WriteSide} {answer : Answer} {work : Work} {rest : List Work}
    (h : Held s) (hbackend : s.backend = some side) (hwork : s.work = work :: rest)
    (hfits : answer.Fits work.bytes)
    (hs' : s' = { s with
      backend := some (side.turn answer work).side
      accepted := s.accepted ++ (side.turn answer work).got
      work := (side.turn answer work).more ++ rest }) :
    Held s' ∧ (Taken s (.proceed answer) ∧ s'.stream = s.stream ∨
      ¬ Taken s (.proceed answer) ∧ s'.stream.length < s.stream.length) := by
  have htaken : Taken s (.proceed answer) ↔ (side = .pty → answer.Takes work) := by
    simp [Taken, hbackend, hwork]
  obtain ⟨tail, hleft, hleft'⟩ : ∃ tail, s.left = work.input ++ tail ∧
      s'.left = (side.turn answer work).more.flatMap Work.input ++ tail := by
    refine ⟨rest.flatMap Work.input ++ s.pending ++ s.commands.flatMap commandInput, ?_, ?_⟩
    · simp [left, hwork]
    · simp [left, hs', pending]
  have hstream : s.stream = s.accepted ++ (work.input ++ tail) := by rw [stream, hleft]
  have hstream' : s'.stream = s.accepted ++ ((side.turn answer work).input ++ tail) := by
    rw [stream, hleft', hs', Turn.input]
    simp
  have hclosed : side = .pipe false → work.input = [] := by
    rintro rfl
    exact (append_eq_nil_iff.1 (h.nothing_behind hstream (h.closed hbackend))).1
  have hheld : s'.stream.Sublist s.stream → Held s' := by
    intro hsub
    rw [hs'] at hsub ⊢
    exact { h with
      sublist := hsub.trans h.sublist
      idle := nofun
      started := fun _ => h.started (by simp [hbackend])
      closed := fun hpipe => by
        rcases turn_side (Option.some.inj hpipe) with rfl | hend
        · exact mem_append_left _ (h.closed hbackend)
        · exact mem_append_right _ hend }
  rw [htaken]
  rcases turn_input hclosed hfits with ⟨htakes, hinput⟩ | ⟨hnot, hsub, hlt⟩
  · rw [hinput, ← hstream] at hstream'
    exact ⟨hheld (by rw [hstream']), .inl ⟨htakes, hstream'⟩⟩
  · refine ⟨hheld ?_, .inr ⟨hnot, ?_⟩⟩
    · rw [hstream, hstream']
      exact (List.Sublist.refl _).append (hsub.append (.refl _))
    · rw [hstream, hstream']
      simp only [length_append]
      omega

def Intact (s : LocalSession) : Prop := s.stream = s.sent

/-- **Nothing gets lost by an event just when the kernel takes what a terminal is given**, and what
has been lost does not come back. -/
theorem Held.step {e : Event} (h : Held s) (hstep : s.step e = some s') :
    Held s' ∧ (Intact s' ↔ Intact s ∧ Taken s e) := by
  revert hstep
  fun_cases LocalSession.step s e <;> intro hstep <;> cases hstep
  · next command hallowed =>
    refine ⟨h.send hallowed, ?_⟩
    rw [Intact, stream_send]
    exact (append_left_inj _).trans (and_iff_left trivial).symm
  · next spawns command rest hcommands hwork =>
    obtain ⟨hheld, hstream, hsent⟩ := h.take hwork hcommands spawns
    refine ⟨hheld, ?_⟩
    rw [Intact, hstream, hsent]
    exact (and_iff_left trivial).symm
  · next answer side work rest hwork hbackend hfits =>
    obtain ⟨hheld, ⟨htaken, hstream⟩ | ⟨hnot, hlt⟩⟩ := h.proceed hbackend hwork hfits rfl
    · refine ⟨hheld, ?_⟩
      rw [Intact, hstream]
      exact (and_iff_left htaken).symm
    · refine ⟨hheld, iff_of_false (fun hintact => ?_) fun hintact => hnot hintact.2⟩
      have hle := h.sublist.length_le
      rw [← show _ = s.sent from hintact] at hle
      omega

/-! ### What comes of it -/

/-- How far the driver is from having nothing to do. -/
def rank (s : LocalSession) : ℕ := 2 * s.commands.length + s.work.length

lemma proceeds {side : WriteSide} {work : Work} {rest : List Work}
    (hbackend : s.backend = some side) (hwork : s.work = work :: rest) :
    ∃ e s', Taken s e ∧ s.step e = some s' ∧ s'.backend ≠ none ∧ s'.sent = s.sent ∧
      s'.rank < s.rank := by
  have hfits : (Answer.wrote work.bytes.length).Fits work.bytes :=
    ⟨le_rfl, length_pos_of_ne_nil⟩
  have htakes : (Answer.wrote work.bytes.length).Takes work := by
    cases work with
    | write data => exact .inr rfl
    | eof => nofun
  have hstep : s.step (.proceed (.wrote work.bytes.length)) = some { s with
      backend := some (side.turn (.wrote work.bytes.length) work).side
      accepted := s.accepted ++ (side.turn (.wrote work.bytes.length) work).got
      work := (side.turn (.wrote work.bytes.length) work).more ++ rest } := by
    simp [step, hbackend, hwork, if_pos hfits]
  refine ⟨_, _, ?_, hstep, by simp, rfl, ?_⟩
  · simp [Taken, hwork, htakes]
  · simp [rank, hwork, turn_done]

lemma Held.takes (h : Held s) (hbackend : s.backend ≠ none) (hwork : s.work = [])
    (hcommands : s.commands = command :: rest) :
    ∃ e s', Taken s e ∧ s.step e = some s' ∧ s'.backend ≠ none ∧ s'.sent = s.sent ∧
      s'.rank < s.rank := by
  have hstep : s.step (.take false) = some (handle { s with commands := rest } false command) := by
    simp [LocalSession.step, hwork, hcommands]
  have hhandled := h.handled hwork hcommands false
  have hsent := (h.take hwork hcommands false).2.2
  generalize handle { s with commands := rest } false command = t at hstep hhandled hsent
  have htaken : Taken s (.take false) := trivial
  cases hhandled with
  | started backend input short =>
    refine ⟨_, _, htaken, hstep, backend, hsent, ?_⟩
    simp only [rank, hcommands, length_cons]
    omega
  | start side backend => exact absurd backend hbackend
  | waiting backend => exact absurd backend hbackend

/-- Once the process has been started, all that has been sent can be accepted. -/
lemma Held.leads (h : Held s) (hintact : Intact s) (hbackend : s.backend ≠ none) :
    ∃ s', Leads LocalSession.step Taken s s' ∧ s'.sent = s.sent ∧ s'.accepted = s.sent := by
  have hlead : ∃ s', Leads LocalSession.step Taken s s' ∧
      (Held s' ∧ Intact s' ∧ s'.backend ≠ none ∧ s'.sent = s.sent) ∧ s'.work = [] ∧
      s'.commands = [] := by
    refine exists_leads rank (fun {t} ⟨ht, hintact, hbackend, hsent⟩ hbusy => ?_)
      ⟨h, hintact, hbackend, rfl⟩
    obtain ⟨side, hside⟩ := Option.ne_none_iff_exists'.1 hbackend
    have hevent : ∃ e t', Taken t e ∧ t.step e = some t' ∧ t'.backend ≠ none ∧ t'.sent = t.sent ∧
        t'.rank < t.rank := by
      cases hwork : t.work with
      | nil =>
        obtain ⟨command, rest, hcommands⟩ := exists_cons_of_ne_nil fun hnil =>
          hbusy ⟨hwork, hnil⟩
        exact ht.takes hbackend hwork hcommands
      | cons work rest => exact proceeds hside hwork
    obtain ⟨e, t', htaken, hstep, hbackend', hsent', hlower⟩ := hevent
    obtain ⟨hheld, hiff⟩ := ht.step hstep
    exact ⟨e, t', htaken, hstep, ⟨hheld, hiff.2 ⟨hintact, htaken⟩, hbackend', hsent'.trans hsent⟩,
      hlower⟩
  obtain ⟨s', hlead, ⟨hheld, hstream, hbackend', hsent⟩, hwork, hcommands⟩ := hlead
  refine ⟨s', hlead, hsent, ?_⟩
  have hleft : s'.left = [] := by simp [left, hwork, hcommands, hheld.started hbackend']
  rw [Intact, stream, hleft, append_nil] at hstream
  exact hstream.trans hsent

/-- **The input of a local process is intact if, and only if, the kernel takes every write to a
terminal whole and does not turn the write of its end away.** Then what the process has accepted,
and what is still on its way, is what has been sent, in order; and once the process has been started
it can accept all of it. -/
theorem stdin_intact_iff {events : List Event} (hrun : run step new events = some s) :
    (s.accepted ++ s.left = s.sent ↔ Meets step Taken new events) ∧
      (Meets step Taken new events → s.backend ≠ none →
        ∃ s', Leads step Taken s s' ∧ s'.sent = s.sent ∧ s'.accepted = s.sent) := by
  obtain ⟨hheld, hintact⟩ := run_iff_meets Held.step held_new hrun
  have hiff := hintact.trans (and_iff_right rfl)
  exact ⟨hiff, fun hmeets => hheld.leads (hiff.2 hmeets)⟩

instance decidableTaken (s : LocalSession) : ∀ e, Decidable (Taken s e)
  | .proceed answer => inferInstanceAs
      (Decidable (s.backend = some .pty → ∀ work ∈ s.work.head?, answer.Takes work))
  | .send _ | .take _ => inferInstanceAs (Decidable True)

/-- A terminal that is full for a while, and takes the write and the end behind it. -/
def typed : List Event :=
  [.send (.pty "xterm" 80 24), .take false, .send .shell, .take true, .send (.data (ascii "ab")),
    .send .eof, .take true, .proceed .wouldBlock, .proceed (.wrote 2), .take true,
    .proceed (.wrote 1)]

theorem stdin_intact_typed : ∃ s, run step new typed = some s ∧ s.backend = some .pty ∧
    s.sent = inputOf (ascii "ab") ++ [.endOfInput] ∧ s.left = [] ∧ s.accepted = s.sent := by
  have hsome : (run step new typed).map (fun s => (s.backend, s.sent, s.left)) =
      some (some .pty, inputOf (ascii "ab") ++ [.endOfInput], []) := by decide +kernel
  obtain ⟨s, hrun, hs⟩ := Option.map_eq_some_iff.1 hsome
  simp only [Prod.mk.injEq] at hs
  obtain ⟨hpty, hsent, hleft⟩ := hs
  have hstream := (stdin_intact_iff hrun).1.2 (by decide +kernel)
  rw [hleft, append_nil] at hstream
  exact ⟨s, hrun, hpty, hsent, hleft, hstream⟩

/-- A terminal that takes half of a write. -/
def halved : List Event :=
  [.send (.pty "xterm" 80 24), .take false, .send .shell, .take true,
    .send (.data (ascii "ab")), .take true, .proceed (.wrote 1)]

/-- A terminal that is full when the input ends. -/
def full : List Event :=
  [.send (.pty "xterm" 80 24), .take false, .send .shell, .take true, .send .eof, .take true,
    .proceed .wouldBlock]

/-- The rest of the write is dropped, and so is the end of the input. -/
theorem stdin_loses :
    (run step new halved).map (fun s => (s.sent, s.accepted, s.left)) =
      some (inputOf (ascii "ab"), inputOf (ascii "a"), []) ∧
    (run step new full).map (fun s => (s.sent, s.accepted, s.left)) =
      some ([.endOfInput], [], []) := by
  decide +kernel

end LocalSession

end CrossHostOps.LocalStdin
