import CrossHostOps.Channels
import CrossHostOps.Handlers

/-!
The forwarding loop of `process_interactive_execute` in `daemon/mod.rs`, against the two tasks of
`drive_interactive` in `daemon/session/mod.rs`: one forwards the output and the exit code, the other
the input and the sizes of the terminal. The loop takes one branch at a time, and a branch that
waits in a send holds up the others.
-/

namespace CrossHostOps.InteractiveLoop

open Text Runs Channels Handlers SplitSession Channel

/-! ### The parties -/

def responseCapacity : ℕ := 64
def stdinCapacity : ℕ := 32
def resizeCapacity : ℕ := 8

/-- The task of the output: it sends the exit code first and drops its end of the output then. -/
inductive OutputTask where
  | pumping
  | exiting
  | done
deriving DecidableEq

/-- The task of the input; `gone` is the end of it, with both its receivers. -/
inductive InputTask where
  | waiting
  | writing
  | resizing
  | gone
deriving DecidableEq

inductive Phase where
  | select
  | forwarding (data : Bytes)
  | feeding (data : Bytes)
  | resizing (size : ℕ × ℕ)
  /-- The output is closed and the exit code awaited. -/
  | awaiting
  | draining (code : ℤ)
  | closing (code : ℤ)
  | ended
deriving DecidableEq

structure State where
  phase : Phase
  outputTask : OutputTask
  /-- What `exit_tx` was sent. -/
  exit : Option ℤ
  /-- The code of an `ExitStatus` of the session. -/
  yielded : Option ℤ
  stdout : Channel Bytes
  stdin : Channel Bytes
  resizes : Channel (ℕ × ℕ)
  inputTask : InputTask
  responses : Channel Response
  /-- The client has closed neither of its streams. -/
  connected : Bool

def State.start : State where
  phase := .select
  outputTask := .pumping
  exit := none
  yielded := none
  stdout := .empty
  stdin := .empty
  resizes := .empty
  inputTask := .waiting
  responses := .empty
  connected := true

inductive Event where
  /-- The branches of the loop. -/
  | takeStdout
  | stdoutClosed
  | inbound (message : Except Str (Option Request))
  | exited
  /-- The sends and waits behind them. -/
  | forward
  | feed
  | resize
  | awaited
  | drain
  | close
  /-- The task of the output. -/
  | session (event : Option SessionEvent)
  | outputEnded
  /-- The task of the input. -/
  | takeStdin
  | written (ok : Bool)
  | takeResize
  | resized
  | inputEof
  /-- The client. -/
  | receive
  | disconnect

def State.exitWith (s : State) (code : ℤ) : State :=
  { s with outputTask := .exiting, exit := some code }

/-- One event of the session's stream. The output cannot be sent when the handler has ended. -/
def State.pump (s : State) : Option SessionEvent → State
  | some (.stdout data) =>
    if s.phase = .ended then s.exitWith 0 else { s with stdout := s.stdout.push data }
  | some (.stderr data) =>
    if s.phase = .ended then s else { s with stdout := s.stdout.push data }
  | some (.exitStatus code) => { s.exitWith code with yielded := some code }
  | some (.exitSignal _) => s.exitWith 255
  | some .eof => s.exitWith 0
  | none => s.exitWith 0

/-- The branch of a client's message. -/
def State.takeMessage (s : State) : Except Str (Option Request) → State
  | .ok (some (.stdinData data)) => { s with phase := .feeding data }
  | .ok (some (.windowResize cols rows)) => { s with phase := .resizing (cols, rows) }
  | .ok (some _) => s
  | .ok none => { s with phase := .ended, connected := false }
  | .error _ => { s with phase := .ended, connected := false }

def step (s : State) : Event → Option State
  | .takeStdout =>
    match s.phase, s.stdout.queue with
    | .select, data :: queue =>
      some { s with
        phase := .forwarding data
        stdout := ⟨s.stdout.received ++ [data], queue⟩ }
    | _, _ => none
  | .stdoutClosed =>
    if s.phase = .select ∧ s.stdout.queue = [] ∧ s.outputTask = .done then
      some { s with phase := .awaiting }
    else none
  | .inbound message => if s.phase = .select then some (s.takeMessage message) else none
  | .exited =>
    match s.phase, s.exit with
    | .select, some code => some { s with phase := .draining code }
    | _, _ => none
  | .awaited =>
    match s.phase, s.exit with
    | .awaiting, some code => some { s with phase := .draining code }
    | _, _ => none
  | .forward =>
    match s.phase with
    | .forwarding data =>
      if s.connected then
        (s.responses.send responseCapacity (.output (.stdout data))).map fun responses =>
          { s with phase := .select, responses }
      else some { s with phase := .ended }
    | _ => none
  | .feed =>
    match s.phase with
    | .feeding data =>
      if s.inputTask = .gone then some { s with phase := .ended }
      else (s.stdin.send stdinCapacity data).map fun stdin => { s with phase := .select, stdin }
    | _ => none
  | .resize =>
    match s.phase with
    | .resizing size =>
      if s.inputTask = .gone then some { s with phase := .select }
      else
        (s.resizes.send resizeCapacity size).map fun resizes =>
          { s with phase := .select, resizes }
    | _ => none
  | .drain =>
    match s.phase, s.stdout.queue with
    | .draining code, [] => some { s with phase := .closing code }
    | .draining _, data :: queue =>
      if s.connected then
        (s.responses.send responseCapacity (.output (.stdout data))).map fun responses =>
          { s with responses, stdout := ⟨s.stdout.received ++ [data], queue⟩ }
      else some { s with phase := .ended }
    | _, _ => none
  | .close =>
    match s.phase with
    | .closing code =>
      if s.connected then
        (s.responses.send responseCapacity (.exitStatus code)).map fun responses =>
          { s with phase := .ended, responses }
      else some { s with phase := .ended }
    | _ => none
  | .session event => if s.outputTask = .pumping then some (s.pump event) else none
  | .outputEnded =>
    if s.outputTask = .exiting then some { s with outputTask := .done } else none
  | .takeStdin =>
    if s.inputTask = .waiting then
      s.stdin.receive.map fun stdin => { s with stdin, inputTask := .writing }
    else none
  | .written ok =>
    if s.inputTask = .writing then some { s with inputTask := if ok then .waiting else .gone }
    else none
  | .takeResize =>
    if s.inputTask = .waiting then
      s.resizes.receive.map fun resizes => { s with resizes, inputTask := .resizing }
    else none
  | .resized => if s.inputTask = .resizing then some { s with inputTask := .waiting } else none
  | .inputEof =>
    if s.inputTask = .waiting ∧ s.stdin.queue = [] ∧ s.phase = .ended then
      some { s with inputTask := .gone }
    else none
  | .receive =>
    if s.connected then s.responses.receive.map fun responses => { s with responses } else none
  | .disconnect => some { s with connected := false }

variable {s s' : State} {e : Event}

/-! ### What the client is sent -/

/-- The chunks of the output as the client is sent them. -/
def outputs (chunks : List Bytes) : List Response := chunks.map fun data => .output (.stdout data)

/-- What the handler has taken of the output is what it has sent. -/
def Forwarded (s : State) : Prop := s.responses.sent = outputs s.stdout.received

/-- Input is taken only while the task of the input lives and has room for it, sizes while it has
room for them or has ended; and no write fails while input is held. -/
def Smooth (s : State) : Event → Prop
  | .inbound (.ok (some (.stdinData _))) =>
    s.inputTask ≠ .gone ∧ s.stdin.hasRoom stdinCapacity
  | .inbound (.ok (some (.windowResize _ _))) =>
    s.inputTask = .gone ∨ s.resizes.hasRoom resizeCapacity
  | .written false => ∀ data, s.phase ≠ .feeding data
  | _ => True

instance (s : State) (e : Event) : Decidable (Smooth s e) :=
  match e with
  | .inbound (.ok (some (.stdinData _))) => inferInstanceAs (Decidable (_ ∧ _))
  | .inbound (.ok (some (.windowResize _ _))) => inferInstanceAs (Decidable (_ ∨ _))
  | .inbound (.ok (some .start)) | .inbound (.ok (some (.confirm _ _)))
  | .inbound (.ok (some .authInput)) | .inbound (.ok (some (.frame _)))
  | .inbound (.ok (some .empty)) | .inbound (.ok none) | .inbound (.error _) => .isTrue trivial
  | .written false =>
    match h : s.phase with
    | .feeding data => .isFalse fun hne => hne data h
    | .select | .forwarding _ | .resizing _ | .awaiting | .draining _ | .closing _ | .ended =>
      .isTrue fun data hphase => by rw [h] at hphase; cases hphase
  | .written true | .takeStdout | .stdoutClosed | .exited | .forward | .feed | .resize | .awaited
  | .drain | .close | .session _ | .outputEnded | .takeStdin | .takeResize | .resized | .inputEof
  | .receive | .disconnect => .isTrue trivial

/-- What holds where the handler stands, for a client that stays; `smooth` says that the run so far
was. Without it the handler can end on input that nobody takes. -/
def Phase.Holds (smooth : Prop) (s : State) : Phase → Prop
  | .select => Forwarded s
  | .forwarding data => s.responses.sent ++ outputs [data] = outputs s.stdout.received
  | .feeding _ => Forwarded s ∧ (smooth → s.inputTask ≠ .gone ∧ s.stdin.hasRoom stdinCapacity)
  | .resizing _ =>
    Forwarded s ∧ (smooth → s.inputTask = .gone ∨ s.resizes.hasRoom resizeCapacity)
  | .awaiting => Forwarded s ∧ s.exit ≠ none
  | .draining code => Forwarded s ∧ s.exit = some code
  | .closing code => Forwarded s ∧ s.exit = some code ∧ s.stdout.queue = []
  | .ended =>
    (∃ code, s.responses.sent = outputs s.stdout.received ++ [Response.exitStatus code] ∧
      s.exit = some code ∧ s.stdout.queue = []) ∨ (¬ smooth ∧ Forwarded s)

/-- The exit code has been sent when the task of the output does not pump any more, and it is the
one the session has yielded. -/
structure Told (s : State) : Prop where
  pumping : s.outputTask = .pumping → s.exit = none ∧ s.yielded = none
  exited : s.outputTask ≠ .pumping → s.exit ≠ none
  yielded : ∀ code, s.yielded = some code → s.exit = some code

structure Orderly (smooth : Prop) (s : State) : Prop where
  told : Told s
  holds : s.connected = true → s.phase.Holds smooth s

variable {smooth : Prop}

lemma orderly_start : Orderly smooth .start where
  told := ⟨fun _ => ⟨rfl, rfl⟩, fun h => absurd rfl h, nofun⟩
  holds _ := rfl

variable {code : ℤ} {event : Option SessionEvent} {t : State}

lemma Told.running (h : Told s) (hexit : s.exit = some code) : s.outputTask ≠ .pumping := by
  intro hpumping
  rw [(h.pumping hpumping).1] at hexit
  cases hexit

/-- A step of another party: the handler stands where it stood, what it waits for stays, and
nothing is output behind the exit code. -/
structure Beside (smooth : Prop) (s s' : State) : Prop where
  phase : s'.phase = s.phase
  sent : s'.responses.sent = s.responses.sent
  received : s'.stdout.received = s.stdout.received
  connected : s'.connected = true → s.connected = true
  exit : ∀ code, s.exit = some code → s'.exit = some code ∧ s'.stdout.queue = s.stdout.queue
  feed : smooth → ∀ data, s.phase = .feeding data →
    s.inputTask ≠ .gone ∧ s.stdin.hasRoom stdinCapacity →
    s'.inputTask ≠ .gone ∧ s'.stdin.hasRoom stdinCapacity
  resize : s.inputTask = .gone ∨ s.resizes.hasRoom resizeCapacity →
    s'.inputTask = .gone ∨ s'.resizes.hasRoom resizeCapacity

def Event.ofHandler : Event → Bool
  | .takeStdout | .stdoutClosed | .inbound _ | .exited | .awaited | .forward | .feed | .resize
  | .drain | .close => true
  | _ => false

lemma beside_pump (htold : Told s) (h : s.outputTask = .pumping) :
    Beside smooth s (s.pump event) := by
  have hexit : ∀ code, s.exit ≠ some code := by
    intro code hcode
    exact htold.running hcode h
  have hkeep : ∀ s' : State, s'.phase = s.phase → s'.responses = s.responses →
      s'.stdout.received = s.stdout.received → s'.connected = s.connected →
      s'.inputTask = s.inputTask → s'.stdin = s.stdin → s'.resizes = s.resizes →
      Beside smooth s s' := by
    intro s' hphase hresponses hreceived hconnected hinput hstdin hresizes
    refine ⟨hphase, by rw [hresponses], hreceived, fun h => hconnected ▸ h, ?_, ?_, ?_⟩
    · exact fun code hcode => absurd hcode (hexit code)
    · rw [hinput, hstdin]
      exact fun _ _ _ h => h
    · rw [hinput, hresizes]
      exact id
  fun_cases State.pump s event <;> exact hkeep _ rfl rfl rfl rfl rfl rfl rfl

lemma told_pump (htold : Told s) (h : s.outputTask = .pumping) : Told (s.pump event) := by
  have hyielded := (htold.pumping h).2
  have hexit : ∀ code, Told (s.exitWith code) := by
    refine fun code => ⟨nofun, nofun, ?_⟩
    intro c hc
    rw [show (s.exitWith code).yielded = s.yielded from rfl, hyielded] at hc
    cases hc
  have hpush : ∀ data, Told { s with stdout := s.stdout.push data } := fun _ =>
    ⟨htold.pumping, htold.exited, htold.yielded⟩
  fun_cases State.pump s event
  · exact hexit 0
  · exact hpush _
  · exact htold
  · exact hpush _
  · refine ⟨nofun, nofun, fun c hc => ?_⟩
    cases hc
    rfl
  · exact hexit 255
  · exact hexit 0
  · exact hexit 0

lemma step_beside (htold : Told s) (he : e.ofHandler = false) (hsmooth : smooth → Smooth s e)
    (h : step s e = some s') : Beside smooth s s' ∧ Told s' := by
  revert he hsmooth h
  fun_cases step s e <;> intro he hsmooth h <;> try cases he
  all_goals try cases h
  -- the task of the output
  next hpumping => exact ⟨beside_pump htold hpumping, told_pump htold hpumping⟩
  next hexiting =>
    refine ⟨⟨rfl, rfl, rfl, id, fun _ hcode => ⟨hcode, rfl⟩, fun _ _ _ h => h, id⟩, ?_⟩
    exact ⟨nofun, fun _ => htold.exited (by simp [hexiting]), htold.yielded⟩
  -- the task of the input
  next hwaiting =>
    obtain ⟨stdin, hreceive, rfl⟩ := Option.map_eq_some_iff.1 h
    refine ⟨⟨rfl, rfl, rfl, id, fun _ hcode => ⟨hcode, rfl⟩, ?_, ?_⟩, { htold with }⟩
    · exact fun _ _ _ h => ⟨nofun, hasRoom_receive hreceive h.2⟩
    · exact fun h => .inr (h.resolve_left (by simp [hwaiting]))
  next ok hwriting =>
    refine ⟨⟨rfl, rfl, rfl, id, fun _ hcode => ⟨hcode, rfl⟩, ?_, ?_⟩, { htold with }⟩
    · cases ok with
      | false => exact fun h data hphase => absurd hphase (hsmooth h data)
      | true => exact fun _ _ _ h => ⟨nofun, h.2⟩
    · exact fun h => .inr (h.resolve_left (by simp [hwriting]))
  next hwaiting =>
    obtain ⟨resizes, hreceive, rfl⟩ := Option.map_eq_some_iff.1 h
    refine ⟨⟨rfl, rfl, rfl, id, fun _ hcode => ⟨hcode, rfl⟩, ?_, ?_⟩, { htold with }⟩
    · exact fun _ _ _ h => ⟨nofun, h.2⟩
    · exact fun h => .inr (hasRoom_receive hreceive (h.resolve_left (by simp [hwaiting])))
  next hresizing =>
    refine ⟨⟨rfl, rfl, rfl, id, fun _ hcode => ⟨hcode, rfl⟩, ?_, ?_⟩, { htold with }⟩
    · exact fun _ _ _ h => ⟨nofun, h.2⟩
    · exact fun h => .inr (h.resolve_left (by simp [hresizing]))
  next heof =>
    refine ⟨⟨rfl, rfl, rfl, id, fun _ hcode => ⟨hcode, rfl⟩, ?_, fun _ => .inl rfl⟩, { htold with }⟩
    intro _ data hphase
    rw [heof.2.2] at hphase
    cases hphase
  -- the client
  · obtain ⟨responses, hreceive, rfl⟩ := Option.map_eq_some_iff.1 h
    exact ⟨⟨rfl, sent_receive hreceive, rfl, id, fun _ hcode => ⟨hcode, rfl⟩,
      fun _ _ _ h => h, id⟩, { htold with }⟩
  · exact ⟨⟨rfl, rfl, rfl, nofun, fun _ hcode => ⟨hcode, rfl⟩, fun _ _ _ h => h, id⟩,
      { htold with }⟩

lemma Forwarded.beside (h : Forwarded s) (hb : Beside smooth s s') : Forwarded s' := by
  rw [Forwarded, hb.sent, hb.received]
  exact h

lemma Orderly.beside (h : Orderly smooth s) (hb : Beside smooth s s') (htold : Told s') :
    Orderly smooth s' := by
  refine ⟨htold, fun hconnected => ?_⟩
  have hholds := h.holds (hb.connected hconnected)
  rw [hb.phase]
  cases hphase : s.phase <;> rw [hphase] at hholds
  case select => exact Forwarded.beside hholds hb
  case forwarding data =>
    rw [Phase.Holds, hb.sent, hb.received]
    exact hholds
  case feeding data => exact ⟨hholds.1.beside hb, fun h => hb.feed h data hphase (hholds.2 h)⟩
  case resizing size => exact ⟨hholds.1.beside hb, fun h => hb.resize (hholds.2 h)⟩
  case awaiting =>
    obtain ⟨code, hcode⟩ := Option.ne_none_iff_exists'.1 hholds.2
    refine ⟨hholds.1.beside hb, ?_⟩
    rw [(hb.exit code hcode).1]
    nofun
  case draining code => exact ⟨hholds.1.beside hb, (hb.exit code hholds.2).1⟩
  case closing code =>
    obtain ⟨hforwarded, hcode, hqueue⟩ := hholds
    exact ⟨hforwarded.beside hb, (hb.exit code hcode).1, (hb.exit code hcode).2.trans hqueue⟩
  case ended =>
    obtain ⟨code, hsent, hcode, hqueue⟩ | ⟨hrough, hforwarded⟩ := hholds
    swap
    · exact .inr ⟨hrough, hforwarded.beside hb⟩
    refine .inl ⟨code, ?_, (hb.exit code hcode).1, (hb.exit code hcode).2.trans hqueue⟩
    rw [hb.sent, hb.received]
    exact hsent

lemma Orderly.of_phase {phase : Phase} (h : Orderly smooth s) (hphase : s.phase = phase)
    (hconnected : s.connected = true) : phase.Holds smooth s := by
  have hholds := h.holds hconnected
  rw [hphase] at hholds
  exact hholds

/-- What the handler does not touch: it only moves the output on. -/
structure Untouched (s s' : State) : Prop where
  outputTask : s'.outputTask = s.outputTask
  exit : s'.exit = s.exit
  yielded : s'.yielded = s.yielded
  output : s'.stdout.sent = s.stdout.sent

lemma step_untouched (he : e.ofHandler = true) (hstep : step s e = some s') : Untouched s s' := by
  revert he hstep
  fun_cases step s e <;> intro he hstep <;> try cases he
  all_goals first | cases hstep | rw [map_send hstep]
  all_goals try exact ⟨rfl, rfl, rfl, rfl⟩
  next hqueue _ => exact ⟨rfl, rfl, rfl, by simp [sent, hqueue]⟩
  · unfold State.takeMessage
    split <;> exact ⟨rfl, rfl, rfl, rfl⟩
  next hqueue _ _ => exact ⟨rfl, rfl, rfl, by simp [sent, hqueue]⟩

lemma Told.untouched (h : Told s) (hkept : Untouched s s') : Told s' where
  pumping := by
    rw [hkept.outputTask, hkept.exit, hkept.yielded]
    exact h.pumping
  exited := by
    rw [hkept.outputTask, hkept.exit]
    exact h.exited
  yielded := by
    rw [hkept.yielded, hkept.exit]
    exact h.yielded

lemma outputs_append (a b : List Bytes) : outputs (a ++ b) = outputs a ++ outputs b :=
  List.map_append

lemma Orderly.handled (h : Orderly smooth s) (he : e.ofHandler = true)
    (hsmooth : smooth → Smooth s e) (hstep : step s e = some s')
    (hconnected : s'.connected = true) : s'.phase.Holds smooth s' := by
  revert he hsmooth hstep
  fun_cases step s e <;> intro he hsmooth hstep <;> try cases he
  all_goals try cases hstep
  -- the branches of the loop
  next hqueue hphase =>
    have hforwarded : Forwarded s := h.of_phase hphase hconnected
    rw [Phase.Holds, outputs_append, hforwarded]
  next hclosed =>
    exact ⟨h.of_phase hclosed.1 hconnected, h.told.exited (by simp [hclosed.2.2])⟩
  next message hphase =>
    revert hconnected
    unfold State.takeMessage
    split
    · exact fun hconnected => ⟨h.of_phase hphase hconnected, hsmooth⟩
    · exact fun hconnected => ⟨h.of_phase hphase hconnected, hsmooth⟩
    · exact h.holds
    · exact nofun
    · exact nofun
  next hcode hphase => exact ⟨h.of_phase hphase hconnected, hcode⟩
  -- the sends and waits behind them
  next hcode hphase => exact ⟨(h.of_phase hphase hconnected).1, hcode⟩
  next hphase _ =>
    obtain rfl := map_send hstep
    exact (sent_push _ _).trans (h.of_phase hphase hconnected)
  next hgone => exact absurd hconnected hgone
  next hphase hgone =>
    obtain ⟨hforwarded, halive⟩ := h.of_phase hphase hconnected
    exact .inr ⟨fun h => (halive h).1 hgone, hforwarded⟩
  next hphase _ =>
    obtain rfl := map_send hstep
    exact (h.of_phase hphase hconnected).1
  next hphase _ => exact (h.of_phase hphase hconnected).1
  next hphase _ =>
    obtain rfl := map_send hstep
    exact (h.of_phase hphase hconnected).1
  next hqueue hphase =>
    obtain ⟨hforwarded, hcode⟩ := h.of_phase hphase hconnected
    exact ⟨hforwarded, hcode, hqueue⟩
  next hqueue hphase _ =>
    obtain rfl := map_send hstep
    obtain ⟨hforwarded, hcode⟩ := h.of_phase hphase hconnected
    rw [hphase]
    refine ⟨?_, hcode⟩
    rw [Forwarded, sent_push, hforwarded, outputs_append]
    rfl
  next hgone => exact absurd hconnected hgone
  next code hphase _ =>
    obtain rfl := map_send hstep
    obtain ⟨hforwarded, hcode, hqueue⟩ := h.of_phase hphase hconnected
    refine .inl ⟨code, ?_, hcode, hqueue⟩
    rw [sent_push, hforwarded]
  next hgone => exact absurd hconnected hgone

lemma orderly_step (h : Orderly smooth s) (hsmooth : smooth → Smooth s e)
    (hstep : step s e = some s') : Orderly smooth s' := by
  cases he : e.ofHandler with
  | false =>
    obtain ⟨hbeside, htold⟩ := step_beside h.told he hsmooth hstep
    exact h.beside hbeside htold
  | true => exact ⟨h.told.untouched (step_untouched he hstep), h.handled he hsmooth hstep⟩

/-! ### How the handler comes to its end -/

/-- The steps of the handler that need no message, and the client receiving. -/
def Event.unprompted : Event → Bool
  | .takeStdout | .stdoutClosed | .exited | .awaited | .forward | .feed | .resize | .drain | .close
  | .receive => true
  | _ => false

def Quiet (_ : State) (e : Event) : Prop := e.unprompted = true

lemma Quiet.toSmooth (h : Quiet s e) : Smooth s e := by
  cases e with
  | inbound | written => cases h
  | _ => trivial

/-- The handler can come to its end, with the client receiving all it is sent. -/
def Settles (s : State) : Prop :=
  ∃ t, Leads step Quiet s t ∧ t.phase = .ended ∧ t.connected = true ∧ t.responses.queue = []

lemma Settles.of_leads (hlead : Leads step Quiet s t) (h : Settles t) : Settles s := by
  obtain ⟨u, hlead', hend⟩ := h
  exact ⟨u, hlead.trans hlead', hend⟩

lemma Settles.of_step (hstep : step s e = some t) (he : e.unprompted = true) (h : Settles t) :
    Settles s :=
  .of_leads (.head he hstep (.refl t)) h

section Connected

variable (hconnected : s.connected = true)

include hconnected

lemma leads_flush :
    Leads step Quiet s { s with responses := s.responses.flushed } := by
  have hquiet : ∀ s : State, s.connected = true → Quiet s .receive := fun _ _ => rfl
  refine leads_flushed State.responses (fun s c => { s with responses := c })
    (fun s => s.connected = true) .receive (fun _ _ => rfl) (fun _ => rfl) (fun _ _ _ => rfl)
    (fun _ _ h => h) hquiet ?_ hconnected
  intro s c hconnected hreceive
  simp [step, hconnected, hreceive]

lemma settles_ended (hphase : s.phase = .ended) : Settles s :=
  ⟨_, leads_flush hconnected, hphase, hconnected, rfl⟩

lemma settles_closing (hphase : s.phase = .closing code) : Settles s := by
  have hstep : step { s with responses := s.responses.flushed } .close =
      some { s with
        phase := .ended, responses := s.responses.flushed.push (.exitStatus code) } := by
    simp only [hphase, hconnected]
    rfl
  refine .of_leads (leads_flush hconnected) ?_
  exact .of_step hstep rfl (settles_ended hconnected rfl)

lemma settles_draining (hphase : s.phase = .draining code) : Settles s := by
  rcases hstdout : s.stdout with ⟨received, queue⟩
  induction queue generalizing s received with
  | nil =>
    have hstep : step s .drain = some { s with phase := .closing code } := by
      simp [step, hphase, hstdout]
    exact .of_step hstep rfl (settles_closing hconnected rfl)
  | cons data queue ih =>
    have hstep : step { s with responses := s.responses.flushed } .drain =
        some { s with
          responses := s.responses.flushed.push (.output (.stdout data))
          stdout := ⟨received ++ [data], queue⟩ } := by
      simp only [hphase, hstdout, hconnected]
      rfl
    refine .of_leads (leads_flush hconnected) (.of_step hstep rfl ?_)
    exact ih hconnected hphase (received ++ [data]) rfl

lemma settles_select (hphase : s.phase = .select) (hexit : s.exit = some code) : Settles s := by
  have hstep : step s .exited = some { s with phase := .draining code } := by
    simp [step, hphase, hexit]
  exact .of_step hstep rfl (settles_draining hconnected rfl)

/-- Behind the exit code the handler needs nobody but the client. -/
lemma Orderly.settles (h : Orderly True s) (hexit : s.exit = some code) : Settles s := by
  have hholds := h.holds hconnected
  cases hphase : s.phase with
  | select => exact settles_select hconnected hphase hexit
  | forwarding data =>
    have hstep : step { s with responses := s.responses.flushed } .forward =
        some { s with
          phase := .select
          responses := s.responses.flushed.push (.output (.stdout data)) } := by
      simp only [hphase, hconnected]
      rfl
    refine .of_leads (leads_flush hconnected) (.of_step hstep rfl ?_)
    exact settles_select hconnected rfl hexit
  | feeding data =>
    rw [hphase] at hholds
    obtain ⟨halive, hroom⟩ := hholds.2 trivial
    have hstep : step s .feed = some { s with phase := .select, stdin := s.stdin.push data } := by
      simp only [step, hphase, halive, send_of_hasRoom hroom]
      rfl
    exact .of_step hstep rfl (settles_select hconnected rfl hexit)
  | resizing size =>
    rw [hphase] at hholds
    by_cases hgone : s.inputTask = .gone
    · have hstep : step s .resize = some { s with phase := .select } := by
        simp [step, hphase, hgone]
      exact .of_step hstep rfl (settles_select hconnected rfl hexit)
    · have hstep : step s .resize =
          some { s with phase := .select, resizes := s.resizes.push size } := by
        simp only [step, hphase, hgone, send_of_hasRoom ((hholds.2 trivial).resolve_left hgone)]
        rfl
      exact .of_step hstep rfl (settles_select hconnected rfl hexit)
  | awaiting =>
    have hstep : step s .awaited = some { s with phase := .draining code } := by
      simp [step, hphase, hexit]
    exact .of_step hstep rfl (settles_draining hconnected rfl)
  | draining code => exact settles_draining hconnected hphase
  | closing code => exact settles_closing hconnected hphase
  | ended => exact settles_ended hconnected hphase

end Connected

lemma step_exited (htold : Told s) (hexit : s.exit = some code) (hstep : step s e = some s') :
    s'.exit = some code ∧ s'.stdout.sent = s.stdout.sent := by
  by_cases he : e.ofHandler = false
  · have hbeside : Beside False s s' := (step_beside htold he False.elim hstep).1
    obtain ⟨hexit', hqueue⟩ := hbeside.exit code hexit
    refine ⟨hexit', ?_⟩
    rw [sent, sent, hbeside.received, hqueue]
  · have hkept := step_untouched (by simpa using he) hstep
    exact ⟨hkept.exit.trans hexit, hkept.output⟩

lemma Orderly.sent_of_ended (h : Orderly True s) (hconnected : s.connected = true)
    (hexit : s.exit = some code) (hended : s.phase = .ended) :
    s.responses.sent = outputs s.stdout.sent ++ [Response.exitStatus code] := by
  obtain ⟨code', hsent, hcode, hqueue⟩ | ⟨hrough, -⟩ := h.of_phase hended hconnected
  swap
  · exact absurd trivial hrough
  obtain rfl := Option.some.inj (hexit.symm.trans hcode)
  rw [hsent, sent, hqueue, List.append_nil]

/-- **Exit codes of interactive commands**: in a run in which the input always finds its task with
room, a client that stays is sent all the output and the code the session has yielded when the
handler ends, and the handler can end without another step of the session. -/
theorem interactive_exit_code_delivered {es : List Event} {code : ℤ}
    (hrun : run step .start es = some s) (hsmooth : Meets step Smooth .start es)
    (hconnected : s.connected = true) (hyielded : s.yielded = some code) :
    (s.phase = .ended → s.responses.sent = outputs s.stdout.sent ++ [Response.exitStatus code]) ∧
    ∃ t, Leads step Quiet s t ∧ t.phase = .ended ∧ t.connected = true ∧
      t.responses.received = outputs s.stdout.sent ++ [Response.exitStatus code] := by
  have horderly : Orderly True s :=
    run_invariant (fun h hsmooth => orderly_step h fun _ => hsmooth) orderly_start hsmooth hrun
  have hexit : s.exit = some code := horderly.told.yielded code hyielded
  refine ⟨horderly.sent_of_ended hconnected hexit, ?_⟩
  obtain ⟨t, hlead, hended, hkept, hqueue⟩ := horderly.settles hconnected hexit
  -- along the way the output stays complete
  have ht : Orderly True t ∧ t.exit = some code ∧ t.stdout.sent = s.stdout.sent := by
    refine hlead.invariant
      (I := fun u => Orderly True u ∧ u.exit = some code ∧ u.stdout.sent = s.stdout.sent) ?_
      ⟨horderly, hexit, rfl⟩
    rintro u e u' ⟨hu, hcode, houtput⟩ hquiet hstep
    obtain ⟨hcode', houtput'⟩ := step_exited hu.told hcode hstep
    exact ⟨orderly_step hu (fun _ => hquiet.toSmooth) hstep, hcode', houtput'.trans houtput⟩
  obtain ⟨htorderly, htexit, htoutput⟩ := ht
  have hsent := htorderly.sent_of_ended hkept htexit hended
  rw [sent, hqueue, List.append_nil, htoutput] at hsent
  exact ⟨t, hlead, hended, hkept, hsent⟩

def shellRun : List Event :=
  [.inbound (.ok (some (.stdinData [113]))), .feed, .takeStdin, .written true,
    .inbound (.ok (some (.windowResize 80 24))), .resize, .session (some (.stdout [98, 121])),
    .session (some (.exitStatus 3)), .takeStdout]

theorem interactive_exit_code_delivered_shellRun :
    ∃ s, run step .start shellRun = some s ∧ ∃ t, Leads step Quiet s t ∧ t.phase = .ended ∧
      t.connected = true ∧
      t.responses.received = outputs s.stdout.sent ++ [Response.exitStatus 3] := by
  have hrun : run step .start shellRun = some _ := rfl
  have hsmooth : Meets step Smooth .start shellRun := by decide +kernel
  exact ⟨_, rfl, (interactive_exit_code_delivered hrun hsmooth rfl rfl).2⟩

/-- The session yields a code behind a write that has failed, and a keystroke ends the handler
without it. -/
theorem interactive_exit_code_lost :
    ∃ s, run step .start
        [.inbound (.ok (some (.stdinData [113]))), .feed, .takeStdin, .written false,
          .session (some (.exitStatus 3)), .inbound (.ok (some (.stdinData [113]))), .feed] =
        some s ∧
      s.connected = true ∧ s.yielded = some 3 ∧ s.phase = .ended ∧ s.responses.sent = [] :=
  ⟨_, rfl, rfl, rfl, rfl, rfl⟩

end CrossHostOps.InteractiveLoop
