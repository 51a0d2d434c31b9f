import CrossHostOps.Channels
import CrossHostOps.Handlers

/-!
The `select!` loop of `process_execute` in `daemon/mod.rs`, with the tasks it runs against: the task
that drives the session, the task that forwards the input, the client, and the clock. The loop
takes one branch at a time, and a branch that waits in a send holds up the others.
-/

namespace CrossHostOps.ExecuteLoop

open Text Runs Channels Handlers SplitSession Channel

/-! ### The parties -/

/-- The capacity of the channel to the client, and of the one for the input. -/
def responseCapacity : ℕ := 64
def stdinCapacity : ℕ := 32

/-- How the task of `drive_exec` ends: what it returns, or an error of the join. -/
inductive TaskResult where
  | ok (code : ℤ)
  | err (message : Str)
  | joinError (message : Str)
deriving DecidableEq

/-- The task that opens the session and pumps its events. -/
inductive ExecTask where
  | opening
  | pumping
  | done (result : TaskResult)
deriving DecidableEq

/-- The receiver of the input. It is with the session's task until the session is open, and then
with a task of its own that waits for input, or for the session to take what it writes; `gone` is a
dropped receiver. -/
inductive StdinTask where
  | waiting
  | writing
  | gone
deriving DecidableEq

/-- Where the handler stands: at the `select!`, in one of the sends of its branches, or behind the
loop. -/
inductive Phase where
  | select
  | forwarding (event : ServerEvent)
  | feeding (data : Bytes)
  /-- The session's task is aborted and awaited. -/
  | aborting (timedOut : Bool)
  /-- What is left of the events goes out before the code. -/
  | draining (code : ℤ)
  | closing (response : Response)
  | ended
deriving DecidableEq

def Phase.looping : Phase → Bool
  | .select | .forwarding _ | .feeding _ => true
  | .aborting _ | .draining _ | .closing _ | .ended => false

structure State where
  phase : Phase
  deadlinePassed : Bool
  /-- The branch of the deadline was taken. -/
  timedOut : Bool
  stdinTx : Bool
  inboundClosed : Bool
  task : ExecTask
  events : Channel ServerEvent
  stdin : Channel Bytes
  stdinTask : StdinTask
  responses : Channel Response
  connected : Bool

def State.start (request : ExecRequest) : State where
  phase := .select
  deadlinePassed := false
  timedOut := false
  stdinTx := request.stdin
  inboundClosed := false
  task := .opening
  events := .empty
  stdin := .empty
  stdinTask := if request.stdin then .waiting else .gone
  responses := .empty
  connected := true

/-- What happens next, and who does it. -/
inductive Event where
  /-- The branches of the loop. -/
  | takeEvent
  | closed
  | inbound (message : Except Str (Option Request))
  | deadline
  | join
  /-- The sends and waits behind them. -/
  | forward
  | feed
  | aborted
  | drain
  | close
  /-- The task of the session. -/
  | opened
  | openFailed (message : Str)
  | session (event : Option SessionEvent)
  | panicked (message : Str)
  | cancelled
  /-- The task of the input. -/
  | takeStdin
  | written (ok : Bool)
  | stdinEof
  /-- The client and the clock. -/
  | receive
  | disconnect
  | expire

/-- The steps that need the session at the other end. -/
def Event.ofSession : Event → Bool
  | .opened | .openFailed _ | .session _ | .panicked _ | .written _ | .stdinEof => true
  | _ => false

/-- The task of the session ends; a receiver it still has is dropped. -/
def State.finish (s : State) (result : TaskResult) : State :=
  { s with
    task := .done result
    stdinTask := if s.task = .opening then .gone else s.stdinTask }

/-- The client does not receive any more. -/
def State.abandon (s : State) : State := { s with phase := .aborting false, stdinTx := false }

/-- One event of the session's stream in `drive_exec`. -/
def State.pump (s : State) : Option SessionEvent → State
  | some (.stdout data) => { s with events := s.events.push (.stdout data) }
  | some (.stderr data) => { s with events := s.events.push (.stderr data) }
  | some (.exitStatus code) => s.finish (.ok code)
  | some (.exitSignal name) =>
    let notice := ascii ("killed by signal " ++ name ++ ['\n'])
    State.finish { s with events := s.events.push (.stderr notice) } (.ok 255)
  | some .eof => s.finish (.ok 0)
  | none => s.finish (.ok 0)

/-- The branch of a client's message. -/
def State.takeMessage (request : ExecRequest) (s : State) : Except Str (Option Request) → State
  | .ok (some (.stdinData data)) =>
    if request.stdin then
      if data = [] then { s with stdinTx := false }
      else if s.stdinTx then { s with phase := .feeding data }
      else s
    else s
  | .ok (some _) => s
  | .ok none => { s with stdinTx := false, inboundClosed := true }
  | .error _ => { s with stdinTx := false, inboundClosed := true }

def TaskResult.phase : TaskResult → Phase
  | .ok code => .draining code
  | .err message => .closing (.error message)
  | .joinError message => .closing (.error message)

def step (request : ExecRequest) (s : State) : Event → Option State
  | .takeEvent =>
    match s.phase, s.events.queue with
    | .select, event :: queue =>
      some { s with
        phase := .forwarding event
        events := ⟨s.events.received ++ [event], queue⟩ }
    | _, _ => none
  | .closed =>
    if s.phase = .select ∧ s.connected = false then some s.abandon else none
  | .inbound message =>
    if s.phase = .select ∧ s.inboundClosed = false then some (s.takeMessage request message)
    else none
  | .deadline =>
    if s.phase = .select ∧ 0 < request.timeoutMs ∧ s.deadlinePassed = true then
      some { s with phase := .aborting true, timedOut := true, stdinTx := false }
    else none
  | .join =>
    match s.phase, s.task with
    | .select, .done result => some { s with phase := result.phase }
    | _, _ => none
  | .forward =>
    match s.phase with
    | .forwarding event =>
      if s.connected then
        (s.responses.send responseCapacity (.output event)).map fun responses =>
          { s with phase := .select, responses }
      else some s.abandon
    | _ => none
  | .feed =>
    match s.phase with
    | .feeding data =>
      if s.stdinTask = .gone then some { s with phase := .select }
      else (s.stdin.send stdinCapacity data).map fun stdin => { s with phase := .select, stdin }
    | _ => none
  | .aborted =>
    match s.phase, s.task with
    | .aborting timedOut, .done _ =>
      some { s with phase := if timedOut then .draining 124 else .ended }
    | _, _ => none
  | .drain =>
    match s.phase, s.events.queue with
    | .draining code, [] => some { s with phase := .closing (.exitStatus code) }
    | .draining _, event :: queue =>
      if s.connected then
        (s.responses.send responseCapacity (.output event)).map fun responses =>
          { s with responses, events := ⟨s.events.received ++ [event], queue⟩ }
      else some { s with phase := .ended }
    | _, _ => none
  | .close =>
    match s.phase with
    | .closing response =>
      if s.connected then
        (s.responses.send responseCapacity response).map fun responses =>
          { s with phase := .ended, responses }
      else some { s with phase := .ended }
    | _ => none
  | .opened =>
    if s.task = .opening then some { s with task := .pumping } else none
  | .openFailed message =>
    if s.task = .opening then some (s.finish (.err message)) else none
  | .session event => if s.task = .pumping then some (s.pump event) else none
  | .panicked message =>
    match s.task with
    | .done _ => none
    | _ => some (s.finish (.joinError message))
  | .cancelled =>
    match s.phase, s.task with
    | .aborting _, .done _ => none
    | .aborting _, _ => some (s.finish (.joinError "task was cancelled"))
    | _, _ => none
  | .takeStdin =>
    if s.task ≠ .opening ∧ s.stdinTask = .waiting then
      s.stdin.receive.map fun stdin => { s with stdin, stdinTask := .writing }
    else none
  | .written ok =>
    if s.stdinTask = .writing then some { s with stdinTask := if ok then .waiting else .gone }
    else none
  | .stdinEof =>
    if s.task ≠ .opening ∧ s.stdinTask = .waiting ∧ s.stdin.queue = [] ∧ s.stdinTx = false then
      some { s with stdinTask := .gone }
    else none
  | .receive =>
    if s.connected then s.responses.receive.map fun responses => { s with responses } else none
  | .disconnect => some { s with connected := false }
  | .expire => some { s with deadlinePassed := true }

/-! ### What the client is sent -/

variable (request : ExecRequest) (s : State)

/-- What the handler has taken of the events is what it has sent. -/
def Forwarded : Prop := s.responses.sent = s.events.received.map .output

/-- The deadline was taken, so there is one. -/
def Expired : Prop := s.timedOut = true ∧ 0 < request.timeoutMs

/-- The code that goes out: that of the deadline, or the one the task has returned. -/
def Coded (code : ℤ) : Prop :=
  (Expired request s ∧ code = 124 ∧ ∃ result, s.task = .done result) ∨
    (s.timedOut = false ∧ s.task = .done (.ok code))

/-- The last response: a code behind all the events, or the error the task has ended in. -/
def Terminal : Response → Prop
  | .exitStatus code => Coded request s code ∧ s.events.queue = []
  | .error message =>
    s.timedOut = false ∧ (s.task = .done (.err message) ∨ s.task = .done (.joinError message))
  | _ => False

/-- What holds where the handler stands, for a client that receives. -/
def Phase.Holds : Phase → Prop
  | .select | .feeding _ => Forwarded s ∧ s.timedOut = false
  | .forwarding event =>
    s.responses.sent ++ [.output event] = s.events.received.map .output ∧ s.timedOut = false
  | .aborting timedOut => Forwarded s ∧ timedOut = true ∧ Expired request s
  | .draining code => Forwarded s ∧ Coded request s code
  | .closing response => Forwarded s ∧ Terminal request s response
  | .ended =>
    ∃ response, s.responses.sent = s.events.received.map .output ++ [response] ∧
      Terminal request s response

def Orderly : Prop := s.connected = true → s.phase.Holds request s

lemma orderly_start : Orderly request (.start request) :=
  fun _ => ⟨rfl, rfl⟩

variable {request s} {s' : State} {e : Event}

/-- A step of another party: the handler stands where it stood, and a task that has ended sends
nothing more. -/
structure Beside (s s' : State) : Prop where
  phase : s'.phase = s.phase
  sent : s'.responses.sent = s.responses.sent
  received : s'.events.received = s.events.received
  timedOut : s'.timedOut = s.timedOut
  task : ∀ result, s.task = .done result → s'.task = .done result ∧
    s'.events.queue = s.events.queue
  connected : s'.connected = true → s.connected = true
  input : s.stdinTask = .gone ∨ s.stdin.hasRoom stdinCapacity →
    s'.stdinTask = .gone ∨ s'.stdin.hasRoom stdinCapacity

def Event.ofHandler : Event → Bool
  | .takeEvent | .closed | .inbound _ | .deadline | .join | .forward | .feed | .aborted | .drain
  | .close => true
  | _ => false

lemma Beside.of_running {s s' : State} (hphase : s'.phase = s.phase)
    (hresponses : s'.responses = s.responses) (hreceived : s'.events.received = s.events.received)
    (htimedOut : s'.timedOut = s.timedOut) (hconnected : s'.connected = s.connected)
    (hrunning : ∀ result, s.task ≠ .done result) (hstdin : s'.stdin = s.stdin)
    (hgone : s.stdinTask = .gone → s'.stdinTask = .gone) : Beside s s' where
  phase := hphase
  sent := by rw [hresponses]
  received := hreceived
  timedOut := htimedOut
  task result hdone := absurd hdone (hrunning result)
  connected h := hconnected ▸ h
  input := by
    rw [hstdin]
    exact Or.imp_left hgone

lemma stdinTask_finish (result : TaskResult) (h : s.stdinTask = .gone) :
    (s.finish result).stdinTask = .gone := by
  unfold State.finish
  split
  · rfl
  · exact h

lemma beside_pump {event : Option SessionEvent} (h : s.task = .pumping) :
    Beside s (s.pump event) := by
  have hrunning : ∀ result, s.task ≠ .done result := by
    intro result hdone
    rw [h] at hdone
    cases hdone
  fun_cases State.pump s event
  case case1 | case2 => exact .of_running rfl rfl rfl rfl rfl hrunning rfl id
  case case4 =>
    exact .of_running rfl rfl rfl rfl rfl hrunning rfl (stdinTask_finish (.ok 255))
  all_goals exact .of_running rfl rfl rfl rfl rfl hrunning rfl (stdinTask_finish _)

lemma step_beside (he : e.ofHandler = false) (h : step request s e = some s') : Beside s s' := by
  revert he h
  fun_cases step request s e <;> intro he h <;> try cases he
  all_goals try cases h
  -- the task of the session
  next hopening => exact .of_running rfl rfl rfl rfl rfl (by simp [hopening]) rfl id
  next hopening =>
    exact .of_running rfl rfl rfl rfl rfl (by simp [hopening]) rfl (stdinTask_finish _)
  next hpumping => exact beside_pump hpumping
  next hrunning => exact .of_running rfl rfl rfl rfl rfl hrunning rfl (stdinTask_finish _)
  next hrunning => exact .of_running rfl rfl rfl rfl rfl hrunning rfl (stdinTask_finish _)
  -- the task of the input
  next hwaiting =>
    obtain ⟨stdin, hreceive, rfl⟩ := Option.map_eq_some_iff.1 h
    refine ⟨rfl, rfl, rfl, rfl, fun _ hdone => ⟨hdone, rfl⟩, id, fun hinput => .inr ?_⟩
    exact hasRoom_receive hreceive (hinput.resolve_left (by simp [hwaiting.2]))
  next hwriting =>
    refine ⟨rfl, rfl, rfl, rfl, fun _ hdone => ⟨hdone, rfl⟩, id, fun hinput => .inr ?_⟩
    exact hinput.resolve_left (by simp [hwriting])
  · exact ⟨rfl, rfl, rfl, rfl, fun _ hdone => ⟨hdone, rfl⟩, id, fun _ => .inl rfl⟩
  -- the client and the clock
  · obtain ⟨responses, hreceive, rfl⟩ := Option.map_eq_some_iff.1 h
    exact ⟨rfl, sent_receive hreceive, rfl, rfl, fun _ hdone => ⟨hdone, rfl⟩, id, id⟩
  · exact ⟨rfl, rfl, rfl, rfl, fun _ hdone => ⟨hdone, rfl⟩, nofun, id⟩
  · exact ⟨rfl, rfl, rfl, rfl, fun _ hdone => ⟨hdone, rfl⟩, id, id⟩

lemma Forwarded.beside (h : Forwarded s) (hb : Beside s s') : Forwarded s' := by
  rw [Forwarded, hb.sent, hb.received]
  exact h

lemma Expired.beside (h : Expired request s) (hb : Beside s s') : Expired request s' :=
  ⟨hb.timedOut.trans h.1, h.2⟩

variable {code : ℤ} {response : Response} {t : State} {data : Bytes}

lemma Coded.beside (h : Coded request s code) (hb : Beside s s') : Coded request s' code := by
  rcases h with ⟨hexpired, rfl, result, hdone⟩ | ⟨htimedOut, hdone⟩
  · exact .inl ⟨hexpired.beside hb, rfl, result, (hb.task result hdone).1⟩
  · exact .inr ⟨hb.timedOut.trans htimedOut, (hb.task _ hdone).1⟩

lemma Coded.exists_done (h : Coded request s code) : ∃ result, s.task = .done result := by
  rcases h with ⟨-, -, hdone⟩ | ⟨-, hdone⟩
  · exact hdone
  · exact ⟨_, hdone⟩

lemma Terminal.beside (h : Terminal request s response) (hb : Beside s s') :
    Terminal request s' response := by
  cases response with
  | exitStatus code =>
    obtain ⟨hcoded, hqueue⟩ := h
    obtain ⟨result, hdone⟩ := hcoded.exists_done
    exact ⟨hcoded.beside hb, (hb.task result hdone).2.trans hqueue⟩
  | error message =>
    obtain ⟨htimedOut, hdone | hdone⟩ := h
    · exact ⟨hb.timedOut.trans htimedOut, .inl (hb.task _ hdone).1⟩
    · exact ⟨hb.timedOut.trans htimedOut, .inr (hb.task _ hdone).1⟩
  | info | confirmRequired | output | resumeAck | complete => cases h

lemma Orderly.beside (h : Orderly request s) (hb : Beside s s') : Orderly request s' := by
  intro hconnected
  have hholds := h (hb.connected hconnected)
  rw [hb.phase]
  cases hphase : s.phase <;> rw [hphase] at hholds
  case select | feeding => exact ⟨hholds.1.beside hb, hb.timedOut.trans hholds.2⟩
  case forwarding event =>
    refine ⟨?_, hb.timedOut.trans hholds.2⟩
    rw [hb.sent, hb.received]
    exact hholds.1
  case aborting timedOut => exact ⟨hholds.1.beside hb, hholds.2.1, hholds.2.2.beside hb⟩
  case draining | closing => exact ⟨hholds.1.beside hb, hholds.2.beside hb⟩
  case ended =>
    obtain ⟨response, hsent, hterminal⟩ := hholds
    refine ⟨response, ?_, hterminal.beside hb⟩
    rw [hb.sent, hb.received]
    exact hsent

/-- A message is input that the handler goes on to hand over, or it only closes something. -/
lemma takeMessage_cases (request : ExecRequest) (s : State)
    (message : Except Str (Option Request)) :
    (∃ data, message = .ok (some (.stdinData data)) ∧ data ≠ [] ∧ s.stdinTx = true ∧
      s.takeMessage request message = { s with phase := .feeding data }) ∨
    ∃ stdinTx inboundClosed,
      s.takeMessage request message = { s with stdinTx, inboundClosed } := by
  fun_cases State.takeMessage request s message
  case case2 data _ hdata htx => exact .inl ⟨data, rfl, hdata, htx, rfl⟩
  all_goals exact .inr ⟨_, _, rfl⟩

lemma Orderly.of_phase {phase : Phase} (h : Orderly request s) (hphase : s.phase = phase)
    (hconnected : s.connected = true) : phase.Holds request s := by
  have hholds := h hconnected
  rw [hphase] at hholds
  exact hholds

lemma Orderly.handled (h : Orderly request s) (he : e.ofHandler = true)
    (hstep : step request s e = some s') : Orderly request s' := by
  revert he hstep
  fun_cases ExecuteLoop.step request s e <;> intro he hstep hconnected <;> try cases he
  all_goals try cases hstep
  -- the branches of the loop
  next hqueue hphase =>
    obtain ⟨hforwarded, htimedOut⟩ := h.of_phase hphase hconnected
    refine ⟨?_, htimedOut⟩
    rw [List.map_append, hforwarded]
    rfl
  next hclosed => exact absurd (hclosed.2.symm.trans hconnected) (by decide)
  next message hselect =>
    rcases takeMessage_cases request s message with
      ⟨data, -, -, -, htaken⟩ | ⟨stdinTx, inboundClosed, htaken⟩
    · rw [htaken] at hconnected ⊢
      exact h.of_phase hselect.1 hconnected
    · rw [htaken] at hconnected ⊢
      exact h hconnected
  next hselect =>
    obtain ⟨hforwarded, -⟩ := h.of_phase hselect.1 hconnected
    exact ⟨hforwarded, rfl, rfl, hselect.2.1⟩
  next result htask hphase =>
    obtain ⟨hforwarded, htimedOut⟩ := h.of_phase hphase hconnected
    cases result with
    | ok code => exact ⟨hforwarded, .inr ⟨htimedOut, htask⟩⟩
    | err message => exact ⟨hforwarded, htimedOut, .inl htask⟩
    | joinError message => exact ⟨hforwarded, htimedOut, .inr htask⟩
  -- the sends and waits behind them
  next hphase _ =>
    obtain rfl := map_send hstep
    obtain ⟨hsent, htimedOut⟩ := h.of_phase hphase hconnected
    exact ⟨(sent_push _ _).trans hsent, htimedOut⟩
  next hgone => exact absurd hconnected hgone
  next hphase _ => exact h.of_phase hphase hconnected
  next hphase _ =>
    obtain rfl := map_send hstep
    exact h.of_phase hphase hconnected
  next result htask hphase =>
    obtain ⟨hforwarded, rfl, hexpired⟩ := h.of_phase hphase hconnected
    exact ⟨hforwarded, .inl ⟨hexpired, rfl, result, htask⟩⟩
  next hqueue hphase =>
    obtain ⟨hforwarded, hcoded⟩ := h.of_phase hphase hconnected
    exact ⟨hforwarded, hcoded, hqueue⟩
  next hqueue hphase _ =>
    obtain rfl := map_send hstep
    obtain ⟨hforwarded, hcoded⟩ := h.of_phase hphase hconnected
    rw [hphase]
    refine ⟨?_, hcoded⟩
    rw [Forwarded, sent_push, hforwarded, List.map_append]
    rfl
  next hgone => exact absurd hconnected hgone
  next response hphase _ =>
    obtain rfl := map_send hstep
    obtain ⟨hforwarded, hterminal⟩ := h.of_phase hphase hconnected
    refine ⟨response, ?_, ?_⟩
    · rw [sent_push, hforwarded]
    · cases response <;> exact hterminal
  next hgone => exact absurd hconnected hgone

lemma Orderly.step (h : Orderly request s) (hstep : step request s e = some s') :
    Orderly request s' := by
  cases he : e.ofHandler with
  | false => exact h.beside (step_beside he hstep)
  | true => exact h.handled he hstep

/-! ### How the handler comes to its end -/

/-- A step that needs neither the session nor the client to go away. -/
def Quiet (_ : State) (e : Event) : Prop := e.ofSession = false ∧ e ≠ .disconnect

/-- The handler can come to its end, with the client receiving all it is sent. -/
def Settles (request : ExecRequest) (cond : State → Event → Prop) (s : State) : Prop :=
  ∃ t, Leads (step request) cond s t ∧ t.phase = .ended ∧ t.connected = true ∧
    t.timedOut = s.timedOut ∧ t.responses.queue = []

variable {cond : State → Event → Prop}

lemma Settles.of_leads (hlead : Leads (step request) cond s t)
    (htimedOut : t.timedOut = s.timedOut) (h : Settles request cond t) :
    Settles request cond s := by
  obtain ⟨u, hlead', hphase, hconnected, hkept, hqueue⟩ := h
  exact ⟨u, hlead.trans hlead', hphase, hconnected, hkept.trans htimedOut, hqueue⟩

lemma Settles.of_step (hcond : cond s e) (hstep : step request s e = some t)
    (htimedOut : t.timedOut = s.timedOut) (h : Settles request cond t) :
    Settles request cond s :=
  .of_leads (.head hcond hstep (.refl t)) htimedOut h

section Connected

variable (hconnected : s.connected = true)

include hconnected

lemma leads_flush :
    Leads (step request) Quiet s { s with responses := s.responses.flushed } := by
  refine leads_flushed State.responses (fun s c => { s with responses := c })
    (fun s => s.connected = true) .receive (fun _ _ => rfl) (fun _ => rfl) (fun _ _ _ => rfl)
    (fun _ _ h => h) (fun _ _ => ⟨rfl, nofun⟩) ?_ hconnected
  intro s c hconnected hreceive
  simp [step, hconnected, hreceive]

lemma settles_ended (hphase : s.phase = .ended) : Settles request Quiet s :=
  ⟨_, leads_flush hconnected, hphase, hconnected, rfl, rfl⟩

lemma settles_closing (hphase : s.phase = .closing response) : Settles request Quiet s := by
  have hstep : step request { s with responses := s.responses.flushed } .close =
      some { s with phase := .ended, responses := s.responses.flushed.push response } := by
    simp only [hphase, hconnected]
    rfl
  refine .of_leads (leads_flush hconnected) rfl ?_
  exact .of_step (e := .close) ⟨rfl, nofun⟩ hstep rfl (settles_ended hconnected rfl)

lemma settles_draining (hphase : s.phase = .draining code) : Settles request Quiet s := by
  rcases hevents : s.events with ⟨received, queue⟩
  induction queue generalizing s received with
  | nil =>
    have hstep : step request s .drain = some { s with phase := .closing (.exitStatus code) } := by
      simp [step, hphase, hevents]
    exact .of_step (e := .drain) ⟨rfl, nofun⟩ hstep rfl (settles_closing hconnected rfl)
  | cons event queue ih =>
    have hstep : step request { s with responses := s.responses.flushed } .drain =
        some { s with
          responses := s.responses.flushed.push (.output event)
          events := ⟨received ++ [event], queue⟩ } := by
      simp only [hphase, hevents, hconnected]
      rfl
    refine .of_leads (leads_flush hconnected) rfl ?_
    refine .of_step (e := .drain) ⟨rfl, nofun⟩ hstep rfl ?_
    exact ih hconnected hphase (received ++ [event]) rfl

variable (request) in
lemma settles_aborting (hphase : s.phase = .aborting true) : Settles request Quiet s := by
  have hdone : ∀ s : State, s.phase = .aborting true → s.connected = true →
      (∃ result, s.task = .done result) → Settles request Quiet s := by
    rintro s hphase hconnected ⟨result, htask⟩
    have hstep : step request s .aborted = some { s with phase := .draining 124 } := by
      simp [step, hphase, htask]
    exact .of_step (e := .aborted) ⟨rfl, nofun⟩ hstep rfl (settles_draining hconnected rfl)
  have hcancel : ∀ task, s.task = task → (∀ result, task ≠ .done result) →
      Settles request Quiet s := by
    intro task htask hrunning
    have hstep : step request s .cancelled =
        some (s.finish (.joinError "task was cancelled")) := by
      cases task with
      | done result => exact absurd rfl (hrunning result)
      | opening | pumping => simp [step, hphase, htask]
    exact .of_step (e := .cancelled) ⟨rfl, nofun⟩ hstep rfl
      (hdone _ hphase hconnected ⟨_, rfl⟩)
  cases htask : s.task with
  | done result => exact hdone s hphase hconnected ⟨result, htask⟩
  | opening => exact hcancel .opening htask nofun
  | pumping => exact hcancel .pumping htask nofun

variable (request) in
lemma leads_forward {event : ServerEvent} (hphase : s.phase = .forwarding event) :
    Leads (step request) Quiet s
      { s with phase := .select, responses := s.responses.flushed.push (.output event) } := by
  have hstep : step request { s with responses := s.responses.flushed } .forward =
      some { s with
        phase := .select, responses := s.responses.flushed.push (.output event) } := by
    simp only [hphase, hconnected]
    rfl
  exact (leads_flush hconnected).trans (.head (e := .forward) ⟨rfl, nofun⟩ hstep (.refl _))

omit hconnected in
variable (request) in
/-- Input that need not wait. -/
lemma leads_feed (hphase : s.phase = .feeding data)
    (hroom : s.stdinTask = .gone ∨ s.stdin.hasRoom stdinCapacity) :
    ∃ stdin, Leads (step request) Quiet s { s with phase := .select, stdin } := by
  by_cases hgone : s.stdinTask = .gone
  · have hstep : step request s .feed = some { s with phase := .select } := by
      simp [step, hphase, hgone]
    exact ⟨s.stdin, .head (e := .feed) ⟨rfl, nofun⟩ hstep (.refl _)⟩
  · have hstep : step request s .feed =
        some { s with phase := .select, stdin := s.stdin.push data } := by
      simp only [step, hphase, hgone, send_of_hasRoom (hroom.resolve_left hgone)]
      rfl
    exact ⟨_, .head (e := .feed) ⟨rfl, nofun⟩ hstep (.refl _)⟩

def Attended (_ : State) (e : Event) : Prop := e ≠ .disconnect

omit hconnected in
lemma Settles.attended (h : Settles request Quiet s) : Settles request Attended s := by
  obtain ⟨t, hlead, hend⟩ := h
  exact ⟨t, hlead.mono fun _ _ hquiet => hquiet.2, hend⟩

lemma settles_select (hphase : s.phase = .select) : Settles request Attended s := by
  have hdone : ∀ s : State, s.phase = .select → s.connected = true →
      (∃ result, s.task = .done result) → Settles request Attended s := by
    rintro s hphase hconnected ⟨result, htask⟩
    have hstep : step request s .join = some { s with phase := result.phase } := by
      simp [step, hphase, htask]
    refine .of_step (e := .join) nofun hstep rfl (Settles.attended ?_)
    cases result with
    | ok code => exact settles_draining hconnected rfl
    | err | joinError => exact settles_closing hconnected rfl
  cases htask : s.task with
  | done result => exact hdone s hphase hconnected ⟨result, htask⟩
  | opening =>
    have hstep : step request s (.openFailed []) = some (s.finish (.err [])) := by
      simp [step, htask]
    exact .of_step (e := .openFailed []) nofun hstep rfl (hdone _ hphase hconnected ⟨_, rfl⟩)
  | pumping =>
    have hstep : step request s (.session none) = some (s.finish (.ok 0)) := by
      simp only [step, htask]
      rfl
    exact .of_step (e := .session none) nofun hstep rfl (hdone _ hphase hconnected ⟨_, rfl⟩)

/-- Input that waits: the session takes some of it, or fails. -/
lemma settles_feeding (hphase : s.phase = .feeding data) : Settles request Attended s := by
  have hfed : ∀ s : State, s.phase = .feeding data → s.connected = true →
      s.stdinTask = .gone ∨ s.stdin.hasRoom stdinCapacity → Settles request Attended s := by
    intro s hphase hconnected hroom
    obtain ⟨stdin, hlead⟩ := leads_feed request hphase hroom
    exact .of_leads (hlead.mono fun _ _ hquiet => hquiet.2) rfl (settles_select hconnected rfl)
  have hwriting : ∀ s : State, s.phase = .feeding data → s.connected = true →
      s.stdinTask = .writing → Settles request Attended s := by
    intro s hphase hconnected hwriting
    have hstep : step request s (.written false) = some { s with stdinTask := .gone } := by
      simp only [step, hwriting]
      rfl
    exact .of_step (e := .written false) nofun hstep rfl (hfed _ hphase hconnected (.inl rfl))
  cases hstdin : s.stdinTask with
  | gone => exact hfed s hphase hconnected (.inl hstdin)
  | writing => exact hwriting s hphase hconnected hstdin
  | waiting =>
    by_cases htask : s.task = .opening
    · have hstep : step request s (.openFailed []) = some (s.finish (.err [])) := by
        simp [step, htask]
      have hgone : (s.finish (.err [])).stdinTask = .gone := if_pos htask
      exact .of_step (e := .openFailed []) nofun hstep rfl (hfed _ hphase hconnected (.inl hgone))
    · rcases hqueue : s.stdin with ⟨received, queue⟩
      cases queue with
      | nil =>
        refine hfed s hphase hconnected (.inr ?_)
        rw [hqueue]
        exact (by decide : 0 < stdinCapacity)
      | cons next queue =>
        have hstep : step request s .takeStdin =
            some { s with
              stdin := ⟨received ++ [next], queue⟩
              stdinTask := .writing } := by
          simp [step, htask, hstdin, hqueue, receive_cons]
        exact .of_step (e := .takeStdin) nofun hstep rfl (hwriting _ hphase hconnected rfl)

lemma Orderly.settles (h : Orderly request s) : Settles request Attended s := by
  have hholds := h hconnected
  cases hphase : s.phase with
  | select => exact settles_select hconnected hphase
  | forwarding event =>
    have hlead := leads_forward request hconnected hphase
    exact .of_leads (hlead.mono fun _ _ hquiet => hquiet.2) rfl (settles_select hconnected rfl)
  | feeding data => exact settles_feeding hconnected hphase
  | aborting timedOut =>
    rw [hphase] at hholds
    rw [hholds.2.1] at hphase
    exact (settles_aborting request hconnected hphase).attended
  | draining code => exact (settles_draining hconnected hphase).attended
  | closing response => exact (settles_closing hconnected hphase).attended
  | ended => exact (settles_ended hconnected hphase).attended

end Connected

theorem orderly_of_run {es : List Event} (hrun : run (step request) (.start request) es = some s) :
    Orderly request s :=
  run_keeps Orderly.step (orderly_start request) hrun

lemma Terminal.kind (h : Terminal request s response) :
    (∃ code, response = .exitStatus code) ∨ ∃ message, response = .error message := by
  cases response with
  | exitStatus code => exact .inl ⟨code, rfl⟩
  | error message => exact .inr ⟨message, rfl⟩
  | info | confirmRequired | output | resumeAck | complete => cases h

/-- Behind a task that has returned, the client is sent all the events and a code. -/
lemma Terminal.of_ok (h : Terminal request s response) (htask : s.task = .done (.ok code)) :
    s.events.queue = [] ∧ response = .exitStatus (if s.timedOut then 124 else code) := by
  rcases h.kind with ⟨code', rfl⟩ | ⟨message, rfl⟩
  · obtain ⟨⟨hexpired, rfl, -⟩ | ⟨htimedOut, hdone⟩, hqueue⟩ := h
    · rw [hexpired.1]
      exact ⟨hqueue, rfl⟩
    · rw [htask] at hdone
      cases hdone
      rw [htimedOut]
      exact ⟨hqueue, rfl⟩
  · obtain ⟨-, hdone | hdone⟩ := h
    · rw [htask] at hdone
      cases hdone
    · rw [htask] at hdone
      cases hdone

/-- Before the end only events go out. -/
lemma Orderly.forwarded (h : Orderly request s) (hconnected : s.connected = true)
    (hphase : s.phase ≠ .ended) :
    ∃ forwarded, s.responses.sent = forwarded.map .output ∧ forwarded <+: s.events.sent := by
  have hreceived : s.events.received <+: s.events.sent := List.prefix_append _ _
  have hholds := h hconnected
  cases hstands : s.phase <;> rw [hstands] at hholds
  case ended => exact absurd hstands hphase
  case forwarding event =>
    obtain ⟨forwarded, last, hsplit, hsent, -⟩ := List.map_eq_append_iff.1 hholds.1.symm
    refine ⟨forwarded, hsent.symm, List.IsPrefix.trans ?_ hreceived⟩
    rw [hsplit]
    exact List.prefix_append _ _
  all_goals exact ⟨_, hholds.1, hreceived⟩

/-- **Batch execution**: a client that stays is sent events of `drive_exec` in order and nothing
else before the handler ends; then these, all of them if `drive_exec` has returned a code, and one
code or error; and the handler can always come to that end. -/
theorem batch_exec_delivers_in_order {es : List Event}
    (hrun : run (step request) (.start request) es = some s) (hconnected : s.connected = true) :
    (s.phase ≠ .ended → ∃ forwarded,
      s.responses.sent = forwarded.map .output ∧ forwarded <+: s.events.sent) ∧
    (s.phase = .ended → ∃ (forwarded : List ServerEvent) (last : Response),
      s.responses.sent = forwarded.map Response.output ++ [last] ∧ forwarded <+: s.events.sent ∧
      ((∃ code, last = .exitStatus code) ∨ ∃ message, last = .error message) ∧
      ∀ code, s.task = .done (.ok code) →
        forwarded = s.events.sent ∧ last = .exitStatus (if s.timedOut then 124 else code)) ∧
    ∃ t, Leads (step request) Attended s t ∧ t.phase = .ended ∧ t.connected = true ∧
      t.responses.queue = [] := by
  have horderly := orderly_of_run hrun
  refine ⟨horderly.forwarded hconnected, fun hended => ?_, ?_⟩
  · obtain ⟨last, hsent, hterminal⟩ := horderly.of_phase hended hconnected
    refine ⟨s.events.received, last, hsent, List.prefix_append _ _, hterminal.kind, ?_⟩
    intro code htask
    obtain ⟨hqueue, hlast⟩ := hterminal.of_ok htask
    refine ⟨?_, hlast⟩
    rw [sent, hqueue, List.append_nil]
  · obtain ⟨t, hlead, hphase, hkept, -, hqueue⟩ := horderly.settles hconnected
    exact ⟨t, hlead, hphase, hkept, hqueue⟩

/-- `cat` with its input piped in and a timeout. -/
def catRequest : ExecRequest where
  target := "web"
  argv := ["cat"]
  tty := false
  stdin := true
  timeoutMs := 1000
  interactive := false
  termCols := 0
  termRows := 0
  shell := []
  noShell := false

/-- Two chunks of output, the second of which is drained, and a code. -/
def catRun : List Event :=
  [.opened, .inbound (.ok (some (.stdinData [104, 105]))), .feed, .takeStdin, .written true,
    .session (some (.stdout [104])), .takeEvent, .forward, .session (some (.stdout [105])),
    .session (some (.exitStatus 3)), .join, .drain, .drain, .close, .receive, .receive, .receive]

theorem batch_exec_delivers_cat :
    ∃ s, run (step catRequest) (.start catRequest) catRun = some s ∧ s.connected = true ∧
      s.phase = .ended ∧ ∃ forwarded last,
        s.responses.sent = forwarded.map Response.output ++ [last] ∧ forwarded <+: s.events.sent ∧
        ((∃ code, last = .exitStatus code) ∨ ∃ message, last = .error message) ∧
        ∀ code, s.task = .done (.ok code) →
          forwarded = s.events.sent ∧ last = .exitStatus (if s.timedOut then 124 else code) := by
  have hrun : run (step catRequest) (.start catRequest) catRun = some _ := rfl
  exact ⟨_, rfl, rfl, rfl, (batch_exec_delivers_in_order hrun rfl).2.1 rfl⟩

end CrossHostOps.ExecuteLoop
