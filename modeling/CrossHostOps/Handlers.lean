import CrossHostOps.Frames
import CrossHostOps.Oversight
import CrossHostOps.SplitSession

/-!
`process_execute`, `process_interactive_execute` and the `copy` handler of `daemon/mod.rs` as
machines that go from one `await` to the next. An event is what is awaited; the log has the events
and what the handler does in between.
-/

namespace CrossHostOps.Handlers

open Text Frames Oversight SplitSession

structure ExecRequest where
  target : Str
  argv : List Str
  tty : Bool
  stdin : Bool
  timeoutMs : ℕ
  interactive : Bool
  termCols : ℕ
  termRows : ℕ
  shell : Str
  noShell : Bool

inductive Job
  | execute (request : ExecRequest)
  | copy (target : Str) (spec : CopySpec) (timeoutMs : ℕ)

/-- The messages of the two request streams. `stdinData` and `windowResize` come with a command,
a frame (that may not decode) with a copy. -/
inductive Request
  | start
  | confirm (executionId : Str) (allow : Bool)
  | authInput
  | stdinData (data : Bytes)
  | windowResize (cols rows : ℕ)
  | frame (decoded : Option CopyFrame)
  | empty
  deriving DecidableEq

inductive Response
  | info (message : Str)
  | confirmRequired (executionId : Uuid) (reason : Str)
  | error (message : Str)
  | output (event : ServerEvent)
  | exitStatus (code : ℤ)
  | resumeAck
  | complete
  deriving DecidableEq

inductive SessionCall
  | openExecSession
  | probeUploadResume
  | copyViaSession

inductive Action
  | record (event : AuditEvent)
  | send (response : Response)
  | call (call : SessionCall)
  /-- Input for the command, and a frame for the upload. -/
  | forward (data : Bytes)
  | relay (frame : CopyFrame)

structure Resolved where
  routes : List Str
  warning : Option Str

inductive Event
  | resolved (result : Except Str Resolved)
  /-- Whether what is sent to the client can be sent. -/
  | sent (ok : Bool)
  | reviewed (outcome : ReviewOutcome)
  /-- The next message of the client, the end of its stream or an error of it. -/
  | message (message : Except Str (Option Request))
  | output (event : ServerEvent) (ok : Bool)
  /-- The client does not receive any more. -/
  | closed
  /-- `drained` tells which of the events that are left can be sent. -/
  | timeout (drained : List Bool)
  /-- The task that runs the command ends; its own error is a panic. -/
  | finished (result : Except Str (Except Str ℤ)) (drained : List Bool)
  | opened (result : Except Str Unit)
  | started (result : Except Str Unit)
  /-- Input that the session does not take. -/
  | stdinClosed (data : Bytes)
  | exited (code : Option ℤ) (drained : List Bool)
  | probed
  | copied (result : Except Str (Except Str Unit))

/-- The `await` at which a handler is. -/
inductive Phase
  | rejecting
  | resolving
  | warning
  | reviewing
  | asking
  | confirming
  | denying
  | executing (stdinTx inboundClosed : Bool)
  | opening
  | starting
  | bridging
  | probing
  | acking
  | copying (relaying : Bool)
  | ended (result : Except Str Unit)

/-- The id of the execution, the configuration, and `Uuid::parse_str`. -/
structure Daemon where
  executionId : Uuid
  failureAction : ReviewAction
  parseStr : Str → Except Str Uuid

def Daemon.parseExecutionId (d : Daemon) (value : Str) : Except Str Uuid :=
  match d.parseStr value with
  | .ok id => .ok id
  | .error e => .error ("invalid execution_id " ++ value ++ ": " ++ e)

/-! ### What the handlers have in common -/

/-- What each handler does in its own way: its texts, whether it records a denial, and how it goes
on when it may. -/
structure Surface where
  kind : OperationKind
  target : Str
  timeoutMs : ℕ
  streamClosed : Str
  disconnected : Str
  notConfirmed : Str
  unexpected : Str
  denial : Str
  recordsDenial : Bool
  proceed : List Action × Phase

/-- The reply that `wait_for_confirmation` and `wait_for_copy_confirmation` wait for. -/
def waitForConfirmation (d : Daemon) (h : Surface) : Except Str (Option Request) → Except Str Unit
  | .error e => .error e
  | .ok none => .error h.disconnected
  | .ok (some (.confirm executionId allow)) =>
    match d.parseExecutionId executionId with
    | .error e => .error e
    | .ok responseId =>
      if responseId = d.executionId ∧ allow = true then .ok () else .error h.notConfirmed
  | .ok (some _) => .error h.unexpected

/-- From the resolution of the target to the end of the review. -/
def oversee (d : Daemon) (h : Surface) (phase : Phase) (event : Event) :
    Option (List Action × Phase) :=
  match phase with
  | .resolving =>
    match event with
    | .resolved (.error e) => some ([], .ended (.error e))
    | .resolved (.ok ⟨[], _⟩) =>
      some ([], .ended (.error "no resolved target candidates"))
    | .resolved (.ok ⟨_ :: _, some message⟩) => some ([.send (.info message)], .warning)
    | .resolved (.ok ⟨_ :: _, none⟩) =>
      some ([.record (.started h.kind d.executionId h.target h.timeoutMs)], .reviewing)
    | _ => none
  | .warning =>
    match event with
    | .sent true =>
      some ([.record (.started h.kind d.executionId h.target h.timeoutMs)], .reviewing)
    | .sent false => some ([], .ended (.error h.streamClosed))
    | _ => none
  | .reviewing =>
    match event with
    | .reviewed outcome =>
      let (records, enforced) := runReview h.kind d.executionId d.failureAction outcome
      match enforced with
      | .proceed => some (records.map .record ++ h.proceed.1, h.proceed.2)
      | .confirm reason =>
        some (records.map .record ++ [.send (.confirmRequired d.executionId reason)], .asking)
      | .denied reason =>
        let denied := if h.recordsDenial then
            [.result h.kind d.executionId h.target (some h.timeoutMs) .denied none (some reason)]
          else []
        some ((records ++ denied).map .record ++ [.send (.error (h.denial ++ reason))], .denying)
    | _ => none
  | .asking =>
    match event with
    | .sent true => some ([], .confirming)
    | .sent false => some ([], .ended (.error h.streamClosed))
    | _ => none
  | .confirming =>
    match event with
    | .message message =>
      match waitForConfirmation d h message with
      | .ok _ => some h.proceed
      | .error e => some ([], .ended (.error e))
    | _ => none
  | .denying =>
    match event with
    | .sent true => some ([], .ended (.ok ()))
    | .sent false => some ([], .ended (.error h.streamClosed))
    | _ => none
  | _ => none

/-- What `oversee` can do. -/
inductive Oversees (d : Daemon) (h : Surface) : Phase → Event → List Action → Phase → Prop
  | unresolved {result : Except Str Resolved} {e : Str}
      (failed : ∀ resolved, result = .ok resolved → resolved.routes = []) :
      Oversees d h .resolving (.resolved result) [] (.ended (.error e))
  | warn (resolved : Resolved) (message : Str) :
      Oversees d h .resolving (.resolved (.ok resolved)) [.send (.info message)] .warning
  | resolved (resolved : Resolved) :
      Oversees d h .resolving (.resolved (.ok resolved))
        [.record (.started h.kind d.executionId h.target h.timeoutMs)] .reviewing
  | warned :
      Oversees d h .warning (.sent true)
        [.record (.started h.kind d.executionId h.target h.timeoutMs)] .reviewing
  | unwarned : Oversees d h .warning (.sent false) [] (.ended (.error h.streamClosed))
  | proceed {outcome : ReviewOutcome} {records : List AuditEvent}
      (review : runReview h.kind d.executionId d.failureAction outcome = (records, .proceed)) :
      Oversees d h .reviewing (.reviewed outcome) (records.map .record ++ h.proceed.1) h.proceed.2
  | confirm {outcome : ReviewOutcome} {records : List AuditEvent} {reason : Str}
      (review : runReview h.kind d.executionId d.failureAction outcome =
        (records, .confirm reason)) :
      Oversees d h .reviewing (.reviewed outcome)
        (records.map .record ++ [.send (.confirmRequired d.executionId reason)]) .asking
  | deny {outcome : ReviewOutcome} {records : List AuditEvent} {reason : Str}
      (review :
        runReview h.kind d.executionId d.failureAction outcome = (records, .denied reason)) :
      Oversees d h .reviewing (.reviewed outcome)
        (records.map .record ++ (if h.recordsDenial then [.record (.result h.kind d.executionId
          h.target (some h.timeoutMs) .denied none (some reason))] else []) ++
            [.send (.error (h.denial ++ reason))]) .denying
  | asked : Oversees d h .asking (.sent true) [] .confirming
  | unasked : Oversees d h .asking (.sent false) [] (.ended (.error h.streamClosed))
  | confirmed {message : Except Str (Option Request)}
      (reply : waitForConfirmation d h message = .ok ()) :
      Oversees d h .confirming (.message message) h.proceed.1 h.proceed.2
  | unconfirmed {message : Except Str (Option Request)} {e : Str}
      (reply : waitForConfirmation d h message = .error e) :
      Oversees d h .confirming (.message message) [] (.ended (.error e))
  | denied (ok : Bool) (result : Except Str Unit) :
      Oversees d h .denying (.sent ok) [] (.ended result)

lemma oversees {d : Daemon} {h : Surface} {phase phase' : Phase} {event : Event}
    {actions : List Action} (hstep : oversee d h phase event = some (actions, phase')) :
    Oversees d h phase event actions phase' := by
  revert hstep
  fun_cases oversee d h phase event <;> intro hstep
  case case16 message _ hreply =>
    have hconfirmed := Oversees.confirmed hreply
    rwa [Option.some.inj hstep] at hconfirmed
  all_goals cases hstep
  · exact .unresolved nofun
  · exact .unresolved fun _ h => by cases h; rfl
  · exact .warn _ _
  · exact .resolved _
  · exact .warned
  · exact .unwarned
  · exact .proceed ‹_›
  · exact .confirm ‹_›
  next denied hreview =>
    have hdeny := Oversees.deny hreview
    have hdenied : denied = if h.recordsDenial then _ else _ := rfl
    rw [List.map_append, hdenied]
    split_ifs at hdeny ⊢ <;> exact hdeny
  · exact .asked
  · exact .unasked
  · exact .unconfirmed ‹_›
  · exact .denied _ _
  · exact .denied _ _

/-! ### The handlers -/

/-- `wait_for_confirmation` and what `process_execute` sends and records. -/
def executeSurface (kind : OperationKind) (request : ExecRequest)
    (proceed : List Action × Phase) : Surface where
  kind := kind
  target := request.target
  timeoutMs := request.timeoutMs
  streamClosed := "client receive stream closed"
  disconnected := "client disconnected before confirmation"
  notConfirmed := "execution not confirmed"
  unexpected := "unexpected request while awaiting confirmation"
  denial := "command denied: "
  recordsDenial := false
  proceed := proceed

section handlers

variable (d : Daemon) (request : ExecRequest)

def execSurface : Surface :=
  executeSurface .exec request ([.call .openExecSession], .executing request.stdin false)

def interactiveSurface : Surface :=
  executeSurface .execInteractive request ([.call .openExecSession], .opening)

/-- `copy_via_session` is spawned, and for an upload the task that relays the frames. -/
def spawnCopy (spec : CopySpec) : List Action × Phase :=
  ([.call .copyViaSession], .copying (spec.direction = .upload))

/-- `wait_for_copy_confirmation` and what `copy` sends and records. Only an upload with hints is
probed. -/
def copySurface (target : Str) (spec : CopySpec) (timeoutMs : ℕ) : Surface where
  kind := .copy
  target := target
  timeoutMs := timeoutMs
  streamClosed := "copy client stream closed"
  disconnected := "client disconnected before copy confirmation"
  notConfirmed := "copy not confirmed"
  unexpected := "unexpected request while awaiting copy confirmation"
  denial := "copy denied: "
  recordsDenial := true
  proceed :=
    if spec.direction = .upload ∧ spec.resume ≠ [] then ([.call .probeUploadResume], .probing)
    else spawnCopy spec

/-- The loop of `process_execute` at a message of the client. -/
def clientMessage (stdinTx inboundClosed : Bool) :
    Except Str (Option Request) → List Action × Phase
  | .ok (some (.stdinData data)) =>
    if request.stdin then
      -- no data is the end of the input
      if data = [] then ([], .executing false inboundClosed)
      else (if stdinTx then [.forward data] else [], .executing stdinTx inboundClosed)
    else ([], .executing stdinTx inboundClosed)
  | .ok (some _) => ([], .executing stdinTx inboundClosed)
  | .ok none | .error _ => ([], .executing false true)

/-- The loop of `process_execute`. -/
def executing (stdinTx inboundClosed : Bool) :
    Event → Option (List Action × Phase)
  | .output event ok =>
    some ([.send (.output event)],
      if ok then .executing stdinTx inboundClosed else .ended (.ok ()))
  | .closed => some ([], .ended (.ok ()))
  | .message message =>
    if inboundClosed then none
    else some (clientMessage request stdinTx inboundClosed message)
  | .timeout drained =>
    if 0 < request.timeoutMs then
      some (if drained.all id then
          [.record (.result .exec d.executionId request.target (some request.timeoutMs) .timeout
            (some 124) none), .send (.exitStatus 124)]
        else [], .ended (.ok ()))
    else none
  | .finished (.error e) _ => some ([], .ended (.error e))
  | .finished (.ok (.error e)) _ =>
    some ([.record (.result .exec d.executionId request.target (some request.timeoutMs) .failed none
      (some e)), .send (.error e)], .ended (.ok ()))
  | .finished (.ok (.ok code)) drained =>
    some (if drained.all id then
        [.record (.result .exec d.executionId request.target (some request.timeoutMs) .completed
          (some code) none), .send (.exitStatus code)]
      else [], .ended (.ok ()))
  | _ => none

/-- The loop of `process_interactive_execute`. The exit code comes by itself or behind the end of
the output; without one it is 0. -/
def bridging : Event → Option (List Action × Phase)
  | .output event ok =>
    some ([.send (.output event)], if ok then .bridging else .ended (.ok ()))
  | .message (.ok (some (.stdinData data))) => some ([.forward data], .bridging)
  | .message (.ok (some _)) => some ([], .bridging)
  | .message (.ok none) | .message (.error _) => some ([], .ended (.ok ()))
  | .stdinClosed _ => some ([], .ended (.ok ()))
  | .exited code drained =>
    some (if drained.all id then
        [.record (.result .execInteractive d.executionId request.target (some request.timeoutMs)
          .completed (some (code.getD 0)) none), .send (.exitStatus (code.getD 0))]
      else [], .ended (.ok ()))
  | _ => none

def processInteractiveExecute (phase : Phase) (event : Event) :
    Option (List Action × Phase) :=
  match phase with
  | .opening =>
    match event with
    | .opened (.ok _) => some ([], .starting)
    | .opened (.error e) => some ([], .ended (.error e))
    | _ => none
  | .starting =>
    match event with
    | .started (.ok _) => some ([], .bridging)
    | .started (.error e) => some ([], .ended (.error e))
    | _ => none
  | .bridging => bridging d request event
  | phase => oversee d (interactiveSurface request) phase event

def processExecute (phase : Phase) (event : Event) :
    Option (List Action × Phase) :=
  if request.interactive then
    match phase with
    | .rejecting =>
      match event with
      | .sent true => some ([], .ended (.ok ()))
      | .sent false => some ([], .ended (.error "client receive stream closed"))
      | _ => none
    | phase => processInteractiveExecute d request phase event
  else
    match phase with
    | .executing stdinTx inboundClosed => executing d request stdinTx inboundClosed event
    | phase => oversee d (execSurface request) phase event

/-- The task that relays the frames at a message of the client. -/
def relayMessage : Except Str (Option Request) → List Action × Phase
  | .ok (some (.frame (some frame))) => ([.relay frame], .copying (frame ≠ .endOfStream))
  | .ok (some (.frame none)) | .ok none | .error _ => ([], .copying false)
  | .ok (some _) => ([], .copying true)

/-- The two tasks of `copy`. -/
def copying (target : Str) (timeoutMs : ℕ) (relaying : Bool) :
    Event → Option (List Action × Phase)
  | .message message =>
    if relaying then some (relayMessage message) else none
  | .timeout _ =>
    if 0 < timeoutMs then
      some ([.record (.result .copy d.executionId target (some timeoutMs) .timeout none
        (some "copy timed out")), .send (.error "copy timed out (exit code 124)")],
        .ended (.ok ()))
    else none
  | .copied (.error e) => some ([], .ended (.error e))
  | .copied (.ok (.error e)) =>
    some ([.record (.result .copy d.executionId target (some timeoutMs) .failed none (some e)),
      .send (.error e)], .ended (.ok ()))
  | .copied (.ok (.ok _)) =>
    some ([.record (.result .copy d.executionId target (some timeoutMs) .completed (some 0) none),
      .send .complete], .ended (.ok ()))
  | _ => none

def copy (target : Str) (spec : CopySpec) (timeoutMs : ℕ) (phase : Phase) (event : Event) :
    Option (List Action × Phase) :=
  match phase with
  | .probing =>
    match event with
    | .probed => some ([.send .resumeAck], .acking)
    | _ => none
  | .acking =>
    match event with
    | .sent true => some (spawnCopy spec)
    | .sent false => some ([], .ended (.error "copy client stream closed"))
    | _ => none
  | .copying relaying => copying d target timeoutMs relaying event
  | phase => oversee d (copySurface target spec timeoutMs) phase event

end handlers

/-! ### Runs -/

inductive Entry
  | event (event : Event)
  | action (action : Action)

structure State where
  phase : Phase
  log : List Entry

namespace Job

def handle (d : Daemon) : Job → Phase → Event → Option (List Action × Phase)
  | .execute request => processExecute d request
  | .copy target spec timeoutMs => Handlers.copy d target spec timeoutMs

def surface : Job → Surface
  | .execute request =>
    if request.interactive then interactiveSurface request else execSurface request
  | .copy target spec timeoutMs => copySurface target spec timeoutMs

/-- What `process_execute` checks first. -/
def start : Job → State
  | .execute request =>
    if request.argv = [] then ⟨.ended (.error "argv must not be empty"), []⟩
    else if request.interactive then
      if request.tty = false then
        ⟨.rejecting, [.action (.send (.error "interactive mode requires tty (--tty)"))]⟩
      else if request.termCols = 0 ∨ request.termRows = 0 then
        ⟨.rejecting, [.action (.send (.error
          "interactive mode requires term_cols > 0 and term_rows > 0"))]⟩
      else ⟨.resolving, []⟩
    else ⟨.resolving, []⟩
  | .copy .. => ⟨.resolving, []⟩

def step (d : Daemon) (job : Job) (s : State) (event : Event) : Option State :=
  (job.handle d s.phase event).map fun (actions, phase) =>
    ⟨phase, s.log ++ .event event :: actions.map .action⟩

end Job

/-! ### What a handler can do -/

/-- The phases behind the review. -/
def Phase.late : Phase → Bool
  | .executing .. | .opening | .starting | .bridging | .probing | .acking | .copying _
  | .ended _ => true
  | _ => false

def Action.audit : Action → Option AuditEvent
  | .record event => some event
  | _ => none

def records (actions : List Action) : List AuditEvent := actions.filterMap Action.audit

/-- An event after which the operation goes on, or ends with a record of its result. -/
def Settles (d : Daemon) (h : Surface) : Phase → Event → Prop
  | .reviewing, .reviewed outcome =>
    h.recordsDenial = true ∨
      ∀ reason, (runReview h.kind d.executionId d.failureAction outcome).2 ≠ .denied reason
  | .asking, .sent ok | .acking, .sent ok => ok = true
  | .confirming, .message message => waitForConfirmation d h message = .ok ()
  | .opening, .opened result | .starting, .started result => result = .ok ()
  | .executing .., .output _ ok | .bridging, .output _ ok => ok = true
  | .executing .., .timeout drained | .executing .., .finished (.ok (.ok _)) drained
  | .bridging, .exited _ drained => drained.all id = true
  | .bridging, .message message => ∃ request, message = .ok (some request)
  | .executing .., .closed | .executing .., .finished (.error _) _ | .bridging, .stdinClosed _
  | .copying _, .copied (.error _) => False
  | _, _ => True

/-- What a handler can do behind the review. -/
inductive Proceeds (d : Daemon) (h : Surface) (settles : Prop) (actions : List Action)
    (phase' : Phase) : Prop
  | stays (late : phase'.late = true) (running : ∀ result, phase' ≠ .ended result)
      (records : records actions = []) (settles : settles)
  | settled (result : Except Str Unit) (status : AuditStatus) (exitCode : Option ℤ)
      (error : Option Str) (ended : phase' = .ended result) (terminal : status.isTerminal = true)
      (records : records actions =
        [.result h.kind d.executionId h.target (some h.timeoutMs) status exitCode error])
      (settles : settles)
  | lost (result : Except Str Unit) (ended : phase' = .ended result)
      (records : records actions = []) (settles : ¬ settles)

section proceeds

variable {d : Daemon} {event : Event} {actions : List Action} {phase phase' : Phase}
  {request : ExecRequest} {target : Str} {spec : CopySpec} {timeoutMs : ℕ}

lemma executing_proceeds {stdinTx inboundClosed : Bool}
    (hstep : executing d request stdinTx inboundClosed event = some (actions, phase')) :
    Proceeds d (execSurface request)
      (Settles d (execSurface request) (.executing stdinTx inboundClosed) event) actions
      phase' := by
  revert hstep
  fun_cases executing d request stdinTx inboundClosed event <;> intro hstep <;> try cases hstep
  next event ok =>
    cases ok with
    | true => exact .stays rfl nofun rfl rfl
    | false => exact .lost _ rfl rfl Bool.false_ne_true
  · exact .lost _ rfl rfl id
  next message _ =>
    revert hstep
    fun_cases clientMessage request stdinTx inboundClosed message <;> intro hstep <;>
      cases hstep <;> (try split_ifs) <;> exact .stays rfl nofun rfl trivial
  next drained _ =>
    split_ifs with hdrained
    · exact .settled _ .timeout (some 124) none rfl rfl rfl hdrained
    · exact .lost _ rfl rfl hdrained
  · exact .lost _ rfl rfl id
  next e _ => exact .settled _ .failed none (some e) rfl rfl rfl trivial
  next code drained =>
    split_ifs with hdrained
    · exact .settled _ .completed (some code) none rfl rfl rfl hdrained
    · exact .lost _ rfl rfl hdrained

lemma bridging_proceeds (hstep : bridging d request event = some (actions, phase')) :
    Proceeds d (interactiveSurface request)
      (Settles d (interactiveSurface request) .bridging event) actions phase' := by
  revert hstep
  fun_cases bridging d request event <;> intro hstep <;> cases hstep
  next event ok =>
    cases ok with
    | true => exact .stays rfl nofun rfl rfl
    | false => exact .lost _ rfl rfl Bool.false_ne_true
  · exact .stays rfl nofun rfl ⟨_, rfl⟩
  · exact .stays rfl nofun rfl ⟨_, rfl⟩
  · exact .lost _ rfl rfl nofun
  · exact .lost _ rfl rfl nofun
  · exact .lost _ rfl rfl id
  next code drained =>
    split_ifs with hdrained
    · exact .settled _ .completed (some (code.getD 0)) none rfl rfl rfl hdrained
    · exact .lost _ rfl rfl hdrained

lemma copying_proceeds {relaying : Bool}
    (hstep : copying d target timeoutMs relaying event = some (actions, phase')) :
    Proceeds d (copySurface target spec timeoutMs)
      (Settles d (copySurface target spec timeoutMs) (.copying relaying) event) actions phase' := by
  revert hstep
  fun_cases copying d target timeoutMs relaying event <;> intro hstep <;> try cases hstep
  next message _ =>
    revert hstep
    fun_cases relayMessage message <;> intro hstep <;> cases hstep <;>
      exact .stays rfl nofun rfl trivial
  · exact .settled _ .timeout none _ rfl rfl rfl trivial
  · exact .lost _ rfl rfl id
  next e => exact .settled _ .failed none (some e) rfl rfl rfl trivial
  · exact .settled _ .completed (some 0) none rfl rfl rfl trivial

/-- A handler answers an invalid request, oversees, or goes on behind the review. -/
inductive Handles (d : Daemon) (h : Surface) (phase : Phase) (event : Event) (actions : List Action)
    (phase' : Phase) : Prop
  | rejects (result : Except Str Unit) (rejecting : phase = .rejecting) (silent : actions = [])
      (ended : phase' = .ended result) (settles : Settles d h phase event)
  | oversees (oversees : Oversees d h phase event actions phase')
  | proceeds (late : phase.late = true) (running : ∀ result, phase ≠ .ended result)
      (unreviewed : ∀ outcome, event ≠ .reviewed outcome)
      (proceeds : Proceeds d h (Settles d h phase event) actions phase')

lemma processInteractiveExecute_handles (hphase : phase ≠ .rejecting)
    (hstep : processInteractiveExecute d request phase event = some (actions, phase')) :
    Handles d (interactiveSurface request) phase event actions phase' := by
  cases phase with
  | rejecting => exact absurd rfl hphase
  | opening | starting =>
    simp only [processInteractiveExecute] at hstep
    split at hstep <;> cases hstep
    · exact .proceeds rfl nofun nofun (.stays rfl nofun rfl rfl)
    · exact .proceeds rfl nofun nofun (.lost _ rfl rfl nofun)
  | bridging =>
    refine .proceeds rfl nofun ?_ (bridging_proceeds hstep)
    rintro outcome rfl
    cases hstep
  | _ => exact .oversees (oversees hstep)

lemma processExecute_handles
    (hstep : processExecute d request phase event = some (actions, phase')) :
    Handles d (Job.execute request).surface phase event actions phase' := by
  unfold processExecute at hstep
  simp only [Job.surface]
  split_ifs at hstep ⊢
  · by_cases hphase : phase = .rejecting
    · subst hphase
      dsimp only at hstep
      split at hstep <;> cases hstep <;> exact .rejects _ rfl rfl rfl trivial
    · refine processInteractiveExecute_handles hphase ?_
      cases phase <;> first | exact hstep | exact absurd rfl hphase
  · cases phase with
    | executing stdinTx inboundClosed =>
      refine .proceeds rfl nofun ?_ (executing_proceeds hstep)
      rintro outcome rfl
      cases hstep
    | _ => exact .oversees (oversees hstep)

lemma copy_handles (hstep : copy d target spec timeoutMs phase event = some (actions, phase')) :
    Handles d (copySurface target spec timeoutMs) phase event actions phase' := by
  cases phase with
  | probing =>
    simp only [copy] at hstep
    split at hstep <;> cases hstep
    exact .proceeds rfl nofun nofun (.stays rfl nofun rfl trivial)
  | acking =>
    simp only [copy] at hstep
    split at hstep <;> cases hstep
    · exact .proceeds rfl nofun nofun (.stays rfl nofun rfl rfl)
    · exact .proceeds rfl nofun nofun (.lost _ rfl rfl Bool.false_ne_true)
  | copying relaying =>
    refine .proceeds rfl nofun ?_ (copying_proceeds hstep)
    rintro outcome rfl
    cases hstep
  | _ => exact .oversees (oversees hstep)

lemma Job.handles {job : Job} (hstep : job.handle d phase event = some (actions, phase')) :
    Handles d job.surface phase event actions phase' := by
  cases job with
  | execute request => exact processExecute_handles hstep
  | copy target spec timeoutMs => exact copy_handles hstep

lemma Job.late_proceed (job : Job) : job.surface.proceed.2.late = true := by
  cases job with
  | execute request =>
    simp only [surface]
    split_ifs <;> rfl
  | copy target spec timeoutMs =>
    simp only [surface, copySurface]
    split_ifs <;> rfl

end proceeds

variable {d : Daemon} {job : Job} {s : State} {event : Event}

lemma Job.step_eq_some {s' : State} (hstep : job.step d s event = some s') :
    ∃ actions, job.handle d s.phase event = some (actions, s'.phase) ∧
      s'.log = s.log ++ .event event :: actions.map .action := by
  obtain ⟨⟨actions, phase⟩, hhandle, rfl⟩ := Option.map_eq_some_iff.1 hstep
  exact ⟨actions, hhandle, rfl⟩

lemma Job.step_ended {result : Except Str Unit} (hs : s.phase = .ended result) :
    job.step d s event = none := by
  have hnone : job.handle d (.ended result) event = none := by
    cases job with
    | execute request =>
      simp only [Job.handle, processExecute]
      split <;> rfl
    | copy target spec timeoutMs => rfl
  rw [Job.step, hs, hnone]
  rfl

/-- A daemon that knows the text of one id. -/
def askingDaemon : Daemon where
  executionId := 7
  failureAction := .confirm
  parseStr text := if text = "7" then .ok 7 else .error "invalid"

def listing : Job :=
  .execute ⟨"host", ["ls"], false, true, 0, false, 0, 0, [], false⟩

end CrossHostOps.Handlers
