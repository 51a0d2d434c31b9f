import CrossHostOps.Channels
import CrossHostOps.UploadWalk

/-!
An upload without a timeout: the loop and the feeder of `run_copy` in `cli/copy.rs`, and the handler
of `copy` in `daemon/mod.rs` with its relay and its copy task. The loop keeps a sender of the
requests of its own, so the stream of the requests does not end when the feeder does.
-/

namespace CrossHostOps.UploadFeeder

open Text Runs Channels Filepath Frames UploadWalk Channel

/-! ### The parties -/

def requestCapacity : ℕ := 8
def responseCapacity : ℕ := 16
def uploadCapacity : ℕ := 16

/-- What is uploaded. `hinted` sends resume hints, and the feeder waits for the answer to them. -/
structure Upload where
  localPath : PathBuf
  recursive : Bool
  root : Option Entry
  hinted : Bool

inductive Request
  | frame (frame : CopyFrame)
  | confirm (allow : Bool)

/-- `resumeAck` with the offset that the loop takes from it. -/
inductive Response
  | info (message : Str)
  | confirmRequired (reason : Str)
  | resumeAck (skip : ℕ)
  | error (message : Str)
  | complete

inductive Cli
  | waiting
  | replying (allow : Bool)
  | returned (result : Except Str Unit)

/-- `feeding` has these frames to send, and an error or the end of the stream behind them. -/
inductive Feeder
  | unspawned
  | feeding (frames : List CopyFrame) (error : Option Str)
  | finished
  | failed

inductive Phase
  | preparing
  | confirming
  | prepared
  | copying
  | reporting (response : Response)
  | ended

inductive Relay
  | unspawned
  | idle
  | holding (frame : CopyFrame)
  | ended

/-- The copy task: `waiting` for a frame, and `finishing` behind the last one. -/
inductive Task
  | unspawned
  | opening
  | waiting
  | handling (frame : CopyFrame)
  | finishing
  | done (result : Except Str Unit)

structure State where
  cli : Cli
  feeder : Feeder
  requests : Channel Request
  handler : Phase
  relay : Relay
  upload : Channel CopyFrame
  task : Task
  responses : Channel Response

def spawnCopyUploadFrames (upload : Upload) (skip : ℕ) : Feeder :=
  let walk := sendPathCopyFrames upload.localPath upload.recursive skip upload.root
  .feeding walk.frames walk.error

def State.start (upload : Upload) : State where
  cli := .waiting
  feeder := if upload.hinted then .unspawned else spawnCopyUploadFrames upload 0
  requests := .empty
  handler := .preparing
  relay := .unspawned
  upload := .empty
  task := .unspawned
  responses := .empty

inductive Event
  /-- The loop takes a response; the answer is the user's, if one is asked for. -/
  | message (answer : Except Str Bool)
  | streamEnd
  | reply
  | replyRefused
  /-- The feeder. -/
  | feed
  | feedRefused
  | stop
  /-- The handler. -/
  | info (message : Str)
  | refuse (message : Str)
  | ask (reason : Str)
  | approve
  | readReply
  | ack (skip : ℕ)
  | begin
  | join
  | report
  /-- The relay. -/
  | relayTake
  | relaySend
  /-- The copy task, with the answers of the session. -/
  | opened (result : Except Str Unit)
  | takeFrame
  | uploadClosed
  | handled (result : Except Str Unit)
  | finish (result : Except Str Unit)
  | panicked (message : Str)

/-! ### The steps -/

/-- Nobody receives the requests any more. -/
def State.closed (s : State) : Bool :=
  match s.relay, s.handler with
  | .ended, _ => true
  | .unspawned, .reporting _ => true
  | .unspawned, .ended => true
  | _, _ => false

/-- The loop on a response. -/
def State.takeResponse (upload : Upload) (answer : Except Str Bool) (s : State) :
    Response → State
  | .info _ => s
  | .confirmRequired _ =>
    match answer with
    | .error e => { s with cli := .returned (.error e) }
    | .ok allow => { s with cli := .replying allow }
  | .resumeAck skip =>
    match s.feeder with
    | .unspawned => { s with feeder := spawnCopyUploadFrames upload skip }
    | _ => s
  | .error message => { s with cli := .returned (.error message) }
  | .complete => { s with cli := .returned (.ok ()) }

def State.sendResponse (s : State) (response : Response) (handler : Phase) : Option State :=
  (s.responses.send responseCapacity response).map fun responses => { s with responses, handler }

def move (upload : Upload) (s : State) : Event → Option State
  | .message answer =>
    match s.cli, s.responses.queue with
    | .waiting, response :: queue =>
      some ({ s with responses := ⟨s.responses.received ++ [response], queue⟩ }.takeResponse
        upload answer response)
    | _, _ => none
  | .streamEnd =>
    match s.cli, s.handler, s.responses.queue with
    | .waiting, .ended, [] => some { s with cli := .returned (.ok ()) }
    | _, _, _ => none
  | .reply =>
    match s.cli with
    | .replying allow =>
      (s.requests.send requestCapacity (.confirm allow)).map fun requests =>
        { s with requests, cli := if allow then .waiting else .returned (.ok ()) }
    | _ => none
  | .replyRefused =>
    match s.cli with
    | .replying _ =>
      if s.closed then
        some { s with
          cli := .returned (.error "failed to send copy confirmation request".toList) }
      else none
    | _ => none
  | .feed =>
    match s.feeder with
    | .feeding (frame :: frames) error =>
      (s.requests.send requestCapacity (.frame frame)).map fun requests =>
        { s with requests, feeder := .feeding frames error }
    | .feeding [] none =>
      (s.requests.send requestCapacity (.frame .endOfStream)).map fun requests =>
        { s with requests, feeder := .finished }
    | _ => none
  | .feedRefused =>
    match s.feeder with
    | .feeding (_ :: _) _ | .feeding [] none =>
      if s.closed then some { s with feeder := .failed } else none
    | _ => none
  | .stop =>
    match s.feeder with
    | .feeding [] (some _) => some { s with feeder := .failed }
    | _ => none
  | .info message =>
    match s.handler with
    | .preparing => s.sendResponse (.info message) .preparing
    | _ => none
  | .refuse message =>
    match s.handler with
    | .preparing => some { s with handler := .reporting (.error message) }
    | _ => none
  | .ask reason =>
    match s.handler with
    | .preparing => s.sendResponse (.confirmRequired reason) .confirming
    | _ => none
  | .approve =>
    match s.handler with
    | .preparing => some { s with handler := .prepared }
    | _ => none
  | .readReply =>
    match s.handler, s.requests.queue with
    | .confirming, request :: queue =>
      let requests := ⟨s.requests.received ++ [request], queue⟩
      match request with
      | .confirm true => some { s with requests, handler := .prepared }
      | .confirm false =>
        some { s with requests, handler := .reporting (.error "copy not confirmed".toList) }
      | .frame _ =>
        let message := "unexpected request while awaiting copy confirmation".toList
        some { s with requests, handler := .reporting (.error message) }
    | _, _ => none
  | .ack skip =>
    match s.handler with
    | .prepared =>
      if upload.hinted then
        (s.sendResponse (.resumeAck skip) .copying).map fun s =>
          { s with relay := .idle, task := .opening }
      else none
    | _ => none
  | .begin =>
    match s.handler with
    | .prepared =>
      if upload.hinted then none
      else some { s with handler := .copying, relay := .idle, task := .opening }
    | _ => none
  | .join =>
    match s.handler, s.task with
    | .copying, .done (.ok ()) => some { s with handler := .reporting .complete }
    | .copying, .done (.error e) => some { s with handler := .reporting (.error e) }
    | _, _ => none
  | .report =>
    match s.handler with
    | .reporting response => s.sendResponse response .ended
    | _ => none
  | .relayTake =>
    match s.relay, s.requests.queue with
    | .idle, request :: queue =>
      let requests := ⟨s.requests.received ++ [request], queue⟩
      match request with
      | .frame frame => some { s with requests, relay := .holding frame }
      | .confirm _ => some { s with requests }
    | _, _ => none
  | .relaySend =>
    match s.relay, s.task with
    | .holding _, .done _ => some { s with relay := .ended }
    | .holding frame, _ =>
      (s.upload.send uploadCapacity frame).map fun upload =>
        { s with upload, relay := if frame = .endOfStream then .ended else .idle }
    | _, _ => none
  | .opened result =>
    match s.task, result with
    | .opening, .ok () => some { s with task := .waiting }
    | .opening, .error e => some { s with task := .done (.error e) }
    | _, _ => none
  | .takeFrame =>
    match s.task, s.upload.queue with
    | .waiting, frame :: queue =>
      some { s with
        upload := ⟨s.upload.received ++ [frame], queue⟩
        task := .handling frame }
    | _, _ => none
  | .uploadClosed =>
    match s.task, s.relay, s.upload.queue with
    | .waiting, .ended, [] => some { s with task := .finishing }
    | _, _, _ => none
  | .handled result =>
    match s.task, result with
    | .handling frame, .ok () =>
      some { s with task := if frame = .endOfStream then .finishing else .waiting }
    | .handling _, .error e => some { s with task := .done (.error e) }
    | _, _ => none
  | .finish result =>
    match s.task with
    | .finishing => some { s with task := .done result }
    | _ => none
  | .panicked message =>
    match s.task with
    | .opening | .handling _ | .finishing => some { s with task := .done (.error message) }
    | _ => none

/-- The process of the CLI ends with `run_copy`; what the daemon does behind that is left out. -/
def step (upload : Upload) (s : State) (e : Event) : Option State :=
  match s.cli with
  | .returned _ => none
  | _ => move upload s e

/-! ### Before the end of the stream -/

def Response.failure : Response → Bool
  | .error _ => true
  | _ => false

def Task.failure : Task → Bool
  | .done (.error _) => true
  | _ => false

/-- The copy has failed at the daemon, and the error is on its way. -/
def State.daemonFailed (s : State) : Bool :=
  match s.handler with
  | .preparing | .confirming | .prepared => false
  | .copying => s.task.failure
  | .reporting response => response.failure
  | .ended => s.responses.queue.any Response.failure

def Phase.early : Phase → Bool
  | .preparing | .confirming | .prepared => true
  | .copying | .reporting _ | .ended => false

/-- The copy task has not come to its end but in an error. -/
def Task.Open : Task → Prop
  | .unspawned | .opening | .waiting | .done (.error _) => True
  | .handling frame => frame ≠ .endOfStream
  | .finishing | .done (.ok ()) => False

/-- The feeder has not sent the end of the stream, and so nobody has met it. -/
structure Unended (s : State) : Prop where
  cli : s.cli = .waiting ∨ s.cli = .replying true
  feeder : ∀ frames error, s.feeder = .feeding frames error → .endOfStream ∉ frames
  requests : .frame .endOfStream ∉ s.requests.queue
  relay : s.relay ≠ .holding .endOfStream
  relayEnded : s.relay = .ended → s.task.failure = true
  upload : .endOfStream ∉ s.upload.queue
  task : s.task.Open
  early : s.handler.early = true → s.relay = .unspawned
  copying : s.handler = .copying → s.relay ≠ .unspawned
  late : s.handler.early = false → s.handler ≠ .copying → s.daemonFailed = true
  joined : s.relay ≠ .unspawned → s.handler ≠ .copying → s.task.failure = true
  responses : .complete ∉ s.responses.queue

/-- What a step keeps of that. -/
structure Advance (s s' : State) : Prop where
  unended : Unended s'
  daemonFailed : s.daemonFailed = true → s'.daemonFailed = true
  failed : s'.feeder = .failed → s.feeder = .failed ∨ s.daemonFailed = true

/-- Where a step leads before the end of the stream: to that, or to an error of `run_copy`. -/
def Onward (s s' : State) : Prop :=
  s'.feeder = .finished ∨ (∃ e, s'.cli = .returned (.error e)) ∨ Advance s s'

variable {upload : Upload} {s s' : State} {e : Event}

lemma unended_spawn (skip : ℕ) (frames : List CopyFrame) (error : Option Str)
    (h : spawnCopyUploadFrames upload skip = .feeding frames error) : .endOfStream ∉ frames := by
  cases h
  exact unended_sendPathCopyFrames _ _ skip _

lemma unended_start : Unended (.start upload) where
  cli := .inl rfl
  feeder frames error h := by
    unfold State.start at h
    split at h
    · cases h
    · exact unended_spawn 0 frames error h
  requests := List.not_mem_nil
  relay := nofun
  relayEnded := nofun
  upload := List.not_mem_nil
  task := trivial
  early _ := rfl
  copying := nofun
  late := nofun
  joined h := absurd rfl h
  responses := List.not_mem_nil

variable {response : Response} {queue : List Response} {answer : Except Str Bool}
  {frame : CopyFrame} {handler : Phase} {requests : Channel Request} {responses : Channel Response}
  {task : Task}

lemma Task.eq_of_failure (h : task.failure = true) : ∃ e, task = .done (.error e) := by
  unfold Task.failure at h
  split at h
  next e => exact ⟨e, rfl⟩
  · cases h

lemma sendResponse_some (h : s.sendResponse response handler = some s') :
    s' = { s with responses := s.responses.push response, handler } := by
  rw [map_send h]

lemma daemonFailed_of_early (h : s.handler.early = true) : s.daemonFailed = false := by
  cases hhandler : s.handler <;> simp_all [State.daemonFailed, Phase.early]

lemma early_of_eq (h : s.handler = handler) (hearly : handler.early = true) :
    s.handler.early = true := h ▸ hearly

namespace Unended

variable (h : Unended s)

include h

lemma received (hqueue : s.responses.queue = response :: queue)
    (hresponse : response.failure = false) :
    Advance s { s with responses := ⟨s.responses.received ++ [response], queue⟩ } := by
  have hfailed : ({ s with
      responses := ⟨s.responses.received ++ [response], queue⟩ } : State).daemonFailed =
      s.daemonFailed := by
    cases hhandler : s.handler <;> simp [State.daemonFailed, hhandler, hqueue, hresponse]
  refine ⟨{ h with late := ?_, responses := ?_ }, fun hs => hfailed.trans hs, .inl⟩
  · rw [hfailed]
    exact h.late
  · have hresponses := h.responses
    rw [hqueue] at hresponses
    exact fun hmem => hresponses (List.mem_cons_of_mem _ hmem)

lemma taken (hanswer : answer ≠ .ok false) (hqueue : s.responses.queue = response :: queue) :
    Onward s ({ s with responses := ⟨s.responses.received ++ [response], queue⟩ }.takeResponse
      upload answer response) := by
  cases response with
  | info message => exact .inr (.inr (h.received hqueue rfl))
  | confirmRequired reason =>
    cases answer with
    | error e => exact .inr (.inl ⟨e, rfl⟩)
    | ok allow =>
      obtain ⟨hunended, hfailed, hfeeder⟩ := h.received hqueue rfl
      cases allow with
      | false => exact absurd rfl hanswer
      | true => exact .inr (.inr ⟨{ hunended with cli := .inr rfl }, hfailed, hfeeder⟩)
  | resumeAck skip =>
    obtain ⟨hunended, hfailed, hfeeder⟩ := h.received hqueue rfl
    unfold State.takeResponse
    dsimp only
    split
    · exact .inr (.inr ⟨{ hunended with feeder := unended_spawn skip }, hfailed, nofun⟩)
    · exact .inr (.inr ⟨hunended, hfailed, hfeeder⟩)
  | error message => exact .inr (.inl ⟨message, rfl⟩)
  | complete =>
    have hresponses := h.responses
    rw [hqueue] at hresponses
    exact absurd List.mem_cons_self hresponses

lemma allowed {allow : Bool} (hcli : s.cli = .replying allow) : allow = true := by
  rcases h.cli with hcli' | hcli'
  · rw [hcli] at hcli'
    cases hcli'
  · rw [hcli] at hcli'
    exact Cli.replying.inj hcli'

lemma fed {frames : List CopyFrame} {error : Option Str}
    (hfeeder : s.feeder = .feeding (frame :: frames) error) :
    Advance s { s with
      requests := s.requests.push (.frame frame)
      feeder := .feeding frames error } := by
  have hframes := h.feeder _ _ hfeeder
  rw [List.mem_cons, not_or] at hframes
  refine ⟨{ h with feeder := ?_, requests := ?_ }, id, nofun⟩
  · rintro _ _ ⟨⟩
    exact hframes.2
  · have hrequests := h.requests
    simp [push, hrequests, hframes.1]

/-- Nobody receives the requests only when the copy has failed. -/
lemma failed_of_closed (hclosed : s.closed = true) : s.daemonFailed = true := by
  have hearly : s.handler.early = false := by
    by_contra hearly
    have hrelay := h.early (by simpa using hearly)
    cases hhandler : s.handler <;>
      simp_all [State.closed, Phase.early]
  by_cases hcopying : s.handler = .copying
  · have hrelay : s.relay = .ended := by
      cases hrelay : s.relay <;> simp_all [State.closed]
    rw [State.daemonFailed, hcopying]
    exact h.relayEnded hrelay
  · exact h.late hearly hcopying

lemma fail (hfailed : s.daemonFailed = true) : Onward s { s with feeder := .failed } :=
  .inr (.inr ⟨{ h with feeder := nofun }, id, fun _ => .inr hfailed⟩)

/-! The handler before the copy. -/

lemma requests_tail {request : Request} {queue : List Request}
    (hqueue : s.requests.queue = request :: queue) : .frame .endOfStream ∉ queue := by
  have hrequests := h.requests
  rw [hqueue] at hrequests
  exact fun hmem => hrequests (List.mem_cons_of_mem _ hmem)

lemma prepare (hearly : s.handler.early = true)
    (hhandler : handler.early = true) (hrequests : .frame .endOfStream ∉ requests.queue)
    (hresponses : .complete ∉ responses.queue) :
    Onward s { s with handler, requests, responses } := by
  have hrelay := h.early hearly
  have hnot : s.daemonFailed ≠ true := by simp [daemonFailed_of_early hearly]
  have hunended : Unended { s with handler, requests, responses } := { h with
    requests := hrequests
    early := fun _ => hrelay
    copying := by
      rintro rfl
      cases hhandler
    late := by
      intro hlate
      rw [hhandler] at hlate
      cases hlate
    joined := fun hspawned => absurd hrelay hspawned
    responses := hresponses }
  exact .inr (.inr ⟨hunended, fun hfailed => absurd hfailed hnot, .inl⟩)

lemma refused (hearly : s.handler.early = true) (message : Str)
    (hrequests : .frame .endOfStream ∉ requests.queue) :
    Onward s { s with handler := .reporting (.error message), requests } := by
  have hrelay := h.early hearly
  have hunended : Unended { s with handler := .reporting (.error message), requests } := { h with
    requests := hrequests
    early := nofun
    copying := nofun
    late := fun _ _ => rfl
    joined := fun hspawned => absurd hrelay hspawned }
  exact .inr (.inr ⟨hunended, fun _ => rfl, .inl⟩)

lemma spawned (hearly : s.handler.early = true) (hresponses : .complete ∉ responses.queue) :
    Onward s { s with handler := .copying, responses, relay := .idle, task := .opening } := by
  have hnot : s.daemonFailed ≠ true := by simp [daemonFailed_of_early hearly]
  have hunended : Unended
      { s with handler := .copying, responses, relay := .idle, task := .opening } := { h with
    relay := nofun
    relayEnded := nofun
    task := trivial
    early := nofun
    copying := nofun
    late := fun _ hne => absurd rfl hne
    joined := fun _ hne => absurd rfl hne
    responses := hresponses }
  exact .inr (.inr ⟨hunended, fun hfailed => absurd hfailed hnot, .inl⟩)

lemma push (hresponse : response ≠ .complete) : .complete ∉ (s.responses.push response).queue := by
  have hresponses := h.responses
  simp [Channel.push, hresponses, hresponse.symm]

/-! The handler, the relay and the copy task. -/

lemma task_open (htask : s.task = task) : task.Open :=
  htask ▸ h.task

lemma joinedError {e : Str} (htask : s.task = .done (.error e)) :
    Onward s { s with handler := .reporting (.error e) } := by
  have hunended : Unended { s with handler := .reporting (.error e) } := { h with
    early := nofun
    copying := nofun
    late := fun _ _ => rfl
    joined := fun _ _ => by
      rw [htask]
      rfl }
  exact .inr (.inr ⟨hunended, fun _ => rfl, .inl⟩)

lemma reported (hhandler : s.handler = .reporting response) :
    Onward s { s with responses := s.responses.push response, handler := .ended } := by
  have hresponse : response.failure = true := by
    have hlate := h.late (by rw [hhandler]; rfl) (by simp [hhandler])
    rwa [State.daemonFailed, hhandler] at hlate
  have hfailed : State.daemonFailed
      { s with responses := s.responses.push response, handler := .ended } = true := by
    simp [State.daemonFailed, Channel.push, hresponse]
  have hunended : Unended { s with responses := s.responses.push response, handler := .ended } :=
    { h with
      early := by simp [Phase.early]
      copying := by simp
      late := fun _ _ => hfailed
      joined := fun hspawned _ => h.joined hspawned (by simp [hhandler])
      responses := h.push fun heq => by
        rw [heq] at hresponse
        cases hresponse }
  exact .inr (.inr ⟨hunended, fun _ => hfailed, .inl⟩)

lemma relayed (hspawned : s.relay ≠ .unspawned) {relay : Relay}
    {upload : Channel CopyFrame} (hrequests : .frame .endOfStream ∉ requests.queue)
    (hholding : relay ≠ .holding .endOfStream) (hended : relay = .ended → s.task.failure = true)
    (hspawned' : relay ≠ .unspawned) (hupload : .endOfStream ∉ upload.queue) :
    Onward s { s with requests, relay, upload } := by
  have hunended : Unended { s with requests, relay, upload } := { h with
    requests := hrequests
    relay := hholding
    relayEnded := hended
    upload := hupload
    early := fun hearly => absurd (h.early hearly) hspawned
    copying := fun _ => hspawned'
    joined := fun _ => h.joined hspawned }
  exact .inr (.inr ⟨hunended, id, .inl⟩)

lemma retask {old : Task} (hold : s.task = old)
    (htask : old.failure = false) {upload : Channel CopyFrame} (hopen : task.Open)
    (hupload : .endOfStream ∉ upload.queue) : Onward s { s with task, upload } := by
  rw [← hold] at htask
  have hnot : s.task.failure ≠ true := by simp [htask]
  have hfailed : s.daemonFailed = true → ({ s with task, upload } : State).daemonFailed = true := by
    cases hhandler : s.handler <;> simp [State.daemonFailed, hhandler, htask]
  have hunended : Unended { s with task, upload } := { h with
    relayEnded := fun hended => absurd (h.relayEnded hended) hnot
    upload := hupload
    task := hopen
    late := fun hlate hne => hfailed (h.late hlate hne)
    joined := fun hspawned hne => absurd (h.joined hspawned hne) hnot }
  exact .inr (.inr ⟨hunended, hfailed, .inl⟩)

end Unended

/-- The feeder meets an error of its own only behind a failure at the daemon, and no confirmation is
declined. -/
def State.timely (s : State) : Event → Bool
  | .stop => s.daemonFailed
  | .message (.ok false) => false
  | _ => true

def Timely (s : State) (e : Event) : Prop := s.timely e = true
  deriving Decidable

lemma Unended.onward (h : Unended s) (htimely : Timely s e) (hstep : move upload s e = some s') :
    Onward s s' := by
  revert htimely hstep
  fun_cases move upload s e <;> intro htimely hstep
  all_goals try cases hstep
  -- the loop
  next answer response queue hqueue hcli =>
    refine h.taken ?_ hqueue
    rintro rfl
    cases htimely
  next hqueue hhandler hcli =>
    -- the response behind which the handler ends is still on its way
    have hfailed := h.late (by simp [hhandler, Phase.early]) (by simp [hhandler])
    simp [State.daemonFailed, hhandler, hqueue] at hfailed
  next allow hcli =>
    obtain rfl := Channel.map_send hstep
    obtain rfl := h.allowed hcli
    refine .inr (.inr ⟨{ h with cli := .inl rfl, requests := ?_ }, id, .inl⟩)
    simpa [Channel.push] using h.requests
  · exact .inr (.inl ⟨_, rfl⟩)
  -- the feeder
  next hfeeder =>
    obtain rfl := Channel.map_send hstep
    exact .inr (.inr (h.fed hfeeder))
  · obtain rfl := Channel.map_send hstep
    exact .inl rfl
  next hclosed => exact h.fail (h.failed_of_closed hclosed)
  next hclosed => exact h.fail (h.failed_of_closed hclosed)
  · exact h.fail htimely
  -- the handler
  next hhandler =>
    obtain rfl := sendResponse_some hstep
    exact h.prepare (early_of_eq hhandler rfl) rfl h.requests (h.push (by simp))
  next message hhandler => exact h.refused (early_of_eq hhandler rfl) message h.requests
  next hhandler =>
    obtain rfl := sendResponse_some hstep
    exact h.prepare (early_of_eq hhandler rfl) rfl h.requests (h.push (by simp))
  next hhandler => exact h.prepare (early_of_eq hhandler rfl) rfl h.requests h.responses
  next hhandler hqueue _ =>
    exact h.prepare (early_of_eq hhandler rfl) rfl (h.requests_tail hqueue) h.responses
  next hhandler hqueue _ =>
    exact h.refused (early_of_eq hhandler rfl) _ (h.requests_tail hqueue)
  next hhandler _ _ hqueue _ =>
    exact h.refused (early_of_eq hhandler rfl) _ (h.requests_tail hqueue)
  next hhandler _ =>
    obtain ⟨t, ht, rfl⟩ := Option.map_eq_some_iff.1 hstep
    obtain rfl := sendResponse_some ht
    exact h.spawned (early_of_eq hhandler rfl) (h.push (by simp))
  next hhandler _ => exact h.spawned (early_of_eq hhandler rfl) h.responses
  next htask _ => exact (h.task_open htask).elim
  next htask _ => exact h.joinedError htask
  next hhandler =>
    obtain rfl := sendResponse_some hstep
    exact h.reported hhandler
  -- the relay
  next queue hrelay frame hqueue _ =>
    have hframe : frame ≠ .endOfStream := by
      rintro rfl
      exact h.requests (hqueue ▸ List.mem_cons_self)
    exact h.relayed (by simp [hrelay]) (h.requests_tail hqueue) (by simpa using hframe) (by simp)
      (by simp)
      h.upload
  next hqueue _ =>
    exact .inr (.inr ⟨{ h with requests := h.requests_tail hqueue }, id, .inl⟩)
  next result htask hrelay =>
    have hfailure : s.task.failure = true := by
      have hopen := h.task_open htask
      cases result with
      | ok => exact hopen.elim
      | error e => exact htask ▸ rfl
    exact h.relayed (by simp [hrelay]) h.requests (by simp) (fun _ => hfailure) (by simp) h.upload
  next frame hrelay htask =>
    obtain rfl := Channel.map_send hstep
    have hframe : frame ≠ .endOfStream := by
      rintro rfl
      exact h.relay hrelay
    have hupload := h.upload
    rw [if_neg hframe]
    exact h.relayed (by simp [hrelay]) h.requests (by simp) (by simp) (by simp)
      (by simp [Channel.push, hupload, hframe.symm])
  -- the copy task
  next htask => exact h.retask htask rfl trivial h.upload
  next htask => exact h.retask htask rfl trivial h.upload
  next hqueue htask =>
    have hupload := h.upload
    rw [hqueue, List.mem_cons, not_or] at hupload
    exact h.retask htask rfl (Ne.symm hupload.1) hupload.2
  next hrelay htask =>
    have hfailure := h.relayEnded hrelay
    rw [htask] at hfailure
    cases hfailure
  next htask =>
    rw [if_neg (h.task_open htask)]
    exact h.retask htask rfl trivial h.upload
  next htask => exact h.retask htask rfl trivial h.upload
  next htask => exact (h.task_open htask).elim
  next htask => exact h.retask htask rfl trivial h.upload
  next htask => exact h.retask htask rfl trivial h.upload
  next htask => exact h.retask htask rfl trivial h.upload

/-- The loop spawns the feeder, and the rest of it is the feeder's own. -/
def Event.ofFeeder : Event → Bool
  | .message _ | .feed | .feedRefused | .stop => true
  | _ => false

lemma feeder_move (he : e.ofFeeder = false) (hstep : move upload s e = some s') :
    s'.feeder = s.feeder := by
  revert he hstep
  fun_cases move upload s e <;> intro he hstep <;> try cases he
  all_goals try cases hstep
  all_goals try rfl
  · rw [map_send hstep]
  · rw [sendResponse_some hstep]
  · rw [sendResponse_some hstep]
  · obtain ⟨t, ht, rfl⟩ := Option.map_eq_some_iff.1 hstep
    rw [sendResponse_some ht]
  · rw [sendResponse_some hstep]
  · rw [map_send hstep]

lemma ended_move (hfeeder : s.feeder = .finished ∨ s.feeder = .failed)
    (hstep : move upload s e = some s') : s'.feeder = s.feeder := by
  by_cases he : e.ofFeeder = false
  · exact feeder_move he hstep
  · cases e with
    | message answer =>
      simp only [move] at hstep
      split at hstep
      next response queue hcli hqueue =>
        cases hstep
        cases response with
        | confirmRequired reason => cases answer <;> rfl
        | resumeAck skip =>
          rcases hfeeder with hfeeder | hfeeder <;> simp [State.takeResponse, hfeeder]
        | _ => rfl
      · cases hstep
    | feed | feedRefused | stop =>
      rcases hfeeder with hfeeder | hfeeder <;> simp [move, hfeeder] at hstep
    | _ => exact absurd rfl he

/-! ### The feeder's errors -/

/-- The feeder has sent the end of the stream, or `run_copy` has returned an error, or neither and
then a feeder that has failed is told of. -/
def Kept (s : State) : Prop :=
  s.feeder = .finished ∨ (∃ e, s.cli = .returned (.error e)) ∨
    (Unended s ∧ (s.feeder = .failed → s.daemonFailed = true))

lemma kept_start : Kept (.start upload) := by
  refine .inr (.inr ⟨unended_start, ?_⟩)
  unfold State.start
  split
  · nofun
  · nofun

lemma Onward.kept (h : Onward s s') (hfailed : s.feeder = .failed → s.daemonFailed = true) :
    Kept s' := by
  rcases h with hfinished | hreturned | ⟨hunended, hkeep, hfeeder⟩
  · exact .inl hfinished
  · exact .inr (.inl hreturned)
  · exact .inr (.inr ⟨hunended, fun h => hkeep ((hfeeder h).elim hfailed id)⟩)

lemma move_of_step (hstep : step upload s e = some s') : move upload s e = some s' := by
  unfold step at hstep
  split at hstep
  · cases hstep
  · exact hstep

lemma kept_step (h : Kept s) (htimely : Timely s e) (hstep : step upload s e = some s') :
    Kept s' := by
  rcases h with hfinished | ⟨error, hreturned⟩ | ⟨hunended, hfailed⟩
  · exact .inl ((ended_move (.inl hfinished) (move_of_step hstep)).trans hfinished)
  · rw [step, hreturned] at hstep
    cases hstep
  · exact (hunended.onward htimely (move_of_step hstep)).kept hfailed

/-- The steps of the loop, the handler and the relay that need neither the session nor an answer
that is no consent. -/
def Event.unaided : Event → Bool
  | .message (.ok true) | .reply | .replyRefused | .join | .report | .relayTake | .relaySend => true
  | _ => false

def Unaided (_ : State) (e : Event) : Prop := e.unaided = true

lemma Unaided.timely (h : Unaided s e) : Timely s e := by
  cases e with
  | stop => cases h
  | message answer =>
    rcases answer with _ | _ | _
    · rfl
    · cases h
    · rfl
  | _ => rfl

/-- `run_copy` can return an error. -/
def Reports (upload : Upload) (s : State) : Prop :=
  ∃ t e, Leads (step upload) Unaided s t ∧ t.cli = .returned (.error e)

lemma reports_of_returned {error : Str} (h : s.cli = .returned (.error error)) :
    Reports upload s := ⟨s, error, .refl s, h⟩

/-- A feeder that has failed, before `run_copy` has returned. -/
structure Doomed (s : State) : Prop where
  unended : Unended s
  feeder : s.feeder = .failed
  daemonFailed : s.daemonFailed = true

namespace Doomed

variable (h : Doomed s)

include h

/-- What can be reported behind a step can be reported. -/
lemma of_move (he : e.unaided = true) (hstep : move upload s e = some s')
    (hrest : Doomed s' → Reports upload s') : Reports upload s := by
  have hfeeder : s'.feeder = .failed := (ended_move (.inr h.feeder) hstep).trans h.feeder
  have hreports : Reports upload s' := by
    rcases h.unended.onward (Unaided.timely he) hstep with hfinished | ⟨error, hreturned⟩ | hadvance
    · rw [hfeeder] at hfinished
      cases hfinished
    · exact reports_of_returned hreturned
    · exact hrest ⟨hadvance.unended, hfeeder, hadvance.daemonFailed h.daemonFailed⟩
  obtain ⟨t, error, hlead, hreturned⟩ := hreports
  have hstep' : step upload s e = some s' := by
    rcases h.unended.cli with hcli | hcli <;> simpa [step, hcli] using hstep
  exact ⟨t, error, .head he hstep' hlead, hreturned⟩

/-! A reply that waits for room. -/

section Replying

variable (hcli : s.cli = .replying true)

include hcli

lemma reports_closed (hclosed : s.closed = true) : Reports upload s := by
  have hstep : move upload s .replyRefused = some { s with
      cli := .returned (.error "failed to send copy confirmation request".toList) } := by
    simp [move, hcli, hclosed]
  exact h.of_move rfl hstep fun _ => reports_of_returned rfl

lemma reports_holding (hrelay : s.relay = .holding frame) : Reports upload s := by
  have hspawned : s.relay ≠ .unspawned := by
    rw [hrelay]
    nofun
  have hfailure : s.task.failure = true := by
    by_cases hcopying : s.handler = .copying
    · have hfailed := h.daemonFailed
      rwa [State.daemonFailed, hcopying] at hfailed
    · exact h.unended.joined hspawned hcopying
  obtain ⟨error, htask⟩ := Task.eq_of_failure hfailure
  have hstep : move upload s .relaySend = some { s with relay := .ended } := by
    simp [move, hrelay, htask]
  exact h.of_move rfl hstep fun h' => h'.reports_closed hcli rfl

variable
  (hrest : ∀ s', Doomed s' → s'.cli = .waiting → s'.responses = s.responses → Reports upload s')

include hrest

lemma reports_room (hroom : s.requests.hasRoom requestCapacity) : Reports upload s := by
  have hstep : move upload s .reply =
      some { s with requests := s.requests.push (.confirm true), cli := .waiting } := by
    simp [move, hcli, send_of_hasRoom hroom]
  exact h.of_move rfl hstep fun h' => hrest _ h' rfl rfl

lemma reports_idle (hrelay : s.relay = .idle) : Reports upload s := by
  induction hqueue : s.requests.queue generalizing s with
  | nil =>
    refine h.reports_room hcli hrest ?_
    rw [hasRoom, hqueue]
    decide
  | cons request queue ih =>
    cases request with
    | frame frame =>
      have hstep : move upload s .relayTake = some { s with
          requests := ⟨s.requests.received ++ [.frame frame], queue⟩
          relay := .holding frame } := by
        simp [move, hrelay, hqueue]
      exact h.of_move rfl hstep fun h' => h'.reports_holding hcli rfl
    | confirm allow =>
      have hstep : move upload s .relayTake = some { s with
          requests := ⟨s.requests.received ++ [.confirm allow], queue⟩ } := by
        simp [move, hrelay, hqueue]
      exact h.of_move rfl hstep fun h' => ih h' hcli hrest hrelay rfl

lemma reports_replying : Reports upload s := by
  cases hrelay : s.relay with
  | unspawned =>
    refine h.reports_closed hcli ?_
    have hcopying : s.handler ≠ .copying := fun hcopying => h.unended.copying hcopying hrelay
    have hfailed := h.daemonFailed
    cases hhandler : s.handler <;> simp_all [State.closed, State.daemonFailed]
  | ended =>
    refine h.reports_closed hcli ?_
    rw [State.closed, hrelay]
  | holding frame => exact h.reports_holding hcli hrelay
  | idle => exact h.reports_idle hcli hrest hrelay

end Replying

/-! The error on its way. -/

lemma reports_received (hcli : s.cli = .waiting) (hqueue : s.responses.queue = [response])
    (hfailure : response.failure = true) :
    Reports upload s := by
  cases response with
  | error message =>
    have hstep : move upload s (.message (.ok true)) = some { s with
        responses := ⟨s.responses.received ++ [.error message], []⟩
        cli := .returned (.error message) } := by
      simp [move, hcli, hqueue, State.takeResponse]
    exact h.of_move rfl hstep fun _ => reports_of_returned rfl
  | _ => cases hfailure

lemma reports_reporting (hcli : s.cli = .waiting) (hqueue : s.responses.queue = [])
    (hhandler : s.handler = .reporting response) :
    Reports upload s := by
  have hroom : s.responses.hasRoom responseCapacity := by
    rw [hasRoom, hqueue]
    decide
  have hfailure : response.failure = true := by
    have hfailed := h.daemonFailed
    rwa [State.daemonFailed, hhandler] at hfailed
  have hstep : move upload s .report =
      some { s with responses := s.responses.push response, handler := .ended } := by
    simp [move, hhandler, State.sendResponse, send_of_hasRoom hroom]
  refine h.of_move rfl hstep fun h' => h'.reports_received hcli ?_ hfailure
  simp [push, hqueue]

/-- Once all is received, the handler has the error. -/
lemma reports_drained (hcli : s.cli = .waiting) (hqueue : s.responses.queue = []) :
    Reports upload s := by
  have hfailed := h.daemonFailed
  cases hhandler : s.handler with
  | copying =>
    rw [State.daemonFailed, hhandler] at hfailed
    obtain ⟨error, htask⟩ := Task.eq_of_failure hfailed
    have hstep : move upload s .join = some { s with handler := .reporting (.error error) } := by
      simp [move, hhandler, htask]
    exact h.of_move rfl hstep fun h' => h'.reports_reporting hcli hqueue rfl
  | reporting response => exact h.reports_reporting hcli hqueue hhandler
  | _ => simp [State.daemonFailed, hhandler, hqueue] at hfailed

end Doomed

lemma takeResponse_responses (response : Response) :
    (s.takeResponse upload answer response).responses = s.responses := by
  cases response with
  | confirmRequired reason => cases answer <;> rfl
  | resumeAck skip =>
    simp only [State.takeResponse]
    split <;> rfl
  | _ => rfl

/-- **The error is reported**: the loop receives what is before it, and then the error. -/
theorem Doomed.reports (h : Doomed s) : Reports upload s := by
  induction hqueue : s.responses.queue generalizing s with
  | nil =>
    rcases h.unended.cli with hcli | hcli
    · exact h.reports_drained hcli hqueue
    · refine h.reports_replying hcli fun s' h' hcli' hresponses => ?_
      exact h'.reports_drained hcli' (hresponses ▸ hqueue)
  | cons response queue ih =>
    have hwaiting : ∀ {s : State}, Doomed s → s.cli = .waiting →
        s.responses.queue = response :: queue → Reports upload s := by
      intro s h hcli hqueue
      have hstep : move upload s (.message (.ok true)) =
          some ({ s with responses := ⟨s.responses.received ++ [response], queue⟩ }.takeResponse
            upload (.ok true) response) := by
        simp [move, hcli, hqueue]
      refine h.of_move rfl hstep fun h' => ih h' ?_
      rw [takeResponse_responses]
    rcases h.unended.cli with hcli | hcli
    · exact hwaiting h hcli hqueue
    · refine h.reports_replying hcli fun s' h' hcli' hresponses => ?_
      exact hwaiting h' hcli' (hresponses ▸ hqueue)

/-- **A failed feeder is reported**: in a run in which the feeder meets an error of its own only
behind a failure at the daemon and no confirmation is declined, `run_copy` does not return `Ok` once
the feeder has failed, and it can return an error. -/
theorem failed_feeder_reported {es : List Event}
    (hrun : run (step upload) (.start upload) es = some s)
    (htimely : Meets (step upload) Timely (.start upload) es) (hfailed : s.feeder = .failed) :
    s.cli ≠ .returned (.ok ()) ∧
      ∃ t e, Leads (step upload) Unaided s t ∧ t.cli = .returned (.error e) := by
  have hkept : Kept s := run_invariant kept_step kept_start htimely hrun
  rcases hkept with hfinished | ⟨e, herror⟩ | ⟨hunended, hdaemon⟩
  · rw [hfailed] at hfinished
    cases hfinished
  · refine ⟨?_, reports_of_returned herror⟩
    rw [herror]
    nofun
  · refine ⟨?_, Doomed.reports ⟨hunended, hfailed, hdaemon hfailed⟩⟩
    rcases hunended.cli with hcli | hcli <;> simp [hcli]

/-- A directory with a file that cannot be opened. -/
def secret : Upload where
  localPath := ⟨true, [['s', 'r', 'c']]⟩
  recursive := true
  root := some (.directory ⟨493, 4096, 0⟩ true
    (.entry ['k', 'e', 'y'] (.file ⟨384, 5, 0⟩ fun _ => ([], some .open)) .done))
  hinted := false

/-- The session cannot be opened, and the feeder fails behind that. -/
def refusedRun : List Event :=
  [.approve, .feed, .begin, .opened (.error "no route"), .feed, .stop]

theorem failed_feeder_reported_refusedRun :
    ∃ s, run (step secret) (.start secret) refusedRun = some s ∧ s.feeder = .failed ∧
      ∃ t e, Leads (step secret) Unaided s t ∧ t.cli = .returned (.error e) := by
  have hrun : run (step secret) (.start secret) refusedRun = some _ := rfl
  have htimely : Meets (step secret) Timely (.start secret) refusedRun := by decide +kernel
  exact ⟨_, rfl, rfl, (failed_feeder_reported hrun htimely rfl).2⟩

/-- One frame on its way from the feeder to the session. -/
def passFrame : List Event := [.feed, .relayTake, .relaySend, .takeFrame, .handled (.ok ())]

/-- The session takes the frames that the feeder sends, and nobody can move when it has failed. And
where the user declines the upload, `run_copy` returns `Ok`. -/
theorem failed_feeder_unreported :
    (∃ s, run (step secret) (.start secret)
        ([Event.approve, .begin, .opened (.ok ())] ++ passFrame ++ passFrame ++ [Event.stop]) =
        some s ∧
      s.feeder = .failed ∧ s.cli = .waiting ∧ ∀ e, step secret s e = none) ∧
    ∃ s, run (step secret) (.start secret)
        [.feed, .feed, .stop, .ask [], .message (.ok false), .reply] = some s ∧
      s.feeder = .failed ∧ s.cli = .returned (.ok ()) := by
  refine ⟨⟨_, rfl, rfl, rfl, fun e => ?_⟩, ⟨_, rfl, rfl, rfl⟩⟩
  cases e <;> rfl

end CrossHostOps.UploadFeeder
