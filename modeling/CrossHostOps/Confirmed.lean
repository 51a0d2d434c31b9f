import CrossHostOps.ReviewGate

/-!
A confirmed operation and its input: `run_command` of `cli/exec.rs` and `run_copy` of `cli/copy.rs`
against the handlers. A task of the client feeds the request stream on which the reply to
`ConfirmRequired` is sent as well, and the handler waits for the reply as its next message.
-/

namespace CrossHostOps.Confirmed

open Text Runs Frames Oversight Handlers List

/-- A command that is not interactive with what is read from standard input, or an upload with the
frames of what is uploaded. -/
inductive Operation
  | exec (request : ExecRequest) (chunks : List Bytes) (argv : request.argv ≠ [])
      (batch : request.interactive = false) (stdin : request.stdin = true)
      (nonempty : ∀ chunk ∈ chunks, chunk ≠ [])
  | upload (target : Str) (spec : CopySpec) (timeoutMs : ℕ) (frames : List CopyFrame)
      (upload : spec.direction = .upload) (unended : .endOfStream ∉ frames)

namespace Operation

def job : Operation → Job
  | exec request .. => .execute request
  | upload target spec timeoutMs .. => .copy target spec timeoutMs

/-- What the feeder sends: the input, and behind it a message that tells its end. -/
def feed : Operation → List Request
  | exec _ chunks .. => chunks.map .stdinData ++ [.stdinData []]
  | upload _ _ _ frames .. => frames.map (fun frame => .frame (some frame)) ++
      [.frame (some .endOfStream)]

def last : Operation → Request
  | exec .. => .stdinData []
  | upload .. => .frame (some .endOfStream)

/-- What of the messages is for the operation: the end of standard input is told by closing it. -/
def input (op : Operation) (messages : List Request) : List Request :=
  match op with
  | exec .. => messages.filter (· ≠ .stdinData [])
  | upload .. => messages

def call : Operation → SessionCall
  | exec .. => .openExecSession
  | upload .. => .copyViaSession

end Operation

/-- What has reached the operation. -/
def delivered (log : List Entry) : List Request :=
  log.filterMap fun
    | .action (.forward data) => some (.stdinData data)
    | .action (.relay frame) => some (.frame (some frame))
    | _ => none

def asked (log : List Entry) : Bool :=
  log.any fun
    | .action (.send (.confirmRequired _ _)) => true
    | _ => false

def acked (log : List Entry) : Bool :=
  log.any fun
    | .action (.send .resumeAck) => true
    | _ => false

/-- The feeder runs from the start, but for an upload with hints, where it waits for `ResumeAck`. -/
def Operation.spawned (log : List Entry) : Operation → Bool
  | exec .. => true
  | upload _ spec .. => spec.resume = [] ∨ acked log

/-- What the feeder has not sent, whether the reply has been sent, the stream, and the handler. -/
structure Exchange where
  unfed : List Request
  replied : Bool
  stream : List Request
  state : State

inductive Move
  | feed
  | reply
  | read
  | handler (event : Event)

/-- The review asks to confirm, nobody disconnects, and the operation takes its input. -/
def undisturbed (d : Daemon) (kind : OperationKind) : Event → Bool
  | .resolved (.ok ⟨_ :: _, _⟩) => true
  | .sent ok => ok
  | .reviewed outcome =>
    match (runReview kind d.executionId d.failureAction outcome).2 with
    | .confirm _ => true
    | _ => false
  | .output _ ok => ok
  | .probed => true
  | _ => false

namespace Exchange

def start (op : Operation) : Exchange := ⟨op.feed, false, [], op.job.start⟩

/-- `text` is the id as it is in `ConfirmRequired`. -/
def step (d : Daemon) (text : Str) (op : Operation) (x : Exchange) : Move → Option Exchange
  | .feed =>
    match x.unfed with
    | message :: unfed =>
      if op.spawned x.state.log then
        some { x with unfed := unfed, stream := x.stream ++ [message] }
      else none
    | [] => none
  | .reply =>
    if asked x.state.log ∧ x.replied = false then
      some { x with replied := true, stream := x.stream ++ [.confirm text true] }
    else none
  | .read =>
    match x.stream with
    | message :: stream =>
      (op.job.step d x.state (.message (.ok (some message)))).map fun state =>
        { x with stream := stream, state := state }
    | [] => none
  | .handler event =>
    if undisturbed d op.job.surface.kind event then
      (op.job.step d x.state event).map fun state => { x with state := state }
    else none

/-- The client has replied, and the handler waits for its next message and has read what has been
sent, or it is at its end. -/
def Quiet (x : Exchange) : Prop :=
  x.replied = true ∧
    (x.stream = [] ∧ x.state.phase ≠ .probing ∧ x.state.phase ≠ .acking ∨
      ∃ result, x.state.phase = .ended result)

/-- The operation runs and has got all the input that has been sent. -/
def Delivered (op : Operation) (x : Exchange) : Prop :=
  op.call ∈ calls x.state.log ∧
    ∃ sent, sent ++ x.unfed = op.feed ∧ delivered x.state.log = op.input sent

/-- Nothing is fed before the reply. -/
def Cond (x : Exchange) : Move → Prop
  | .feed => x.replied = true
  | _ => True

instance (x : Exchange) : (move : Move) → Decidable (x.Cond move)
  | .feed => inferInstanceAs (Decidable (x.replied = true))
  | .reply | .read | .handler _ => inferInstanceAs (Decidable True)

end Exchange

/-! ### The loop behind the confirmation -/

section loop

variable {d : Daemon} {op : Operation} {consumed rest : List Request} {m : Request}

/-- Where the handler is when it has read this much of the input. -/
def Operation.reading (consumed : List Request) : Operation → Phase
  | op@(exec ..) => .executing (op.last ∉ consumed) false
  | op@(upload ..) => .copying (op.last ∉ consumed)

lemma feed_eq (op : Operation) : ∃ body, op.feed = body ++ [op.last] ∧ op.last ∉ body := by
  cases op with
  | exec request chunks argv batch stdin nonempty =>
    refine ⟨_, rfl, fun hmem => ?_⟩
    obtain ⟨chunk, hchunk, heq⟩ := mem_map.1 hmem
    cases heq
    exact nonempty [] hchunk rfl
  | upload target spec timeoutMs frames upload unended =>
    refine ⟨_, rfl, fun hmem => ?_⟩
    obtain ⟨frame, hframe, heq⟩ := mem_map.1 hmem
    cases heq
    exact unended hframe

/-- As long as something is left the end has not been read. -/
lemma last_notMem (hfeed : consumed ++ m :: rest = op.feed) : op.last ∉ consumed := by
  obtain ⟨body, hbody, hlast⟩ := feed_eq op
  have hconsumed : consumed ++ (m :: rest).dropLast = body := by
    have hdrop := congrArg dropLast (hfeed.trans hbody)
    rwa [dropLast_append_of_ne_nil (cons_ne_nil m rest), dropLast_concat] at hdrop
  intro hmem
  exact hlast (hconsumed ▸ mem_append_left _ hmem)

lemma input_append (op : Operation) (messages messages' : List Request) :
    op.input (messages ++ messages') = op.input messages ++ op.input messages' := by
  cases op with
  | exec => exact filter_append _ _
  | upload => rfl

lemma reading_step (hfeed : consumed ++ m :: rest = op.feed) :
    ∃ actions, op.job.handle d (op.reading consumed) (.message (.ok (some m))) =
        some (actions, op.reading (consumed ++ [m])) ∧
      delivered (actions.map .action) = op.input [m] := by
  have hlast := last_notMem hfeed
  have hm : m ∈ op.feed := hfeed ▸ by simp
  cases op with
  | exec request chunks argv batch stdin nonempty =>
    obtain ⟨data, rfl⟩ : ∃ data, m = .stdinData data := by
      rcases mem_append.1 hm with hm | hm
      · obtain ⟨data, -, rfl⟩ := mem_map.1 hm
        exact ⟨data, rfl⟩
      · exact ⟨[], mem_singleton.1 hm⟩
    by_cases hdata : data = []
    · subst hdata
      refine ⟨[], ?_, rfl⟩
      simp [Operation.job, Operation.reading, Job.handle, processExecute, batch, executing,
        clientMessage, stdin, Operation.last]
    · refine ⟨[.forward data], ?_, by simp [delivered, Operation.input, hdata]⟩
      have hopen : .stdinData [] ∉ consumed := hlast
      simp [Operation.job, Operation.reading, Job.handle, processExecute, batch, executing,
        clientMessage, stdin, Operation.last, hopen, hdata]
  | upload target spec timeoutMs frames upload unended =>
    obtain ⟨frame, rfl⟩ : ∃ frame, m = .frame (some frame) := by
      rcases mem_append.1 hm with hm | hm
      · obtain ⟨frame, -, rfl⟩ := mem_map.1 hm
        exact ⟨frame, rfl⟩
      · exact ⟨.endOfStream, mem_singleton.1 hm⟩
    refine ⟨[.relay frame], ?_, rfl⟩
    have hrelaying : .frame (some .endOfStream) ∉ consumed := hlast
    simp [Operation.job, Operation.reading, Job.handle, copy, copying, relayMessage,
      Operation.last, hrelaying, eq_comm]

end loop

/-! ### Steps of the exchange -/

def Phase.front : Phase → Bool
  | .resolving | .warning | .reviewing | .asking | .confirming => true
  | _ => false

section step

variable {d : Daemon} {text : Str} {op : Operation} {x x' : Exchange} {early : Bool}

/-- The handler has not taken the reply. What the client has sent before it is in front of it. -/
structure Waiting (text : Str) (op : Operation) (early : Bool) (x : Exchange) : Prop where
  front : Phase.front x.state.phase = true
  calls : calls x.state.log = []
  delivered : delivered x.state.log = []
  asked : asked x.state.log = true ↔ x.state.phase = .asking ∨ x.state.phase = .confirming
  stream : (x.replied = false ∧ x.stream ++ x.unfed = op.feed ∧ (early = true ↔ x.stream ≠ [])) ∨
    (x.replied = true ∧ (x.state.phase = .asking ∨ x.state.phase = .confirming) ∧
      ∃ before behind, x.stream = before ++ .confirm text true :: behind ∧
        before ++ behind ++ x.unfed = op.feed ∧ (early = true ↔ before ≠ []))

/-- The operation may run, and has got what has been read since. -/
structure Going (op : Operation) (x : Exchange) : Prop where
  replied : x.replied = true
  consumed : ∃ consumed, consumed ++ (x.stream ++ x.unfed) = op.feed ∧
    delivered x.state.log = op.input consumed ∧
    (x.state.phase = op.reading consumed ∧ op.call ∈ Handlers.calls x.state.log ∧
        op.spawned x.state.log = true ∨
      consumed = [] ∧ op.call = .copyViaSession ∧ (x.state.phase = .probing ∨
        x.state.phase = .acking ∧ op.spawned x.state.log = true))

/-- The handler has read another message than the reply. -/
structure Refused (x : Exchange) : Prop where
  ended : ∃ result, x.state.phase = .ended result
  calls : calls x.state.log = []

/-- `early` tells whether something has been fed before the reply. -/
inductive Sound (text : Str) (op : Operation) : Bool → Exchange → Prop
  | waiting {early : Bool} {x : Exchange} (waiting : Waiting text op early x) :
    Sound text op early x
  | going {x : Exchange} (going : Going op x) : Sound text op false x
  | refused {x : Exchange} (refused : Refused x) : Sound text op true x

lemma sound_start (op : Operation) : Sound text op false (.start op) := by
  have hstart : op.job.start = ⟨.resolving, []⟩ := by
    cases op with
    | exec request chunks argv batch => simp [Operation.job, Job.start, argv, batch]
    | upload => rfl
  refine .waiting ⟨?_, ?_, ?_, ?_, .inl ⟨rfl, rfl, by simp [Exchange.start]⟩⟩ <;>
    rw [Exchange.start, hstart] <;> simp [Phase.front, calls, delivered, asked]

lemma Sound.feed (h : Sound text op early x) (hstep : x.step d text op .feed = some x') :
    Sound text op (early || !x.replied) x' := by
  simp only [Exchange.step] at hstep
  split at hstep
  · rename_i message unfed hunfed
    split_ifs at hstep
    cases hstep
    cases h with
    | waiting waiting =>
      refine .waiting { waiting with stream := ?_ }
      rcases waiting.stream with ⟨hreplied, hfeed, hearly⟩ |
        ⟨hreplied, hphase, before, behind, hstream, hfeed, hearly⟩
      · refine .inl ⟨hreplied, ?_, by simp [hreplied]⟩
        rw [append_assoc, singleton_append, ← hunfed, hfeed]
      · refine .inr ⟨hreplied, hphase, before, behind ++ [message], by simp [hstream], ?_, ?_⟩
        · rw [← hfeed, hunfed]
          simp
        · simpa [hreplied] using hearly
    | going going =>
      obtain ⟨consumed, hfeed, hdelivered, hphase⟩ := going.consumed
      rw [going.replied]
      refine .going ⟨rfl, consumed, ?_, hdelivered, hphase⟩
      rw [← hfeed, hunfed]
      simp
    | refused refused => exact .refused ⟨refused.ended, refused.calls⟩
  · cases hstep

lemma Sound.reply (h : Sound text op early x) (hstep : x.step d text op .reply = some x') :
    Sound text op early x' := by
  simp only [Exchange.step] at hstep
  split_ifs at hstep with hcond
  cases hstep
  obtain ⟨hasked, hreplied⟩ := hcond
  cases h with
  | waiting waiting =>
    refine .waiting { waiting with
      stream := .inr ⟨rfl, waiting.asked.1 hasked, x.stream, [], rfl, ?_⟩ }
    rcases waiting.stream with ⟨-, hfeed, hearly⟩ | ⟨hreplied', -⟩
    · exact ⟨by rw [append_nil, hfeed], hearly⟩
    · rw [hreplied] at hreplied'
      cases hreplied'
  | going going =>
    rw [going.replied] at hreplied
    cases hreplied
  | refused refused => exact .refused ⟨refused.ended, refused.calls⟩

variable {h : Surface} {s s' : State} {event : Event} {phase : Phase}

lemma waitForConfirmation_feed {m : Request} (hm : m ∈ op.feed) :
    waitForConfirmation d h (.ok (some m)) = .error h.unexpected := by
  cases op with
  | exec =>
    rcases mem_append.1 hm with hm | hm
    · obtain ⟨data, -, rfl⟩ := mem_map.1 hm
      rfl
    · cases mem_singleton.1 hm
      rfl
  | upload =>
    rcases mem_append.1 hm with hm | hm
    · obtain ⟨frame, -, rfl⟩ := mem_map.1 hm
      rfl
    · cases mem_singleton.1 hm
      rfl

lemma waitForConfirmation_reply (htext : d.parseStr text = .ok d.executionId) :
    waitForConfirmation d h (.ok (some (.confirm text true))) = .ok () := by
  simp [waitForConfirmation, Daemon.parseExecutionId, htext]

lemma delivered_step (log : List Entry) (event : Event) (more : List Entry) :
    delivered (log ++ .event event :: more) = delivered log ++ delivered more :=
  filterMap_append

lemma calls_step (log : List Entry) (event : Event) (more : List Entry) :
    calls (log ++ .event event :: more) = calls log ++ calls more :=
  filterMap_append

/-- Before the reply an event is a matter of the review. -/
lemma front_oversees (hfront : Phase.front s.phase = true)
    (hstep : op.job.step d s event = some s') :
    ∃ actions, Oversees d op.job.surface s.phase event actions s'.phase ∧
      s'.log = s.log ++ .event event :: actions.map .action := by
  obtain ⟨actions, hhandle, hlog⟩ := Job.step_eq_some hstep
  refine ⟨actions, ?_, hlog⟩
  cases Job.handles hhandle with
  | rejects result rejecting =>
    rw [rejecting] at hfront
    cases hfront
  | proceeds late =>
    generalize s.phase = phase at hfront late
    cases phase <;> cases hfront <;> cases late
  | oversees oversees => exact oversees

/-- A handler that waits reads the reply, or it ends. -/
lemma front_read {m : Request} (hfront : Phase.front s.phase = true)
    (hstep : op.job.step d s (.message (.ok (some m))) = some s') :
    (waitForConfirmation d op.job.surface (.ok (some m)) = .ok () ∧
        s'.phase = op.job.surface.proceed.2 ∧ s'.log = s.log ++
          .event (.message (.ok (some m))) :: op.job.surface.proceed.1.map .action) ∨
      (∃ e, waitForConfirmation d op.job.surface (.ok (some m)) = .error e) ∧
        (∃ result, s'.phase = .ended result) ∧
        s'.log = s.log ++ [.event (.message (.ok (some m)))] := by
  obtain ⟨actions, hoversees, hlog⟩ := front_oversees hfront hstep
  rw [hlog]
  generalize s.phase = phase, s'.phase = phase' at hfront hoversees
  cases hoversees with
  | confirmed reply => exact .inl ⟨reply, rfl, rfl⟩
  | unconfirmed reply => exact .inr ⟨⟨_, reply⟩, ⟨_, rfl⟩, rfl⟩

/-- What follows the reply: the operation runs, or what there is of an upload is probed first. -/
lemma proceed_going (op : Operation) :
    (op.job.surface.proceed.2 = op.reading [] ∧
        calls (op.job.surface.proceed.1.map .action) = [op.call] ∧
        (∀ log, op.spawned log = true) ∨
      op.call = .copyViaSession ∧ op.job.surface.proceed.2 = .probing) ∧
      delivered (op.job.surface.proceed.1.map .action) = [] := by
  cases op with
  | exec request chunks argv batch stdin nonempty =>
    simp only [Operation.job, Job.surface, batch]
    exact ⟨.inl ⟨by simp [execSurface, executeSurface, stdin, Operation.reading], rfl,
      fun _ => rfl⟩, rfl⟩
  | upload target spec timeoutMs frames upload unended =>
    simp only [Operation.job, Job.surface, copySurface]
    split_ifs with hprobe
    · exact ⟨.inr ⟨rfl, rfl⟩, rfl⟩
    · have hresume : spec.resume = [] := by simpa [upload] using hprobe
      exact ⟨.inl ⟨by simp [spawnCopy, upload, Operation.reading], rfl,
        fun _ => by simp [Operation.spawned, hresume]⟩, rfl⟩

lemma spawned_step {log : List Entry} (event : Event) (more : List Entry)
    (h : op.spawned log = true) : op.spawned (log ++ .event event :: more) = true := by
  cases op with
  | exec => rfl
  | upload =>
    have hacked : acked log = true → acked (log ++ .event event :: more) = true := fun h => by
      rw [acked, any_append]
      exact Bool.or_eq_true_iff.2 (.inl h)
    exact decide_eq_true ((of_decide_eq_true h).imp_right hacked)

lemma Sound.read (htext : d.parseStr text = .ok d.executionId) (h : Sound text op early x)
    (hstep : x.step d text op .read = some x') : Sound text op early x' := by
  simp only [Exchange.step] at hstep
  split at hstep
  · rename_i m stream hstream
    obtain ⟨s', hs', rfl⟩ := Option.map_eq_some_iff.1 hstep
    cases h with
    | waiting waiting =>
      -- a message of the feeder ends the handler
      have hrefused : m ∈ op.feed → early = true → Sound text op early
          { x with stream := stream, state := s' } := by
        rintro hm rfl
        obtain ⟨hreply, -⟩ | ⟨-, hended, hlog⟩ := front_read waiting.front hs'
        · rw [waitForConfirmation_feed hm] at hreply
          cases hreply
        · exact .refused ⟨hended, by rw [hlog]; exact calls_quiet waiting.calls rfl⟩
      rcases waiting.stream with ⟨hreplied, hfeed, hearly⟩ |
        ⟨hreplied, hphase, before, behind, hsplit, hfeed, hearly⟩
      · refine hrefused ?_ (hearly.2 (by simp [hstream]))
        rw [← hfeed, hstream]
        simp
      · cases before with
        | cons m' before =>
          obtain ⟨rfl, -⟩ := List.cons.inj (hstream.symm.trans hsplit)
          exact hrefused (hfeed ▸ by simp) (hearly.2 (cons_ne_nil _ _))
        | nil =>
          obtain ⟨rfl, rfl⟩ := List.cons.inj (hstream.symm.trans hsplit)
          obtain rfl : early = false := by simpa using hearly
          obtain ⟨-, hphase', hlog⟩ | ⟨⟨e, hreply⟩, -⟩ := front_read waiting.front hs'
          · obtain ⟨hgo, hsilent⟩ := proceed_going op
            refine .going ⟨hreplied, [], hfeed, ?_, ?_⟩
            · rw [hlog, delivered_step, waiting.delivered, hsilent]
              cases op <;> rfl
            · refine hgo.imp
                (fun ⟨hread, hcalls, hspawned⟩ => ⟨hphase'.trans hread, ?_, hspawned _⟩)
                fun ⟨hcopy, hprobe⟩ => ⟨rfl, hcopy, .inl (hphase'.trans hprobe)⟩
              rw [hlog, calls_step, hcalls]
              exact mem_append_right _ (mem_singleton_self _)
          · rw [waitForConfirmation_reply htext] at hreply
            cases hreply
    | going going =>
      obtain ⟨consumed, hfeed, hdelivered, ⟨hphase, hcall, hspawned⟩ | ⟨-, hcopy, hphase⟩⟩ :=
        going.consumed
      · rw [hstream] at hfeed
        obtain ⟨actions, hhandle, hactions⟩ := reading_step (d := d) hfeed
        obtain rfl : s' = ⟨op.reading (consumed ++ [m]),
            x.state.log ++ Entry.event (.message (.ok (some m))) :: actions.map .action⟩ := by
          rw [Job.step, hphase, hhandle] at hs'
          exact (Option.some.inj hs').symm
        refine .going ⟨going.replied, consumed ++ [m], by simpa using hfeed, ?_,
          .inl ⟨rfl, ?_, spawned_step _ _ hspawned⟩⟩
        · rw [delivered_step, hdelivered, hactions, input_append]
        · rw [calls_step]
          exact mem_append_left _ hcall
      · have hnone : op.job.step d x.state (.message (.ok (some m))) = none := by
          cases op with
          | exec => cases hcopy
          | upload =>
            rcases hphase with hphase | ⟨hphase, -⟩ <;>
              simp [Job.step, Operation.job, Job.handle, copy, hphase]
        rw [hnone] at hs'
        cases hs'
    | refused refused =>
      obtain ⟨result, hended⟩ := refused.ended
      rw [Job.step_ended hended] at hs'
      cases hs'
  · cases hstep

lemma delivered_records (records : List AuditEvent) (response : Response) :
    delivered ((records.map Action.record ++ [Action.send response]).map .action) = [] := by
  simp [delivered]

/-- A handler that waits goes on to ask for the reply. -/
lemma front_undisturbed (hfront : Phase.front s.phase = true)
    (hevent : undisturbed d op.job.surface.kind event = true)
    (hstep : op.job.step d s event = some s') :
    Phase.front s'.phase = true ∧ calls s'.log = calls s.log ∧ delivered s'.log = delivered s.log ∧
      (asked s'.log = true ↔ asked s.log = true ∨ s'.phase = .asking) ∧
      (s.phase = .asking ∨ s.phase = .confirming ↔ s'.phase = .confirming) := by
  obtain ⟨actions, hoversees, hlog⟩ := front_oversees hfront hstep
  rw [hlog, calls_step, delivered_step]
  generalize s.phase = phase, s'.phase = phase' at hfront hoversees
  cases hoversees with
  | unresolved failed =>
    rename_i result e
    rcases result with e | ⟨_ | ⟨route, routes⟩, warning⟩
    · cases hevent
    · cases hevent
    · cases failed _ rfl
  | warn | resolved | warned =>
    exact ⟨rfl, append_nil _, append_nil _, by simp [asked], by simp⟩
  | unwarned => cases hevent
  | proceed review => simp [undisturbed, review] at hevent
  | confirm review =>
    refine ⟨rfl, ?_, ?_, by simp [asked], by simp⟩
    · rw [map_append, calls_append, calls_records]
      exact append_nil _
    · rw [delivered_records, append_nil]
  | deny review => simp [undisturbed, review] at hevent
  | asked =>
    exact ⟨rfl, append_nil _, append_nil _, by simp [asked], by simp⟩
  | unasked | confirmed | unconfirmed => cases hevent
  | denied ok result => cases hfront

/-- While the input is read nothing else moves the handler. -/
lemma reading_undisturbed {consumed : List Request} {actions : List Action}
    (hevent : undisturbed d op.job.surface.kind event = true)
    (hhandle : op.job.handle d (op.reading consumed) event = some (actions, phase)) :
    phase = op.reading consumed ∧ delivered (actions.map .action) = [] := by
  cases op with
  | exec request chunks argv batch =>
    simp only [Operation.job, Job.handle, processExecute, batch] at hhandle
    cases event with
    | output event ok =>
      cases (show ok = true from hevent)
      obtain ⟨rfl, rfl⟩ := Prod.mk.inj (Option.some.inj hhandle)
      exact ⟨rfl, rfl⟩
    | resolved | sent | reviewed | probed => cases hhandle
    | _ => cases hevent
  | upload =>
    cases event with
    | resolved | sent | reviewed | probed | output => cases hhandle
    | _ => cases hevent

/-- What there is of an upload is told to the client, and then the upload runs. -/
lemma probing_undisturbed (hcopy : op.call = .copyViaSession)
    (hphase : s.phase = .probing ∨ s.phase = .acking ∧ op.spawned s.log = true)
    (hevent : undisturbed d op.job.surface.kind event = true)
    (hstep : op.job.step d s event = some s') :
    delivered s'.log = delivered s.log ∧
      (s'.phase = op.reading [] ∧ op.call ∈ calls s'.log ∧ op.spawned s'.log = true ∨
        s'.phase = .acking ∧ op.spawned s'.log = true) := by
  obtain ⟨actions, hhandle, hlog⟩ := Job.step_eq_some hstep
  rw [hlog, delivered_step, calls_step]
  cases op with
  | exec => cases hcopy
  | upload target spec timeoutMs frames upload =>
    rcases hphase with hphase | ⟨hphase, hspawned⟩ <;> rw [hphase] at hhandle
    · cases event with
      | probed =>
        obtain ⟨rfl, hphase'⟩ := Prod.mk.inj (Option.some.inj hhandle)
        exact ⟨append_nil _, .inr ⟨hphase'.symm, by simp [Operation.spawned, acked]⟩⟩
      | resolved | sent | reviewed | output => cases hhandle
      | _ => cases hevent
    · cases event with
      | sent ok =>
        cases (show ok = true from hevent)
        obtain ⟨rfl, hphase'⟩ := Prod.mk.inj (Option.some.inj hhandle)
        refine ⟨append_nil _, .inl ⟨?_, mem_append_right _ (mem_singleton_self _),
          spawned_step _ _ hspawned⟩⟩
        rw [← hphase']
        simp [upload, Operation.reading]
      | resolved | probed | reviewed | output => cases hhandle
      | _ => cases hevent

lemma Sound.handler (h : Sound text op early x)
    (hstep : x.step d text op (.handler event) = some x') : Sound text op early x' := by
  simp only [Exchange.step] at hstep
  split_ifs at hstep with hevent
  obtain ⟨s', hs', rfl⟩ := Option.map_eq_some_iff.1 hstep
  cases h with
  | waiting waiting =>
    obtain ⟨hfront, hcalls, hdelivered, hasked, hconfirming⟩ :=
      front_undisturbed waiting.front hevent hs'
    refine .waiting ⟨hfront, hcalls.trans waiting.calls, hdelivered.trans waiting.delivered, ?_, ?_⟩
    · rw [hasked, waiting.asked, hconfirming, or_comm]
    · exact waiting.stream.imp_right fun ⟨hreplied, hphase, hstream⟩ =>
        ⟨hreplied, .inr (hconfirming.1 hphase), hstream⟩
  | going going =>
    obtain ⟨consumed, hfeed, hdelivered, ⟨hphase, hcall, hspawned⟩ | ⟨rfl, hcopy, hphase⟩⟩ :=
      going.consumed
    · obtain ⟨actions, hhandle, hlog⟩ := Job.step_eq_some hs'
      rw [hphase] at hhandle
      obtain ⟨hphase', hsilent⟩ := reading_undisturbed hevent hhandle
      refine .going ⟨going.replied, consumed, hfeed, ?_, .inl ⟨hphase', ?_, ?_⟩⟩
      · rw [hlog, delivered_step, hsilent, append_nil, hdelivered]
      · rw [hlog, calls_step]
        exact mem_append_left _ hcall
      · rw [hlog]
        exact spawned_step _ _ hspawned
    · obtain ⟨hsame, hnext⟩ := probing_undisturbed hcopy hphase hevent hs'
      refine .going ⟨going.replied, [], hfeed, hsame.trans hdelivered, ?_⟩
      exact hnext.imp_right fun hacking => ⟨rfl, hcopy, .inr hacking⟩
  | refused refused =>
    obtain ⟨result, hended⟩ := refused.ended
    rw [Job.step_ended hended] at hs'
    cases hs'

lemma Sound.step {move : Move} (htext : d.parseStr text = .ok d.executionId)
    (h : Sound text op early x) (hstep : x.step d text op move = some x') :
    ∃ early', Sound text op early' x' ∧ (early' = true ↔ early = true ∨ ¬x.Cond move) := by
  cases move with
  | feed => exact ⟨_, h.feed hstep, by simp [Exchange.Cond]⟩
  | reply => exact ⟨early, h.reply hstep, by simp [Exchange.Cond]⟩
  | read => exact ⟨early, h.read htext hstep, by simp [Exchange.Cond]⟩
  | handler event => exact ⟨early, h.handler hstep, by simp [Exchange.Cond]⟩

lemma Sound.run {moves : List Move} (htext : d.parseStr text = .ok d.executionId)
    (h : Sound text op early x) (hrun : run (Exchange.step d text op) x moves = some x') :
    ∃ early', Sound text op early' x' ∧
      (early' = true ↔ early = true ∨ ¬Meets (Exchange.step d text op) Exchange.Cond x moves) := by
  induction moves generalizing x early with
  | nil =>
    cases hrun
    exact ⟨early, h, by simp [Meets]⟩
  | cons move moves ih =>
    obtain ⟨y, hstep, hrun⟩ := Option.bind_eq_some_iff.1 hrun
    obtain ⟨early₁, h₁, hearly₁⟩ := h.step htext hstep
    obtain ⟨early', h', hearly'⟩ := ih h₁ hrun
    refine ⟨early', h', ?_⟩
    rw [hearly', hearly₁, meets_cons hstep, not_and_or, or_assoc]

/-- Once the exchange is quiet, the handler runs the operation or has ended. -/
lemma Sound.delivered_iff (h : Sound text op early x) (hquiet : x.Quiet) :
    x.Delivered op ↔ early = false := by
  obtain ⟨hreplied, hread⟩ := hquiet
  cases h with
  | waiting waiting =>
    exfalso
    rcases hread with ⟨hstream, -⟩ | ⟨result, hended⟩
    · rcases waiting.stream with ⟨hreplied', -⟩ | ⟨-, -, before, behind, hsplit, -⟩
      · rw [hreplied] at hreplied'
        cases hreplied'
      · simp [hstream] at hsplit
    · have hfront := waiting.front
      rw [hended] at hfront
      cases hfront
  | going going =>
    obtain ⟨consumed, hfeed, hdelivered, hphase⟩ := going.consumed
    refine iff_of_true ?_ rfl
    rcases hread with ⟨hstream, hprobing, hacking⟩ | ⟨result, hended⟩
    · rcases hphase with ⟨-, hcall, -⟩ | ⟨-, -, hphase | ⟨hphase, -⟩⟩
      · exact ⟨hcall, consumed, by rw [← hfeed, hstream, nil_append], hdelivered⟩
      · exact absurd hphase hprobing
      · exact absurd hphase hacking
    · rw [hended] at hphase
      rcases hphase with ⟨hphase, -⟩ | ⟨-, -, hphase | ⟨hphase, -⟩⟩
      · cases op <;> cases hphase
      · cases hphase
      · cases hphase
  | refused refused =>
    refine iff_of_false (fun hdelivered => ?_) nofun
    have hcall := hdelivered.1
    rw [refused.calls] at hcall
    cases hcall

/-! ### Progress -/

/-- How far the handler is from reading the input. -/
def Phase.rank : Phase → ℕ
  | .resolving => 7
  | .warning => 6
  | .reviewing => 5
  | .asking => 4
  | .confirming => 3
  | .probing => 2
  | .acking => 1
  | _ => 0

/-- How much there is to do for the client and the handler. -/
def Exchange.remaining (x : Exchange) : ℕ :=
  2 * x.unfed.length + x.stream.length + (if x.replied then 0 else 2) + Phase.rank x.state.phase

variable (d op s) in
/-- An event brings the handler nearer to the input. -/
def Advances : Prop :=
  ∃ event s', undisturbed d op.job.surface.kind event = true ∧ op.job.step d s event = some s' ∧
    Phase.rank s'.phase < Phase.rank s.phase

variable (d text op x) in
/-- A move leaves less to do. -/
def Exchange.Progresses : Prop :=
  ∃ move x', x.Cond move ∧ x.step d text op move = some x' ∧ x'.remaining < x.remaining

lemma handle_front (hfront : Phase.front phase = true) :
    op.job.handle d phase event = oversee d op.job.surface phase event := by
  cases op with
  | exec request chunks argv batch =>
    simp only [Operation.job, Job.handle, processExecute, Job.surface, batch]
    cases phase <;> first | rfl | cases hfront
  | upload => cases phase <;> first | rfl | cases hfront

lemma front_progress (hfront : Phase.front s.phase = true) (hphase : s.phase ≠ .confirming) :
    Advances d op s := by
  obtain ⟨phase, log⟩ := s
  simp only [Advances, Job.step, handle_front hfront]
  cases phase with
  | resolving => exact ⟨.resolved (.ok ⟨[[]], none⟩), _, rfl, rfl, by simp [Phase.rank]⟩
  | warning => exact ⟨.sent true, _, rfl, rfl, by simp [Phase.rank]⟩
  | reviewing =>
    exact ⟨.reviewed (.decision ⟨.risky, .confirm, []⟩), _, rfl, rfl, by simp [Phase.rank]⟩
  | asking => exact ⟨.sent true, _, rfl, rfl, by simp [Phase.rank]⟩
  | confirming => exact absurd rfl hphase
  | _ => cases hfront

lemma probing_progress (hcopy : op.call = .copyViaSession)
    (hphase : s.phase = .probing ∨ s.phase = .acking) : Advances d op s := by
  obtain ⟨phase, log⟩ := s
  cases op with
  | exec => cases hcopy
  | upload target spec timeoutMs frames =>
    rcases hphase with rfl | rfl
    · exact ⟨.probed, _, rfl, rfl, by simp [Phase.rank]⟩
    · exact ⟨.sent true, _, rfl, rfl, by simp [Phase.rank, spawnCopy]⟩

lemma handler_progress (h : Advances d op x.state) : x.Progresses d text op := by
  obtain ⟨event, s', hevent, hstep, hrank⟩ := h
  refine ⟨.handler event, { x with state := s' }, trivial, ?_, Nat.add_lt_add_left hrank _⟩
  rw [Exchange.step, if_pos hevent, hstep]
  rfl

lemma read_progress {m : Request} {stream : List Request} (hstream : x.stream = m :: stream)
    (hstep : op.job.step d x.state (.message (.ok (some m))) = some s')
    (hrank : Phase.rank s'.phase ≤ Phase.rank x.state.phase) : x.Progresses d text op := by
  refine ⟨.read, { x with stream := stream, state := s' }, trivial, ?_, ?_⟩
  · simp [Exchange.step, hstream, hstep]
  · simp only [Exchange.remaining, hstream, length_cons]
    omega

/-- As long as nothing has been fed too early, the client and the handler get on. -/
lemma Sound.progress (htext : d.parseStr text = .ok d.executionId) (h : Sound text op false x) :
    (x.Quiet ∧ x.unfed = []) ∨ x.Progresses d text op := by
  cases h with
  | waiting waiting =>
    refine .inr ?_
    by_cases hphase : x.state.phase = .confirming
    · rcases waiting.stream with ⟨hreplied, -⟩ | ⟨-, -, before, behind, hsplit, -, hearly⟩
      · have hasked := waiting.asked.2 (.inr hphase)
        refine ⟨.reply, _, trivial, if_pos ⟨hasked, hreplied⟩, ?_⟩
        simp only [Exchange.remaining, hreplied, length_append, length_singleton, if_true,
          Bool.false_eq_true, if_false]
        omega
      · obtain rfl : before = [] := by simpa using hearly
        have hstep : op.job.step d x.state (.message (.ok (some (.confirm text true)))) =
            some ⟨op.job.surface.proceed.2, x.state.log ++
              Entry.event (.message (.ok (some (.confirm text true)))) ::
                op.job.surface.proceed.1.map .action⟩ := by
          rw [Job.step, handle_front waiting.front, hphase]
          simp [oversee, waitForConfirmation_reply htext]
        refine read_progress hsplit hstep ?_
        rw [hphase]
        rcases (proceed_going op).1 with ⟨hread, -⟩ | ⟨-, hprobe⟩
        · rw [hread]
          cases op <;> simp [Operation.reading, Phase.rank]
        · simp [hprobe, Phase.rank]
    · exact handler_progress (front_progress waiting.front hphase)
  | going going =>
    obtain ⟨consumed, hfeed, hdelivered, ⟨hphase, hcall, hspawned⟩ | ⟨rfl, hcopy, hphase⟩⟩ :=
      going.consumed
    · have hidle : ∀ messages, Phase.rank (op.reading messages) = 0 := fun messages => by
        cases op <;> rfl
      cases hstream : x.stream with
      | cons m stream =>
        rw [hstream] at hfeed
        obtain ⟨actions, hhandle, -⟩ := reading_step (d := d) hfeed
        have hstep : op.job.step d x.state (.message (.ok (some m))) =
            some ⟨op.reading (consumed ++ [m]), x.state.log ++
              Entry.event (.message (.ok (some m))) :: actions.map .action⟩ := by
          rw [Job.step, hphase, hhandle]
          rfl
        refine .inr (read_progress hstream hstep ?_)
        rw [hphase, hidle, hidle]
      | nil =>
        cases hunfed : x.unfed with
        | cons m unfed =>
          refine .inr ⟨.feed, { x with unfed := unfed, stream := x.stream ++ [m] }, going.replied,
            ?_, ?_⟩
          · simp [Exchange.step, hunfed, hspawned]
          · simp only [Exchange.remaining, hunfed, length_append, length_cons, length_nil]
            omega
        | nil =>
          refine .inl ⟨⟨going.replied, .inl ⟨hstream, ?_, ?_⟩⟩, rfl⟩ <;> rw [hphase] <;>
            cases op <;> simp [Operation.reading]
    · exact .inr (handler_progress (probing_progress hcopy (hphase.imp_right And.left)))

lemma Sound.leads (htext : d.parseStr text = .ok d.executionId) (h : Sound text op false x) :
    ∃ y, Leads (Exchange.step d text op) Exchange.Cond x y ∧ y.Quiet ∧ y.unfed = [] := by
  have hlead : ∃ y, Leads (Exchange.step d text op) Exchange.Cond x y ∧ Sound text op false y ∧
      y.Quiet ∧ y.unfed = [] := by
    refine exists_leads Exchange.remaining (fun {y} h hbusy => ?_) h
    obtain ⟨move, y', hcond, hstep, hless⟩ := (h.progress htext).resolve_left hbusy
    obtain ⟨early, h', hearly⟩ := h.step htext hstep
    obtain rfl : early = false := by simpa [hcond] using hearly
    exact ⟨move, y', hcond, hstep, h', hless⟩
  obtain ⟨y, hleads, -, hy⟩ := hlead
  exact ⟨y, hleads, hy⟩

/-- A confirmed operation runs and gets all that is sent to it if, and only if, nothing is sent
before the reply; and then the exchange can be brought to its end. -/
theorem confirmed_runs_iff {moves : List Move} (htext : d.parseStr text = .ok d.executionId)
    (hrun : run (Exchange.step d text op) (.start op) moves = some x) :
    (x.Quiet →
      (x.Delivered op ↔ Meets (Exchange.step d text op) Exchange.Cond (.start op) moves)) ∧
    (Meets (Exchange.step d text op) Exchange.Cond (.start op) moves →
      ∃ y, Leads (Exchange.step d text op) Exchange.Cond x y ∧ y.Quiet ∧ y.unfed = []) := by
  obtain ⟨early, h, hearly⟩ := (sound_start op).run htext hrun
  have hmeets : early = false ↔
      Meets (Exchange.step d text op) Exchange.Cond (.start op) moves := by
    rw [← Bool.not_eq_true, hearly]
    simp
  refine ⟨fun hquiet => ?_, fun hcond => ?_⟩
  · rw [h.delivered_iff hquiet, hmeets]
  · obtain rfl := hmeets.2 hcond
    exact h.leads htext

end step

/-- `cat` with some input. -/
def echo : Operation :=
  .exec ⟨"host", ["cat"], false, true, 0, false, 0, 0, [], false⟩ [[104, 105]]
    (by simp) rfl rfl (by simp)

/-- The handler comes to wait for the reply. -/
def awaiting : List Move :=
  [.handler (.resolved (.ok ⟨["host"], none⟩)),
    .handler (.reviewed (.decision ⟨.risky, .confirm, []⟩)), .handler (.sent true)]

theorem confirmed_runs_iff_replied :
    ∃ x, run (Exchange.step askingDaemon "7" echo) (.start echo)
        (awaiting ++ [.reply, .feed, .read, .read, .feed, .read]) = some x ∧
      x.Quiet ∧ x.unfed = [] ∧ x.Delivered echo := by
  have hrun : run (Exchange.step askingDaemon "7" echo) (.start echo)
      (awaiting ++ [.reply, .feed, .read, .read, .feed, .read]) = some _ := rfl
  have hiff := (confirmed_runs_iff rfl hrun).1 ⟨rfl, .inl ⟨rfl, nofun, nofun⟩⟩
  exact ⟨_, hrun, ⟨rfl, .inl ⟨rfl, nofun, nofun⟩⟩, rfl, hiff.2 (by decide)⟩

/-- Input that is sent before the reply is taken for it. -/
theorem confirmed_refused :
    ∃ x, run (Exchange.step askingDaemon "7" echo) (.start echo)
        (.feed :: awaiting ++ [.reply, .read]) = some x ∧ x.Quiet ∧
      x.state.phase = .ended (.error "unexpected request while awaiting confirmation") ∧
      ¬x.Delivered echo := by
  refine ⟨_, rfl, ⟨rfl, .inr ⟨_, rfl⟩⟩, rfl, ?_⟩
  rintro ⟨hcall, -⟩
  exact not_mem_nil hcall

end CrossHostOps.Confirmed
