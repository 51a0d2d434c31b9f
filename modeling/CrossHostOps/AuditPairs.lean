import CrossHostOps.Handlers

/-!
The audit log: for which runs of the handlers the record of a start is followed by one record of the
result, with the same id.
-/

namespace CrossHostOps.AuditPairs

open Text Runs Oversight Handlers List

/-- Each start is followed by one result, of the same operation and with the same id. -/
def Paired (log : List AuditEvent) : Prop :=
  ∀ before start behind, log = before ++ start :: behind → start.status = .started →
    ∃ id result, start.executionId = some id ∧ behind.filter (·.status.isTerminal) = [result] ∧
      result.op = start.op ∧ result.executionId = some id

def Starts (log : List AuditEvent) : Prop := ∃ r ∈ log, r.status = .started

section Paired

variable {log rest : List AuditEvent} {start result : AuditEvent}

lemma paired_of_no_start (h : ¬ Starts log) : Paired log := by
  rintro before start behind rfl hstart
  exact absurd ⟨start, by simp, hstart⟩ h

@[simp] lemma not_starts_nil : ¬ Starts [] := by simp [Starts]

@[simp] lemma starts_singleton (r : AuditEvent) : Starts [r] ↔ r.status = .started := by
  simp [Starts]

lemma paired_nil : Paired [] := paired_of_no_start not_starts_nil

/-- Where no start is ever paired the log is paired as long as there is none. -/
lemma paired_iff_not_starts (hnot : Starts log → ¬ Paired log) : Paired log ↔ ¬ Starts log :=
  ⟨fun hpaired hstarts => hnot hstarts hpaired, paired_of_no_start⟩

lemma starts_append (log more : List AuditEvent) :
    Starts (log ++ more) ↔ Starts log ∨ Starts more := by
  simp [Starts, or_and_right, exists_or]

/-- The records of a review are neither a start nor a result. -/
lemma filter_reviewed (h : ∀ r ∈ rest, r.status = .reviewed) :
    rest.filter (·.status.isTerminal) = [] := by
  rw [filter_eq_nil_iff]
  intro r hr
  simp [h r hr, AuditStatus.isTerminal]

lemma paired_closed {id : Uuid} (hrest : ∀ r ∈ rest, r.status = .reviewed)
    (hresult : result.status.isTerminal = true) (hop : result.op = start.op)
    (hid : start.executionId = some id) (hid' : result.executionId = some id) :
    Paired (start :: (rest ++ [result])) := by
  intro before start' behind hsplit hstart'
  cases before with
  | nil =>
    obtain ⟨rfl, rfl⟩ := List.cons.inj hsplit
    refine ⟨id, result, hid, ?_, hop, hid'⟩
    rw [filter_append, filter_reviewed hrest]
    simp [hresult]
  | cons r before =>
    -- no start comes behind the first
    have hmem : start' ∈ rest ++ [result] := by
      rw [(List.cons.inj hsplit).2]
      simp
    rcases mem_append.1 hmem with hmem | hmem
    · rw [hrest start' hmem] at hstart'
      cases hstart'
    · rw [mem_singleton] at hmem
      rw [← hmem, hstart'] at hresult
      cases hresult

lemma not_paired_open (hstart : start.status = .started)
    (hrest : ∀ r ∈ rest, r.status = .reviewed) : ¬ Paired (start :: rest) := by
  intro h
  obtain ⟨id, result, -, hfilter, -⟩ := h [] start rest rfl hstart
  rw [filter_reviewed hrest] at hfilter
  cases hfilter

end Paired

/-! ### Commands and copies -/

def auditLog (log : List Entry) : List AuditEvent :=
  log.filterMap fun
    | .action action => action.audit
    | .event _ => none

section Entry

variable {log : List Entry} {event : Event} {actions : List Action}

lemma auditLog_step :
    auditLog (log ++ .event event :: actions.map .action) = auditLog log ++ records actions := by
  simp only [auditLog, filterMap_append, filterMap_cons, filterMap_map]
  rfl

lemma records_append (actions actions' : List Action) :
    records (actions ++ actions') = records actions ++ records actions' :=
  filterMap_append

lemma records_map_record (events : List AuditEvent) : records (events.map .record) = events := by
  rw [records, filterMap_map]
  exact filterMap_some

end Entry

/-- What has been recorded as long as the operation goes on. -/
def Open (d : Daemon) (h : Surface) (log : List AuditEvent) : Prop :=
  ∃ rest, log = .started h.kind d.executionId h.target h.timeoutMs :: rest ∧
    ∀ r ∈ rest, r.status = .reviewed

section Open

variable {d : Daemon} {h : Surface} {log : List AuditEvent}

lemma Open.not_paired (hlog : Open d h log) : ¬ Paired log := by
  obtain ⟨rest, rfl, hrest⟩ := hlog
  exact not_paired_open rfl hrest

lemma Open.paired {status : AuditStatus} {exitCode : Option ℤ} {error : Option Str}
    (hlog : Open d h log) (hstatus : status.isTerminal = true) :
    Paired (log ++
      [.result h.kind d.executionId h.target (some h.timeoutMs) status exitCode error]) := by
  obtain ⟨rest, rfl, hrest⟩ := hlog
  exact paired_closed hrest hstatus rfl rfl rfl

lemma Open.append {reviews : List AuditEvent} (hlog : Open d h log)
    (hreviews : ∀ r ∈ reviews, r.status = .reviewed) : Open d h (log ++ reviews) := by
  obtain ⟨rest, rfl, hrest⟩ := hlog
  refine ⟨rest ++ reviews, rfl, ?_⟩
  simpa [or_imp, forall_and] using ⟨hrest, hreviews⟩

lemma runReview_status {kind : OperationKind} {id : Uuid} {action : ReviewAction}
    {outcome : ReviewOutcome} {reviews : List AuditEvent} {next : Enforced}
    (h : runReview kind id action outcome = (reviews, next)) :
    ∀ r ∈ reviews, r.status = .reviewed := by
  obtain rfl := congrArg Prod.fst h
  cases outcome <;> simp [runReview, runDecision, AuditEvent.review, AuditEvent.new]

end Open

/-- What has been recorded in each phase before the last. -/
def Recorded (d : Daemon) (h : Surface) (log : List AuditEvent) : Phase → Prop
  | .rejecting | .resolving | .warning => log = []
  | .denying => if h.recordsDenial then Paired log else Open d h log
  | .ended _ => False
  | _ => Open d h log

section run

variable {d : Daemon} {job : Job} {s s' t : State} {events : List Event} {event : Event}
  {result : Except Str Unit}

def Settled (d : Daemon) (job : Job) (s : State) (event : Event) : Prop :=
  Settles d job.surface s.phase event

lemma records_proceed (job : Job) : records job.surface.proceed.1 = [] := by
  cases job with
  | execute request =>
    simp only [Job.surface]
    split_ifs <;> rfl
  | copy target spec timeoutMs =>
    simp only [Job.surface, copySurface]
    split_ifs <;> rfl

lemma recorded_late {log : List AuditEvent} {phase : Phase} (hlate : phase.late = true)
    (hrunning : ∀ result, phase ≠ .ended result) :
    Recorded d job.surface log phase ↔ Open d job.surface log := by
  cases phase <;> first | rfl | exact absurd rfl (hrunning _) | cases hlate

lemma proceed_running (job : Job) (result : Except Str Unit) :
    job.surface.proceed.2 ≠ .ended result := by
  cases job with
  | execute request =>
    simp only [Job.surface]
    split_ifs <;> intro h <;> cases h
  | copy target spec timeoutMs =>
    simp only [Job.surface, copySurface]
    split_ifs <;> intro h <;> cases h

/-- What a step leaves recorded: the operation goes on, it is being denied, or it is over, and the
event tells whether the log is paired. -/
inductive After (d : Daemon) (job : Job) (phase : Phase) (event : Event) (log : List AuditEvent)
    (phase' : Phase) : Prop
  | goesOn (undenied : phase' ≠ .denying) (recorded : Recorded d job.surface log phase')
      (settles : Settles d job.surface phase event)
  | denied (denying : phase' = .denying) (recorded : Recorded d job.surface log .denying)
      (settles : Settles d job.surface phase event ↔ job.surface.recordsDenial = true)
  | ends (result : Except Str Unit) (ended : phase' = .ended result)
      (paired : Paired log ↔ Settles d job.surface phase event)

variable {phase phase' : Phase} {log : List AuditEvent} {actions : List Action}

lemma oversees_after (hlog : Recorded d job.surface log phase) (hphase : phase ≠ .denying)
    (hstep : Oversees d job.surface phase event actions phase') :
    After d job phase event (log ++ records actions) phase' := by
  have hproceed : ∀ {log : List AuditEvent}, Open d job.surface log →
      Recorded d job.surface log job.surface.proceed.2 :=
    fun h => (recorded_late job.late_proceed (proceed_running job)).2 h
  have hdenying : job.surface.proceed.2 ≠ .denying := by
    intro h
    have hlate := job.late_proceed
    rw [h] at hlate
    cases hlate
  have hsilent : log ++ records [] = log := append_nil log
  cases hstep with
  | unresolved failed =>
    cases (show log = [] from hlog)
    exact .ends _ rfl (iff_of_true paired_nil trivial)
  | warn resolved message =>
    cases (show log = [] from hlog)
    exact .goesOn nofun rfl trivial
  | resolved | warned =>
    cases (show log = [] from hlog)
    exact .goesOn nofun ⟨[], rfl, by simp⟩ trivial
  | unwarned =>
    cases (show log = [] from hlog)
    exact .ends _ rfl (iff_of_true paired_nil trivial)
  | @proceed outcome reviews review =>
    rw [records_append, records_map_record, records_proceed, append_nil]
    refine .goesOn hdenying (hproceed (Open.append hlog (runReview_status review))) (.inr ?_)
    rw [review]
    exact nofun
  | @confirm outcome reviews reason review =>
    refine .goesOn nofun (Open.append hlog ?_) (.inr ?_)
    · simpa [records, Action.audit] using runReview_status review
    rw [review]
    exact nofun
  | @deny outcome reviews reason review =>
    have hopen : Open d job.surface (log ++ reviews) := Open.append hlog (runReview_status review)
    refine .denied rfl ?_ ⟨fun h => h.resolve_right fun hne => ?_, .inl⟩
    · have hsend : records [.send (.error (job.surface.denial ++ reason))] = [] := rfl
      rw [records_append, records_append, records_map_record, hsend, append_nil, ← append_assoc]
      simp only [Recorded]
      split_ifs
      · exact hopen.paired rfl
      · exact (append_nil _).symm ▸ hopen
    · exact hne reason (by rw [review])
  | asked =>
    rw [hsilent]
    exact .goesOn nofun hlog rfl
  | unasked =>
    rw [hsilent]
    exact .ends _ rfl (iff_of_false (Open.not_paired hlog) Bool.false_ne_true)
  | confirmed reply =>
    rw [records_proceed, append_nil]
    exact .goesOn hdenying (hproceed hlog) reply
  | unconfirmed reply =>
    rw [hsilent]
    refine .ends _ rfl (iff_of_false (Open.not_paired hlog) fun h => ?_)
    rw [Settles, reply] at h
    cases h
  | denied ok result => exact absurd rfl hphase

lemma handles_after (hlog : Recorded d job.surface log phase) (hphase : phase ≠ .denying)
    (hstep : Handles d job.surface phase event actions phase') :
    After d job phase event (log ++ records actions) phase' := by
  cases hstep with
  | rejects result rejecting silent ended settles =>
    subst rejecting silent ended
    cases (show log = [] from hlog)
    exact .ends _ rfl (iff_of_true paired_nil settles)
  | oversees oversees => exact oversees_after hlog hphase oversees
  | proceeds late running unreviewed proceeds =>
    have hopen : Open d job.surface log := (recorded_late late running).1 hlog
    cases proceeds with
    | stays late' running' records settles =>
      rw [records, append_nil]
      refine .goesOn ?_ ((recorded_late late' running').2 hopen) settles
      rintro rfl
      cases late'
    | settled result status exitCode error ended terminal records settles =>
      rw [records]
      exact .ends result ended (iff_of_true (hopen.paired terminal) settles)
    | lost result ended records settles =>
      rw [records, append_nil]
      exact .ends result ended (iff_of_false hopen.not_paired settles)

/-- Nothing that has happened so far leaves a start without its result. -/
def Unbroken (job : Job) (log : List AuditEvent) : Phase → Prop
  | .ended _ => Paired log
  | .denying => job.surface.recordsDenial = true
  | _ => True

lemma unbroken_of_recorded (hlog : Recorded d job.surface log phase) (hphase : phase ≠ .denying) :
    Unbroken job log phase := by
  cases phase <;> first | exact hlog.elim | exact absurd rfl hphase | trivial

lemma step_denying (hs : s.phase = .denying) (hstep : job.step d s event = some s') :
    (∃ result, s'.phase = .ended result) ∧ auditLog s'.log = auditLog s.log := by
  obtain ⟨actions, hhandle, hlog⟩ := Job.step_eq_some hstep
  have hhandles := Job.handles hhandle
  rw [hs] at hhandles
  generalize s'.phase = phase' at hhandles
  cases hhandles with
  | rejects result rejecting => cases rejecting
  | proceeds late => cases late
  | oversees oversees =>
    cases oversees with
    | denied ok result =>
      rw [hlog, auditLog_step]
      exact ⟨⟨_, rfl⟩, append_nil _⟩

/-- An event leaves nothing broken just when it settles. -/
lemma step_unbroken (hs : (∃ result, s.phase = .ended result) ∨
      Recorded d job.surface (auditLog s.log) s.phase) (hstep : job.step d s event = some s') :
    ((∃ result, s'.phase = .ended result) ∨ Recorded d job.surface (auditLog s'.log) s'.phase) ∧
      (Unbroken job (auditLog s'.log) s'.phase ↔
        Unbroken job (auditLog s.log) s.phase ∧ Settled d job s event) := by
  rcases hs with ⟨result, hended⟩ | hs
  · rw [Job.step_ended hended] at hstep
    cases hstep
  by_cases hdenying : s.phase = .denying
  · obtain ⟨⟨result, hended⟩, hlog⟩ := step_denying hdenying hstep
    refine ⟨.inl ⟨result, hended⟩, ?_⟩
    rw [hdenying] at hs
    rw [Settled, hdenying, hended, hlog]
    simp only [Recorded] at hs
    split_ifs at hs with hdenial
    · exact iff_of_true hs ⟨hdenial, trivial⟩
    · exact iff_of_false hs.not_paired fun h => hdenial h.1
  · obtain ⟨actions, hhandle, hlog⟩ := Job.step_eq_some hstep
    have hafter := handles_after hs hdenying (Job.handles hhandle)
    rw [← auditLog_step, ← hlog] at hafter
    rw [and_iff_right (unbroken_of_recorded hs hdenying)]
    cases hafter with
    | goesOn undenied recorded settles =>
      exact ⟨.inr recorded, iff_of_true (unbroken_of_recorded recorded undenied) settles⟩
    | denied denying recorded settles =>
      rw [denying]
      exact ⟨.inr recorded, settles.symm⟩
    | ends result ended paired =>
      rw [ended]
      exact ⟨.inl ⟨result, rfl⟩, paired⟩

/-- A run of `process_execute`, `process_interactive_execute` or `copy` that has ended leaves the
log paired just when each of its events settles. -/
lemma job_paired (hrun : run (job.step d) job.start events = some t)
    (ht : t.phase = .ended result) :
    Paired (auditLog t.log) ↔ Meets (job.step d) (Settled d job) job.start events := by
  have hstart : ((∃ result, job.start.phase = .ended result) ∨
      Recorded d job.surface (auditLog job.start.log) job.start.phase) ∧
      Unbroken job (auditLog job.start.log) job.start.phase := by
    cases job with
    | execute request =>
      simp only [Job.start]
      split_ifs
      · exact ⟨.inl ⟨_, rfl⟩, paired_nil⟩
      all_goals exact ⟨.inr rfl, trivial⟩
    | copy target spec timeoutMs => exact ⟨.inr rfl, trivial⟩
  have hiff := (run_iff_meets (P := fun s : State => Unbroken job (auditLog s.log) s.phase)
    step_unbroken hstart.1 hrun).2
  rw [ht] at hiff
  exact hiff.trans (and_iff_right hstart.2)

end run

/-! ### Tunnelled sessions -/

inductive SessionRequest
  | exec (command : Str)
  | shell
  | subsystem (name : Str)
  /-- A terminal, a variable, a new size, a signal, data or their end. -/
  | other
  /-- A second `Open`, or a message without content. -/
  | invalid

def SessionRequest.starts : SessionRequest → Bool
  | .exec _ | .shell | .subsystem _ => true
  | .other | .invalid => false

/-- Where `open_session` is; the two flags tell whether its uplink and its downlink run. -/
inductive SessionPhase
  | opening
  | serving (uplink downlink : Bool)
  | failed

structure SessionTask where
  phase : SessionPhase
  log : List AuditEvent

/-- An id is what `Uuid::new_v4` gives where one is needed. -/
inductive SessionStep
  /-- The target is resolved, the session opened and acknowledged, or one of it fails. -/
  | opened (ok : Bool)
  /-- A request, or the end of the stream. -/
  | request (request : Option SessionRequest) (id : Uuid)
  /-- An event of the session, or its end. -/
  | event (event : Option SplitSession.SessionEvent) (sent : Bool) (id : Uuid)

/-- Whether this task records the start of an operation. -/
def SessionStep.starts : SessionStep → Bool
  | .request (some r) _ => r.starts
  | _ => false

namespace SessionTask

def start : SessionTask := ⟨.opening, []⟩

variable (target : Str) (s : SessionTask)

/-- Random ids do not repeat. -/
def Fresh (id : Uuid) : Prop := some id ∉ s.log.map (·.executionId)
  deriving Decidable

def auditSessionOp (id : Uuid) : AuditEvent :=
  { AuditEvent.new .session .started with executionId := some id, targetInput := some target }

def step : SessionStep → Option SessionTask
  | .opened ok =>
    match s.phase with
    | .opening => some { s with phase := if ok then .serving true true else .failed }
    | _ => none
  | .request request id =>
    match s.phase, request with
    | .serving true downlink, some request =>
      if request.starts then
        if s.Fresh id then some { s with log := s.log ++ [auditSessionOp target id] } else none
      else
        match request with
        | .invalid => some { s with phase := .serving false downlink }
        | _ => some s
    | .serving true downlink, none => some { s with phase := .serving false downlink }
    | _, _ => none
  | .event event sent id =>
    match s.phase with
    | .serving uplink true =>
      match event with
      | some (.stdout _) | some (.stderr _) => some { s with phase := .serving uplink sent }
      | some (.exitStatus code) =>
        if s.Fresh id then some ⟨.serving uplink false,
          s.log ++ [.result .session id target none .completed (some code) none]⟩
        else none
      | some (.exitSignal _) | some .eof | none => some { s with phase := .serving uplink false }
    | _ => none

variable {target s} {s' : SessionTask} {e : SessionStep}

lemma Fresh.nodup {id : Uuid} {r : AuditEvent} (hfresh : s.Fresh id)
    (h : (s.log.map (·.executionId)).Nodup) (hid : r.executionId = some id) :
    ((s.log ++ [r]).map (·.executionId)).Nodup := by
  rw [map_append, nodup_append]
  refine ⟨h, by simp, ?_⟩
  rintro _ hmem _ hr rfl
  rw [map_singleton, mem_singleton, hid] at hr
  exact hfresh (hr ▸ hmem)

/-- No two records of one session have the same id, and a start is recorded just for a request that
starts an operation. -/
lemma step_log (h : (s.log.map (·.executionId)).Nodup) (hstep : s.step target e = some s') :
    (s'.log.map (·.executionId)).Nodup ∧
      (¬ Starts s'.log ↔ ¬ Starts s.log ∧ e.starts = false) := by
  revert hstep
  fun_cases SessionTask.step target s e <;> intro hstep <;> cases hstep
  · exact ⟨h, (and_iff_left rfl).symm⟩
  next hstarts hfresh =>
    refine ⟨hfresh.nodup h rfl, iff_of_false ?_ fun hquiet => ?_⟩
    · simp [starts_append, auditSessionOp, AuditEvent.new]
    · cases hstarts.symm.trans hquiet.2
  · exact ⟨h, (and_iff_left rfl).symm⟩
  next hquiet _ => exact ⟨h, (and_iff_left (Bool.eq_false_iff.2 hquiet)).symm⟩
  · exact ⟨h, (and_iff_left rfl).symm⟩
  · exact ⟨h, (and_iff_left rfl).symm⟩
  · exact ⟨h, (and_iff_left rfl).symm⟩
  next hfresh =>
    refine ⟨hfresh.nodup h rfl, ?_⟩
    simp [starts_append, SessionStep.starts, AuditEvent.result, AuditEvent.new]
  all_goals exact ⟨h, (and_iff_left rfl).symm⟩

end SessionTask

lemma not_paired_of_nodup {log : List AuditEvent} (h : (log.map (·.executionId)).Nodup)
    (hstart : Starts log) : ¬ Paired log := by
  intro hpaired
  obtain ⟨start, hmem, hstart⟩ := hstart
  obtain ⟨before, behind, rfl⟩ := append_of_mem hmem
  obtain ⟨id, result, hid, hfilter, -, hid'⟩ := hpaired before start behind rfl hstart
  have hresult : result ∈ behind := by
    have hmem : result ∈ behind.filter (·.status.isTerminal) := by simp [hfilter]
    exact (mem_filter.1 hmem).1
  rw [map_append, nodup_append] at h
  refine (nodup_cons.1 h.2.1).1 ?_
  exact mem_map.2 ⟨result, hresult, hid'.trans hid.symm⟩

lemma session_paired {target : Str} {events : List SessionStep} {s : SessionTask}
    (hrun : run (SessionTask.step target) .start events = some s) :
    Paired s.log ↔ Meets (SessionTask.step target) (fun _ e => e.starts = false) .start events := by
  obtain ⟨hnodup, hstarts⟩ := run_iff_meets
    (I := fun s : SessionTask => (s.log.map (·.executionId)).Nodup)
    (P := fun s : SessionTask => ¬ Starts s.log) SessionTask.step_log
    (s := .start) nodup_nil hrun
  rw [paired_iff_not_starts (not_paired_of_nodup hnodup), hstarts]
  exact and_iff_right not_starts_nil

/-! ### The transparent proxy -/

/-- Where `spawn_bridge` is. -/
inductive ProxyPhase
  | resolving
  | opening
  | starting
  | bridging
  | ended

structure ProxyTask where
  phase : ProxyPhase
  log : List AuditEvent

inductive ProxyStep
  | resolved (ok : Bool)
  | opened (ok : Bool)
  | started (ok : Bool)
  /-- An event of the session, or its end. -/
  | event (event : Option SplitSession.SessionEvent)

namespace ProxyTask

def start : ProxyTask := ⟨.resolving, []⟩

/-- The records of the proxy have no id. -/
def auditEvent (user : Str) (status : AuditStatus) (exitCode : Option ℤ) : AuditEvent :=
  { AuditEvent.new .proxy status with targetInput := some user, exitCode := exitCode }

def step (user : Str) (s : ProxyTask) : ProxyStep → Option ProxyTask
  | .resolved ok =>
    match s.phase with
    | .resolving => some { s with phase := if ok then .opening else .ended }
    | _ => none
  | .opened ok =>
    match s.phase with
    | .opening =>
      some (if ok then ⟨.starting, s.log ++ [auditEvent user .started none]⟩
        else { s with phase := .ended })
    | _ => none
  | .started ok =>
    match s.phase with
    | .starting => some { s with phase := if ok then .bridging else .ended }
    | _ => none
  | .event event =>
    match s.phase with
    | .bridging =>
      match event with
      | some (.stdout _) | some (.stderr _) => some s
      | some (.exitStatus code) =>
        some ⟨.ended, s.log ++ [auditEvent user .completed (some code)]⟩
      | some (.exitSignal _) | some .eof | none => some { s with phase := .ended }
    | _ => none

variable {user : Str} {s s' : ProxyTask} {e : ProxyStep}

/-- No record has an id, and a start is recorded just when the target has been opened. -/
lemma step_log (h : ∀ r ∈ s.log, r.executionId = none) (hstep : s.step user e = some s') :
    (∀ r ∈ s'.log, r.executionId = none) ∧
      (¬ Starts s'.log ↔ ¬ Starts s.log ∧ e ≠ .opened true) := by
  revert hstep
  fun_cases ProxyTask.step user s e <;> intro hstep <;> cases hstep
  · exact ⟨h, by simp⟩
  next ok _ =>
    cases ok with
    | true => exact ⟨by simpa [or_imp, forall_and, auditEvent, AuditEvent.new] using h,
        by simp [starts_append, auditEvent, AuditEvent.new]⟩
    | false => exact ⟨h, by simp⟩
  · exact ⟨h, by simp⟩
  · exact ⟨h, by simp⟩
  · exact ⟨h, by simp⟩
  · exact ⟨by simpa [or_imp, forall_and, auditEvent, AuditEvent.new] using h,
      by simp [starts_append, auditEvent, AuditEvent.new]⟩
  all_goals exact ⟨h, by simp⟩

end ProxyTask

lemma proxy_paired {user : Str} {events : List ProxyStep} {s : ProxyTask}
    (hrun : run (ProxyTask.step user) .start events = some s) :
    Paired s.log ↔ Meets (ProxyTask.step user) (fun _ e => e ≠ .opened true) .start events := by
  obtain ⟨hnone, hstarts⟩ := run_iff_meets
    (I := fun s : ProxyTask => ∀ r ∈ s.log, r.executionId = none)
    (P := fun s : ProxyTask => ¬ Starts s.log) ProxyTask.step_log (s := .start)
    (forall_mem_nil _) hrun
  have hnot : Starts s.log → ¬ Paired s.log := by
    rintro ⟨start, hmem, hstart⟩ hpaired
    obtain ⟨before, behind, hsplit⟩ := append_of_mem hmem
    obtain ⟨id, result, hid, -⟩ := hpaired before start behind hsplit hstart
    rw [hnone start hmem] at hid
    cases hid
  rw [paired_iff_not_starts hnot, hstarts]
  exact and_iff_right not_starts_nil

/-- **Audit records are paired** in a run of an execution or a copy just when each of its events
settles; in a tunnelled session, and behind the proxy, as long as no operation is started. -/
theorem audit_paired_iff (d : Daemon) (job : Job) (target user : Str) (events : List Event)
    (sessionEvents : List SessionStep) (proxyEvents : List ProxyStep) :
    (∀ s result, run (job.step d) job.start events = some s → s.phase = .ended result →
      (Paired (auditLog s.log) ↔ Meets (job.step d) (Settled d job) job.start events)) ∧
    (∀ s, run (SessionTask.step target) .start sessionEvents = some s →
      (Paired s.log ↔
        Meets (SessionTask.step target) (fun _ e => e.starts = false) .start sessionEvents)) ∧
    ∀ s, run (ProxyTask.step user) .start proxyEvents = some s →
      (Paired s.log ↔
        Meets (ProxyTask.step user) (fun _ e => e ≠ .opened true) .start proxyEvents) :=
  ⟨fun _ _ hrun hended => job_paired hrun hended, fun _ hrun => session_paired hrun,
    fun _ hrun => proxy_paired hrun⟩

def confirmedRun : List Event :=
  [.resolved (.ok ⟨["host"], none⟩), .reviewed (.failed "no answer"), .sent true,
    .message (.ok (some (.confirm "7" true))), .finished (.ok (.ok 0)) [true]]

theorem audit_paired_iff_confirmed :
    ∃ s, run (listing.step askingDaemon) listing.start confirmedRun = some s ∧
      s.phase = .ended (.ok ()) ∧ Paired (auditLog s.log) := by
  have hrun : run (listing.step askingDaemon) listing.start confirmedRun = some _ := rfl
  have hiff := (audit_paired_iff askingDaemon listing [] [] confirmedRun [] []).1 _ _ hrun rfl
  refine ⟨_, hrun, rfl, hiff.2 ?_⟩
  refine (meets_cons rfl).2 ⟨?_, (meets_cons rfl).2 ⟨?_, (meets_cons rfl).2 ⟨?_,
    (meets_cons rfl).2 ⟨?_, (meets_cons rfl).2 ⟨?_, trivial⟩⟩⟩⟩⟩
  · exact trivial
  · exact Or.inr nofun
  all_goals exact rfl

def deniedRun : List Event :=
  [.resolved (.ok ⟨["host"], none⟩), .reviewed (.decision ⟨.dangerous, .deny, []⟩),
    .sent true]

def sessionRun : List SessionStep :=
  [.opened true, .request (some (.exec "ls")) 1, .event (some (.exitStatus 0)) true 2,
    .request none 3]

/-- A connection of the proxy whose command is killed. -/
def proxyRun : List ProxyStep :=
  [.resolved true, .opened true, .started true, .event (some (.exitSignal "KILL"))]

theorem audit_unpaired :
    (∃ s, run (listing.step askingDaemon) listing.start deniedRun = some s ∧
      s.phase = .ended (.ok ()) ∧ ¬ Paired (auditLog s.log)) ∧
    (∃ s, run (SessionTask.step "host") .start sessionRun = some s ∧
      s.phase = .serving false false ∧ ¬ Paired s.log) ∧
    ∃ s, run (ProxyTask.step "host") .start proxyRun = some s ∧
      s.phase = .ended ∧ ¬ Paired s.log := by
  refine ⟨⟨_, rfl, rfl, not_paired_open rfl ?_⟩, ⟨_, rfl, rfl, not_paired_of_nodup ?_ ?_⟩,
    _, rfl, rfl, not_paired_open rfl ?_⟩
  · decide
  · decide
  · exact ⟨_, mem_cons_self, rfl⟩
  · exact fun r hr => by cases hr

end CrossHostOps.AuditPairs
