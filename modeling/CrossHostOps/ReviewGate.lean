import CrossHostOps.Handlers

/-!
The session layer is reached only behind a review, in every run of the three handlers and for
whatever the client sends.
-/

namespace CrossHostOps.Handlers

open Text Runs Oversight List

def reviews (log : List Entry) : List ReviewOutcome :=
  log.filterMap fun
    | .event (.reviewed outcome) => some outcome
    | _ => none

def messages (log : List Entry) : List (Except Str (Option Request)) :=
  log.filterMap fun
    | .event (.message message) => some message
    | _ => none

def calls (log : List Entry) : List SessionCall :=
  log.filterMap fun
    | .action (.call call) => some call
    | _ => none

section log

variable {log more : List Entry}

@[simp] lemma reviews_append : reviews (log ++ more) = reviews log ++ reviews more :=
  filterMap_append

@[simp] lemma messages_append : messages (log ++ more) = messages log ++ messages more :=
  filterMap_append

@[simp] lemma calls_append : calls (log ++ more) = calls log ++ calls more :=
  filterMap_append

@[simp] lemma reviews_actions (actions : List Action) : reviews (actions.map .action) = [] := by
  simp [reviews]

@[simp] lemma messages_actions (actions : List Action) : messages (actions.map .action) = [] := by
  simp [messages]

end log

variable (d : Daemon) (kind : OperationKind) (log : List Entry)

/-- The client says that this execution may go on. -/
def Confirms (message : Option (Except Str (Option Request))) : Prop :=
  ∃ executionId, message = some (.ok (some (.confirm executionId true))) ∧
    d.parseExecutionId executionId = .ok d.executionId

/-- The one review there has been lets the operation pass: `run_review` returned `Proceed`, or it
returned `Confirm` and the client's next message confirmed. -/
def Permitted : Prop :=
  ∃ before outcome behind, log = before ++ .event (.reviewed outcome) :: behind ∧
    reviews before = [] ∧ reviews behind = [] ∧
    ((runReview kind d.executionId d.failureAction outcome).2 = .proceed ∨
      ∃ reason, (runReview kind d.executionId d.failureAction outcome).2 = .confirm reason ∧
        Confirms d (messages behind).head?)

/-- The session layer is called behind a review that lets the operation pass. -/
def Safe : Prop :=
  ∀ before call behind, log = before ++ .action (.call call) :: behind → Permitted d kind before

/-- The client is asked, and has not said anything since the review. -/
def Asked : Prop :=
  ∃ before outcome behind reason, log = before ++ .event (.reviewed outcome) :: behind ∧
    reviews before = [] ∧ reviews behind = [] ∧ messages behind = [] ∧
    (runReview kind d.executionId d.failureAction outcome).2 = .confirm reason

structure Granted : Prop where
  permitted : Permitted d kind log
  safe : Safe d kind log

/-- What the log says in each phase. -/
def Overseen : Phase → Prop
  | .rejecting | .resolving | .warning | .reviewing => calls log = [] ∧ reviews log = []
  | .asking | .confirming => calls log = [] ∧ Asked d kind log
  | .denying => calls log = []
  | .ended _ => calls log = [] ∨ Granted d kind log
  | _ => Granted d kind log

variable {d kind log}

section overseen

variable {more : List Entry} {event : Event} {actions : List Action}
  {phase phase' : Phase}

lemma Permitted.append (h : Permitted d kind log) (hmore : reviews more = []) :
    Permitted d kind (log ++ more) := by
  obtain ⟨before, outcome, behind, rfl, hbefore, hbehind, hpass⟩ := h
  refine ⟨before, outcome, behind ++ more, by simp, hbefore, by simp [hbehind, hmore], ?_⟩
  refine hpass.imp_right fun ⟨reason, hconfirm, executionId, hhead, hid⟩ => ?_
  exact ⟨reason, hconfirm, executionId, by rw [messages_append, head?_append, hhead]; rfl, hid⟩

lemma safe_of_calls (h : calls log = []) : Safe d kind log := by
  rintro before call behind rfl
  simp [calls] at h

lemma Granted.append (h : Granted d kind log) (hmore : reviews more = []) :
    Granted d kind (log ++ more) := by
  refine ⟨h.permitted.append hmore, fun before call behind hsplit => ?_⟩
  obtain ⟨mid, rfl, hmid⟩ | ⟨mid, hlog, hmid⟩ := append_eq_append_iff.1 hsplit
  · -- the call is among the new entries
    refine h.permitted.append ?_
    rw [hmid, reviews_append] at hmore
    exact (append_eq_nil_iff.1 hmore).1
  · cases mid with
    | nil =>
      rw [append_nil] at hlog
      exact hlog ▸ h.permitted
    | cons entry mid =>
      obtain ⟨rfl, -⟩ := List.cons.inj hmid
      exact h.safe before call mid hlog

lemma Granted.overseen (h : Granted d kind log) (hphase : phase.late = true) :
    Overseen d kind log phase := by
  cases phase <;> first | exact h | exact .inr h | cases hphase

lemma Granted.step (h : Granted d kind log) (hevent : ∀ outcome, event ≠ .reviewed outcome)
    (hphase : phase'.late = true) :
    Overseen d kind (log ++ .event event :: actions.map .action) phase' := by
  refine (h.append ?_).overseen hphase
  have hnone : reviews [.event event] = [] := by
    cases event <;> first | rfl | exact absurd rfl (hevent _)
  rw [← singleton_append, reviews_append, hnone, reviews_actions, nil_append]

variable {h : Surface} {message : Except Str (Option Request)}

/-- The only reply that lets the operation go on. -/
lemma confirms_of_reply (hreply : waitForConfirmation d h message = .ok ()) :
    Confirms d (some message) := by
  rcases message with e | _ | request
  · cases hreply
  · cases hreply
  · cases request with
    | confirm executionId allow =>
      simp only [waitForConfirmation] at hreply
      split at hreply
      · cases hreply
      · rename_i responseId hparse
        split_ifs at hreply with hid
        obtain ⟨rfl, rfl⟩ := hid
        exact ⟨executionId, rfl, hparse⟩
    | _ => cases hreply

lemma calls_quiet (hlog : calls log = []) (hmore : calls more = []) : calls (log ++ more) = [] := by
  rw [calls_append, hlog, hmore, append_nil]

lemma reviews_quiet (hlog : reviews log = []) (hmore : reviews more = []) :
    reviews (log ++ more) = [] := by
  rw [reviews_append, hlog, hmore, append_nil]

lemma Asked.granted (h : Asked d kind log) (hcalls : calls log = [])
    (hconfirms : Confirms d (some message)) :
    Granted d kind (log ++ [.event (.message message)]) := by
  obtain ⟨before, outcome, behind, reason, rfl, hbefore, hbehind, hsilent, hconfirm⟩ := h
  refine ⟨⟨before, outcome, behind ++ [.event (.message message)], by simp, hbefore,
    reviews_quiet hbehind rfl, .inr ⟨reason, hconfirm, ?_⟩⟩, safe_of_calls (calls_quiet hcalls rfl)⟩
  rw [messages_append, hsilent]
  exact hconfirms

lemma calls_records (records : List AuditEvent) :
    calls ((records.map Action.record).map .action) = [] := by
  simp [calls]

lemma Overseen.oversees (hproceed : h.proceed.2.late = true) (hlog : Overseen d h.kind log phase)
    (hstep : Oversees d h phase event actions phase') :
    Overseen d h.kind (log ++ .event event :: actions.map .action) phase' := by
  cases hstep with
  | unresolved failed => exact .inl (calls_quiet hlog.1 rfl)
  | warn | resolved | warned => exact ⟨calls_quiet hlog.1 rfl, reviews_quiet hlog.2 rfl⟩
  | unwarned => exact .inl (calls_quiet hlog.1 rfl)
  | proceed review =>
    rename_i outcome records
    have hgranted : Granted d h.kind (log ++ [.event (.reviewed outcome)]) :=
      ⟨⟨log, outcome, [], rfl, hlog.2, rfl, .inl (by rw [review])⟩,
        safe_of_calls (calls_quiet hlog.1 rfl)⟩
    rw [← singleton_append, ← append_assoc]
    exact (hgranted.append (reviews_actions _)).overseen hproceed
  | confirm review =>
    rename_i outcome records reason
    refine ⟨?_, log, outcome, _, reason, rfl, hlog.2, reviews_actions _, messages_actions _,
      by rw [review]⟩
    rw [map_append]
    exact calls_quiet hlog.1 (calls_quiet (calls_records records) rfl)
  | deny review =>
    rename_i outcome records reason
    rw [map_append, map_append]
    refine calls_quiet hlog.1 (calls_quiet (calls_quiet (calls_records records) ?_) rfl)
    split_ifs <;> rfl
  | asked =>
    obtain ⟨hcalls, before, outcome, behind, reason, rfl, hbefore, hbehind, hsilent,
      hconfirm⟩ := hlog
    refine ⟨calls_quiet hcalls rfl, before, outcome, behind ++ [.event (.sent true)], reason,
      by simp, hbefore, reviews_quiet hbehind rfl, ?_, hconfirm⟩
    rw [messages_append, hsilent]
    rfl
  | unasked => exact .inl (calls_quiet hlog.1 rfl)
  | confirmed reply =>
    rw [← singleton_append, ← append_assoc]
    have hgranted := hlog.2.granted hlog.1 (confirms_of_reply reply)
    exact (hgranted.append (reviews_actions _)).overseen hproceed
  | unconfirmed reply => exact .inl (calls_quiet hlog.1 rfl)
  | denied ok result => exact .inl (calls_quiet hlog rfl)

lemma Proceeds.late {settles : Prop} (hstep : Proceeds d h settles actions phase') :
    phase'.late = true := by
  cases hstep with
  | stays late => exact late
  | settled result status exitCode error ended | lost result ended => exact ended ▸ rfl

lemma Overseen.handles {job : Job} (hlog : Overseen d job.surface.kind log phase)
    (hstep : Handles d job.surface phase event actions phase') :
    Overseen d job.surface.kind (log ++ .event event :: actions.map .action) phase' := by
  cases hstep with
  | rejects result rejecting silent ended =>
    subst rejecting silent ended
    refine .inl (calls_quiet hlog.1 ?_)
    cases event <;> rfl
  | oversees oversees => exact hlog.oversees job.late_proceed oversees
  | proceeds late running unreviewed proceeds =>
    have hgranted : Granted d job.surface.kind log := by
      cases phase <;> first | exact hlog | exact absurd rfl (running _) | cases late
    exact hgranted.step unreviewed proceeds.late

end overseen

namespace Job

variable {job : Job} {s s' : State}

lemma overseen_step {event : Event} (h : Overseen d job.surface.kind s.log s.phase)
    (hstep : job.step d s event = some s') : Overseen d job.surface.kind s'.log s'.phase := by
  obtain ⟨actions, hhandle, hlog⟩ := step_eq_some hstep
  rw [hlog]
  exact h.handles (handles hhandle)

lemma overseen_start (job : Job) : Overseen d job.surface.kind job.start.log job.start.phase := by
  cases job with
  | execute request =>
    simp only [start]
    split_ifs
    · exact .inl rfl
    all_goals exact ⟨rfl, rfl⟩
  | copy target spec timeoutMs => exact ⟨rfl, rfl⟩

/-- **Review is not bypassed**: in every run the session layer is called only behind a review that
lets the operation pass, and never when it was denied. -/
theorem review_not_bypassed {events : List Event}
    (hrun : run (job.step d) job.start events = some s) :
    Safe d job.surface.kind s.log ∧
      ∀ outcome reason, .event (.reviewed outcome) ∈ s.log →
        (runReview job.surface.kind d.executionId d.failureAction outcome).2 = .denied reason →
          calls s.log = [] := by
  have hoverseen := run_keeps (I := fun s => Overseen d job.surface.kind s.log s.phase)
    overseen_step (overseen_start job) hrun
  obtain hcalls | hgranted : calls s.log = [] ∨ Granted d job.surface.kind s.log := by
    cases hphase : s.phase <;> rw [hphase] at hoverseen <;>
      first | exact .inl hoverseen | exact .inl hoverseen.1 | exact .inr hoverseen | exact hoverseen
  · exact ⟨safe_of_calls hcalls, fun _ _ _ _ => hcalls⟩
  · refine ⟨hgranted.safe, fun outcome reason hmem hdenied => ?_⟩
    -- there is one review only, and it let the operation pass
    obtain ⟨before, outcome', behind, hlog, hbefore, hbehind, hpass⟩ := hgranted.permitted
    have hreviews : reviews s.log = [outcome'] := by
      rw [hlog, ← singleton_append, reviews_append, reviews_append, hbefore, hbehind]
      rfl
    have houtcome : outcome ∈ reviews s.log := mem_filterMap.2 ⟨_, hmem, rfl⟩
    rw [hreviews, mem_singleton] at houtcome
    subst houtcome
    rcases hpass with hproceed | ⟨reason', hconfirm, -⟩
    · rw [hproceed] at hdenied
      cases hdenied
    · rw [hconfirm] at hdenied
      cases hdenied

end Job

theorem review_not_bypassed_confirmed :
    ∃ s, run (listing.step askingDaemon) listing.start
        [.resolved (.ok ⟨["host"], none⟩), .reviewed (.failed "no answer"),
          .sent true, .message (.ok (some (.confirm "7" true)))] = some s ∧
      calls s.log = [.openExecSession] ∧ Safe askingDaemon .exec s.log := by
  have hrun : run (listing.step askingDaemon) listing.start
      [.resolved (.ok ⟨["host"], none⟩), .reviewed (.failed "no answer"),
        .sent true, .message (.ok (some (.confirm "7" true)))] = some _ := rfl
  exact ⟨_, hrun, rfl, (Job.review_not_bypassed hrun).1⟩

end CrossHostOps.Handlers
