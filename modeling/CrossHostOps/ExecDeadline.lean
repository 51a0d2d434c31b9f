import CrossHostOps.ExecuteLoop
import CrossHostOps.InteractiveLoop

/-!
The deadline of a command: `process_execute` of `daemon/mod.rs` runs one of two loops, and only the
one for commands without a terminal has a branch for the deadline.
-/

namespace CrossHostOps.ExecDeadline

open Text Runs Channels Handlers SplitSession

/-! ### Input that holds up the loop -/

section Batch

open ExecuteLoop

variable {request : ExecRequest} {s s' : ExecuteLoop.State} {e : ExecuteLoop.Event}

def input : ExecuteLoop.Event → Option Bytes
  | .inbound (.ok (some (.stdinData data))) => some data
  | _ => none

/-- Input is taken only while there is room for it, or nobody to receive it. -/
def Roomy (s : ExecuteLoop.State) (e : ExecuteLoop.Event) : Prop :=
  ∀ data ∈ input e, data ≠ [] → s.stdinTx = true →
    s.stdinTask = .gone ∨ s.stdin.hasRoom stdinCapacity
  deriving Decidable

/-- The input that the handler holds need not wait. -/
def Fed (s : ExecuteLoop.State) : Prop :=
  ∀ data, s.phase = .feeding data → s.stdinTask = .gone ∨ s.stdin.hasRoom stdinCapacity

lemma Fed.of_ne (h : ∀ data, s.phase ≠ .feeding data) : Fed s :=
  fun data hphase => absurd hphase (h data)

lemma fed_takeMessage {message : Except Str (Option Request)} (hphase : s.phase = .select)
    (hroomy : Roomy s (.inbound message)) : Fed (s.takeMessage request message) := by
  rcases takeMessage_cases request s message with
    ⟨data, rfl, hdata, htx, htaken⟩ | ⟨stdinTx, inboundClosed, htaken⟩
  · rw [htaken]
    exact fun _ _ => hroomy data rfl hdata htx
  · rw [htaken]
    refine .of_ne fun data => ?_
    rw [hphase]
    nofun

lemma TaskResult.phase_ne_feeding (result : TaskResult) (data : Bytes) :
    result.phase ≠ .feeding data := by
  cases result <;> nofun

lemma fed_step (h : Fed s) (hroomy : Roomy s e) (hstep : ExecuteLoop.step request s e = some s') :
    Fed s' := by
  by_cases he : e.ofHandler = false
  · have hbeside := step_beside he hstep
    intro data hphase
    exact hbeside.input (h data (hbeside.phase.symm.trans hphase))
  · revert he hroomy hstep
    fun_cases ExecuteLoop.step request s e <;> intro hroomy hstep he
    all_goals first | exact absurd rfl he | cases hstep | rw [Channel.map_send hstep]
    all_goals try (apply Fed.of_ne; simp; done)
    · exact .of_ne (by simp [State.abandon])
    next hselect => exact fed_takeMessage hselect.1 hroomy
    next result _ _ => exact .of_ne (TaskResult.phase_ne_feeding result)
    · exact .of_ne (by simp [State.abandon])
    next timedOut _ _ _ => cases timedOut <;> exact .of_ne (by simp)
    next hphase _ => exact .of_ne fun data => by simp [hphase]

variable (request) in
/-- From the head of the loop the deadline is taken, the task aborted, and the code sent. -/
lemma leads_timedOut (htimeout : 0 < request.timeoutMs) (hphase : s.phase = .select)
    (hpassed : s.deadlinePassed = true) (hconnected : s.connected = true) :
    ∃ t, Leads (ExecuteLoop.step request) Quiet s t ∧ t.phase = .ended ∧ t.connected = true ∧
      t.timedOut = true ∧ t.responses.queue = [] := by
  have hstep : ExecuteLoop.step request s .deadline =
      some { s with phase := .aborting true, timedOut := true, stdinTx := false } := by
    simp [ExecuteLoop.step, hphase, htimeout, hpassed]
  obtain ⟨t, hlead, hend⟩ := settles_aborting request
    (s := { s with phase := .aborting true, timedOut := true, stdinTx := false }) hconnected rfl
  exact ⟨t, .head (e := .deadline) ⟨rfl, by simp⟩ hstep hlead, hend⟩

variable (request) in
/-- A handler in its loop comes to the head of it, if the input it holds need not wait. -/
lemma leads_select (hfed : Fed s) (hlooping : s.phase.looping = true)
    (hconnected : s.connected = true) :
    ∃ t, Leads (ExecuteLoop.step request) Quiet s t ∧ t.phase = .select ∧ t.connected = true ∧
      t.deadlinePassed = s.deadlinePassed := by
  cases hphase : s.phase with
  | select => exact ⟨s, .refl s, hphase, hconnected, rfl⟩
  | forwarding event => exact ⟨_, leads_forward request hconnected hphase, rfl, hconnected, rfl⟩
  | feeding data =>
    obtain ⟨stdin, hlead⟩ := leads_feed request hphase (hfed data hphase)
    exact ⟨_, hlead, rfl, hconnected, rfl⟩
  | aborting | draining | closing | ended => simp [hphase, Phase.looping] at hlooping

/-- The client has received events and the code of the deadline. -/
def HandledTimeout (s : ExecuteLoop.State) : Prop :=
  s.phase = .ended ∧ s.timedOut = true ∧ ∃ forwarded : List ServerEvent,
    s.responses.received = forwarded.map Response.output ++ [Response.exitStatus 124]

lemma handledTimeout_of_orderly (h : Orderly request s) (hended : s.phase = .ended)
    (hconnected : s.connected = true) (htimedOut : s.timedOut = true)
    (hqueue : s.responses.queue = []) : HandledTimeout s := by
  obtain ⟨last, hsent, hterminal⟩ := h.of_phase hended hconnected
  rw [Channel.sent, hqueue, List.append_nil] at hsent
  refine ⟨hended, htimedOut, s.events.received, ?_⟩
  rcases hterminal.kind with ⟨code, rfl⟩ | ⟨message, rfl⟩
  · obtain ⟨⟨-, rfl, -⟩ | ⟨hnot, -⟩, -⟩ := hterminal
    · exact hsent
    · rw [htimedOut] at hnot
      cases hnot
  · have hnot : s.timedOut = false := hterminal.1
    rw [htimedOut] at hnot
    cases hnot

theorem leads_handledTimeout (htimeout : 0 < request.timeoutMs) (horderly : Orderly request s)
    (hfed : Fed s) (hpassed : s.deadlinePassed = true) (hconnected : s.connected = true)
    (hlooping : s.phase.looping = true) :
    ∃ t, Leads (ExecuteLoop.step request) Quiet s t ∧ HandledTimeout t := by
  obtain ⟨u, hlead, hselect, hkept, hpassed'⟩ := leads_select request hfed hlooping hconnected
  obtain ⟨t, hlead', hended, hkept', htimedOut, hqueue⟩ :=
    leads_timedOut request htimeout hselect (hpassed'.trans hpassed) hkept
  have hall := hlead.trans hlead'
  have ht : Orderly request t := hall.invariant (fun h _ => h.step) horderly
  exact ⟨t, hall, handledTimeout_of_orderly ht hended hkept' htimedOut hqueue⟩

/-- Input in the handler's hands that the session would have to make room for. -/
structure Parked (s : ExecuteLoop.State) : Prop where
  phase : ∃ data, s.phase = .feeding data
  stdinTask : s.stdinTask = .writing
  full : ¬ s.stdin.hasRoom stdinCapacity
  timedOut : s.timedOut = false

/-- Nobody but the session goes on from there. -/
lemma Parked.step (h : Parked s) (he : e.ofSession = false)
    (hstep : ExecuteLoop.step request s e = some s') : Parked s' := by
  obtain ⟨⟨data, hphase⟩, hwriting, hfull, htimedOut⟩ := h
  have hkeep : ∀ t : ExecuteLoop.State, t.phase = s.phase → t.stdinTask = s.stdinTask →
      t.stdin = s.stdin → t.timedOut = s.timedOut → Parked t := by
    intro t ht hstdinTask hstdin ht'
    exact ⟨⟨data, ht.trans hphase⟩, hstdinTask.trans hwriting, by rwa [hstdin], ht'.trans htimedOut⟩
  cases e with
  | feed =>
    simp only [ExecuteLoop.step, hphase, hwriting, Channel.send, if_neg hfull] at hstep
    cases hstep
  | takeStdin =>
    simp [ExecuteLoop.step, hwriting] at hstep
  | receive =>
    simp only [ExecuteLoop.step] at hstep
    split at hstep
    · obtain ⟨responses, -, rfl⟩ := Option.map_eq_some_iff.1 hstep
      exact hkeep _ rfl rfl rfl rfl
    · cases hstep
  | disconnect | expire =>
    cases hstep
    exact hkeep _ rfl rfl rfl rfl
  | takeEvent | closed | inbound | deadline | join | forward | aborted | drain | close
  | cancelled => simp [ExecuteLoop.step, hphase] at hstep
  | _ => cases he

end Batch

/-! ### The two loops -/

inductive Loop where
  | batch (s : ExecuteLoop.State)
  | interactive (s : InteractiveLoop.State)

inductive Event where
  | batch (e : ExecuteLoop.Event)
  | interactive (e : InteractiveLoop.Event)

def Loop.start (request : ExecRequest) : Loop :=
  if request.interactive then .interactive .start else .batch (.start request)

def step (request : ExecRequest) : Loop → Event → Option Loop
  | .batch s, .batch e => (ExecuteLoop.step request s e).map .batch
  | .interactive s, .interactive e => (InteractiveLoop.step s e).map .interactive
  | _, _ => none

/-- The steps that need the session at the other end. -/
def Event.ofSession : Event → Bool
  | .batch e => e.ofSession
  | .interactive (.session _) | .interactive (.written _) | .interactive .resized => true
  | .interactive _ => false

/-- The deadline has passed in the loop, with the client connected. The interactive loop has no
deadline, so its own may have passed at any time. -/
def Loop.Overdue : Loop → Prop
  | .batch s => s.deadlinePassed = true ∧ s.connected = true ∧ s.phase.looping = true
  | .interactive s => s.connected = true ∧ s.phase ≠ .ended

/-- The deadline is handled. No branch of the interactive loop does so. -/
def Loop.HandledTimeout : Loop → Prop
  | .batch s => ExecDeadline.HandledTimeout s
  | .interactive _ => False

/-- The deadline can fire without the session. -/
def DeadlineCanFire (request : ExecRequest) (l : Loop) : Prop :=
  l.Overdue → ∃ t, Leads (step request) (fun _ e => e.ofSession = false) l t ∧ t.HandledTimeout

def RoomyInput : Loop → Event → Prop
  | .batch s, .batch e => Roomy s e
  | _, _ => True

instance : ∀ l e, Decidable (RoomyInput l e)
  | .batch s, .batch e => inferInstanceAs (Decidable (Roomy s e))
  | .batch _, .interactive _ => .isTrue trivial
  | .interactive _, .batch _ => .isTrue trivial
  | .interactive _, .interactive _ => .isTrue trivial

variable {request : ExecRequest}

lemma batch_within : Within (ExecuteLoop.step request) (step request) .batch .batch where
  step_map _ _ := rfl
  closed {_ d _} h := by
    cases d with
    | batch e => exact ⟨e, rfl⟩
    | interactive e => cases h

lemma interactive_within :
    Within InteractiveLoop.step (step request) .interactive .interactive where
  step_map _ _ := rfl
  closed {_ d _} h := by
    cases d with
    | batch e => cases h
    | interactive e => exact ⟨e, rfl⟩

lemma start_batch (h : request.interactive = false) :
    Loop.start request = .batch (.start request) := by
  rw [Loop.start, h]
  rfl

lemma start_interactive (h : request.interactive = true) :
    Loop.start request = .interactive .start := by
  rw [Loop.start, h]
  rfl

/-- **The deadline**: for a command with a timeout and without a terminal, in a run in which input
is taken only with room for it, the deadline can fire without the session in every state
reached. -/
theorem deadline_can_fire {es : List Event} {l : Loop} (htimeout : 0 < request.timeoutMs)
    (hbatch : request.interactive = false)
    (hrun : run (step request) (.start request) es = some l)
    (hroomy : Meets (step request) RoomyInput (.start request) es) : DeadlineCanFire request l := by
  rw [start_batch hbatch] at hrun hroomy
  obtain ⟨fs, s, rfl, hfs, rfl⟩ := batch_within.of_run hrun
  have hmeets : Meets (ExecuteLoop.step request) Roomy (.start request) fs :=
    batch_within.of_meets (fun _ _ => id) hroomy
  have hfed₀ : Fed (.start request) := .of_ne fun _ => nofun
  have hfed : Fed s := run_invariant fed_step hfed₀ hmeets hfs
  rintro ⟨hpassed, hconnected, hlooping⟩
  obtain ⟨t, hlead, hhandled⟩ := leads_handledTimeout htimeout (ExecuteLoop.orderly_of_run hfs)
    hfed hpassed hconnected hlooping
  exact ⟨.batch t, batch_within.leads (fun _ _ hquiet => hquiet.1) hlead, hhandled⟩

def piece : List Event :=
  [.batch (.inbound (.ok (some (.stdinData [120])))), .batch .feed]

def fedRun : List Event := .batch .opened :: piece ++ [.batch .expire]

theorem deadline_can_fire_fedRun :
    ∃ l, run (step ExecuteLoop.catRequest) (.start ExecuteLoop.catRequest) fedRun = some l ∧
      l.Overdue ∧ DeadlineCanFire ExecuteLoop.catRequest l := by
  have hrun : run (step ExecuteLoop.catRequest) (.start ExecuteLoop.catRequest) fedRun = some _ :=
    rfl
  have hroomy : Meets (step ExecuteLoop.catRequest) RoomyInput (.start ExecuteLoop.catRequest)
      fedRun := by decide +kernel
  exact ⟨_, rfl, ⟨rfl, rfl, rfl⟩, deadline_can_fire (by decide) rfl hrun hroomy⟩

def terminalRequest : ExecRequest :=
  { ExecuteLoop.catRequest with tty := true, interactive := true }

/-- The session takes the first piece of input and no more, and 33 pieces follow. -/
def parkedRun : List Event :=
  .batch .opened :: piece ++ .batch .takeStdin :: (List.replicate 33 piece).flatten.dropLast ++
    [.batch .expire]

/-- A deadline that passes is never handled in two loops: in the one where the handler holds input
that the session does not take, and in that of a terminal, which does not look at it. -/
theorem deadline_never_handled :
    (∃ l, run (step ExecuteLoop.catRequest) (.start ExecuteLoop.catRequest) parkedRun = some l ∧
      l.Overdue ∧ ¬ DeadlineCanFire ExecuteLoop.catRequest l) ∧
    (Loop.start terminalRequest).Overdue ∧
      ¬ DeadlineCanFire terminalRequest (.start terminalRequest) := by
  constructor
  · have hrun : ∃ s, run (step ExecuteLoop.catRequest) (.start ExecuteLoop.catRequest) parkedRun =
        some (.batch s) ∧ Parked s ∧ (Loop.batch s).Overdue :=
      ⟨_, rfl, ⟨⟨_, rfl⟩, rfl, by decide +kernel, rfl⟩, rfl, rfl, rfl⟩
    obtain ⟨s, hs, hparked, hoverdue⟩ := hrun
    refine ⟨.batch s, hs, hoverdue, fun hfire => ?_⟩
    obtain ⟨t, hlead, hhandled⟩ := hfire hoverdue
    obtain ⟨s', rfl, hlead'⟩ := batch_within.of_leads (fun _ _ he => he) hlead
    have hparked' : Parked s' := hlead'.invariant Parked.step hparked
    have htimedOut : s'.timedOut = true := hhandled.2.1
    rw [hparked'.timedOut] at htimedOut
    cases htimedOut
  · have hoverdue : (Loop.start terminalRequest).Overdue := ⟨rfl, nofun⟩
    refine ⟨hoverdue, fun hfire => ?_⟩
    obtain ⟨t, hlead, hhandled⟩ := hfire hoverdue
    obtain ⟨s', rfl, -⟩ := interactive_within.of_leads (fun _ _ _ => trivial) hlead
    exact hhandled

end CrossHostOps.ExecDeadline
