import CrossHostOps.ExecDeadline
import CrossHostOps.ExitCodes

/-!
What `xho exec` returns: `run_command` and `run_interactive` of `cli/exec.rs`, on what the two loops
of the daemon send. What they write to the terminal is left out.
-/

namespace CrossHostOps.ExecReturn

open Text Runs Channels Handlers SplitSession ExitCodes ExecDeadline List

/-! ### The responses -/

/-- The loop over the responses; `lost` is the error in which the stream breaks behind them. -/
def responseLoop (finish : ℤ → ℤ) (lost : Option Str) : List Response → Except XhoError ℤ
  | [] =>
    match lost with
    | some e => .error (.internal ("connection lost: " ++ e))
    | none => .ok (finish 1)
  | .exitStatus code :: _ => .ok (finish code)
  | .error message :: _ => .error (classifyDaemonError message)
  | _ :: responses => responseLoop finish lost responses

def runCommand (timeoutMs : ℕ) (lost : Option Str) (responses : List Response) :
    Except XhoError ℤ :=
  responseLoop (fun code => if code = 124 ∧ 0 < timeoutMs then 124 else capRemoteExitCode code) lost
    responses

def runInteractive (lost : Option Str) (responses : List Response) : Except XhoError ℤ :=
  responseLoop capRemoteExitCode lost responses

def runExec (request : ExecRequest) (lost : Option Str) (responses : List Response) :
    Except XhoError ℤ :=
  if request.interactive then runInteractive lost responses
  else runCommand request.timeoutMs lost responses

/-- A response behind which the loop goes on. -/
def passing : Response → Bool
  | .exitStatus _ | .error _ => false
  | _ => true

lemma responseLoop_passing {finish : ℤ → ℤ} {lost : Option Str} {passed : List Response}
    (h : ∀ r ∈ passed, passing r = true) (responses : List Response) :
    responseLoop finish lost (passed ++ responses) = responseLoop finish lost responses := by
  induction passed with
  | nil => rfl
  | cons r passed ih =>
    have hr : passing r = true := h r mem_cons_self
    have hrest := ih fun r' hr' => h r' (mem_cons_of_mem _ hr')
    cases r with
    | exitStatus | error => cases hr
    | _ => exact hrest

/-- A code is returned as it is below 124, as 123 above, and as 125 when it is negative. -/
lemma capRemoteExitCode_cases (c : ℤ) :
    (c < 0 ∧ capRemoteExitCode c = 125) ∨ (0 ≤ c ∧ c ≤ 123 ∧ capRemoteExitCode c = c) ∨
      (124 ≤ c ∧ capRemoteExitCode c = 123) := by
  unfold capRemoteExitCode
  split
  next hneg => exact .inl ⟨hneg, rfl⟩
  next hnonneg =>
    split
    next hlarge => exact .inr (.inr ⟨hlarge, rfl⟩)
    next hsmall => exact .inr (.inl ⟨by omega, by omega, rfl⟩)

lemma capRemoteExitCode_ne (c : ℤ) : capRemoteExitCode c ≠ 124 := by
  rcases capRemoteExitCode_cases c with ⟨-, h⟩ | ⟨-, hle, h⟩ | ⟨-, h⟩ <;> omega

/-! ### The daemon's end of the stream -/

def received : Loop → List Response
  | .batch s => s.responses.received
  | .interactive s => s.responses.received

def deadlineFired : Loop → Bool
  | .batch s => s.timedOut
  | .interactive _ => false

/-- The code with which the session was driven to its end. -/
def remoteCode : Loop → Option ℤ
  | .batch s =>
    match s.task with
    | .done (.ok code) => some code
    | _ => none
  | .interactive s => s.exit

/-- The handler has ended, and the client has received all it was sent. -/
def Over : Loop → Prop
  | .batch s => s.phase = .ended ∧ s.connected = true ∧ s.responses.queue = []
  | .interactive s => s.phase = .ended ∧ s.connected = true ∧ s.responses.queue = []

/-- The code in an `ExitStatus`: that of the deadline, or the remote one. -/
inductive Origin (request : ExecRequest) (l : Loop) (code : ℤ) : Prop
  | deadline (interactive : request.interactive = false) (timeout : 0 < request.timeoutMs)
    (fired : deadlineFired l = true) (code_eq : code = 124)
  | remote (fired : deadlineFired l = false) (code_eq : remoteCode l = some code)

variable {request : ExecRequest} {es : List ExecDeadline.Event} {l : Loop} {lost : Option Str}
  {forwarded : List Response} {code : ℤ}

lemma passing_map_output (events : List ServerEvent) :
    ∀ r ∈ events.map Response.output, passing r = true :=
  forall_mem_map.2 fun _ _ => rfl

lemma passing_outputs (chunks : List Bytes) :
    ∀ r ∈ InteractiveLoop.outputs chunks, passing r = true :=
  forall_mem_map.2 fun _ _ => rfl

section Origins

variable (hrun : run (step request) (.start request) es = some l) (hover : Over l)
  (hstatus : received l = forwarded ++ [Response.exitStatus code])

include hrun hover hstatus

lemma origin_batch (hbatch : request.interactive = false) :
    (∀ r ∈ forwarded, passing r = true) ∧ Origin request l code := by
  rw [start_batch hbatch] at hrun
  obtain ⟨fs, s, -, hfs, rfl⟩ := batch_within.of_run hrun
  obtain ⟨hended, hconnected, hqueue⟩ := hover
  obtain ⟨last, hsent, hterminal⟩ := (ExecuteLoop.orderly_of_run hfs).of_phase hended hconnected
  rw [Channel.sent, hqueue, append_nil] at hsent
  obtain ⟨rfl, hlast⟩ := append_inj' (hstatus.symm.trans hsent) rfl
  obtain rfl : Response.exitStatus code = last := singleton_inj.1 hlast
  refine ⟨passing_map_output _, ?_⟩
  obtain ⟨⟨⟨hfired, htimeout⟩, hcode, -⟩ | ⟨hfired, htask⟩, -⟩ := hterminal
  · exact .deadline hbatch htimeout hfired hcode
  · refine .remote hfired ?_
    simp [remoteCode, htask]

lemma origin_interactive (hinteractive : request.interactive = true) :
    (∀ r ∈ forwarded, passing r = true) ∧ Origin request l code := by
  rw [start_interactive hinteractive] at hrun
  obtain ⟨fs, s, -, hfs, rfl⟩ := interactive_within.of_run hrun
  obtain ⟨hended, hconnected, hqueue⟩ := hover
  have horderly : InteractiveLoop.Orderly False s :=
    run_keeps (fun h => InteractiveLoop.orderly_step h False.elim) InteractiveLoop.orderly_start hfs
  have hreceived : s.responses.sent = s.responses.received := by
    rw [Channel.sent, hqueue, append_nil]
  obtain ⟨code', hsent, hcode, -⟩ | ⟨-, hforwarded⟩ := horderly.of_phase hended hconnected
  · obtain ⟨rfl, hlast⟩ := append_inj' (hstatus.symm.trans (hreceived.symm.trans hsent)) rfl
    obtain rfl : code = code' := by simpa using hlast
    exact ⟨passing_outputs _, .remote rfl hcode⟩
  · -- without a code the client has received output only
    have hmem : Response.exitStatus code ∈ InteractiveLoop.outputs s.stdout.received := by
      rw [← hforwarded, hreceived, show s.responses.received = _ from hstatus]
      simp
    exact absurd (passing_outputs _ _ hmem) Bool.false_ne_true

end Origins

/-! ### The exit code of the CLI -/

/-- 124 stands for the deadline and nothing else, and a remote code is kept below 124 and kept out
of the codes of the CLI above. -/
structure Reported (l : Loop) (result : Except XhoError ℤ) : Prop where
  timeout : result = .ok 124 ↔ deadlineFired l = true
  kept : ∀ code, deadlineFired l = false → remoteCode l = some code → 0 ≤ code → code ≤ 123 →
    result = .ok code
  capped : ∀ code, deadlineFired l = false → remoteCode l = some code → 124 ≤ code →
    ∃ v, result = .ok v ∧ (v < 124 ∨ 127 < v)

/-- A remote code that the CLI takes for that of the deadline. -/
def Mistaken (request : ExecRequest) (l : Loop) : Prop :=
  request.interactive = false ∧ 0 < request.timeoutMs ∧ deadlineFired l = false ∧
    remoteCode l = some 124

lemma reported_of_capped (hfired : deadlineFired l = false) (hcode : remoteCode l = some code) :
    Reported l (.ok (capRemoteExitCode code)) where
  timeout := by
    rw [hfired]
    refine ⟨fun h => absurd (Except.ok.inj h) (capRemoteExitCode_ne code), nofun⟩
  kept c _ hc hnonneg hle := by
    obtain rfl := Option.some.inj (hcode.symm.trans hc)
    rcases capRemoteExitCode_cases code with ⟨hneg, -⟩ | ⟨-, -, heq⟩ | ⟨hlarge, -⟩
    · omega
    · rw [heq]
    · omega
  capped c _ hc hlarge := by
    obtain rfl := Option.some.inj (hcode.symm.trans hc)
    rcases capRemoteExitCode_cases code with ⟨hneg, -⟩ | ⟨-, hle, -⟩ | ⟨-, heq⟩
    · omega
    · omega
    · exact ⟨_, rfl, .inl (by omega)⟩

lemma reported_iff_of_origin (h : Origin request l code) :
    Reported l (runExec request lost [.exitStatus code]) ↔ ¬ Mistaken request l := by
  cases h with
  | deadline hbatch htimeout hfired hcode =>
    subst hcode
    have hresult : runExec request lost [.exitStatus 124] = .ok 124 := by
      simp [runExec, runCommand, responseLoop, hbatch, htimeout]
    have hnot : ∀ {p : Prop}, deadlineFired l = false → p := by
      intro p h
      rw [hfired] at h
      cases h
    rw [hresult]
    refine ⟨fun _ hmistaken => hnot hmistaken.2.2.1, fun _ => ?_⟩
    exact ⟨⟨fun _ => hfired, fun _ => rfl⟩, fun _ h => hnot h, fun _ h => hnot h⟩
  | remote hfired hcode =>
    cases hinteractive : request.interactive with
    | true =>
      have hresult : runExec request lost [.exitStatus code] = .ok (capRemoteExitCode code) := by
        simp [runExec, runInteractive, responseLoop, hinteractive]
      rw [hresult]
      refine ⟨fun _ hmistaken => ?_, fun _ => reported_of_capped hfired hcode⟩
      rw [hmistaken.1] at hinteractive
      cases hinteractive
    | false =>
      by_cases hmistaken : code = 124 ∧ 0 < request.timeoutMs
      · obtain ⟨rfl, htimeout⟩ := hmistaken
        have hresult : runExec request lost [.exitStatus 124] = .ok 124 := by
          simp [runExec, runCommand, responseLoop, hinteractive, htimeout]
        rw [hresult]
        refine ⟨fun hreported => ?_,
          fun hnot => absurd ⟨hinteractive, htimeout, hfired, hcode⟩ hnot⟩
        have hfired' := hreported.timeout.1 rfl
        rw [hfired] at hfired'
        cases hfired'
      · have hresult : runExec request lost [.exitStatus code] = .ok (capRemoteExitCode code) := by
          simp [runExec, runCommand, responseLoop, hinteractive, hmistaken]
        rw [hresult]
        refine ⟨fun _ h => hmistaken ?_, fun _ => reported_of_capped hfired hcode⟩
        exact ⟨Option.some.inj (hcode.symm.trans h.2.2.2), h.2.1⟩

/-- **Exit 124**: for every execution that ends in an exit status, the CLI returns 124 for the
deadline alone and the remote codes apart from its own, if and only if it does not wait with a
timeout for a command without a terminal that ends in 124 by itself. -/
theorem exit_124_means_deadline_iff {before : List Response}
    (hrun : run (step request) (.start request) es = some l) (hover : Over l)
    (hstatus : received l = forwarded ++ [Response.exitStatus code])
    (hbefore : ∀ r ∈ before, passing r = true) :
    Reported l (runExec request lost (before ++ received l)) ↔
      ¬ Mistaken request l := by
  have horigin : (∀ r ∈ forwarded, passing r = true) ∧ Origin request l code := by
    cases hinteractive : request.interactive with
    | true => exact origin_interactive hrun hover hstatus hinteractive
    | false => exact origin_batch hrun hover hstatus hinteractive
  have hresult : runExec request lost (before ++ received l) =
      runExec request lost [.exitStatus code] := by
    rw [hstatus, runExec, runExec, runInteractive, runInteractive, runCommand, runCommand]
    rw [responseLoop_passing hbefore, responseLoop_passing horigin.1,
      responseLoop_passing hbefore, responseLoop_passing horigin.1]
  rw [hresult]
  exact reported_iff_of_origin horigin.2

def exitRun (code : ℤ) : List ExecDeadline.Event :=
  [.batch .opened, .batch (.session (some (.exitStatus code))), .batch .join, .batch .drain,
    .batch .close, .batch .receive]

theorem exit_124_means_deadline_exitRun :
    ∃ l, run (step ExecuteLoop.catRequest) (.start ExecuteLoop.catRequest) (exitRun 200) = some l ∧
      Reported l (runExec ExecuteLoop.catRequest none ([] ++ received l)) := by
  have hrun : run (step ExecuteLoop.catRequest) (.start ExecuteLoop.catRequest) (exitRun 200) =
      some _ := rfl
  refine ⟨_, rfl, ?_⟩
  rw [exit_124_means_deadline_iff hrun ⟨rfl, rfl, rfl⟩ (nil_append _).symm (forall_mem_nil _)]
  rintro ⟨-, -, -, hcode⟩
  exact absurd hcode (by decide)

/-- A command ends in 124 by itself, long before the deadline, and the CLI returns 124. -/
theorem exit_124_without_deadline :
    ∃ l, run (step ExecuteLoop.catRequest) (.start ExecuteLoop.catRequest) (exitRun 124) = some l ∧
      deadlineFired l = false ∧ remoteCode l = some 124 ∧
      runExec ExecuteLoop.catRequest none (received l) = .ok 124 :=
  ⟨_, rfl, rfl, rfl, rfl⟩

end CrossHostOps.ExecReturn
