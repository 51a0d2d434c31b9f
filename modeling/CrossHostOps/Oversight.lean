import CrossHostOps.Text

/-!
`oversight` and its use in `daemon/mod.rs`: what a review can say, what `run_review` makes of it,
and the records of the audit log.
-/

namespace CrossHostOps.Oversight

open Text

/-- An execution id has 128 bits. -/
abbrev Uuid := BitVec 128

inductive OperationKind
  | exec
  | execInteractive
  | copy
  | session
  | proxy

inductive RiskLevel
  | safe
  | risky
  | dangerous
  deriving DecidableEq

inductive ReviewAction
  | allow
  | warn
  | confirm
  | deny
  deriving DecidableEq

structure ReviewDecision where
  riskLevel : RiskLevel
  action : ReviewAction
  reason : Str
  deriving DecidableEq

inductive ReviewOutcome
  | skipped
  | failed (error : Str)
  | decision (decision : ReviewDecision)
  deriving DecidableEq

inductive Enforced
  | proceed
  | confirm (reason : Str)
  | denied (reason : Str)

/-! ### The audit log -/

inductive AuditStatus
  | started
  | reviewed
  | completed
  | failed
  | timeout
  | denied
  deriving DecidableEq

/-- The result of an operation. -/
def AuditStatus.isTerminal : AuditStatus → Bool
  | .started | .reviewed => false
  | .completed | .failed | .timeout | .denied => true

/-- A record, without the route, the caller and the details of the request. -/
structure AuditEvent where
  op : OperationKind
  status : AuditStatus
  executionId : Option Uuid
  targetInput : Option Str
  timeoutMs : Option ℕ
  exitCode : Option ℤ
  error : Option Str
  reviewRisk : Option RiskLevel
  reviewAction : Option ReviewAction
  reviewReason : Option Str

namespace AuditEvent

def new (op : OperationKind) (status : AuditStatus) : AuditEvent :=
  ⟨op, status, none, none, none, none, none, none, none, none⟩

/-- `audit_started`. -/
def started (kind : OperationKind) (executionId : Uuid) (targetInput : Str) (timeoutMs : ℕ) :
    AuditEvent :=
  { new kind .started with
    executionId := some executionId, targetInput := some targetInput, timeoutMs := some timeoutMs }

/-- `audit_event_result`. -/
def result (kind : OperationKind) (executionId : Uuid) (targetInput : Str) (timeoutMs : Option ℕ)
    (status : AuditStatus) (exitCode : Option ℤ) (error : Option Str) : AuditEvent :=
  { new kind status with
    executionId := some executionId, targetInput := some targetInput, timeoutMs := timeoutMs,
    exitCode := exitCode, error := error }

/-- `audit_event_review`. -/
def review (kind : OperationKind) (executionId : Uuid) (risk : RiskLevel) (action : ReviewAction)
    (reason : Str) : AuditEvent :=
  { new kind .reviewed with
    executionId := some executionId, reviewRisk := some risk, reviewAction := some action,
    reviewReason := some reason }

end AuditEvent

/-! ### `run_review` -/

def runDecision (kind : OperationKind) (executionId : Uuid) (decision : ReviewDecision) :
    List AuditEvent × Enforced :=
  ([.review kind executionId decision.riskLevel decision.action decision.reason],
    match decision.action with
    | .allow | .warn => .proceed
    | .confirm => .confirm decision.reason
    | .deny => .denied decision.reason)

/-- What is recorded of the outcome of a review, and what follows from it. -/
def runReview (kind : OperationKind) (executionId : Uuid) (failureAction : ReviewAction) :
    ReviewOutcome → List AuditEvent × Enforced
  | .skipped => ([], .proceed)
  | .failed error =>
    ([.review kind executionId .dangerous failureAction ("review failed: " ++ error)],
      match failureAction with
      | .allow | .warn => .proceed
      | .confirm => .confirm ("review service failed: " ++ error)
      | .deny => .denied ("review failed and policy is deny: " ++ error))
  | .decision decision => runDecision kind executionId decision

end CrossHostOps.Oversight
