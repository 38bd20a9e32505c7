import FleetPrivacy.AdaptiveConcurrency
import FleetPrivacy.Worker

/-!
# Regional source connectors

`RegionalSourceExecutor.execute` of `source_connectors.py` for one leased task:
what it asks of the shared state and of the regional source, and how it ends,
as a function of the answers it gets.  `model_validate` of the payload model is
a parameter.
-/

namespace FleetPrivacy

structure SourceOperation where
  taskId : String
  tenantId : String
  source : String
  subjectKeyHash : String
  kind : String
  deriving DecidableEq, Repr

structure SourceReceipt where
  taskId : String
  succeeded : Bool
  statusCode : Nat
  latencySeconds : Rat
  payload : Json
  deriving DecidableEq, Repr

/-- The declared fields, and the others that `extra="allow"` keeps. -/
structure SourceResultPayload where
  verified : Bool
  recordCount : Option Int
  deletedCount : Option Int
  remainingCount : Option Int
  extra : List (String × Json)
  deriving DecidableEq, Repr

namespace SourceResultPayload

/-- `assert_kind`; `none` when it returns. -/
def assertKind (payload : SourceResultPayload) (kind : String) :
    Option String :=
  if payload.verified = false then
    some "regional source did not verify its result"
  else if kind = "delete" ∧ payload.remainingCount ≠ some 0 then
    some "regional delete readback found remaining records"
  else none

def countField (name : String) (count : Option Int) : List (String × Json) :=
  match count with
  | some value => [(name, .int value)]
  | none => []

/-- `model_dump(exclude_none=True)`. -/
def modelDump (payload : SourceResultPayload) : Json :=
  .obj (("verified", .bool payload.verified) ::
    (countField "record_count" payload.recordCount ++
      countField "deleted_count" payload.deletedCount ++
      countField "remaining_count" payload.remainingCount ++
      payload.extra.filter fun field => decide (field.2 ≠ .null)))

end SourceResultPayload

/-! ## The HTTP exchange -/

inductive ResponseBody where
  | empty
  | json (value : Json)
  /-- `response.json()` raises. -/
  | malformed (message : String)
  deriving DecidableEq, Repr

/-- How the awaited `post` ends. -/
inductive Exchange where
  | answered (statusCode : Nat) (body : ResponseBody) (latencySeconds : Rat)
  | failed (message : String)
  | cancelled
  deriving DecidableEq, Repr

/-- How a coroutine ends. -/
inductive Outcome (α : Type) where
  | returned (value : α)
  | raised (message : String)
  | cancelled
  deriving DecidableEq, Repr

/-- `response.is_success`. -/
def isSuccess (statusCode : Nat) : Bool :=
  decide (200 ≤ statusCode ∧ statusCode ≤ 299)

/-- `RegionalSourceClient.execute`: the controller has observed the response
before its body is read. -/
def clientExecute (operation : SourceOperation) (exchange : Exchange)
    (controller : AimdConcurrencyController) :
    AimdConcurrencyController × Outcome SourceReceipt :=
  match exchange with
  | .answered statusCode body latencySeconds =>
      let succeeded := isSuccess statusCode
      let receipt := fun payload => Outcome.returned
        { taskId := operation.taskId, succeeded, statusCode, latencySeconds
          payload : SourceReceipt }
      (controller.observe latencySeconds succeeded,
        match body with
        | .empty => receipt (.obj [])
        | .json value => receipt value
        | .malformed message => .raised message)
  | .failed message => (controller, .raised message)
  | .cancelled => (controller, .cancelled)

/-! ## Executing one operation -/

/-- What an execution does outside its own process. -/
inductive SourceEffect where
  | post (operation : SourceOperation)
  | adjust (arguments : AimdArguments)
  | release (holder : String)
  deriving DecidableEq, Repr

/-- The answers that one execution gets: the window of its admission, unless it
times out, the exchange, and the errors of `adjust` and `release`, if any. -/
structure Conduct where
  admission : Option Int
  exchange : Exchange
  adjustError : Option String
  releaseError : Option String
  deriving DecidableEq, Repr

section Execute

variable (validate : Json → Except String SourceResultPayload)

/-- The inner `try` up to its `except`. -/
def checkReceipt (operation : SourceOperation) (receipt : SourceReceipt) :
    Outcome SourceReceipt :=
  if receipt.succeeded then
    match validate receipt.payload with
    | .error message => .raised message
    | .ok payload =>
        match payload.assertKind operation.kind with
        | some message => .raised message
        | none => .returned { receipt with payload := payload.modelDump }
  else .returned receipt

/-- The arguments that `publish_decision` passes on. -/
def decisionArguments (controller : AimdConcurrencyController) :
    AimdArguments :=
  let decision := controller.adjust.2
  { defaultLimit := decision.previousLimit
    p95Seconds := decision.p95Seconds
    failureRate := decision.failureRate
    targetP95Seconds := controller.targetP95Seconds
    minimum := controller.minimum
    maximum := controller.maximum
    additiveStep := controller.additiveStep
    decreaseRatio := controller.decreaseRatio }

/-- `publish_decision`, then `outcome`, unless the shared state fails. -/
def publishDecision (controller : AimdConcurrencyController)
    (adjustError : Option String) (outcome : Outcome SourceReceipt) :
    List SourceEffect × Outcome SourceReceipt :=
  ([.adjust (decisionArguments controller)],
    match adjustError with
    | some message => .raised message
    | none => outcome)

/-- The blocks inside the outer `try`. -/
def exchangeAndPublish (controller : AimdConcurrencyController)
    (operation : SourceOperation) (conduct : Conduct) :
    List SourceEffect × Outcome SourceReceipt :=
  let (observed, answer) := clientExecute operation conduct.exchange controller
  let checked := match answer with
    | .returned receipt => checkReceipt validate operation receipt
    | other => other
  match checked with
  | .returned receipt =>
      publishDecision observed conduct.adjustError (.returned receipt)
  | .raised message =>
      publishDecision (observed.observe 0 false) conduct.adjustError
        (.raised message)
  | .cancelled => ([], .cancelled)

/-- `RegionalSourceExecutor.execute`. -/
def sourceExecute (template : AimdConcurrencyController)
    (operation : SourceOperation) (conduct : Conduct) :
    List SourceEffect × Outcome SourceReceipt :=
  match conduct.admission with
  | none => ([], .raised "regional source admission timed out")
  | some limit =>
      let controller :=
        { template with limit, latencies := [], failures := 0 }
      let (effects, outcome) :=
        exchangeAndPublish validate controller operation conduct
      (.post operation :: effects ++ [.release operation.taskId],
        match conduct.releaseError with
        | some message => .raised message
        | none => outcome)

end Execute

/-! ## Source work of a task -/

/-- The operation that `execute_task` builds. -/
def sourceOperation (task : RequestTask) (request : PrivacyRequest) :
    SourceOperation :=
  { taskId := task.id
    tenantId := task.tenantId
    source := task.source
    subjectKeyHash := request.subjectKeyHash
    kind := request.kind.value }

/-- What `execute_task` makes of the executor's outcome. -/
def sourceEnding : Outcome SourceReceipt → Ending
  | .returned receipt =>
      if receipt.succeeded then .returned receipt.payload
      else .raised ("regional source returned HTTP " ++
        toString receipt.statusCode)
  | .raised message => .raised message
  | .cancelled => .cancelled

/-! ## Receipts -/

/-- A receipt that the executor returns for a payload it has accepted. -/
def SourceReceipt.Accepted
    (validate : Json → Except String SourceResultPayload)
    (operation : SourceOperation) (receipt : SourceReceipt) : Prop :=
  receipt.taskId = operation.taskId ∧ receipt.succeeded = true ∧
    ∃ body payload, validate body = .ok payload ∧
      payload.assertKind operation.kind = none ∧
      receipt.payload = payload.modelDump

section Receipts

variable {validate : Json → Except String SourceResultPayload}
  {operation : SourceOperation}

theorem clientExecute_taskId {exchange : Exchange}
    {controller observed : AimdConcurrencyController}
    {receipt : SourceReceipt}
    (answered : clientExecute operation exchange controller =
      (observed, .returned receipt)) :
    receipt.taskId = operation.taskId := by
  unfold clientExecute at answered
  split at answered
  next statusCode body latency =>
    cases body with
    | empty | json =>
        cases answered
        rfl
    | malformed => cases answered
  next => cases answered
  next => cases answered

theorem checkReceipt_accepted {receipt checked : SourceReceipt}
    (same : receipt.taskId = operation.taskId)
    (result : checkReceipt validate operation receipt = .returned checked)
    (succeeded : checked.succeeded = true) :
    checked.Accepted validate operation := by
  unfold checkReceipt at result
  split at result
  next isSuccessful =>
    split at result
    next => cases result
    next payload valid =>
      split at result
      next => cases result
      next accepted =>
        cases result
        exact ⟨same, succeeded, receipt.payload, payload, valid, accepted, rfl⟩
  next unsuccessful =>
    cases result
    exact absurd succeeded unsuccessful

/-- Only accepted payloads are returned with `succeeded`. -/
theorem sourceExecute_accepted {template : AimdConcurrencyController}
    {conduct : Conduct} {receipt : SourceReceipt}
    (result : (sourceExecute validate template operation conduct).2 =
      .returned receipt)
    (succeeded : receipt.succeeded = true) :
    receipt.Accepted validate operation := by
  unfold sourceExecute at result
  split at result
  next => cases result
  next limit _ =>
    dsimp only at result
    split at result
    next => cases result
    next =>
      unfold exchangeAndPublish at result
      generalize client : clientExecute operation conduct.exchange _ = answer
        at result
      obtain ⟨observed, answer⟩ := answer
      cases answer with
      | returned raw =>
          dsimp only at result
          split at result
          next checked isChecked =>
            unfold publishDecision at result
            dsimp only at result
            split at result
            next => cases result
            next =>
              cases result
              exact checkReceipt_accepted (clientExecute_taskId client)
                isChecked succeeded
          next =>
            unfold publishDecision at result
            dsimp only at result
            split at result
            next => cases result
            next => cases result
          next => cases result
      | raised message =>
          unfold publishDecision at result
          dsimp only at result
          split at result
          next => cases result
          next => cases result
      | cancelled => cases result

/-- The work of a task ends with a payload only if the executor returned it in
an accepted receipt. -/
theorem accepted_of_sourceEnding {outcome : Outcome SourceReceipt}
    {payload : Json} (ended : sourceEnding outcome = .returned payload) :
    ∃ receipt, outcome = .returned receipt ∧ receipt.succeeded = true ∧
      receipt.payload = payload := by
  cases outcome with
  | returned receipt =>
      by_cases succeeded : receipt.succeeded = true
      · rw [sourceEnding, if_pos succeeded] at ended
        cases ended
        exact ⟨receipt, rfl, succeeded, rfl⟩
      · rw [sourceEnding, if_neg succeeded] at ended
        cases ended
  | raised | cancelled => cases ended

/-- An accepted payload is not the empty object. -/
theorem SourceReceipt.Accepted.payload_ne {receipt : SourceReceipt}
    (accepted : receipt.Accepted validate operation) :
    receipt.payload ≠ .obj [] := by
  obtain ⟨_, _, _, payload, _, _, dumped⟩ := accepted
  rw [dumped]
  intro empty
  cases empty

end Receipts

end FleetPrivacy
