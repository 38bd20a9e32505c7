import FleetPrivacy.SourceConnectors

/-!
# One execution of a regional operation

`RegionalSourceExecutor.execute` with its admission loop, as the sequence of
its calls.  The admission rounds and the exchange are arguments; the calls of
the shared state succeed.
-/

namespace FleetPrivacy

/-- The calls of one execution, in order. -/
inductive ExecutorEvent where
  | acquire (tenantId source holder : String) (defaultLimit : Int)
      (leaseSeconds : Rat) (admitted : Bool)
  | post (operation : SourceOperation)
  /-- A response, an exception or a cancellation ended the exchange. -/
  | exchangeEnded
  | adjust (tenantId source : String) (arguments : AimdArguments)
  | release (tenantId source holder : String)
  deriving DecidableEq, Repr

namespace ExecutorEvent

def isPost : ExecutorEvent → Bool
  | .post _ => true
  | _ => false

def isAdjust : ExecutorEvent → Bool
  | .adjust _ _ _ => true
  | _ => false

def isRelease : ExecutorEvent → Bool
  | .release _ _ _ => true
  | _ => false

def isAdmission : ExecutorEvent → Bool
  | .acquire _ _ _ _ _ admitted => admitted
  | _ => false

end ExecutorEvent

/-- One round of the admission loop. -/
inductive AdmissionRound where
  /-- The answer of `acquire`, and the clock that the loop reads after it. -/
  | answered (admitted : Bool) (limit : Int) (clock : Rat)
  /-- A cancellation in `acquire` or in `sleep`. -/
  | interrupted
  deriving DecidableEq, Repr

/-- Where the admission loop stands after its rounds. -/
inductive AdmissionResult where
  | admitted (controller : AimdConcurrencyController)
  | timedOut
  | interrupted
  | waiting
  deriving DecidableEq, Repr

section Execution

variable (validate : Json → Except String SourceResultPayload)
  (admissionTimeoutSeconds : Rat) (operation : SourceOperation)

/-- The `while True` loop. -/
def awaitAdmission (deadline : Rat) :
    AimdConcurrencyController → List AdmissionRound →
      List ExecutorEvent × AdmissionResult
  | _, [] => ([], .waiting)
  | _, .interrupted :: _ => ([], .interrupted)
  | controller, .answered admitted limit clock :: rounds =>
      let call := ExecutorEvent.acquire operation.tenantId operation.source
        operation.taskId controller.limit (admissionTimeoutSeconds + 5) admitted
      let answered := { controller with limit }
      if admitted then ([call], .admitted answered)
      else if deadline ≤ clock then ([call], .timedOut)
      else
        let later := awaitAdmission deadline answered rounds
        (call :: later.1, later.2)

def SourceEffect.event : SourceEffect → ExecutorEvent
  | .post operation => .post operation
  | .adjust arguments =>
      .adjust operation.tenantId operation.source arguments
  | .release holder => .release operation.tenantId operation.source holder

/-- The calls of `execute` and how it ends; `none` while it waits. -/
def executorExecute (template : AimdConcurrencyController) (started : Rat)
    (rounds : List AdmissionRound) (exchange : Exchange) :
    List ExecutorEvent × Option (Outcome SourceReceipt) :=
  let controller := { template with latencies := [], failures := 0 }
  let (calls, admission) := awaitAdmission admissionTimeoutSeconds operation
    (started + admissionTimeoutSeconds) controller rounds
  match admission with
  | .admitted controller =>
      let (effects, outcome) := exchangeAndPublish validate controller
        operation
        { admission := some controller.limit, exchange
          adjustError := none, releaseError := none }
      (calls ++ (.post operation :: .exchangeEnded ::
          effects.map (SourceEffect.event operation)) ++
          [.release operation.tenantId operation.source operation.taskId],
        some outcome)
  | .timedOut =>
      (calls, some (.raised "regional source admission timed out"))
  | .interrupted => (calls, some .cancelled)
  | .waiting => (calls, none)

end Execution

/-! ## The exchange -/

/-- `response.json() if response.content else {}`. -/
def ResponseBody.value? : ResponseBody → Option Json
  | .empty => some (.obj [])
  | .json value => some value
  | .malformed _ => none

/-- A 2xx response whose payload passes the model and `assert_kind`. -/
def Exchange.Accepted (validate : Json → Except String SourceResultPayload)
    (kind : String) (exchange : Exchange) (payload : SourceResultPayload) :
    Prop :=
  ∃ statusCode body latencySeconds value,
    exchange = .answered statusCode body latencySeconds ∧
    isSuccess statusCode = true ∧ body.value? = some value ∧
    validate value = .ok payload ∧ payload.assertKind kind = none

/-- `execute` returned a receipt with `succeeded=True`. -/
def Outcome.Succeeded (outcome : Outcome SourceReceipt) : Prop :=
  ∃ receipt, outcome = .returned receipt ∧ receipt.succeeded = true

/-- A failure among the samples is all that the rate tells. -/
theorem failureRate_pos_iff {controller : AimdConcurrencyController}
    (sampled : controller.latencies ≠ []) :
    0 < (decisionArguments controller).failureRate ↔
      0 < controller.failures := by
  have samples : 0 < controller.latencies.length :=
    List.length_pos_iff.mpr sampled
  have some_ : controller.latencies.length ≠ 0 := Nat.ne_of_gt samples
  have positive : (0 : Rat) < controller.latencies.length := by
    exact_mod_cast samples
  simp only [decisionArguments, AimdConcurrencyController.adjust, if_neg some_]
  rw [div_pos_iff_of_pos_right positive]
  exact_mod_cast Iff.rfl

theorem assertKind_eq_none {payload : SourceResultPayload} {kind : String} :
    payload.assertKind kind = none ↔
      payload.verified = true ∧
        (kind = "delete" → payload.remainingCount = some 0) := by
  unfold SourceResultPayload.assertKind
  by_cases verified : payload.verified = false
  · simp [verified]
  · rw [if_neg verified]
    by_cases deletes : kind = "delete" ∧ payload.remainingCount ≠ some 0
    · rw [if_pos deletes]
      simp [deletes.1, deletes.2]
    · rw [if_neg deletes]
      simpa [verified] using deletes

/-- What the blocks inside the outer `try` do for an exchange that was not
cancelled: one decision is published, and its failure rate tells whether the
exchange was accepted. -/
structure Published (validate : Json → Except String SourceResultPayload)
    (kind : String) (exchange : Exchange)
    (result : List SourceEffect × Outcome SourceReceipt) : Prop where
  adjusts : ∃ arguments, result.1 = [.adjust arguments] ∧
    (0 < arguments.failureRate ↔ ¬ result.2.Succeeded)
  accepted : ∀ receipt, result.2 = .returned receipt →
    receipt.succeeded = true → ∃ payload,
      exchange.Accepted validate kind payload ∧
      receipt.payload = payload.modelDump
  accepts : ∀ payload, exchange.Accepted validate kind payload →
    ∃ receipt, result.2 = .returned receipt ∧ receipt.succeeded = true ∧
      receipt.payload = payload.modelDump

section Exchange

variable {validate : Json → Except String SourceResultPayload}
  {operation : SourceOperation} {controller : AimdConcurrencyController}

/-- A raised exception is published as a failure. -/
theorem published_of_raised {exchange : Exchange}
    (rejected : ∀ payload,
      ¬ exchange.Accepted validate operation.kind payload)
    (message : String) :
    Published validate operation.kind exchange
      (publishDecision (controller.observe 0 false) none
        (.raised message)) := by
  refine ⟨⟨_, rfl, ?_⟩, ?_, ?_⟩
  · rw [failureRate_pos_iff (by simp [AimdConcurrencyController.observe])]
    constructor
    · rintro _ ⟨receipt, returned, _⟩
      cases returned
    · intro _
      exact Nat.succ_pos _
  · intro receipt returned
    cases returned
  · intro payload accepted
    exact absurd accepted (rejected payload)

variable (operation) in
/-- A receipt is published with the sample of its own response. -/
theorem published_of_returned {exchange : Exchange} (receipt : SourceReceipt)
    (clean : controller.failures = 0) (latencySeconds : Rat)
    (accepted : receipt.succeeded = true → ∃ payload,
      exchange.Accepted validate operation.kind payload ∧
      receipt.payload = payload.modelDump)
    (accepts : ∀ payload, exchange.Accepted validate operation.kind payload →
      receipt.succeeded = true ∧ receipt.payload = payload.modelDump) :
    Published validate operation.kind exchange
      (publishDecision (controller.observe latencySeconds receipt.succeeded)
        none (.returned receipt)) := by
  refine ⟨⟨_, rfl, ?_⟩, ?_, ?_⟩
  · rw [failureRate_pos_iff (by simp [AimdConcurrencyController.observe])]
    simp only [AimdConcurrencyController.observe, clean]
    cases succeeded : receipt.succeeded with
    | true =>
        simp only [if_true, Nat.add_zero, Nat.lt_irrefl, false_iff, not_not]
        exact ⟨receipt, rfl, succeeded⟩
    | false =>
        simp only [Bool.false_eq_true, if_false, Nat.zero_add, Nat.zero_lt_one,
          true_iff]
        rintro ⟨other, returned, isSuccess⟩
        cases returned
        rw [succeeded] at isSuccess
        cases isSuccess
  · intro other returned succeeded
    cases returned
    exact accepted succeeded
  · intro payload isAccepted
    exact ⟨receipt, rfl, accepts payload isAccepted⟩

theorem exchangeAndPublish_cancelled {conduct : Conduct}
    (cancelled : conduct.exchange = .cancelled) :
    exchangeAndPublish validate controller operation conduct =
      ([], .cancelled) := by
  unfold exchangeAndPublish
  rw [cancelled]
  rfl

/-- The `except` branch: `response.json()`, the model or `assert_kind` raised,
or the exchange itself. -/
theorem exchangeAndPublish_raised {conduct : Conduct}
    {observed : AimdConcurrencyController} {answer : Outcome SourceReceipt}
    {message : String}
    (client : clientExecute operation conduct.exchange controller =
      (observed, answer))
    (raised : answer = .raised message ∨ ∃ receipt,
      answer = .returned receipt ∧
        checkReceipt validate operation receipt = .raised message) :
    exchangeAndPublish validate controller operation conduct =
      publishDecision (observed.observe 0 false) conduct.adjustError
        (.raised message) := by
  unfold exchangeAndPublish
  rw [client]
  rcases raised with rfl | ⟨receipt, rfl, checked⟩
  · rfl
  · simp only [checked]

theorem exchangeAndPublish_returned {conduct : Conduct}
    {observed : AimdConcurrencyController} {receipt checked : SourceReceipt}
    (client : clientExecute operation conduct.exchange controller =
      (observed, .returned receipt))
    (returned : checkReceipt validate operation receipt =
      .returned checked) :
    exchangeAndPublish validate controller operation conduct =
      publishDecision observed conduct.adjustError (.returned checked) := by
  unfold exchangeAndPublish
  rw [client]
  simp only [returned]

theorem checkReceipt_invalid {receipt : SourceReceipt} {message : String}
    (succeeded : receipt.succeeded = true)
    (invalid : validate receipt.payload = .error message) :
    checkReceipt validate operation receipt = .raised message := by
  unfold checkReceipt
  rw [if_pos succeeded, invalid]

theorem checkReceipt_rejected {receipt : SourceReceipt} {message : String}
    {payload : SourceResultPayload} (succeeded : receipt.succeeded = true)
    (valid : validate receipt.payload = .ok payload)
    (rejected : payload.assertKind operation.kind = some message) :
    checkReceipt validate operation receipt = .raised message := by
  unfold checkReceipt
  rw [if_pos succeeded, valid]
  simp only [rejected]

theorem checkReceipt_passed {receipt : SourceReceipt}
    {payload : SourceResultPayload} (succeeded : receipt.succeeded = true)
    (valid : validate receipt.payload = .ok payload)
    (passed : payload.assertKind operation.kind = none) :
    checkReceipt validate operation receipt =
      .returned { receipt with payload := payload.modelDump } := by
  unfold checkReceipt
  rw [if_pos succeeded, valid]
  simp only [passed]

variable (operation controller) in
theorem clientExecute_of_value (statusCode : Nat) {body : ResponseBody}
    (latencySeconds : Rat) {value : Json} (read : body.value? = some value) :
    clientExecute operation (.answered statusCode body latencySeconds)
        controller =
      (controller.observe latencySeconds (isSuccess statusCode),
        .returned {
          taskId := operation.taskId, statusCode, latencySeconds
          succeeded := isSuccess statusCode, payload := value }) := by
  cases body with
  | empty | json =>
      cases read
      rfl
  | malformed => cases read

/-- What the acceptance of a response with a readable body rests on. -/
theorem Exchange.Accepted.of_answered {statusCode : Nat} {body : ResponseBody}
    {latencySeconds : Rat} {kind : String} {payload : SourceResultPayload}
    (accepted : (Exchange.answered statusCode body latencySeconds).Accepted
      validate kind payload) :
    isSuccess statusCode = true ∧ ∃ value, body.value? = some value ∧
      validate value = .ok payload ∧ payload.assertKind kind = none := by
  obtain ⟨_, _, _, value, answered, status, rest⟩ := accepted
  cases answered
  exact ⟨status, value, rest⟩

/-- A response with a readable body. -/
theorem published_of_value {conduct : Conduct} {statusCode : Nat}
    {body : ResponseBody} {latencySeconds : Rat} {value : Json}
    (clean : controller.failures = 0) (adjusted : conduct.adjustError = none)
    (exchange : conduct.exchange = .answered statusCode body latencySeconds)
    (read : body.value? = some value) :
    Published validate operation.kind
      (.answered statusCode body latencySeconds)
      (exchangeAndPublish validate controller operation conduct) := by
  have client := clientExecute_of_value operation controller statusCode
    latencySeconds read
  rw [← exchange] at client
  have known : ∀ {payload}, (Exchange.answered statusCode body
      latencySeconds).Accepted validate operation.kind payload →
      isSuccess statusCode = true ∧ validate value = .ok payload ∧
        payload.assertKind operation.kind = none := by
    intro payload accepted
    obtain ⟨status, other, isValue, rest⟩ := accepted.of_answered
    cases read.symm.trans isValue
    exact ⟨status, rest⟩
  cases status : isSuccess statusCode with
  | false =>
      rw [status] at client
      rw [exchangeAndPublish_returned client (by rfl), adjusted]
      apply published_of_returned operation {
        taskId := operation.taskId, succeeded := false, statusCode
        latencySeconds, payload := value } clean latencySeconds
      · intro succeeded
        cases succeeded
      · intro payload accepted
        rw [(known accepted).1] at status
        cases status
  | true =>
      rw [status] at client
      cases valid : validate value with
      | error message =>
          rw [exchangeAndPublish_raised client
            (.inr ⟨_, rfl, checkReceipt_invalid rfl valid⟩), adjusted]
          apply published_of_raised
          intro payload accepted
          rw [(known accepted).2.1] at valid
          cases valid
      | ok payload =>
          cases checked : payload.assertKind operation.kind with
          | some message =>
              rw [exchangeAndPublish_raised client
                (.inr ⟨_, rfl, checkReceipt_rejected rfl valid checked⟩),
                adjusted]
              apply published_of_raised
              intro other accepted
              obtain ⟨_, isValid, asserted⟩ := known accepted
              cases valid.symm.trans isValid
              rw [checked] at asserted
              cases asserted
          | none =>
              rw [exchangeAndPublish_returned client
                (checkReceipt_passed rfl valid checked), adjusted]
              apply published_of_returned operation {
                taskId := operation.taskId, succeeded := true, statusCode
                latencySeconds, payload := payload.modelDump } clean
                  latencySeconds
              · intro _
                exact ⟨payload, ⟨_, _, _, value, rfl, status, read, valid,
                  checked⟩, rfl⟩
              · intro other accepted
                cases valid.symm.trans (known accepted).2.1
                exact ⟨rfl, rfl⟩

variable (validate operation controller) in
theorem exchangeAndPublish_published {conduct : Conduct}
    (clean : controller.failures = 0) (adjusted : conduct.adjustError = none)
    (ended : conduct.exchange ≠ .cancelled) :
    Published validate operation.kind conduct.exchange
      (exchangeAndPublish validate controller operation conduct) := by
  cases exchange : conduct.exchange with
  | cancelled => exact absurd exchange ended
  | failed message =>
      have client : clientExecute operation conduct.exchange controller =
          (controller, .raised message) := by
        rw [exchange]
        rfl
      rw [exchangeAndPublish_raised client (.inl rfl), adjusted]
      apply published_of_raised
      rintro payload ⟨_, _, _, _, answered, _⟩
      cases answered
  | answered statusCode body latencySeconds =>
      cases read : body.value? with
      | some value => exact published_of_value clean adjusted exchange read
      | none =>
          cases body with
          | empty | json => cases read
          | malformed message =>
              have client : clientExecute operation conduct.exchange
                  controller = (controller.observe latencySeconds
                    (isSuccess statusCode), .raised message) := by
                rw [exchange]
                rfl
              rw [exchangeAndPublish_raised client (.inl rfl), adjusted]
              apply published_of_raised
              intro payload accepted
              obtain ⟨_, value, isValue, _⟩ := accepted.of_answered
              cases isValue

end Exchange

/-! ## The admission loop -/

section Admission

variable (admissionTimeoutSeconds : Rat) (operation : SourceOperation)
  (deadline : Rat)

/-- The loop only acquires. -/
theorem awaitAdmission_calls (controller : AimdConcurrencyController)
    (rounds : List AdmissionRound) :
    ∀ event ∈ (awaitAdmission admissionTimeoutSeconds operation deadline
        controller rounds).1,
      ∃ defaultLimit admitted, event = .acquire operation.tenantId
        operation.source operation.taskId defaultLimit
        (admissionTimeoutSeconds + 5) admitted := by
  induction rounds generalizing controller with
  | nil =>
      intro event member
      cases member
  | cons round rounds induction =>
      intro event member
      cases round with
      | interrupted => cases member
      | answered admitted limit clock =>
          simp only [awaitAdmission] at member
          split at member
          next => exact ⟨_, _, List.mem_singleton.mp member⟩
          next =>
            split at member
            next => exact ⟨_, _, List.mem_singleton.mp member⟩
            next =>
              rcases List.mem_cons.mp member with first | later
              · exact ⟨_, _, first⟩
              · exact induction _ event later

/-- It ends in admission exactly when an answer admits the holder, with the
samples of the controller untouched. -/
theorem awaitAdmission_result (controller : AimdConcurrencyController)
    (rounds : List AdmissionRound) :
    (∃ limit, (awaitAdmission admissionTimeoutSeconds operation deadline
        controller rounds).2 = .admitted { controller with limit }) ∧
        (∃ event ∈ (awaitAdmission admissionTimeoutSeconds operation deadline
          controller rounds).1, event.isAdmission = true) ∨
      (∀ admitted, (awaitAdmission admissionTimeoutSeconds operation deadline
        controller rounds).2 ≠ .admitted admitted) ∧
        ∀ event ∈ (awaitAdmission admissionTimeoutSeconds operation deadline
          controller rounds).1, event.isAdmission = false := by
  induction rounds generalizing controller with
  | nil => exact .inr ⟨by simp [awaitAdmission], by simp [awaitAdmission]⟩
  | cons round rounds induction =>
      cases round with
      | interrupted =>
          exact .inr ⟨by simp [awaitAdmission], by simp [awaitAdmission]⟩
      | answered admitted limit clock =>
          cases admitted with
          | true =>
              refine .inl ⟨⟨limit, rfl⟩, _, List.mem_singleton_self _, rfl⟩
          | false =>
              simp only [awaitAdmission, Bool.false_eq_true, if_false]
              split
              next =>
                exact .inr ⟨by simp, by simp [ExecutorEvent.isAdmission]⟩
              next =>
                rcases induction { controller with limit } with
                  ⟨⟨last, result⟩, event, member, admits⟩ | ⟨result, refused⟩
                · exact .inl ⟨⟨last, result⟩, event,
                    List.mem_cons_of_mem _ member, admits⟩
                · refine .inr ⟨result, ?_⟩
                  intro event member
                  rcases List.mem_cons.mp member with first | later
                  · rw [first]
                    rfl
                  · exact refused event later

end Admission

/-- Nothing but acquisitions by the operation's own holder. -/
def OnlyAcquires (operation : SourceOperation) (calls : List ExecutorEvent) :
    Prop :=
  ∀ event ∈ calls, ∃ defaultLimit leaseSeconds admitted,
    event = .acquire operation.tenantId operation.source operation.taskId
      defaultLimit leaseSeconds admitted

theorem OnlyAcquires.countP_eq_zero {operation : SourceOperation}
    {calls : List ExecutorEvent} (acquires : OnlyAcquires operation calls)
    {test : ExecutorEvent → Bool}
    (other : ∀ tenantId source holder defaultLimit leaseSeconds admitted,
      test (.acquire tenantId source holder defaultLimit leaseSeconds
        admitted) = false) : calls.countP test = 0 := by
  rw [List.countP_eq_zero]
  intro event member
  obtain ⟨_, _, _, rfl⟩ := acquires event member
  simp [other]

/-- The conduct of an admitted call whose shared state does not fail. -/
def admittedConduct (limit : Int) (exchange : Exchange) : Conduct :=
  { admission := some limit, exchange, adjustError := none
    releaseError := none }

/-- An execution is admitted and exchanges, or it ends in its loop. -/
theorem executorExecute_cases
    (validate : Json → Except String SourceResultPayload)
    (admissionTimeoutSeconds : Rat) (operation : SourceOperation)
    (template : AimdConcurrencyController) (started : Rat)
    (rounds : List AdmissionRound) (exchange : Exchange) :
    (∃ calls limit effects outcome, OnlyAcquires operation calls ∧
        (∃ event ∈ calls, event.isAdmission = true) ∧
        exchangeAndPublish validate
          { template with limit, latencies := [], failures := 0 } operation
          (admittedConduct limit exchange) = (effects, outcome) ∧
        executorExecute validate admissionTimeoutSeconds operation template
          started rounds exchange =
          (calls ++ (.post operation :: .exchangeEnded ::
              effects.map (SourceEffect.event operation)) ++
            [.release operation.tenantId operation.source operation.taskId],
            some outcome)) ∨
      ∃ calls outcome, OnlyAcquires operation calls ∧
        (∀ event ∈ calls, event.isAdmission = false) ∧
        executorExecute validate admissionTimeoutSeconds operation template
          started rounds exchange = (calls, outcome) ∧
        ∀ receipt, outcome ≠ some (.returned receipt) := by
  have calls := awaitAdmission_calls admissionTimeoutSeconds operation
    (started + admissionTimeoutSeconds)
    { template with latencies := [], failures := 0 } rounds
  have result := awaitAdmission_result admissionTimeoutSeconds operation
    (started + admissionTimeoutSeconds)
    { template with latencies := [], failures := 0 } rounds
  unfold executorExecute
  dsimp only
  generalize awaitAdmission admissionTimeoutSeconds operation
    (started + admissionTimeoutSeconds)
    { template with latencies := [], failures := 0 } rounds = loop
    at calls result ⊢
  obtain ⟨acquired, admission⟩ := loop
  have acquires : OnlyAcquires operation acquired := by
    intro event member
    obtain ⟨defaultLimit, admitted, same⟩ := calls event member
    exact ⟨defaultLimit, _, admitted, same⟩
  rcases result with ⟨⟨limit, isAdmitted⟩, admits⟩ | ⟨notAdmitted, refused⟩
  · dsimp only at isAdmitted
    subst isAdmitted
    cases published : exchangeAndPublish validate
        { template with limit, latencies := [], failures := 0 } operation
        (admittedConduct limit exchange) with
    | mk effects outcome =>
        refine .inl ⟨acquired, limit, effects, outcome, acquires, admits,
          published, ?_⟩
        unfold admittedConduct at published
        simp only [published]
  · cases admission with
    | admitted controller => exact absurd rfl (notAdmitted controller)
    | timedOut | interrupted | waiting =>
        exact .inr ⟨acquired, _, acquires, refused, rfl, by simp⟩

/-- The calls that leave the admission loop. -/
def ExecutorEvent.leaves (event : ExecutorEvent) : Bool :=
  event.isPost || event.isAdjust || event.isRelease

/-- An admitted execution publishes its outcome once, unless it is cancelled,
and then gives its slot back once; the published failure rate tells whether it
returned a success, and a success rests on a verified 2xx payload.  An
execution that is not admitted does nothing else. -/
theorem admitted_call_settles_once
    (validate : Json → Except String SourceResultPayload)
    (admissionTimeoutSeconds : Rat) (operation : SourceOperation)
    (template : AimdConcurrencyController) (started : Rat)
    (rounds : List AdmissionRound) (exchange : Exchange) :
    let events := (executorExecute validate admissionTimeoutSeconds operation
      template started rounds exchange).1
    let outcome := (executorExecute validate admissionTimeoutSeconds operation
      template started rounds exchange).2
    ((∃ event ∈ events, event.isAdmission = true) →
      (∃ before, events = before ++ [.release operation.tenantId
          operation.source operation.taskId] ∧
        .exchangeEnded ∈ before ∧
        before.countP ExecutorEvent.isRelease = 0) ∧
      (exchange ≠ .cancelled → ∃ before arguments,
        events = before ++ [
          .adjust operation.tenantId operation.source arguments,
          .release operation.tenantId operation.source operation.taskId] ∧
        before.countP ExecutorEvent.isAdjust = 0 ∧
        (0 < arguments.failureRate ↔
          ¬ ∃ receipt, outcome = some (.returned receipt) ∧
            receipt.succeeded = true))) ∧
    (∀ receipt, outcome = some (.returned receipt) →
      receipt.succeeded = true →
      ∃ statusCode body latencySeconds value payload,
        exchange = .answered statusCode body latencySeconds ∧
        200 ≤ statusCode ∧ statusCode ≤ 299 ∧ body.value? = some value ∧
        validate value = .ok payload ∧ payload.verified = true ∧
        (operation.kind = "delete" → payload.remainingCount = some 0)) ∧
    ((∀ event ∈ events, event.isAdmission = false) →
      ∀ event ∈ events, event.leaves = false) := by
  intro events outcome
  rcases executorExecute_cases validate admissionTimeoutSeconds operation
    template started rounds exchange with
    ⟨calls, limit, effects, ending, acquires, admitted, published,
      executed⟩ |
    ⟨calls, ending, acquires, refused, executed, unanswered⟩
  · have isEvents : events = _ := congrArg Prod.fst executed
    have isOutcome : outcome = _ := congrArg Prod.snd executed
    clear_value events outcome
    subst isEvents isOutcome
    obtain ⟨admission, inCalls, admits⟩ := admitted
    have settled : (∀ event ∈ calls ++ (.post operation :: .exchangeEnded ::
        effects.map (SourceEffect.event operation)) ++
        [.release operation.tenantId operation.source operation.taskId],
        event.isAdmission = false) → False := by
      intro refused
      rw [refused admission (by simp [inCalls])] at admits
      cases admits
    by_cases cancelled : exchange = .cancelled
    · -- a cancellation goes straight to the release
      rw [exchangeAndPublish_cancelled cancelled] at published
      cases published
      refine ⟨fun _ => ⟨⟨_, rfl, by simp, ?_⟩, absurd cancelled⟩, by simp,
        fun refused => (settled refused).elim⟩
      rw [List.countP_append, acquires.countP_eq_zero fun _ _ _ _ _ _ => rfl]
      rfl
    · have decided : Published validate operation.kind exchange _ :=
        exchangeAndPublish_published validate operation
          { template with limit, latencies := [], failures := 0 } rfl
          (rfl : (admittedConduct limit exchange).adjustError = none) cancelled
      rw [published] at decided
      obtain ⟨arguments, rfl, failure⟩ := decided.adjusts
      refine ⟨fun _ => ⟨⟨_, rfl, by simp, ?_⟩, fun _ => ⟨calls ++
        [.post operation, .exchangeEnded], arguments, ?_, ?_, ?_⟩⟩, ?_,
        fun refused => (settled refused).elim⟩
      · rw [List.countP_append,
          acquires.countP_eq_zero fun _ _ _ _ _ _ => rfl]
        rfl
      · simp [SourceEffect.event]
      · rw [List.countP_append,
          acquires.countP_eq_zero fun _ _ _ _ _ _ => rfl]
        rfl
      · simpa [Outcome.Succeeded] using failure
      · intro receipt returned succeeded
        obtain ⟨payload, ⟨statusCode, body, latency, value, answered, status,
          read, valid, asserted⟩, _⟩ :=
          decided.accepted receipt (Option.some.inj returned) succeeded
        obtain ⟨low, high⟩ := of_decide_eq_true status
        obtain ⟨verified, remaining⟩ := assertKind_eq_none.mp asserted
        exact ⟨statusCode, body, latency, value, payload, answered, low, high,
          read, valid, verified, remaining⟩
  · have isEvents : events = _ := congrArg Prod.fst executed
    have isOutcome : outcome = _ := congrArg Prod.snd executed
    clear_value events outcome
    subst isEvents isOutcome
    refine ⟨?_, ?_, ?_⟩
    · rintro ⟨event, member, admits⟩
      rw [refused event member] at admits
      cases admits
    · intro receipt returned
      exact absurd returned (unanswered receipt)
    · intro _ event member
      obtain ⟨_, _, _, rfl⟩ := acquires event member
      rfl

/-- The calls outside the admission loop and the outcome are those of
`sourceExecute`. -/
theorem executorExecute_refines
    (validate : Json → Except String SourceResultPayload)
    (admissionTimeoutSeconds : Rat) (operation : SourceOperation)
    (template : AimdConcurrencyController) (started : Rat)
    (rounds : List AdmissionRound) (exchange : Exchange)
    (admitted : ∃ event ∈ (executorExecute validate admissionTimeoutSeconds
      operation template started rounds exchange).1,
        event.isAdmission = true) :
    ∃ limit,
      (executorExecute validate admissionTimeoutSeconds operation template
          started rounds exchange).1.filter ExecutorEvent.leaves =
        (sourceExecute validate template operation
          (admittedConduct limit exchange)).1.map
            (SourceEffect.event operation) ∧
      (executorExecute validate admissionTimeoutSeconds operation template
          started rounds exchange).2 =
        some (sourceExecute validate template operation
          (admittedConduct limit exchange)).2 := by
  rcases executorExecute_cases validate admissionTimeoutSeconds operation
    template started rounds exchange with
    ⟨calls, limit, effects, outcome, acquires, _, published, executed⟩ |
    ⟨calls, outcome, _, refused, executed, _⟩
  · have source : sourceExecute validate template operation
        (admittedConduct limit exchange) =
        (.post operation :: effects ++ [.release operation.taskId],
          outcome) := by
      unfold sourceExecute
      simp only [admittedConduct] at published ⊢
      simp only [published]
    have silent : calls.filter ExecutorEvent.leaves = [] := by
      rw [List.filter_eq_nil_iff]
      intro event member
      obtain ⟨_, _, _, rfl⟩ := acquires event member
      exact Bool.false_ne_true
    have kept : (effects.map (SourceEffect.event operation)).filter
        ExecutorEvent.leaves = effects.map (SourceEffect.event operation) := by
      apply List.filter_eq_self.mpr
      intro event member
      obtain ⟨effect, _, rfl⟩ := List.mem_map.mp member
      cases effect with
      | post | adjust | release => rfl
    refine ⟨limit, ?_, ?_⟩
    · rw [executed, source, List.filter_append, List.filter_append, silent]
      simp [kept, ExecutorEvent.leaves, ExecutorEvent.isPost,
        ExecutorEvent.isAdjust, ExecutorEvent.isRelease, SourceEffect.event]
    · rw [executed, source]
  · rw [executed] at admitted
    obtain ⟨event, member, admits⟩ := admitted
    rw [refused event member] at admits
    cases admits

/-! ## Values for concrete calls -/

/-- An optional count of the payload model. -/
def readCount : Option Json → Except String (Option Int)
  | none | some .null => .ok none
  | some (.int value) => .ok (some value)
  | some _ => .error "Input should be a valid integer"

/-- `model_validate` on JSON booleans, integers and nulls. -/
def validatePlain : Json → Except String SourceResultPayload
  | .obj fields =>
      match fields.lookup "verified", readCount (fields.lookup "record_count"),
          readCount (fields.lookup "deleted_count"),
          readCount (fields.lookup "remaining_count") with
      | some (.bool verified), .ok recordCount, .ok deletedCount,
          .ok remainingCount =>
          .ok { verified, recordCount, deletedCount, remainingCount
                extra := fields.filter fun field =>
                  decide (field.1 ∉ ["verified", "record_count",
                    "deleted_count", "remaining_count"]) }
      | _, _, _, _ => .error "Input should be a valid boolean"
  | _ => .error "Input should be a valid dictionary"

def plainController : AimdConcurrencyController :=
  { limit := 4, minimum := 1, maximum := 64, targetP95Seconds := 8 / 10
    additiveStep := 1, decreaseRatio := 65 / 100, latencies := []
    failures := 0 }

private def waitingDelete : SourceOperation :=
  { taskId := "task", tenantId := "tenant", source := "jobs"
    subjectKeyHash := "hash", kind := "delete" }

/-- A deletion that left records behind is refused once and admitted in the
second round. -/
private def unfinishedDelete :
    List ExecutorEvent × Option (Outcome SourceReceipt) :=
  executorExecute validatePlain 30 waitingDelete plainController 0
    [.answered false 4 1, .answered true 4 2]
    (.answered 200 (.json (.obj [("verified", .bool true),
      ("deleted_count", .int 3), ("remaining_count", .int 1)])) (1 / 10))

theorem unfinished_deletion_is_published_as_failure :
    (∃ before arguments, unfinishedDelete.1 = before ++ [
        .adjust "tenant" "jobs" arguments, .release "tenant" "jobs" "task"] ∧
      before.countP ExecutorEvent.isAdjust = 0 ∧ 0 < arguments.failureRate) ∧
    unfinishedDelete.2 =
      some (.raised "regional delete readback found remaining records") := by
  have settles := admitted_call_settles_once validatePlain 30 waitingDelete
    plainController 0 [.answered false 4 1, .answered true 4 2]
    (.answered 200 (.json (.obj [("verified", .bool true),
      ("deleted_count", .int 3), ("remaining_count", .int 1)])) (1 / 10))
  obtain ⟨_, published⟩ := settles.1
    ⟨.acquire "tenant" "jobs" "task" 4 35 true, by decide +kernel, rfl⟩
  obtain ⟨before, arguments, events, once, failure⟩ := published (by decide)
  have ended : unfinishedDelete.2 =
      some (.raised "regional delete readback found remaining records") := by
    decide +kernel
  refine ⟨⟨before, arguments, events, once, failure.mpr ?_⟩, ended⟩
  rintro ⟨receipt, returned, _⟩
  cases ended.symm.trans returned

end FleetPrivacy
