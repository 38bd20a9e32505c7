import FleetPrivacy.Library.Idempotency
import FleetPrivacy.RedisKeys
import FleetPrivacy.Regional

/-!
# What the regional source is asked to do

Every execution of a task may post its operation, and crashes, retries and
reclaimed leases repeat executions.  The requests of one task are always the
same request under one idempotency key, and no two tasks share a key: a source
that honours the header performs each task at most once.
-/

namespace FleetPrivacy

open Transition

/-! ## The request of an operation -/

structure RegionalRequest where
  url : String
  headers : List (String × String)
  body : Json
  deriving DecidableEq

def RegionalRequest.header (request : RegionalRequest) (name : String) :
    Option String :=
  (request.headers.find? fun header => decide (header.1 = name)).map Prod.snd

/-- `base_url.rstrip("/")`. -/
def stripTrailingSlashes (text : String) : String :=
  String.ofList ((text.toList.reverse.dropWhile fun letter =>
    decide (letter = '/')).reverse)

/-- What `RegionalSourceClient.execute` posts. -/
def regionalRequest (baseUrl serviceToken : String)
    (operation : SourceOperation) : RegionalRequest :=
  { url := stripTrailingSlashes baseUrl ++ "/privacy/" ++ operation.source ++
      "/" ++ operation.kind
    headers := [("X-Tenant-ID", operation.tenantId),
        ("Idempotency-Key", operation.taskId ++ ":" ++ operation.source),
        ("X-Request-ID", operation.taskId)] ++
      (if serviceToken = "" then []
        else [("Authorization", "Bearer " ++ serviceToken)])
    body := .obj [("subject_key_hash", .str operation.subjectKeyHash)] }

section Request

variable (baseUrl serviceToken : String) (operation : SourceOperation)

@[simp] theorem regionalRequest_idempotencyKey :
    (regionalRequest baseUrl serviceToken operation).header "Idempotency-Key" =
      some (operation.taskId ++ ":" ++ operation.source) := by
  simp [regionalRequest, RegionalRequest.header]

@[simp] theorem regionalRequest_requestId :
    (regionalRequest baseUrl serviceToken operation).header "X-Request-ID" =
      some operation.taskId := by
  simp [regionalRequest, RegionalRequest.header]

end Request

/-- The task of a key is what is before its last colon. -/
theorem taskId_of_idempotencyKey {first second : SourceOperation}
    (firstAllowed : first.source ∈ allowedSources)
    (secondAllowed : second.source ∈ allowedSources)
    (same : first.taskId ++ ":" ++ first.source =
      second.taskId ++ ":" ++ second.source) :
    first.taskId = second.taskId := by
  have characters := congrArg String.toList same
  simp only [String.toList_append] at characters
  have separated : ":".toList = [':'] := rfl
  rw [separated, List.append_assoc, List.append_assoc, List.singleton_append,
    List.singleton_append] at characters
  exact String.toList_inj.mp (Separated.front_unique characters
    (RedisAimdState.colon_not_mem_of_allowed firstAllowed)
    (RedisAimdState.colon_not_mem_of_allowed secondAllowed))

/-! ## The executions of a run -/

/-- One call of the executor. -/
structure RegionalCall where
  operation : SourceOperation
  conduct : Conduct
  deriving DecidableEq

def observeRegion (state : State) : RegionalAction → List RegionalCall
  | .execute index conduct =>
      match state.operation index with
      | some (_, operation) => [⟨operation, conduct⟩]
      | none => []
  | .other _ => []

section Calls

variable (validate : Json → Except String SourceResultPayload)
  (template : AimdConcurrencyController)

def RegionalCall.outcome (call : RegionalCall) : Outcome SourceReceipt :=
  (sourceExecute validate template call.operation call.conduct).2

def SourceEffect.posted : SourceEffect → Option SourceOperation
  | .post operation => some operation
  | .adjust _ | .release _ => none

/-- The calls that are observed there, with less about them. -/
theorem observeSource_eq :
    observeSource validate template = fun state action =>
      (observeRegion state action).map fun call =>
        ⟨call.operation, call.outcome validate template⟩ := by
  funext state action
  cases action with
  | other => rfl
  | execute index conduct =>
      unfold observeSource observeRegion
      dsimp only
      cases state.operation index with
      | none => rfl
      | some working => rfl

/-- The operations that the executor posts in this call. -/
def RegionalCall.posted (call : RegionalCall) : List SourceOperation :=
  (sourceExecute validate template call.operation
    call.conduct).1.filterMap SourceEffect.posted

/-- A response shows that the request has arrived. -/
def RegionalCall.Answered (call : RegionalCall) : Prop :=
  ∃ statusCode body latencySeconds,
    call.conduct.exchange = .answered statusCode body latencySeconds

variable {validate template}

theorem posted_of_exchangeAndPublish (controller : AimdConcurrencyController)
    (operation : SourceOperation) (conduct : Conduct) :
    (exchangeAndPublish validate controller operation conduct).1.filterMap
      SourceEffect.posted = [] := by
  unfold exchangeAndPublish
  dsimp only
  split
  next => rfl
  next => rfl
  next => rfl

/-- An admitted call posts its own operation, once. -/
theorem RegionalCall.posted_eq (call : RegionalCall) :
    call.posted validate template =
      if call.conduct.admission.isSome then [call.operation] else [] := by
  unfold posted sourceExecute
  cases call.conduct.admission with
  | none => rfl
  | some limit =>
      simp only [List.cons_append, List.filterMap_cons, SourceEffect.posted,
        List.filterMap_append, posted_of_exchangeAndPublish]
      rfl

/-- A receipt comes from a response to the posted operation. -/
theorem RegionalCall.of_returned {call : RegionalCall}
    {receipt : SourceReceipt}
    (returned : call.outcome validate template = .returned receipt) :
    call.Answered ∧ call.operation ∈ call.posted validate template := by
  rw [posted_eq]
  unfold outcome sourceExecute at returned
  cases admission : call.conduct.admission with
  | none =>
      rw [admission] at returned
      cases returned
  | some limit =>
      rw [admission] at returned
      refine ⟨?_, by simp⟩
      unfold Answered
      cases exchange : call.conduct.exchange with
      | answered statusCode body latencySeconds =>
          exact ⟨statusCode, body, latencySeconds, rfl⟩
      | failed message =>
          unfold exchangeAndPublish at returned
          rw [exchange] at returned
          dsimp only [clientExecute, publishDecision] at returned
          split at returned
          next => cases returned
          next =>
            split at returned
            next => cases returned
            next => cases returned
      | cancelled =>
          unfold exchangeAndPublish at returned
          rw [exchange] at returned
          dsimp only [clientExecute] at returned
          split at returned
          next => cases returned
          next => cases returned

end Calls

/-! ## Whose operations are posted -/

/-- The operation is that of a committed task and its request. -/
def Database.Operates (database : Database) (operation : SourceOperation) :
    Prop :=
  ∃ row owner, database.task operation.taskId = some row ∧
    database.request row.requestId = some owner ∧
    operation = sourceOperation row owner

theorem Database.Operates.eq {database : Database}
    {first second : SourceOperation} (left : database.Operates first)
    (right : database.Operates second) (same : first.taskId = second.taskId) :
    first = second := by
  obtain ⟨row, owner, found, ownerFound, rfl⟩ := left
  obtain ⟨again, other, secondFound, otherFound, rfl⟩ := right
  rw [same, secondFound] at found
  cases found
  rw [ownerFound] at otherFound
  cases otherFound
  rfl

structure Dispatching (past : List RegionalCall) (state : State) : Prop where
  grounded : state.Grounded
  allowed : ∀ row ∈ state.database.tasks, row.source ∈ allowedSources
  operations : ∀ call ∈ past, state.database.Operates call.operation

section Steps

variable {deployment : Deployment}
  {validate : Json → Except String SourceResultPayload}
  {template : AimdConcurrencyController} {past : List RegionalCall}
  {state next : State}

/-- Operations depend on columns that never change. -/
theorem State.Grounded.operates (grounded : state.Grounded) {action : Action}
    (effect : Effect deployment state action next)
    {operation : SourceOperation}
    (operates : state.database.Operates operation) :
    next.database.Operates operation := by
  obtain ⟨row, owner, found, ownerFound, same⟩ := operates
  have carries := grounded.carries effect
  obtain ⟨after, afterFound, kept⟩ := carries.task _ row found
  obtain ⟨later, laterFound, shows⟩ := carries.request _ owner ownerFound
  have identity := kept row rfl
  have requestId : after.requestId = row.requestId :=
    (congrArg (fun columns => columns.2.1) identity).symm
  refine ⟨after, later, afterFound, requestId ▸ laterFound, ?_⟩
  rw [same]
  exact sourceOperation_eq identity (shows owner ⟨rfl, id⟩).1

/-- The operation that a call works on. -/
theorem State.Grounded.operates_working (grounded : state.Grounded)
    {index : Nat} {call : Call} {operation : SourceOperation}
    (working : state.operation index = some (call, operation)) :
    state.database.Operates operation := by
  unfold State.operation at working
  split at working
  next found =>
    split at working
    next taskId phase =>
      obtain ⟨task, held, mapped⟩ := Option.bind_eq_some_iff.mp working
      obtain ⟨request, requestHeld, same⟩ := Option.map_eq_some_iff.mp mapped
      cases same
      have member := List.mem_of_getElem? found
      have isTask := grounded.tidy.keyed call member taskId task held
      obtain ⟨row, rowFound, identity⟩ :=
        (grounded.copies call member).task taskId task held
      obtain ⟨owner, ownerFound, _, shows⟩ :=
        grounded.request_of_copy member requestHeld
      have requestId : task.requestId = row.requestId :=
        congrArg (fun columns => columns.2.1) identity
      refine ⟨row, owner, ?_, requestId ▸ ownerFound,
        sourceOperation_eq identity shows.1⟩
      rw [← isTask] at rowFound
      exact rowFound
    next => cases working
  next => cases working

theorem Effect.allowed {action : Action}
    (effect : Effect deployment state action next)
    (allowed : ∀ row ∈ state.database.tasks, row.source ∈ allowedSources) :
    ∀ row ∈ next.database.tasks, row.source ∈ allowedSources := by
  intro row member
  rcases effect.revision with
    ⟨intake, _, _, inserted⟩ | ⟨task, request, revises, identity, _, _⟩
  · rw [inserted] at member
    rcases List.mem_append.mp member with old | new
    · exact allowed row old
    · obtain ⟨⟨source, position⟩, inZip, rfl⟩ := List.mem_map.mp new
      exact intake.command.sourcesAllowed source
        (List.fst_mem_of_mem_zipIdx inZip)
  · rw [revises.tasks] at member
    obtain ⟨old, inTable, rfl⟩ := List.mem_map.mp member
    have same : (task old).source = old.source :=
      congrArg (fun columns => columns.2.2.2) (identity old)
    rw [same]
    exact allowed old inTable

theorem Dispatching.step {action : RegionalAction}
    (dispatching : Dispatching past state)
    (stepped : regionalStep deployment validate template state action =
      some next) :
    Dispatching (past ++ observeRegion state action) next := by
  obtain ⟨plain, _, stepped⟩ := Option.bind_eq_some_iff.mp stepped
  have grounded := dispatching.grounded
  have effect := effect_of_step grounded.tidy.tables.taskIds stepped
  refine ⟨grounded.step stepped, effect.allowed dispatching.allowed, ?_⟩
  intro call member
  apply grounded.operates effect
  rcases List.mem_append.mp member with old | new
  · exact dispatching.operations call old
  · cases action with
    | other => cases new
    | execute index conduct =>
        simp only [observeRegion] at new
        split at new
        next working =>
          cases List.mem_singleton.mp new
          exact grounded.operates_working working
        next => cases new

theorem Dispatching.initial : Dispatching [] State.initial := by
  refine ⟨State.Grounded.initial, ?_, ?_⟩
  · intro row member
    cases member
  · intro call member
    cases member

end Steps

/-! ## What arrives -/

section Arriving

variable (validate : Json → Except String SourceResultPayload)
  (template : AimdConcurrencyController) (baseUrl serviceToken : String)

/-- What reaches the source: requests that were posted, in any order, lost or
repeated, but not lost if they were answered. -/
structure Arrivals (calls : List RegionalCall)
    (received : List RegionalRequest) : Prop where
  posted : ∀ request ∈ received, ∃ call ∈ calls,
    ∃ operation ∈ call.posted validate template,
      request = regionalRequest baseUrl serviceToken operation
  answered : ∀ call ∈ calls, call.Answered →
    ∀ operation ∈ call.posted validate template,
      regionalRequest baseUrl serviceToken operation ∈ received

end Arriving

/-- A source that honours idempotency keys: the requests that it performs, and
its answers. -/
def honour (received : List RegionalRequest) :
    List RegionalRequest × List Idempotency.Answer :=
  Idempotency.receiveAll (fun request => request.header "Idempotency-Key") []
    received

def RegionalRequest.isFor (request : RegionalRequest) (taskId : String) :
    Bool :=
  decide (request.header "X-Request-ID" = some taskId)

section Source

variable {deployment : Deployment}
  {validate : Json → Except String SourceResultPayload}
  {template : AimdConcurrencyController} {baseUrl serviceToken : String}
  {calls : List RegionalCall} {received : List RegionalRequest}
  {state : State}

/-- An arrival is the request of a committed task. -/
theorem Dispatching.of_arrivals (dispatching : Dispatching calls state)
    (arrivals : Arrivals validate template baseUrl serviceToken calls received)
    {request : RegionalRequest} (member : request ∈ received) :
    ∃ operation, state.database.Operates operation ∧
      operation.source ∈ allowedSources ∧
      request = regionalRequest baseUrl serviceToken operation := by
  obtain ⟨call, inCalls, operation, posted, rfl⟩ :=
    arrivals.posted request member
  rw [RegionalCall.posted_eq] at posted
  split at posted
  next =>
    cases List.mem_singleton.mp posted
    have operates := dispatching.operations call inCalls
    obtain ⟨row, owner, found, _, same⟩ := operates
    refine ⟨call.operation, dispatching.operations call inCalls, ?_, rfl⟩
    rw [same]
    exact dispatching.allowed row (Database.task_mem found).1
  next => cases posted

/-- One key, one request. -/
theorem Dispatching.consistent (dispatching : Dispatching calls state)
    (arrivals : Arrivals validate template baseUrl serviceToken calls
      received) :
    Idempotency.Consistent (fun request : RegionalRequest =>
      request.header "Idempotency-Key") (received ++ []) := by
  rw [List.append_nil]
  intro first isFirst second isSecond same
  obtain ⟨left, leftOperates, leftAllowed, rfl⟩ :=
    dispatching.of_arrivals arrivals isFirst
  obtain ⟨right, rightOperates, rightAllowed, rfl⟩ :=
    dispatching.of_arrivals arrivals isSecond
  simp only [regionalRequest_idempotencyKey, Option.some.injEq] at same
  rw [leftOperates.eq rightOperates
    (taskId_of_idempotencyKey leftAllowed rightAllowed same)]

/-- No task is performed twice. -/
theorem Dispatching.countP_le_one (dispatching : Dispatching calls state)
    (arrivals : Arrivals validate template baseUrl serviceToken calls received)
    (taskId : String) :
    ((honour received).1.countP fun request => request.isFor taskId) ≤ 1 := by
  have consistent := dispatching.consistent arrivals
  have distinct : ((honour received).1.map fun request =>
      request.header "Idempotency-Key").Nodup :=
    Idempotency.nodup_receiveAll consistent List.nodup_nil
  apply countP_le_one_of_unique
  intro first second left right atFirst atSecond leftHit rightHit
  have arrived : ∀ {request : RegionalRequest},
      request ∈ (honour received).1 → request ∈ received := by
    intro request member
    rcases (Idempotency.mem_receiveAll_iff consistent).mp member with
      none | present
    · cases none
    · exact present
  obtain ⟨leftOperation, leftOperates, _, rfl⟩ := dispatching.of_arrivals
    arrivals (arrived (List.mem_of_getElem? atFirst))
  obtain ⟨rightOperation, rightOperates, _, rfl⟩ := dispatching.of_arrivals
    arrivals (arrived (List.mem_of_getElem? atSecond))
  simp only [RegionalRequest.isFor, regionalRequest_requestId,
    Option.some.injEq, decide_eq_true_eq] at leftHit rightHit
  rw [leftOperates.eq rightOperates (leftHit.trans rightHit.symm)] at atFirst
  have firstKey := congrArg (Option.map fun request : RegionalRequest =>
    request.header "Idempotency-Key") atFirst
  have secondKey := congrArg (Option.map fun request : RegionalRequest =>
    request.header "Idempotency-Key") atSecond
  rw [← List.getElem?_map] at firstKey secondKey
  have bound : first < ((honour received).1.map fun request =>
      request.header "Idempotency-Key").length := by
    rw [List.length_map]
    exact (List.getElem?_eq_some_iff.mp atFirst).1
  exact (List.getElem?_inj bound distinct).mp
    (firstKey.trans secondKey.symm)

end Source

/-- Whatever reaches the source in any run of the regional deployment: it
refuses nothing, it performs only operations of committed tasks, each of them
at most once, and a task that is reported as succeeded, where `process_once`
starts no work, exactly once. -/
theorem regional_effects_happen_once (deployment : Deployment)
    (validate : Json → Except String SourceResultPayload)
    (template : AimdConcurrencyController) (baseUrl serviceToken : String)
    {actions : List RegionalAction} {state : State}
    (execution : Runs (regionalStep deployment validate template) Always
      State.initial actions state) {received : List RegionalRequest}
    (arrivals : Arrivals validate template baseUrl serviceToken
      (history (regionalStep deployment validate template) observeRegion
        State.initial actions) received) :
    .conflict ∉ (honour received).2 ∧
      (∀ request ∈ (honour received).1, ∃ row ∈ state.database.tasks,
        ∃ owner, state.database.request row.requestId = some owner ∧
          request = regionalRequest baseUrl serviceToken
            (sourceOperation row owner)) ∧
      ∀ row ∈ state.database.tasks,
        ((honour received).1.countP fun request => request.isFor row.id) ≤ 1 ∧
        (Runs (regionalStep deployment validate template) DatabaseUnused
            State.initial actions state →
          row.status = .succeeded →
          ((honour received).1.countP fun request =>
            request.isFor row.id) = 1) := by
  have preserved : ∀ {past : List RegionalCall} {before : State}
      {action : RegionalAction} {after : State}, Dispatching past before →
      Always before action →
      regionalStep deployment validate template before action = some after →
      Dispatching (past ++ observeRegion before action) after :=
    fun dispatching _ stepped => dispatching.step stepped
  have dispatching :=
    execution.invariant_with_history preserved Dispatching.initial
  rw [List.nil_append] at dispatching
  have consistent := dispatching.consistent arrivals
  refine ⟨Idempotency.conflict_not_mem_receiveAll consistent, ?_, ?_⟩
  · intro request performed
    rcases (Idempotency.mem_receiveAll_iff consistent).mp performed with
      none | present
    · cases none
    · obtain ⟨operation, ⟨row, owner, found, ownerFound, rfl⟩, _, same⟩ :=
        dispatching.of_arrivals arrivals present
      exact ⟨row, (Database.task_mem found).1, owner, ownerFound, same⟩
  · intro row member
    have most := dispatching.countP_le_one arrivals row.id
    refine ⟨most, ?_⟩
    intro reported succeeded
    have reports : ∀ {past : List SourceCall} {before : State}
        {action : RegionalAction} {after : State},
        Reporting validate past before → DatabaseUnused before action →
        regionalStep deployment validate template before action = some after →
        Reporting validate
          (past ++ observeSource validate template before action) after :=
      fun reporting unused stepped => reporting.step unused stepped
    have reporting := reported.invariant_with_history reports
      Reporting.initial
    obtain ⟨entry, inPast, receipt, isTask, outcome, _⟩ :=
      reporting.results row member (reporting.succeeded row member succeeded)
    rw [List.nil_append, observeSource_eq, history_map] at inPast
    obtain ⟨call, isCall, rfl⟩ := List.mem_map.mp inPast
    obtain ⟨answered, posted⟩ := RegionalCall.of_returned outcome
    have present := (Idempotency.mem_receiveAll_iff consistent).mpr
      (.inr (arrivals.answered call isCall answered _ posted))
    have positive : 0 < (honour received).1.countP fun request =>
        request.isFor row.id := by
      refine List.countP_pos_iff.mpr ⟨_, present, ?_⟩
      rw [RegionalRequest.isFor, regionalRequest_requestId, ← isTask]
      exact decide_eq_true rfl
    omega

/-! A worker posts a deletion and gets no answer; the request is retried, posted
again and answered. -/

def demoRegionalRequest : Intake :=
  demoIntake 'a' .delete ["jobs"] demoSource_nodup demoSource_allowed

/-- What `model_validate` makes of the answer below. -/
def demoPayloadModel : Json → Except String SourceResultPayload
  | .obj [("verified", .bool verified), ("deleted_count", .int deleted),
      ("remaining_count", .int remaining)] =>
      .ok { verified, recordCount := none, deletedCount := some deleted
            remainingCount := some remaining, extra := [] }
  | _ => .error "validation error"

def demoTemplate : AimdConcurrencyController :=
  { limit := 4, minimum := 1, maximum := 64, targetP95Seconds := 8 / 10
    additiveStep := 1, decreaseRatio := 1 / 2, latencies := [], failures := 0 }

def demoConduct (exchange : Exchange) : Conduct :=
  { admission := some 4, exchange, adjustError := none, releaseError := none }

def demoDelivered (call : Nat) : List RegionalAction :=
  [.other (.deliver "w" 1 true), .other (.messageGet call 11),
    .other (.messageClaim call), .other (.selectTask call)]

/-- Three records are deleted. -/
def demoAnswer : Exchange :=
  .answered 200 (.json (.obj [("verified", .bool true),
    ("deleted_count", .int 3), ("remaining_count", .int 0)])) (1 / 10)

def demoRetried : List RegionalAction :=
  (Action.create demoRegionalRequest :: demoRelay 0 2).map
      RegionalAction.other ++
    demoDelivered 0 ++
    [.execute 0 (demoConduct (.failed "timed out")),
      .other (.recordTask 0 12)] ++
    demoDelivered 1 ++
    [.execute 1 (demoConduct demoAnswer), .other (.recordTask 1 13)]

def demoRegionalOperation : SourceOperation :=
  { taskId := "aa", tenantId := "t", source := "jobs"
    subjectKeyHash := (demoRegionalRequest.request demoRuntime).subjectKeyHash
    kind := "delete" }

def demoPosted : RegionalRequest :=
  regionalRequest "https://region/" "token" demoRegionalOperation

theorem demoRetried_calls :
    history (regionalStep demoDeployment demoPayloadModel demoTemplate)
        observeRegion State.initial demoRetried =
      [⟨demoRegionalOperation, demoConduct (.failed "timed out")⟩,
        ⟨demoRegionalOperation, demoConduct demoAnswer⟩] := by
  decide +kernel

theorem demoRetried_arrivals :
    Arrivals demoPayloadModel demoTemplate "https://region/" "token"
      (history (regionalStep demoDeployment demoPayloadModel demoTemplate)
        observeRegion State.initial demoRetried)
      [demoPosted, demoPosted] := by
  rw [demoRetried_calls]
  constructor
  · intro request member
    have same : request = demoPosted := by simpa using member
    refine ⟨_, List.mem_cons_self, demoRegionalOperation, ?_, same⟩
    rw [RegionalCall.posted_eq]
    exact List.mem_singleton_self _
  · intro call member _ operation posted
    rw [RegionalCall.posted_eq] at posted
    have same : call.operation = demoRegionalOperation := by
      rcases List.mem_cons.mp member with rfl | later
      · rfl
      · cases List.mem_singleton.mp later
        rfl
    rw [same] at posted
    split at posted
    next =>
      cases List.mem_singleton.mp posted
      exact List.mem_cons_self
    next => cases posted

theorem retried_deletion_is_performed_once :
    ((honour [demoPosted, demoPosted]).1.countP fun request =>
      request.isFor "aa") = 1 := by
  have evaluated : (run (regionalStep demoDeployment demoPayloadModel
      demoTemplate) DatabaseUnused State.initial demoRetried).map
        (fun state => state.database.tasks.map fun task =>
          (task.id, task.status)) = some [("aa", .succeeded)] := by
    decide +kernel
  obtain ⟨state, result, tasks⟩ := Option.map_eq_some_iff.mp evaluated
  have execution := runs_of_run result
  obtain ⟨row, member, same⟩ := List.mem_map.mp
    (tasks ▸ List.mem_singleton_self _ : ("aa", TaskStatus.succeeded) ∈
      state.database.tasks.map fun task => (task.id, task.status))
  simp only [Prod.mk.injEq] at same
  obtain ⟨_, _, effects⟩ := regional_effects_happen_once demoDeployment
    demoPayloadModel demoTemplate "https://region/" "token"
    (execution.weaken fun _ _ _ => trivial) demoRetried_arrivals
  have once := (effects row member).2 execution same.2
  rw [same.1] at once
  exact once

end FleetPrivacy
