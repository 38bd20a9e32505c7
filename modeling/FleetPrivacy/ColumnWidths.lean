import FleetPrivacy.Api
import FleetPrivacy.Tables

/-!
# The widths of the columns

`models.py` limits most text columns, and the routes limit what a caller sends.
PostgreSQL rejects a statement that writes a longer value, SQLite stores it.
Ids are 36 characters long and digests 64, so only a value that is composed of
admitted ones can be too long for its column.  There is one: the lease owner
`tenant_id:worker_id` of `run_worker_once`.

A claim's rows are those that its flush sends to the database.
-/

namespace FleetPrivacy

open Transition

/-! ## Limited columns -/

/-- The value of a `String(width)` column. -/
structure LimitedValue where
  column : String
  width : Nat
  value : String
  deriving DecidableEq, Repr

def LimitedValue.Fits (limited : LimitedValue) : Prop :=
  limited.value.length ≤ limited.width

instance : DecidablePred LimitedValue.Fits :=
  fun limited =>
    inferInstanceAs (Decidable (limited.value.length ≤ limited.width))

def PrivacyRequest.limited (request : PrivacyRequest) : List LimitedValue :=
  [ ⟨"id", 36, request.id⟩,
    ⟨"tenant_id", 64, request.tenantId⟩,
    ⟨"idempotency_key", 128, request.idempotencyKey⟩,
    ⟨"subject_key_hash", 64, request.subjectKeyHash⟩,
    ⟨"policy_version", 32, request.policyVersion⟩ ]

/-- The columns that are set once. -/
def RequestTask.keyColumns (task : RequestTask) : List LimitedValue :=
  [ ⟨"id", 36, task.id⟩,
    ⟨"request_id", 36, task.requestId⟩,
    ⟨"tenant_id", 64, task.tenantId⟩,
    ⟨"source", 64, task.source⟩ ]

def RequestTask.limited (task : RequestTask) : List LimitedValue :=
  task.keyColumns ++ task.leaseOwner.toList.map fun owner =>
    ⟨"lease_owner", leaseOwnerWidth, owner⟩

def OutboxEvent.limited (event : OutboxEvent) : List LimitedValue :=
  [ ⟨"id", 36, event.id⟩,
    ⟨"tenant_id", 64, event.tenantId⟩,
    ⟨"aggregate_id", 36, event.aggregateId⟩,
    ⟨"event_type", 64, event.eventType⟩ ]

def AuditEvent.limited (event : AuditEvent) : List LimitedValue :=
  [ ⟨"tenant_id", 64, event.tenantId⟩,
    ⟨"request_id", 36, event.requestId⟩,
    ⟨"action", 64, event.action⟩,
    ⟨"payload_hash", 64, event.payloadHash⟩,
    ⟨"previous_hash", 64, event.previousHash⟩,
    ⟨"event_hash", 64, event.eventHash⟩ ]

def DeviceCloudRecord.limited (record : DeviceCloudRecord) :
    List LimitedValue :=
  [ ⟨"id", 36, record.id⟩,
    ⟨"tenant_id", 64, record.tenantId⟩,
    ⟨"subject_key_hash", 64, record.subjectKeyHash⟩,
    ⟨"source", 64, record.source⟩ ]

/-- Every value of the rows fits its column. -/
def AllFit {ρ : Type} (limited : ρ → List LimitedValue) (rows : List ρ) :
    Prop :=
  ∀ row ∈ rows, ∀ value ∈ limited row, value.Fits

structure Database.Fits (database : Database) : Prop where
  requests : AllFit PrivacyRequest.limited database.requests
  tasks : AllFit RequestTask.limited database.tasks
  outbox : AllFit OutboxEvent.limited database.outbox
  audit : AllFit AuditEvent.limited database.audit
  records : AllFit DeviceCloudRecord.limited database.records

/-! ## The operations of the API -/

inductive ApiAction where
  | seed (tenantId subjectKey : String) (recordsPerSource : Nat)
      (fresh : Fresh)
  | control (action : Action)

def apiStep (deployment : Deployment) (state : State) :
    ApiAction → Option State
  | .seed tenantId subjectKey recordsPerSource fresh =>
      some { state with database := { state.database with
        records := state.database.records ++ seedRows deployment.runtime
          tenantId subjectKey recordsPerSource fresh } }
  | .control action => step deployment state action

/-- `str(uuid4())`. -/
def Fresh.Uuids (fresh : Fresh) : Prop :=
  ∀ index, (fresh.ids index).length = 36

/-- What `run_worker_once` passes on for an admitted tenant and worker id. -/
def ClaimArguments.FromApi (arguments : ClaimArguments) : Prop :=
  ∃ tenantId workerId batchSize fresh,
    lengthWithin 2 64 tenantId = true ∧ lengthWithin 2 64 workerId = true ∧
      arguments.workerId =
        (workerArguments tenantId workerId batchSize fresh).workerId ∧
      arguments.tenantId = some tenantId

/-- The parameters of the routes are within their bounds, and no worker
consumes the queue. -/
def Admitted : ApiAction → Prop
  | .seed tenantId _ _ fresh =>
      lengthWithin 2 64 tenantId = true ∧ fresh.Uuids
  | .control (.create intake) =>
      lengthWithin 2 64 intake.tenantId = true ∧
        lengthWithin 1 128 intake.idempotencyKey = true ∧ intake.fresh.Uuids
  | .control (.processOnce arguments) => arguments.FromApi
  | .control (.refreshCommit _ noticeId _) => noticeId.length = 36
  | .control (.deliver _ _ _) | .control (.messageClaim _) => False
  | .control _ => True

/-- The rows that the select of `claim_tasks` returns. -/
def ClaimArguments.selected (arguments : ClaimArguments) (settings : Settings)
    (dialect : Dialect) (database : Database) : List RequestTask :=
  arguments.candidates settings
    (match dialect with
      | .postgresql => arguments.locked
      | .sqlite => [])
    database.tasks

/-- A claim that selects a task has an owner that fits `lease_owner`. -/
def ClaimArguments.OwnerFits (arguments : ClaimArguments)
    (settings : Settings) (dialect : Dialect) (database : Database) : Prop :=
  arguments.selected settings dialect database = [] ∨
    arguments.workerId.length ≤ leaseOwnerWidth

def OwnersFit (deployment : Deployment) (state : State) : ApiAction → Prop
  | .control (.processOnce arguments) =>
      arguments.OwnerFits deployment.settings deployment.dialect state.database
  | _ => True

/-! ## Rows -/

section Rows

variable {ρ : Type} {limited : ρ → List LimitedValue} {rows : List ρ}

theorem AllFit.append {more : List ρ} (fits : AllFit limited rows)
    (moreFit : AllFit limited more) : AllFit limited (rows ++ more) := by
  intro row member
  rcases List.mem_append.mp member with old | new
  · exact fits row old
  · exact moreFit row new

/-- Rows that are rewritten one by one. -/
theorem AllFit.map {change : ρ → ρ} (fits : AllFit limited rows)
    (kept : ∀ row ∈ rows, ∀ value ∈ limited (change row),
      value ∈ limited row ∨ value.Fits) :
    AllFit limited (rows.map change) := by
  intro row member value inRow
  obtain ⟨old, oldMember, rfl⟩ := List.mem_map.mp member
  rcases kept old oldMember value inRow with same | fitting
  · exact fits old oldMember value same
  · exact fitting

end Rows

theorem RequestTask.mem_limited {task : RequestTask} {value : LimitedValue} :
    value ∈ task.limited ↔ value ∈ task.keyColumns ∨
      ∃ owner, task.leaseOwner = some owner ∧
        value = ⟨"lease_owner", leaseOwnerWidth, owner⟩ := by
  simp [limited, eq_comm]

/-- An update of a task can only set its lease owner. -/
theorem RequestTask.limited_of_update {row changed : RequestTask}
    (same : changed.keyColumns = row.keyColumns)
    (owned : changed.leaseOwner = row.leaseOwner ∨
      ∀ owner, changed.leaseOwner = some owner →
        owner.length ≤ leaseOwnerWidth) :
    ∀ value ∈ changed.limited, value ∈ row.limited ∨ value.Fits := by
  intro value member
  rcases RequestTask.mem_limited.mp member with fixed | ⟨owner, isOwner, rfl⟩
  · rw [same] at fixed
    exact .inl (RequestTask.mem_limited.mpr (.inl fixed))
  · rcases owned with kept | fitting
    · rw [kept] at isOwner
      exact .inl (RequestTask.mem_limited.mpr (.inr ⟨owner, isOwner, rfl⟩))
    · exact .inr (fitting owner isOwner)

/-- The copies that a session holds fit as well. -/
structure Session.ColumnsFit (session : Session) : Prop where
  task : ∀ {id copy}, session.task id = some copy →
    ∀ value ∈ copy.limited, value.Fits
  request : ∀ {id copy}, session.request id = some copy →
    ∀ value ∈ copy.limited, value.Fits

structure State.ColumnsFit (state : State) : Prop where
  database : state.database.Fits
  sessions : ∀ call ∈ state.calls, call.session.ColumnsFit

namespace Session.ColumnsFit

variable {session : Session} {database : Database}

theorem empty : Session.empty.ColumnsFit := by
  constructor
  · intro id copy held
    cases held
  · intro id copy held
    cases held

theorem loadTasks (fits : session.ColumnsFit) {rows : List RequestTask}
    (rowsFit : AllFit RequestTask.limited rows) :
    (session.loadTasks rows).ColumnsFit := by
  refine ⟨?_, fits.request⟩
  intro id copy held
  rcases Option.or_eq_some_iff.mp held with kept | ⟨_, loaded⟩
  · exact fits.task kept
  · exact rowsFit copy (Table.get_mem loaded).1

theorem loadRequests (fits : session.ColumnsFit) {rows : List PrivacyRequest}
    (rowsFit : AllFit PrivacyRequest.limited rows) :
    (session.loadRequests rows).ColumnsFit := by
  refine ⟨fits.task, ?_⟩
  intro id copy held
  rcases Option.or_eq_some_iff.mp held with kept | ⟨_, loaded⟩
  · exact fits.request kept
  · exact rowsFit copy (Table.get_mem loaded).1

theorem loadRefresh (fits : session.ColumnsFit) (stored : database.Fits)
    (requestId : String) :
    (session.loadRefresh database requestId).ColumnsFit := by
  have requests : AllFit PrivacyRequest.limited
      (database.requests.filter fun request =>
        decide (request.id = requestId)) := by
    intro row member
    exact stored.requests row (List.mem_of_mem_filter member)
  have tasks : AllFit RequestTask.limited (database.tasksOf requestId) := by
    intro row member
    exact stored.tasks row (List.mem_of_mem_filter member)
  have loaded := (fits.loadRequests requests).loadTasks tasks
  exact ⟨loaded.task, loaded.request⟩

theorem putTask (fits : session.ColumnsFit) {task : RequestTask}
    (taskFits : ∀ value ∈ task.limited, value.Fits) :
    (session.putTask task).ColumnsFit := by
  refine ⟨?_, fits.request⟩
  intro id copy held
  simp only [Session.putTask] at held
  split at held
  next =>
    cases held
    exact taskFits
  next => exact fits.task held

theorem putRequest (fits : session.ColumnsFit) {request : PrivacyRequest}
    (requestFits : ∀ value ∈ request.limited, value.Fits) :
    (session.putRequest request).ColumnsFit := by
  refine ⟨fits.task, ?_⟩
  intro id copy held
  simp only [Session.putRequest] at held
  split at held
  next =>
    cases held
    exact requestFits
  next => exact fits.request held

end Session.ColumnsFit

@[simp] theorem PrivacyRequest.limited_verify (request : PrivacyRequest) :
    request.verify.limited = request.limited := by
  unfold PrivacyRequest.verify
  cases request.kind <;> rfl

/-- Settling a task releases its lease. -/
theorem RequestTask.settle_fits {task : RequestTask}
    (fits : ∀ value ∈ task.limited, value.Fits) (settings : Settings)
    (executor : Bool) (ending : Ending) :
    ∀ value ∈ (task.settle settings executor ending).limited, value.Fits := by
  have same : (task.settle settings executor ending).keyColumns =
      task.keyColumns := by
    cases ending <;> rfl
  intro value member
  have released : ∀ owner,
      (task.settle settings executor ending).leaseOwner = some owner →
      owner.length ≤ leaseOwnerWidth := by
    intro owner held
    rw [RequestTask.settle_leaseOwner] at held
    cases held
  rcases RequestTask.limited_of_update same (.inr released) value member with
    old | fitting
  · exact fits value old
  · exact fitting

theorem EventType.length_value (eventType : EventType) :
    eventType.value.length ≤ 64 := by
  cases eventType with
  | requestCreated | taskReady => decide
  | requestFinished status => cases status <;> decide

theorem AuditAction.length_value (action : AuditAction) :
    action.value.length ≤ 64 := by
  cases action with
  | requestCreated | taskRetryScheduled => decide
  | requestFinished status => cases status <;> decide
  | taskSettled status => cases status <;> decide

theorem length_of_allowed {source : String}
    (allowed : source ∈ allowedSources) : source.length ≤ 64 := by
  revert source
  decide

/-! ## Statements -/

section Statements

variable {deployment : Deployment} {database : Database}

theorem length_genesisHash : genesisHash.length = 64 := by
  have repeated : ∀ count : Nat,
      (String.ofList (List.replicate count '0')).length = count := by
    intro count
    rw [String.length_ofList, List.length_replicate]
  exact repeated 64

/-- A row of the audit chain: digests, and the names it is given. -/
theorem appendAudit_fits
    (digest : ∀ text, (deployment.runtime.sha256 text).length = 64)
    {rows : List AuditEvent} (fits : AllFit AuditEvent.limited rows)
    {tenantId requestId : String} (tenant : tenantId.length ≤ 64)
    (request : requestId.length ≤ 36) (action : AuditAction)
    (payload : Json) :
    AllFit AuditEvent.limited (appendAudit deployment.runtime tenantId
      requestId action.value payload rows) := by
  apply fits.append
  intro row member value inRow
  rw [List.mem_singleton.mp member] at inRow
  have previous : ∀ last, auditHead tenantId rows = some last →
      last.eventHash.length ≤ 64 := by
    intro last isHead
    have inSorted := List.mem_of_mem_head? isHead
    have inFilter := (Table.mem_insertionSort_iff _).mp inSorted
    exact fits last (List.mem_of_mem_filter inFilter)
      ⟨"event_hash", 64, last.eventHash⟩ (by simp [AuditEvent.limited])
  simp only [AuditEvent.limited, List.mem_cons, List.not_mem_nil,
    or_false] at inRow
  rcases inRow with rfl | rfl | rfl | rfl | rfl | rfl
  · exact tenant
  · exact request
  · exact action.length_value
  · exact (digest _).le
  · cases head : auditHead tenantId rows with
    | none => exact length_genesisHash.le
    | some last => exact previous last head
  · exact (digest _).le

theorem insertRows_fits
    (digest : ∀ text, (deployment.runtime.sha256 text).length = 64)
    (fits : database.Fits) {intake : Intake}
    (tenant : lengthWithin 2 64 intake.tenantId = true)
    (key : lengthWithin 1 128 intake.idempotencyKey = true)
    (uuids : intake.fresh.Uuids) :
    (intake.insertRows deployment.runtime database).Fits := by
  have tenantFits : intake.tenantId.length ≤ 64 := (of_decide_eq_true tenant).2
  have keyFits : intake.idempotencyKey.length ≤ 128 :=
    (of_decide_eq_true key).2
  have idFits : ∀ index, (intake.fresh.ids index).length ≤ 36 :=
    fun index => (uuids index).le
  have policyFits : "2026-08".length ≤ 32 := by decide
  refine ⟨?_, ?_, ?_, ?_, fits.records⟩
  · apply fits.requests.append
    intro row member value inRow
    rw [List.mem_singleton.mp member] at inRow
    simp only [PrivacyRequest.limited, List.mem_cons, List.not_mem_nil,
      or_false] at inRow
    rcases inRow with rfl | rfl | rfl | rfl | rfl
    · exact idFits 0
    · exact tenantFits
    · exact keyFits
    · exact (digest _).le
    · exact policyFits
  · apply fits.tasks.append
    intro row member value inRow
    obtain ⟨⟨source, position⟩, inZip, rfl⟩ := List.mem_map.mp member
    have inSources : source ∈ intake.command.sources :=
      List.fst_mem_of_mem_zipIdx inZip
    simp only [RequestTask.limited, RequestTask.keyColumns, Intake.task,
      Option.toList_none, List.map_nil, List.append_nil, List.mem_cons,
      List.not_mem_nil, or_false] at inRow
    rcases inRow with rfl | rfl | rfl | rfl
    · exact idFits _
    · exact idFits 0
    · exact tenantFits
    · exact length_of_allowed (intake.command.sourcesAllowed source inSources)
  · apply fits.outbox.append
    intro row member value inRow
    rcases Intake.mem_events member with rfl | ⟨source, position, _, rfl⟩
    · simp only [OutboxEvent.limited, Intake.createdEvent, List.mem_cons,
        List.not_mem_nil, or_false] at inRow
      rcases inRow with rfl | rfl | rfl | rfl
      · exact idFits _
      · exact tenantFits
      · exact idFits 0
      · exact EventType.length_value .requestCreated
    · simp only [OutboxEvent.limited, Intake.readyEvent, List.mem_cons,
        List.not_mem_nil, or_false] at inRow
      rcases inRow with rfl | rfl | rfl | rfl
      · exact idFits _
      · exact tenantFits
      · exact idFits _
      · exact EventType.length_value .taskReady
  · exact appendAudit_fits digest fits.audit tenantFits (idFits 0)
      .requestCreated _

theorem seedRows_fit
    (digest : ∀ text, (deployment.runtime.sha256 text).length = 64)
    {tenantId : String} (tenant : lengthWithin 2 64 tenantId = true)
    {fresh : Fresh} (uuids : fresh.Uuids) (subjectKey : String)
    (recordsPerSource : Nat) :
    AllFit DeviceCloudRecord.limited (seedRows deployment.runtime tenantId
      subjectKey recordsPerSource fresh) := by
  intro row member value inRow
  obtain ⟨⟨⟨source, sequence⟩, position⟩, inZip, rfl⟩ := List.mem_map.mp member
  have inPairs := List.fst_mem_of_mem_zipIdx inZip
  obtain ⟨other, allowed, inRange⟩ := List.mem_flatMap.mp inPairs
  obtain ⟨_, _, same⟩ := List.mem_map.mp inRange
  cases same
  simp only [DeviceCloudRecord.limited, List.mem_cons, List.not_mem_nil,
    or_false] at inRow
  rcases inRow with rfl | rfl | rfl | rfl
  · exact (uuids position).le
  · exact (of_decide_eq_true tenant).2
  · exact (digest _).le
  · exact length_of_allowed allowed

/-- Starting a request, verifying it and refreshing it write no limited
column. -/
theorem requests_fit {requests : List PrivacyRequest}
    (fits : AllFit PrivacyRequest.limited requests)
    {change : PrivacyRequest → PrivacyRequest}
    (kept : ∀ row, (change row).limited = row.limited) :
    AllFit PrivacyRequest.limited (requests.map change) := by
  apply fits.map
  intro row _ value inRow
  rw [kept row] at inRow
  exact .inl inRow

theorem startRow_limited (requestIds : List String) (now : Time)
    (row : PrivacyRequest) :
    (Database.startRow requestIds now row).limited = row.limited := by
  unfold Database.startRow
  split
  next => rfl
  next => rfl

theorem verifyRow_limited (request : PrivacyRequest) (now : Time)
    (row : PrivacyRequest) :
    (Database.verifyRow request now row).limited = row.limited := by
  unfold Database.verifyRow
  split
  next => rfl
  next => rfl

theorem refreshRow_limited (request : PrivacyRequest) (status : RequestStatus)
    (reference : Option String) (now : Time) (row : PrivacyRequest) :
    (Database.refreshRow request status reference now row).limited =
      row.limited := by
  unfold Database.refreshRow
  split
  next => rfl
  next => rfl

theorem markClaimed_fits (fits : database.Fits) {taskIds : List String}
    {workerId : String}
    (owner : taskIds = [] ∨ workerId.length ≤ leaseOwnerWidth)
    (leaseUntil now : Time) :
    (database.markClaimed taskIds workerId leaseUntil now).Fits := by
  have revises := Database.markClaimed_revises database taskIds workerId
    leaseUntil now
  refine ⟨?_, ?_, fits.outbox, fits.audit, fits.records⟩
  · rw [revises.requests]
    exact requests_fit fits.requests (startRow_limited _ now)
  · rw [revises.tasks]
    apply fits.tasks.map
    intro row _
    unfold Database.claimRow
    split
    next claimed =>
      have inIds := of_decide_eq_true claimed
      have same : (row.claim workerId leaseUntil).keyColumns =
          row.keyColumns := rfl
      apply RequestTask.limited_of_update same
      right
      intro written isWritten
      cases isWritten
      rcases owner with none | fitting
      · rw [none] at inIds
        cases inIds
      · exact fitting
    next => exact fun value member => .inl member

theorem recordOutcome_fits
    (digest : ∀ text, (deployment.runtime.sha256 text).length = 64)
    (fits : database.Fits) {task : RequestTask}
    (copy : ∀ value ∈ task.limited, value.Fits) (executor : Bool) (work : Work)
    (request : PrivacyRequest) (now : Time) :
    (recordOutcome deployment.runtime deployment.settings executor work task
      request now database).Fits := by
  have revises := Database.recordOutcome_revises deployment.runtime
    deployment.settings executor work task request now database
  have tenant : task.tenantId.length ≤ 64 :=
    copy ⟨"tenant_id", 64, task.tenantId⟩
      (by simp [RequestTask.limited, RequestTask.keyColumns])
  have owner : task.requestId.length ≤ 36 :=
    copy ⟨"request_id", 36, task.requestId⟩
      (by simp [RequestTask.limited, RequestTask.keyColumns])
  refine ⟨?_, ?_, fits.outbox, ?_, ?_⟩
  · rw [revises.requests]
    exact requests_fit fits.requests (verifyRow_limited request now)
  · rw [revises.tasks]
    apply fits.tasks.map
    intro row _
    unfold Database.recordRow
    split
    next =>
      have same : (task.flush (task.settle deployment.settings executor
          work.ending) row).keyColumns = row.keyColumns := rfl
      apply RequestTask.limited_of_update same
      simp only [RequestTask.flush, RequestTask.settle_leaseOwner, flushColumn]
      split
      next => exact .inl rfl
      next =>
        right
        intro written isWritten
        cases isWritten
    next => exact fun value member => .inl member
  · exact appendAudit_fits digest fits.audit tenant owner _ _
  · apply fits.records.map
    intro row _ value inRow
    left
    split at inRow
    next => exact inRow
    next => exact inRow

theorem commitRefresh_fits
    (digest : ∀ text, (deployment.runtime.sha256 text).length = 64)
    (fits : database.Fits) {request : PrivacyRequest}
    (copy : ∀ value ∈ request.limited, value.Fits) {noticeId : String}
    (uuid : noticeId.length = 36) (session : Session)
    (reference : Option String) (now : Time) :
    (commitRefresh deployment.runtime session request reference noticeId now
      database).Fits := by
  have revises := Database.commitRefresh_revises deployment.runtime session
    request reference noticeId now database
  have named : request.id.length ≤ 36 :=
    copy ⟨"id", 36, request.id⟩ (by simp [PrivacyRequest.limited])
  have tenant : request.tenantId.length ≤ 64 :=
    copy ⟨"tenant_id", 64, request.tenantId⟩ (by simp [PrivacyRequest.limited])
  have requests : AllFit PrivacyRequest.limited
      (commitRefresh deployment.runtime session request reference noticeId now
        database).requests := by
    rw [revises.requests]
    exact requests_fit fits.requests
      (refreshRow_limited request _ reference now)
  have tasks : AllFit RequestTask.limited
      (commitRefresh deployment.runtime session request reference noticeId now
        database).tasks := by
    rw [Database.commitRefresh_tasks]
    exact fits.tasks
  refine ⟨requests, tasks, ?_, ?_, ?_⟩
  · unfold commitRefresh
    dsimp only
    split
    next =>
      apply fits.outbox.append
      intro row member value inRow
      rw [List.mem_singleton.mp member] at inRow
      simp only [OutboxEvent.limited, List.mem_cons, List.not_mem_nil,
        or_false] at inRow
      rcases inRow with rfl | rfl | rfl | rfl
      · exact uuid.le
      · exact tenant
      · exact named
      · exact EventType.length_value _
    next => exact fits.outbox
  · unfold commitRefresh
    dsimp only
    split
    next => exact appendAudit_fits digest fits.audit tenant named _ _
    next => exact fits.audit
  · unfold commitRefresh
    dsimp only
    split
    next => exact fits.records
    next => exact fits.records

theorem extendTaskLease_fits (fits : database.Fits)
    (workerId taskId : String) (now : Time) :
    (extendTaskLease deployment.settings workerId taskId now
      database).Fits := by
  have revises := Database.extendTaskLease_revises deployment.settings workerId
    taskId now database
  refine ⟨fits.requests, ?_, fits.outbox, fits.audit, fits.records⟩
  rw [revises.tasks]
  apply fits.tasks.map
  intro row _
  unfold Database.extendRow
  split
  next => exact fun value member => .inl member
  next => exact fun value member => .inl member

theorem markPublished_fits {outbox : List OutboxEvent}
    (fits : AllFit OutboxEvent.limited outbox) (sent : List (String × Time)) :
    AllFit OutboxEvent.limited (markPublished sent outbox) := by
  apply fits.map
  intro row _ value inRow
  left
  split at inRow
  next => exact inRow
  next => exact inRow

end Statements

/-! ## Steps -/

theorem ClaimArguments.claims_nothing_iff (arguments : ClaimArguments)
    (settings : Settings) (dialect : Dialect) (database : Database) :
    (claimTasks settings dialect arguments database).2.2 = [] ↔
      arguments.selected settings dialect database = [] := by
  cases dialect with
  | postgresql => exact List.map_eq_nil_iff
  | sqlite =>
      constructor
      · intro nothing
        apply List.eq_nil_iff_forall_not_mem.mpr
        intro row candidate
        obtain ⟨present, passes⟩ := ClaimArguments.mem_candidates candidate
        have claimed := List.map_eq_nil_iff.mp nothing
        have inIds : row.id ∈ (arguments.candidates settings []
            database.tasks).map RequestTask.id :=
          List.mem_map.mpr ⟨row, candidate, rfl⟩
        apply List.filter_eq_nil_iff.mp claimed row present
        rw [Bool.and_eq_true]
        exact ⟨decide_eq_true inIds, passes⟩
      · intro nothing
        apply List.map_eq_nil_iff.mpr
        apply List.filter_eq_nil_iff.mpr
        intro row _ claimed
        have inIds := of_decide_eq_true (Bool.and_eq_true _ _ ▸ claimed).1
        obtain ⟨candidate, selected, _⟩ := List.mem_map.mp inIds
        have isSelected : candidate ∈
            arguments.selected settings .sqlite database := selected
        rw [nothing] at isSelected
        cases isSelected

namespace State.ColumnsFit

variable {deployment : Deployment} {state next : State}

/-- A step that replaces or adds one call keeps the other sessions. -/
private theorem replace (fits : state.ColumnsFit) (call : Call)
    (database : next.database.Fits)
    (calls : ∀ other ∈ next.calls, other = call ∨ other ∈ state.calls)
    (session : call.session.ColumnsFit) : next.ColumnsFit := by
  refine ⟨database, ?_⟩
  intro other member
  rcases calls other member with replaced | kept
  · rw [replaced]
    exact session
  · exact fits.sessions other kept

theorem effect
    (digest : ∀ text, (deployment.runtime.sha256 text).length = 64)
    (fits : state.ColumnsFit) {action : Action}
    (admitted : Admitted (.control action))
    (owners : OwnersFit deployment state (.control action))
    (effect : Effect deployment state action next) : next.ColumnsFit := by
  cases effect with
  | created intake nodup fresh absent =>
      obtain ⟨tenant, key, uuids⟩ := admitted
      exact ⟨insertRows_fits digest fits.database tenant key uuids,
        fits.sessions⟩
  | relayed action relays extra outbox move =>
      refine ⟨⟨fits.database.requests, fits.database.tasks, ?_,
        fits.database.audit, fits.database.records⟩, fits.sessions⟩
      cases move with
      | selected | published | crashed => exact fits.database.outbox
      | committed index relay => exact markPublished_fits fits.database.outbox _
  | opened => exact absurd admitted not_false
  | moved action index call after artifacts found move =>
      refine fits.replace after fits.database (fun other => State.mem_put) ?_
      rcases move.frame with closed | ⟨same, _⟩
      · rw [closed]
        exact Session.ColumnsFit.empty
      · rw [same]
        exact fits.sessions call (List.mem_of_getElem? found)
  | messageClaimed => exact absurd admitted not_false
  | batchClaimed arguments session taskIds claimed claims copies requests =>
      have owner : taskIds = [] ∨
          arguments.workerId.length ≤ leaseOwnerWidth := by
        rcases owners with nothing | fitting
        · left
          rw [← claimed]
          exact (arguments.claims_nothing_iff _ _ _).mpr nothing
        · exact .inr fitting
      have database := markClaimed_fits fits.database owner
        (arguments.leaseUntil deployment.settings) arguments.now
      refine fits.replace _ database (fun other => State.mem_append_call) ?_
      constructor
      · intro id copy held
        obtain ⟨row, present, rfl, inIds, rfl⟩ := copies id copy held
        apply database.tasks
        apply List.mem_map.mpr
        exact ⟨row, present, if_pos (decide_eq_true inIds)⟩
      · intro id copy held
        rw [requests] at held
        cases held
  | selected index call taskId todo row found ready next present =>
      refine fits.replace _ fits.database (fun other => State.mem_put) ?_
      have session := fits.sessions call (List.mem_of_getElem? found)
      have rowFits : AllFit RequestTask.limited [row] := by
        intro other member
        rw [List.mem_singleton.mp member]
        exact fits.database.tasks row present
      apply (session.loadTasks rowFits).loadRequests
      intro request member
      exact fits.database.requests request (List.mem_of_mem_filter member)
  | recorded index call taskId work task request now found phase held
      requestHeld =>
      have session := fits.sessions call (List.mem_of_getElem? found)
      have database := recordOutcome_fits digest fits.database
        (session.task held) call.executor work request now
      refine fits.replace _ database (fun other => State.mem_put) ?_
      unfold Call.afterRecord
      split
      next => exact Session.ColumnsFit.empty
      next =>
        apply (session.putTask (RequestTask.settle_fits (session.task held) _ _
          _)).putRequest
        rw [PrivacyRequest.limited_verify]
        exact session.request requestHeld
  | locked index call requestId own session found target =>
      refine fits.replace _ fits.database (fun other => State.mem_put) ?_
      cases target with
      | recorded =>
          exact (fits.sessions call (List.mem_of_getElem? found)).loadRefresh
            fits.database _
      | duplicate =>
          exact Session.ColumnsFit.empty.loadRefresh fits.database _
  | refreshed index call requestId own reference request noticeId now found
      phase held =>
      have session := fits.sessions call (List.mem_of_getElem? found)
      have copy := session.request held
      have database := commitRefresh_fits digest fits.database copy
        admitted call.session reference now
      exact fits.replace _ database (fun other => State.mem_put)
        (session.putRequest copy)
  | acked index call slot message found =>
      exact fits.replace _ fits.database (fun other => State.mem_put)
        Session.ColumnsFit.empty
  | extended workerId taskId now =>
      exact ⟨extendTaskLease_fits fits.database workerId taskId now,
        fits.sessions⟩

theorem step (digest : ∀ text, (deployment.runtime.sha256 text).length = 64)
    (fits : state.ColumnsFit) (tidy : state.Tidy) {action : ApiAction}
    (admitted : Admitted action)
    (owners : OwnersFit deployment state action)
    (stepped : apiStep deployment state action = some next) :
    next.ColumnsFit ∧ next.Tidy := by
  cases action with
  | seed tenantId subjectKey recordsPerSource fresh =>
      cases stepped
      obtain ⟨tenant, uuids⟩ := admitted
      have rows := seedRows_fit digest tenant uuids subjectKey recordsPerSource
      constructor
      · exact ⟨⟨fits.database.requests, fits.database.tasks,
          fits.database.outbox, fits.database.audit,
          fits.database.records.append rows⟩, fits.sessions⟩
      · obtain ⟨⟨taskIds, requestIds, owned, named⟩, keyed⟩ := tidy
        exact ⟨⟨taskIds, requestIds, owned, named⟩, keyed⟩
  | control action =>
      have effect := effect_of_step tidy.tables.taskIds stepped
      exact ⟨fits.effect digest admitted owners effect, tidy.effect effect⟩

theorem initial : State.initial.ColumnsFit := by
  refine ⟨⟨?_, ?_, ?_, ?_, ?_⟩, ?_⟩ <;>
    · intro row member
      cases member

end State.ColumnsFit

/-- A claim that selects a task writes its owner. -/
theorem ownersFit_of_fits {deployment : Deployment} {state next : State}
    {action : ApiAction} (tidy : state.Tidy)
    (stepped : apiStep deployment state action = some next)
    (fits : next.database.Fits) : OwnersFit deployment state action := by
  cases action with
  | seed => trivial
  | control action =>
      cases action with
      | processOnce arguments =>
          have effect : Effect deployment state (.processOnce arguments) next :=
            effect_of_step tidy.tables.taskIds stepped
          cases effect with
          | relayed _ _ _ _ move => cases move
          | moved _ _ _ _ _ _ move => cases move
          | batchClaimed _ session taskIds claimed claims =>
              cases ids : taskIds with
              | nil =>
                  left
                  rw [ids] at claimed
                  exact (arguments.claims_nothing_iff _ _ _).mp claimed
              | cons taskId rest =>
                  right
                  have inIds : taskId ∈ taskIds := by
                    rw [ids]
                    exact List.mem_cons_self
                  obtain ⟨row, present, rfl, _⟩ := claims.claimable taskId inIds
                  have written : row.claim arguments.workerId
                      (arguments.leaseUntil deployment.settings) ∈
                      (state.database.markClaimed taskIds arguments.workerId
                        (arguments.leaseUntil deployment.settings)
                        arguments.now).tasks :=
                    List.mem_map.mpr
                      ⟨row, present, if_pos (decide_eq_true inIds)⟩
                  exact fits.tasks _ written
                    ⟨"lease_owner", leaseOwnerWidth, arguments.workerId⟩
                    (RequestTask.mem_limited.mpr (.inr ⟨_, rfl, rfl⟩))
      | _ => trivial

/-- A pass raises when PostgreSQL rejects its lease owner, and only then. -/
theorem processOnce_raises_iff (deployment : Deployment)
    (arguments : ClaimArguments) (fresh : Fresh) (storage : Storage) :
    (processOnce deployment arguments fresh storage).2 = none ↔
      deployment.dialect = .postgresql ∧
        ¬ arguments.OwnerFits deployment.settings deployment.dialect
          storage.database := by
  have nothing := arguments.claims_nothing_iff deployment.settings
    deployment.dialect storage.database
  have rejected : arguments.rejected deployment.dialect
        (claimTasks deployment.settings deployment.dialect arguments
          storage.database).2.2 = true ↔
      deployment.dialect = .postgresql ∧
        ¬ arguments.OwnerFits deployment.settings deployment.dialect
          storage.database := by
    rw [ClaimArguments.rejected, decide_eq_true_iff, ne_eq, nothing,
      ClaimArguments.OwnerFits, not_or, not_le]
  rw [← rejected]
  unfold processOnce
  dsimp only
  split
  next raises => exact ⟨fun _ => raises, fun _ => rfl⟩
  next passes =>
    constructor
    · intro isNone
      cases isNone
    · intro raises
      exact absurd raises passes

/-- `run_worker_once` answers with 500 when the pass raises. -/
theorem runWorkerOnce_fails_iff (deployment : Deployment)
    (tenantId workerId : String) (batchSize : Option Nat) (fresh : Fresh)
    (storage : Storage) :
    (runWorkerOnce deployment tenantId workerId batchSize fresh storage).2 =
        .internalServerError ↔
      deployment.dialect = .postgresql ∧
        ¬ (workerArguments tenantId workerId batchSize fresh).OwnerFits
          deployment.settings deployment.dialect storage.database := by
  rw [← processOnce_raises_iff deployment _ fresh storage]
  unfold runWorkerOnce
  dsimp only
  split
  next raised => exact ⟨fun _ => raised, fun _ => rfl⟩
  next claimed succeeded answered =>
    constructor
    · intro failed
      cases congrArg Response.statusCode failed
    · intro raised
      rw [answered] at raised
      cases raised

/-- As long as the owners of claims fit, every value that is written fits its
column, and a step writes one that does not exactly when its owner does
not.  That is when PostgreSQL makes `run_worker_once` fail. -/
theorem admitted_values_fit_iff_owners_fit (deployment : Deployment)
    (digest : ∀ text, (deployment.runtime.sha256 text).length = 64)
    {actions : List ApiAction} {state : State}
    (execution : Runs (apiStep deployment)
      (fun state action => Admitted action ∧ OwnersFit deployment state action)
      State.initial actions state) :
    state.database.Fits ∧
      (∀ action next, Admitted action →
        apiStep deployment state action = some next →
        (next.database.Fits ↔ OwnersFit deployment state action)) ∧
      ∀ tenantId workerId batchSize fresh storage,
        (runWorkerOnce deployment tenantId workerId batchSize fresh
            storage).2 = .internalServerError ↔
          deployment.dialect = .postgresql ∧
            ¬ (workerArguments tenantId workerId batchSize fresh).OwnerFits
              deployment.settings deployment.dialect storage.database := by
  have kept : ∀ {state : State} {action : ApiAction} {next : State},
      state.ColumnsFit ∧ state.Tidy →
      Admitted action ∧ OwnersFit deployment state action →
      apiStep deployment state action = some next →
      next.ColumnsFit ∧ next.Tidy := by
    intro state action next ⟨fits, tidy⟩ ⟨admitted, owners⟩ stepped
    exact fits.step digest tidy admitted owners stepped
  obtain ⟨fits, tidy⟩ :=
    execution.invariant kept ⟨State.ColumnsFit.initial, State.tidy_initial⟩
  refine ⟨fits.database, ?_, ?_⟩
  · intro action next admitted stepped
    constructor
    · exact ownersFit_of_fits tidy stepped
    · intro owners
      exact (fits.step digest tidy admitted owners stepped).1.database
  · intro tenantId workerId batchSize fresh storage
    exact runWorkerOnce_fails_iff deployment tenantId workerId batchSize fresh
      storage

/-! ## A request and a worker pass -/

private def demoUuids : Fresh :=
  { ids := fun index => "00000000-0000-4000-8000-00000000000" ++
      String.ofList [Char.ofNat (48 + index)]
    clock := fun index => index }

private def demoCreate (tenantId : String) : Intake :=
  { tenantId
    idempotencyKey := "k"
    command := demoRequest.command
    fresh := demoUuids }

/-- The digests of the subject, the payload and the envelope of
`demoCreate "acme"`. -/
private def demoDigest (text : String) : String :=
  if text = "abc" then
    "ba7816bf8f01cfea414140de5dae2223b00361a396177a9cb410ff61f20015ad"
  else if text = canonicalJson (demoCreate "acme").sourcesPayload then
    "91e81c9c1201b53317128f8a4979135c007cc6b2cf452a61edaba518982848d8"
  else "cab3f860ec002013b437596b7b19577b363aeacacb011b42f7e90e44cfae166a"

private def digestDeployment : Deployment :=
  { demoDeployment with runtime := { demoRuntime with sha256 := demoDigest } }

private def workerPass (tenantId workerId : String) : List ApiAction :=
  [.control (.create (demoCreate tenantId)),
    .control (.processOnce (workerArguments tenantId workerId none demoUuids))]

private theorem length_demoDigest (text : String) :
    (digestDeployment.runtime.sha256 text).length = 64 := by
  change (demoDigest text).length = 64
  unfold demoDigest
  split
  next => decide
  next =>
    split
    next => decide
    next => decide

private theorem uuids_demoUuids : demoUuids.Uuids := by
  intro index
  change ("00000000-0000-4000-8000-00000000000" ++
    String.ofList [Char.ofNat (48 + index)]).length = 36
  have last : (String.ofList [Char.ofNat (48 + index)]).length = 1 :=
    String.length_ofList
  rw [String.length_append, last]
  rfl

theorem admitted_values_fit_of_short_owner :
    ∃ state, Runs (apiStep digestDeployment)
        (fun state action =>
          Admitted action ∧ OwnersFit digestDeployment state action)
        State.initial (workerPass "acme" "api-worker") state ∧
      state.database.Fits := by
  have first : Admitted (.control (.create (demoCreate "acme"))) :=
    ⟨by decide, by decide, uuids_demoUuids⟩
  have second : (workerArguments "acme" "api-worker" none demoUuids).FromApi :=
    ⟨"acme", "api-worker", none, demoUuids, by decide, by decide, rfl, rfl⟩
  have execution : Runs (apiStep digestDeployment)
      (fun state action =>
        Admitted action ∧ OwnersFit digestDeployment state action)
      State.initial (workerPass "acme" "api-worker") _ :=
    .cons ⟨first, trivial⟩ rfl (.cons ⟨second, .inr (by decide)⟩ rfl (.nil _))
  exact ⟨_, execution, (admitted_values_fit_iff_owners_fit digestDeployment
    length_demoDigest execution).1⟩

private def longTenant : String := String.ofList (List.replicate 40 't')

private def longWorker : String := String.ofList (List.replicate 40 'w')

/-- A tenant and a worker id of 40 characters each are admitted, and their
lease owner has 81. -/
theorem admitted_values_do_not_fit :
    ¬ ∀ (deployment : Deployment),
      (∀ text, (deployment.runtime.sha256 text).length = 64) →
      ∀ (actions : List ApiAction) (state : State),
        Runs (apiStep deployment) (fun _ action => Admitted action)
          State.initial actions state →
        state.database.Fits := by
  intro fits
  have first : Admitted (.control (.create (demoCreate longTenant))) :=
    ⟨by decide, by decide, uuids_demoUuids⟩
  have second : (workerArguments longTenant longWorker none
      demoUuids).FromApi :=
    ⟨longTenant, longWorker, none, demoUuids, by decide, by decide, rfl, rfl⟩
  have execution : Runs (apiStep digestDeployment)
      (fun _ action => Admitted action)
      State.initial (workerPass longTenant longWorker) _ :=
    .cons first rfl (.cons second rfl (.nil _))
  have tasks := (fits digestDeployment length_demoDigest _ _ execution).tasks
  have owner := tasks _ List.mem_cons_self ⟨"lease_owner", 64,
    longTenant ++ ":" ++ longWorker⟩ (by decide)
  exact absurd owner (by decide)

end FleetPrivacy
