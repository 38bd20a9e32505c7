import FleetPrivacy.Events

/-!
# Leased execution of tasks

`worker.py`, cut at its database round trips.  A session keeps every row it has
loaded: later selects return the copy it holds, and a flush writes the columns
of a copy that changed since they were loaded.
-/

namespace FleetPrivacy

/-- One column of `UPDATE … WHERE id = pk`: written when it changed. -/
def flushColumn {α : Type} [DecidableEq α] (loaded current committed : α) : α :=
  if current = loaded then committed else current

def RequestTask.flush (loaded current committed : RequestTask) : RequestTask :=
  { committed with
    status := flushColumn loaded.status current.status committed.status
    attempt := flushColumn loaded.attempt current.attempt committed.attempt
    leaseOwner := flushColumn loaded.leaseOwner current.leaseOwner
      committed.leaseOwner
    leaseExpiresAt := flushColumn loaded.leaseExpiresAt current.leaseExpiresAt
      committed.leaseExpiresAt
    resultSummary := flushColumn loaded.resultSummary current.resultSummary
      committed.resultSummary
    error := flushColumn loaded.error current.error committed.error }

/-- The columns of a request that the services assign; `updated_at` follows
with `onupdate`. -/
def PrivacyRequest.flush (loaded current committed : PrivacyRequest)
    (now : Time) : PrivacyRequest :=
  { committed with
    status := flushColumn loaded.status current.status committed.status
    version := flushColumn loaded.version current.version committed.version
    artifactPath := flushColumn loaded.artifactPath current.artifactPath
      committed.artifactPath
    updatedAt :=
      if current.status = loaded.status ∧ current.version = loaded.version ∧
        current.artifactPath = loaded.artifactPath
      then committed.updatedAt else now }

/-- The identity map of one session: task and request rows by primary key, and
the loaded collections `request.tasks` as task ids. -/
structure Session where
  task : String → Option RequestTask
  request : String → Option PrivacyRequest
  members : String → Option (List String)

namespace Session

def empty : Session :=
  { task := fun _ => none, request := fun _ => none, members := fun _ => none }

/-- A select of tasks: rows already held are not overwritten. -/
def loadTasks (session : Session) (rows : List RequestTask) : Session :=
  { session with
    task := fun id => (session.task id).or (Table.get RequestTask.id id rows) }

def loadRequests (session : Session) (rows : List PrivacyRequest) : Session :=
  { session with
    request := fun id =>
      (session.request id).or (Table.get PrivacyRequest.id id rows) }

/-- `selectinload(PrivacyRequest.tasks)` for one request. -/
def loadMembers (session : Session) (requestId : String)
    (rows : List RequestTask) : Session :=
  { session.loadTasks rows with
    members := fun id =>
      if id = requestId then
        (session.members id).or (some (rows.map RequestTask.id))
      else session.members id }

def putTask (session : Session) (task : RequestTask) : Session :=
  { session with
    task := fun id => if id = task.id then some task else session.task id }

def putRequest (session : Session) (request : PrivacyRequest) : Session :=
  { session with
    request := fun id =>
      if id = request.id then some request else session.request id }

/-- `request.tasks`, as the session holds them. -/
def tasksOf (session : Session) (requestId : String) : List RequestTask :=
  ((session.members requestId).getD []).filterMap session.task

end Session

/-! ## Claiming -/

/-- `_claimable`: a null `lease_expires_at` is not less than anything. -/
def RequestTask.claimable (now : Time) (task : RequestTask) : Bool :=
  match task.status, task.leaseExpiresAt with
  | .pending, _ => true
  | .running, some expiry => decide (expiry < now)
  | _, _ => false

/-- The columns that all three claim statements set. -/
def RequestTask.claim (workerId : String) (leaseUntil : Time)
    (task : RequestTask) : RequestTask :=
  { task with
    status := .running
    attempt := task.attempt + 1
    leaseOwner := some workerId
    leaseExpiresAt := some leaseUntil }

/-- The update that follows each claim: `QUEUED` requests of the claimed tasks
become `RUNNING`. -/
def startRequests (requestIds : List String) (now : Time)
    (requests : List PrivacyRequest) : List PrivacyRequest :=
  Table.updateWhere
    (fun request =>
      decide (request.id ∈ requestIds) && decide (request.status = .queued))
    (fun request => { request with status := .running, updatedAt := now })
    requests

/-- `select(RequestTask.request_id).where(RequestTask.id.in_(task_ids))`. -/
def Database.requestIdsOf (database : Database) (taskIds : List String) :
    List String :=
  (database.tasks.filter fun task => decide (task.id ∈ taskIds)).map
    RequestTask.requestId

inductive Dialect where
  | postgresql
  | sqlite
  deriving DecidableEq, Repr

/-- The arguments of `claim_tasks`, with its clock reading and the rows that
other transactions have locked at that moment. -/
structure ClaimArguments where
  workerId : String
  tenantId : Option String
  batchSize : Option Nat
  now : Time
  locked : List String

namespace ClaimArguments

/-- `batch_size or settings.worker_batch_size`. -/
def limit (arguments : ClaimArguments) (settings : Settings) : Nat :=
  match arguments.batchSize with
  | some 0 | none => settings.workerBatchSize
  | some size => size

def leaseUntil (arguments : ClaimArguments) (settings : Settings) : Time :=
  arguments.now + settings.leaseSeconds

def filter (arguments : ClaimArguments) (task : RequestTask) : Bool :=
  task.claimable arguments.now &&
    match arguments.tenantId with
    | some tenantId => decide (task.tenantId = tenantId)
    | none => true

def candidates (arguments : ClaimArguments) (settings : Settings)
    (locked : List String) (tasks : List RequestTask) : List RequestTask :=
  ((tasks.filter fun task =>
      arguments.filter task && decide (task.id ∉ locked)).insertionSort
    fun first second => first.createdAt ≤ second.createdAt).take
      (arguments.limit settings)

end ClaimArguments

/-- `claim_tasks`: the committed tables, the session it leaves behind and the
claimed ids. -/
def claimTasks (settings : Settings) (dialect : Dialect)
    (arguments : ClaimArguments) (database : Database) :
    Database × Session × List String :=
  let leaseUntil := arguments.leaseUntil settings
  match dialect with
  | .postgresql =>
      -- `SELECT … FOR UPDATE SKIP LOCKED`, then a flush of every loaded row.
      let rows :=
        arguments.candidates settings arguments.locked database.tasks
      let taskIds := rows.map RequestTask.id
      let tasks := Table.updateWhere
        (fun task => decide (task.id ∈ taskIds))
        (fun task => task.flush task (task.claim arguments.workerId leaseUntil))
        database.tasks
      ({ database with
          tasks
          requests := startRequests (database.requestIdsOf taskIds)
            arguments.now database.requests },
        Session.empty.loadTasks (rows.map
          (RequestTask.claim arguments.workerId leaseUntil)),
        taskIds)
  | .sqlite =>
      let candidateIds :=
        (arguments.candidates settings [] database.tasks).map RequestTask.id
      let claimed := fun task : RequestTask =>
        decide (task.id ∈ candidateIds) && arguments.filter task
      let taskIds := (database.tasks.filter claimed).map RequestTask.id
      ({ database with
          tasks := Table.updateWhere claimed
            (RequestTask.claim arguments.workerId leaseUntil) database.tasks
          requests := startRequests (database.requestIdsOf taskIds)
            arguments.now database.requests },
        Session.empty, taskIds)

/-! ## Source work -/

/-- How the awaited work inside `execute_task` ends. -/
inductive Ending where
  | returned (payload : Json)
  | raised (message : String)
  /-- A `BaseException` that `except Exception` does not catch. -/
  | cancelled
  deriving DecidableEq, Repr

/-- An ending, and the rows that `_execute_delete` marked before it. -/
structure Work where
  ending : Ending
  deleted : List String
  deletedAt : Time
  deriving DecidableEq, Repr

/-- `_active_records`. -/
def activeRecords (database : Database) (task : RequestTask)
    (request : PrivacyRequest) : List DeviceCloudRecord :=
  database.records.filter fun record =>
    decide (record.tenantId = task.tenantId ∧
      record.subjectKeyHash = request.subjectKeyHash ∧
      record.source = task.source ∧ record.deletedAt = none)

/-- The result of `_execute_access`. -/
def accessResult (rows : List DeviceCloudRecord) : Json :=
  .obj [
    ("record_count", .int rows.length),
    ("records", .arr (rows.map fun row =>
      .obj [("id", .str row.id), ("payload", row.payload)])),
    ("verified", .bool true)]

/-- The result of `_execute_delete` when its readback finds nothing. -/
def deleteResult (rows : List DeviceCloudRecord) : Json :=
  .obj [
    ("deleted_count", .int rows.length),
    ("remaining_count", .int 0),
    ("verified", .bool true)]

/-- What the work can be.  A regional executor answers anything and marks no
record; the database backend answers from the subject's active records, unless
it is interrupted before or after it marks them. -/
def Work.admissible (database : Database) (executor : Bool)
    (task : RequestTask) (request : PrivacyRequest) (work : Work) : Bool :=
  if executor then decide (work.deleted = [])
  else
    let rows := activeRecords database task request
    match request.kind, work.ending with
    | .access, .returned payload =>
        decide (work.deleted = []) && decide (payload = accessResult rows)
    | .access, _ => decide (work.deleted = [])
    | .delete, .returned payload =>
        decide (work.deleted = rows.map DeviceCloudRecord.id) &&
          decide (payload = deleteResult rows)
    | .delete, _ =>
        decide (work.deleted = [] ∨
          work.deleted = rows.map DeviceCloudRecord.id)

def markDeleted (ids : List String) (now : Time)
    (records : List DeviceCloudRecord) : List DeviceCloudRecord :=
  Table.updateWhere (fun record => decide (record.id ∈ ids))
    (fun record => { record with deletedAt := some now }) records

/-! ## Recording an outcome -/

/-- The select of `execute_task`: the row must be leased by the worker. -/
def RequestTask.leasedBy (workerId : String) (task : RequestTask) : Bool :=
  decide (task.status = .running ∧ task.leaseOwner = some workerId)

/-- `str(exc)[:2000]`. -/
def clipError (message : String) : String :=
  String.ofList (message.toList.take 2000)

/-- The `try`, `except` and `finally` blocks of `execute_task`, on the copy of
the task that the session holds. -/
def RequestTask.settle (settings : Settings) (executor : Bool)
    (ending : Ending) (task : RequestTask) : RequestTask :=
  let settled := match ending with
    | .returned payload =>
        { task with resultSummary := payload, status := .succeeded, error := none }
    | .raised message =>
        { task with
          status :=
            if executor && decide (task.attempt < settings.maxTaskAttempts) then
              .pending
            else .failed
          error := some (clipError message) }
    | .cancelled => task
  { settled with leaseOwner := none, leaseExpiresAt := none }

/-- Deletions put their request into `VERIFYING` before the work starts. -/
def PrivacyRequest.verify (request : PrivacyRequest) : PrivacyRequest :=
  match request.kind with
  | .access => request
  | .delete => { request with status := .verifying }

def RequestTask.auditAction (task : RequestTask) : AuditAction :=
  if task.status = .pending then .taskRetryScheduled
  else .taskSettled task.status

def RequestTask.auditPayload (task : RequestTask) : Json :=
  .obj [
    ("source", .str task.source),
    ("attempt", .int task.attempt),
    ("error", match task.error with
      | some message => .str message
      | none => .null)]

/-- The commit of `execute_task`'s outcome. -/
def recordOutcome (runtime : Runtime) (settings : Settings) (executor : Bool)
    (work : Work) (task : RequestTask) (request : PrivacyRequest) (now : Time)
    (database : Database) : Database :=
  let settled := task.settle settings executor work.ending
  { database with
    tasks := Table.updateWhere (fun row => decide (row.id = task.id))
      (task.flush settled) database.tasks
    requests := Table.updateWhere (fun row => decide (row.id = request.id))
      (fun row => request.flush request.verify row now) database.requests
    records := markDeleted work.deleted work.deletedAt database.records
    audit := appendAudit runtime task.tenantId task.requestId
      settled.auditAction.value settled.auditPayload database.audit }

/-! ## Refreshing the request -/

def deriveStatus (statuses : List TaskStatus) : RequestStatus :=
  if ∀ status ∈ statuses, status = .pending then .queued
  else if .pending ∈ statuses ∨ .running ∈ statuses then .running
  else if ∀ status ∈ statuses, status = .succeeded then .completed
  else if ∀ status ∈ statuses, status = .failed then .failed
  else .partially

/-- `needs_access_artifact`. -/
def PrivacyRequest.needsArtifact (request : PrivacyRequest)
    (status : RequestStatus) : Bool :=
  decide (request.kind = .access) &&
    decide (status = .completed ∨ status = .partially) &&
    decide (request.artifactPath = none)

/-- `became_terminal`, from the status the session held. -/
def PrivacyRequest.becomesTerminal (request : PrivacyRequest)
    (status : RequestStatus) : Bool :=
  decide (status.Terminal) && decide (¬ request.status.Terminal)

/-- The request after `refresh_request_status` assigned its attributes;
`reference` is the uri of the artifact it uploaded. -/
def PrivacyRequest.refresh (request : PrivacyRequest) (status : RequestStatus)
    (reference : Option String) : PrivacyRequest :=
  { request with
    status := status
    version :=
      if status = request.status then request.version else request.version + 1
    artifactPath :=
      if request.needsArtifact status then reference else request.artifactPath }

def refreshSummary (status : RequestStatus) (tasks : List RequestTask) : Json :=
  .obj [
    ("status", .str status.value),
    ("succeeded", .int (tasks.countP fun task =>
      decide (task.status = .succeeded))),
    ("failed", .int (tasks.countP fun task =>
      decide (task.status = .failed)))]

/-- The select of `refresh_request_status`, once the row lock is granted. -/
def Session.loadRefresh (session : Session) (database : Database)
    (requestId : String) : Session :=
  (session.loadRequests (database.requests.filter fun request =>
    decide (request.id = requestId))).loadMembers requestId
      (database.tasksOf requestId)

def Session.derivedStatus (session : Session) (requestId : String) :
    RequestStatus :=
  deriveStatus ((session.tasksOf requestId).map RequestTask.status)

/-- The commit of `refresh_request_status`. -/
def commitRefresh (runtime : Runtime) (session : Session)
    (request : PrivacyRequest) (reference : Option String) (noticeId : String)
    (now : Time) (database : Database) : Database :=
  let tasks := session.tasksOf request.id
  let status := session.derivedStatus request.id
  let refreshed := request.refresh status reference
  let requests := Table.updateWhere (fun row => decide (row.id = request.id))
    (fun row => request.flush refreshed row now) database.requests
  if request.becomesTerminal status then
    { database with
      requests
      outbox := enqueueOutbox noticeId request.tenantId request.id
        (.requestFinished status) (refreshSummary status tasks) now
        database.outbox
      audit := appendAudit runtime request.tenantId request.id
        (AuditAction.requestFinished status).value
        (refreshSummary status tasks) database.audit }
  else { database with requests }

/-! ## Single rows -/

@[simp] theorem flushColumn_unchanged {α : Type} [DecidableEq α]
    (loaded committed : α) : flushColumn loaded loaded committed = committed := by
  simp [flushColumn]

theorem flushColumn_of_ne {α : Type} [DecidableEq α] {loaded current : α}
    (changed : current ≠ loaded) (committed : α) :
    flushColumn loaded current committed = current := by
  simp [flushColumn, changed]

@[simp] theorem flushColumn_fresh {α : Type} [DecidableEq α]
    (loaded current : α) : flushColumn loaded current loaded = current := by
  unfold flushColumn
  split
  next same => exact same.symm
  next => rfl

namespace RequestTask

@[simp] theorem flush_id (loaded current committed : RequestTask) :
    (loaded.flush current committed).id = committed.id := rfl

@[simp] theorem flush_requestId (loaded current committed : RequestTask) :
    (loaded.flush current committed).requestId = committed.requestId := rfl

@[simp] theorem claim_id (workerId : String) (leaseUntil : Time)
    (task : RequestTask) : (task.claim workerId leaseUntil).id = task.id := rfl

@[simp] theorem claim_requestId (workerId : String) (leaseUntil : Time)
    (task : RequestTask) :
    (task.claim workerId leaseUntil).requestId = task.requestId := rfl

@[simp] theorem claim_status (workerId : String) (leaseUntil : Time)
    (task : RequestTask) :
    (task.claim workerId leaseUntil).status = .running := rfl

@[simp] theorem settle_id (settings : Settings) (executor : Bool)
    (ending : Ending) (task : RequestTask) :
    (task.settle settings executor ending).id = task.id := by
  cases ending <;> rfl

@[simp] theorem settle_requestId (settings : Settings) (executor : Bool)
    (ending : Ending) (task : RequestTask) :
    (task.settle settings executor ending).requestId = task.requestId := by
  cases ending <;> rfl

/-- The outcome write-back never touches the attempt counter. -/
@[simp] theorem settle_attempt (settings : Settings) (executor : Bool)
    (ending : Ending) (task : RequestTask) :
    (task.settle settings executor ending).attempt = task.attempt := by
  cases ending <;> rfl

@[simp] theorem settle_leaseOwner (settings : Settings) (executor : Bool)
    (ending : Ending) (task : RequestTask) :
    (task.settle settings executor ending).leaseOwner = none := by
  cases ending <;> rfl

@[simp] theorem settle_leaseExpiresAt (settings : Settings) (executor : Bool)
    (ending : Ending) (task : RequestTask) :
    (task.settle settings executor ending).leaseExpiresAt = none := by
  cases ending <;> rfl

/-- Only a cancelled execution leaves the status as it was. -/
theorem settle_status_ne_running {settings : Settings} {executor : Bool}
    {ending : Ending} (uncancelled : ending ≠ .cancelled)
    (task : RequestTask) :
    (task.settle settings executor ending).status ≠ .running := by
  cases ending with
  | returned payload => simp [settle]
  | raised message =>
      by_cases retry :
          (executor && decide (task.attempt < settings.maxTaskAttempts)) = true
      · simp [settle, retry]
      · simp [settle, retry]
  | cancelled => exact absurd rfl uncancelled

theorem claimable_iff {now : Time} {task : RequestTask} :
    task.claimable now = true ↔
      task.status = .pending ∨ task.status = .running ∧
        ∃ expiry, task.leaseExpiresAt = some expiry ∧ expiry < now := by
  unfold claimable
  cases status : task.status with
  | pending => simp
  | running =>
      cases lease : task.leaseExpiresAt with
      | none => simp
      | some expiry => simp
  | succeeded => simp
  | failed => simp

theorem not_terminal_of_claimable {now : Time} {task : RequestTask}
    (claimable : task.claimable now = true) : ¬ task.status.Terminal := by
  rcases claimable_iff.mp claimable with pending | ⟨running, _⟩
  · rw [pending]
    exact not_false
  · rw [running]
    exact not_false

theorem leasedBy_iff {workerId : String} {task : RequestTask} :
    task.leasedBy workerId = true ↔
      task.status = .running ∧ task.leaseOwner = some workerId :=
  decide_eq_true_iff

theorem flush_claim (workerId : String) (leaseUntil : Time)
    (task : RequestTask) :
    task.flush task (task.claim workerId leaseUntil) =
      task.claim workerId leaseUntil := by
  simp [flush, claim]

end RequestTask

namespace PrivacyRequest

@[simp] theorem flush_id (loaded current committed : PrivacyRequest)
    (now : Time) : (loaded.flush current committed now).id = committed.id := rfl

@[simp] theorem flush_kind (loaded current committed : PrivacyRequest)
    (now : Time) :
    (loaded.flush current committed now).kind = committed.kind := rfl

@[simp] theorem verify_id (request : PrivacyRequest) :
    request.verify.id = request.id := by
  unfold verify
  cases request.kind <;> rfl

@[simp] theorem verify_kind (request : PrivacyRequest) :
    request.verify.kind = request.kind := by
  unfold verify
  split <;> simp_all

@[simp] theorem verify_artifactPath (request : PrivacyRequest) :
    request.verify.artifactPath = request.artifactPath := by
  unfold verify
  cases request.kind <;> rfl

theorem verify_status (request : PrivacyRequest) :
    request.verify.status = request.status ∨
      request.verify.status = .verifying := by
  unfold verify
  cases request.kind with
  | access => exact .inl rfl
  | delete => exact .inr rfl

@[simp] theorem refresh_id (request : PrivacyRequest) (status : RequestStatus)
    (reference : Option String) :
    (request.refresh status reference).id = request.id := rfl

@[simp] theorem refresh_status (request : PrivacyRequest)
    (status : RequestStatus) (reference : Option String) :
    (request.refresh status reference).status = status := rfl

theorem needsArtifact_iff {request : PrivacyRequest}
    {status : RequestStatus} :
    request.needsArtifact status = true ↔ request.kind = .access ∧
      (status = .completed ∨ status = .partially) ∧
      request.artifactPath = none := by
  simp [needsArtifact, and_assoc]

theorem refresh_artifactPath (request : PrivacyRequest)
    (status : RequestStatus) (reference : Option String) :
    (request.refresh status reference).artifactPath = request.artifactPath ∨
      request.needsArtifact status = true ∧
        (request.refresh status reference).artifactPath = reference := by
  unfold refresh
  dsimp only
  split
  next needed => exact .inr ⟨needed, rfl⟩
  next => exact .inl rfl

/-- The path that a copy has, the flushed row has. -/
theorem path_flush {request current committed : PrivacyRequest}
    (shown : request.artifactPath ≠ none → committed.artifactPath ≠ none)
    (path : current.artifactPath ≠ none) (now : Time) :
    (request.flush current committed now).artifactPath ≠ none := by
  unfold flush flushColumn
  dsimp only
  split
  next same =>
    apply shown
    rw [← same]
    exact path
  next => exact path

section Refresh

variable {request committed : PrivacyRequest} {status : RequestStatus}
  {reference : Option String}

/-- An artifact path is replaced by another one at most. -/
theorem path_flush_refresh
    (uploaded : request.needsArtifact status = true → reference.isSome = true)
    (path : committed.artifactPath ≠ none) (now : Time) :
    (request.flush (request.refresh status reference) committed
      now).artifactPath ≠ none := by
  unfold flush flushColumn
  dsimp only
  split
  next => exact path
  next changed =>
    rcases request.refresh_artifactPath status reference with
      kept | ⟨needed, written⟩
    · exact absurd kept changed
    · rw [written]
      exact Option.isSome_iff_ne_none.mp (uploaded needed)

/-- A refresh that completes an access request has uploaded its artifact. -/
theorem path_flush_finished (kind : request.kind = committed.kind)
    (shown : request.artifactPath ≠ none → committed.artifactPath ≠ none)
    (uploaded : request.needsArtifact status = true → reference.isSome = true)
    (before : committed.kind = .access →
      (committed.status = .completed ∨ committed.status = .partially) →
      committed.artifactPath ≠ none)
    (access : committed.kind = .access) {now : Time}
    (finished : (request.flush (request.refresh status reference) committed
        now).status = .completed ∨
      (request.flush (request.refresh status reference) committed
        now).status = .partially) :
    (request.flush (request.refresh status reference) committed
      now).artifactPath ≠ none := by
  by_cases missing : request.artifactPath = none
  · by_cases same : status = request.status
    · -- No status is written, so the committed row was finished before.
      have kept : (request.flush (request.refresh status reference) committed
          now).status = committed.status := by
        simp [flush, same]
      rw [kept] at finished
      exact path_flush_refresh uploaded (before access finished) now
    · have written : (request.flush (request.refresh status reference)
          committed now).status = status := flushColumn_of_ne same _
      rw [written] at finished
      have needed : request.needsArtifact status = true :=
        needsArtifact_iff.mpr ⟨kind.trans access, finished, missing⟩
      apply path_flush shown
      rw [refresh, if_pos needed]
      exact Option.isSome_iff_ne_none.mp (uploaded needed)
  · exact path_flush_refresh uploaded (shown missing) now

end Refresh

end PrivacyRequest

theorem RequestStatus.terminal_of_finished {status : RequestStatus}
    (finished : status = .completed ∨ status = .partially) :
    status.Terminal := by
  rcases finished with rfl | rfl
  · trivial
  · trivial

/-- A refresh finalises the request exactly when all of its tasks, and at
least one, are terminal. -/
theorem terminal_deriveStatus_iff (statuses : List TaskStatus) :
    (deriveStatus statuses).Terminal ↔
      statuses ≠ [] ∧ ∀ status ∈ statuses, status.Terminal := by
  unfold deriveStatus
  split
  next pending =>
    constructor
    · exact False.elim
    · rintro ⟨nonempty, terminal⟩
      obtain ⟨status, member⟩ := List.exists_mem_of_ne_nil statuses nonempty
      have final := terminal status member
      rw [pending status member] at final
      exact final
  next notPending =>
    have nonempty : statuses ≠ [] := by
      rintro rfl
      exact notPending (by simp)
    split
    next open_ =>
      constructor
      · exact False.elim
      · rintro ⟨_, terminal⟩
        rcases open_ with pending | running
        · exact terminal _ pending
        · exact terminal _ running
    next notOpen =>
      have terminal : ∀ status ∈ statuses, status.Terminal := by
        intro status member
        cases status with
        | pending => exact absurd (.inl member) notOpen
        | running => exact absurd (.inr member) notOpen
        | succeeded => trivial
        | failed => trivial
      split
      next => exact ⟨fun _ => ⟨nonempty, terminal⟩, fun _ => trivial⟩
      next =>
        split
        next => exact ⟨fun _ => ⟨nonempty, terminal⟩, fun _ => trivial⟩
        next => exact ⟨fun _ => ⟨nonempty, terminal⟩, fun _ => trivial⟩

/-! ## The claim statements -/

/-- The common effect of the claim statements: the tasks are leased and their
queued requests started. -/
def Database.markClaimed (database : Database) (taskIds : List String)
    (workerId : String) (leaseUntil now : Time) : Database :=
  { database with
    tasks := Table.updateWhere (fun task => decide (task.id ∈ taskIds))
      (RequestTask.claim workerId leaseUntil) database.tasks
    requests := startRequests (database.requestIdsOf taskIds) now
      database.requests }

/-- What a claim statement promises about the ids it returns. -/
structure Database.Claims (database : Database) (now : Time)
    (taskIds : List String) : Prop where
  nodup : taskIds.Nodup
  claimable : ∀ taskId ∈ taskIds, ∃ row ∈ database.tasks,
    row.id = taskId ∧ row.claimable now = true

theorem ClaimArguments.mem_candidates {arguments : ClaimArguments}
    {settings : Settings} {locked : List String} {tasks : List RequestTask}
    {task : RequestTask}
    (member : task ∈ arguments.candidates settings locked tasks) :
    task ∈ tasks ∧ arguments.filter task = true := by
  have selected :=
    (Table.mem_insertionSort_iff _).mp (List.mem_of_mem_take member)
  obtain ⟨inTable, matching⟩ := List.mem_filter.mp selected
  exact ⟨inTable, (Bool.and_eq_true _ _ ▸ matching).1⟩

theorem ClaimArguments.nodup_candidates {arguments : ClaimArguments}
    {settings : Settings} {locked : List String} {tasks : List RequestTask}
    (unique : Table.KeyUnique RequestTask.id tasks) :
    ((arguments.candidates settings locked tasks).map RequestTask.id).Nodup := by
  have selected := unique.filter fun task =>
    arguments.filter task && decide (task.id ∉ locked)
  have ordered := ((List.perm_insertionSort
    (fun first second : RequestTask => first.createdAt ≤ second.createdAt)
    _).map RequestTask.id).nodup_iff.mpr selected
  exact ordered.sublist ((List.take_sublist _ _).map RequestTask.id)

theorem ClaimArguments.claimable_of_filter {arguments : ClaimArguments}
    {task : RequestTask} (matching : arguments.filter task = true) :
    task.claimable arguments.now = true :=
  (Bool.and_eq_true _ _ ▸ matching).1

/-- Both dialects of `claim_tasks` have the common effect; the session they
leave holds claimed rows only. -/
theorem claimTasks_spec (settings : Settings) (dialect : Dialect)
    (arguments : ClaimArguments) {database : Database}
    (unique : Table.KeyUnique RequestTask.id database.tasks) :
    ∃ session taskIds,
      claimTasks settings dialect arguments database =
        (database.markClaimed taskIds arguments.workerId
          (arguments.leaseUntil settings) arguments.now, session, taskIds) ∧
      database.Claims arguments.now taskIds ∧
      (∀ taskId copy, session.task taskId = some copy →
        ∃ row ∈ database.tasks, row.id = taskId ∧ taskId ∈ taskIds ∧
          copy = row.claim arguments.workerId (arguments.leaseUntil settings)) ∧
      session.request = Session.empty.request ∧
      session.members = Session.empty.members := by
  cases dialect with
  | postgresql =>
      refine ⟨Session.empty.loadTasks ((arguments.candidates settings
          arguments.locked database.tasks).map
            (RequestTask.claim arguments.workerId
              (arguments.leaseUntil settings))),
        (arguments.candidates settings arguments.locked database.tasks).map
          RequestTask.id,
        ?_, ⟨ClaimArguments.nodup_candidates unique, ?_⟩, ?_, rfl, rfl⟩
      · simp only [claimTasks, RequestTask.flush_claim]
        rfl
      · intro taskId member
        obtain ⟨row, candidate, same⟩ := List.mem_map.mp member
        obtain ⟨inTable, matching⟩ := ClaimArguments.mem_candidates candidate
        exact ⟨row, inTable, same, ClaimArguments.claimable_of_filter matching⟩
      · intro taskId copy held
        obtain ⟨inRows, same⟩ := Table.get_mem held
        obtain ⟨row, candidate, rfl⟩ := List.mem_map.mp inRows
        refine ⟨row, (ClaimArguments.mem_candidates candidate).1, same, ?_, rfl⟩
        exact List.mem_map.mpr ⟨row, candidate, same⟩
  | sqlite =>
      -- The update's own filter is implied by membership in the returned ids.
      let claimed := fun task : RequestTask =>
        decide (task.id ∈ (arguments.candidates settings []
          database.tasks).map RequestTask.id) && arguments.filter task
      have chosen : ∀ row ∈ database.tasks, claimed row =
          decide (row.id ∈
            (database.tasks.filter claimed).map RequestTask.id) := by
        intro row member
        have recovered := unique.mem_keys_filter claimed member
        by_cases hit : claimed row = true
        · rw [hit, decide_eq_true (recovered.mpr hit)]
        · rw [Bool.eq_false_iff.mpr hit,
            decide_eq_false (mt recovered.mp hit)]
      refine ⟨Session.empty,
        (database.tasks.filter claimed).map RequestTask.id, ?_,
        ⟨unique.filter _, ?_⟩, ?_, rfl, rfl⟩
      · simp only [claimTasks, Database.markClaimed]
        rw [← Table.updateWhere_congr chosen]
      · intro taskId member
        obtain ⟨row, candidate, same⟩ := List.mem_map.mp member
        obtain ⟨inTable, matching⟩ := List.mem_filter.mp candidate
        exact ⟨row, inTable, same, ClaimArguments.claimable_of_filter
          (Bool.and_eq_true _ _ ▸ matching).2⟩
      · intro taskId copy held
        cases held

end FleetPrivacy
