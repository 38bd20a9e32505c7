import FleetPrivacy.Artifacts
import FleetPrivacy.Requests

/-!
# Sequential processing with the database source backend

`process_once` of `worker.py` as one call sees it when no other call is in
progress: `claim_tasks`, then `execute_task` for every claimed id in the
session that the claim left behind.  Source work is `_execute_access` and
`_execute_delete`.
-/

namespace FleetPrivacy

/-- The tables and the artifact store. -/
structure Storage where
  database : Database
  artifacts : ArtifactStore
  deriving DecidableEq

def Storage.initial : Storage :=
  { database := .empty, artifacts := [] }

/-! ## Source work -/

/-- `_execute_access`. -/
def executeAccess (database : Database) (task : RequestTask)
    (request : PrivacyRequest) : Ending :=
  .returned (accessResult (activeRecords database task request))

/-- The rows that `_execute_delete` counts after its flush. -/
def remainingRecords (database : Database) (task : RequestTask)
    (request : PrivacyRequest) (deletedAt : Time) : List DeviceCloudRecord :=
  let rows := activeRecords database task request
  activeRecords { database with
    records := markDeleted (rows.map DeviceCloudRecord.id) deletedAt
      database.records } task request

/-- `_execute_delete`, up to the rows it marks. -/
def executeDelete (database : Database) (task : RequestTask)
    (request : PrivacyRequest) (deletedAt : Time) : Ending :=
  let remaining := (remainingRecords database task request deletedAt).length
  if remaining ≠ 0 then
    .raised ("reverse verification found " ++ toString remaining ++
      " active records")
  else .returned (deleteResult (activeRecords database task request))

/-- The work of `execute_task` without a source executor. -/
def databaseWork (database : Database) (task : RequestTask)
    (request : PrivacyRequest) (deletedAt : Time) : Work :=
  match request.kind with
  | .access =>
      { ending := executeAccess database task request
        deleted := []
        deletedAt }
  | .delete =>
      { ending := executeDelete database task request deletedAt
        deleted :=
          (activeRecords database task request).map DeviceCloudRecord.id
        deletedAt }

/-! ## One task -/

/-- Clock readings and the outbox id that one execution draws. -/
structure TaskDraws where
  deletedAt : Time
  recordedAt : Time
  generatedAt : Time
  refreshedAt : Time
  noticeId : String

/-- The values for the claimed task at `position`; the claim itself reads the
clock first. -/
def Fresh.task (fresh : Fresh) (position : Nat) : TaskDraws :=
  { deletedAt := fresh.clock (4 * position + 1)
    recordedAt := fresh.clock (4 * position + 2)
    generatedAt := fresh.clock (4 * position + 3)
    refreshedAt := fresh.clock (4 * position + 4)
    noticeId := fresh.ids position }

section Execution

variable (deployment : Deployment)

/-- `refresh_request_status`.  `scalar_one` finds a row for every id that the
foreign key of a task admits. -/
def refreshRequestStatus (draws : TaskDraws) (requestId : String)
    (session : Session) (storage : Storage) : Storage × Session :=
  let session := session.loadRefresh storage.database requestId
  match session.request requestId with
  | none => (storage, session)
  | some request =>
      let status := session.derivedStatus requestId
      let written := writeArtifact deployment request
        (session.tasksOf requestId) draws.generatedAt storage.artifacts
      let needed := request.needsArtifact status
      let reference := if needed then some written.2 else none
      ({ database := commitRefresh deployment.runtime session request
            reference draws.noticeId draws.refreshedAt storage.database
         artifacts := if needed then written.1 else storage.artifacts },
        session.putRequest (request.refresh status reference))

/-- `execute_task` with `source_executor=None`. -/
def executeTask (draws : TaskDraws) (workerId taskId : String)
    (session : Session) (storage : Storage) : Storage × Session × Bool :=
  match storage.database.tasks.find? fun task =>
      decide (task.id = taskId) && task.leasedBy workerId with
  | none => (storage, session, false)
  | some row =>
      let session := (session.loadTasks [row]).loadRequests
        (storage.database.requests.filter fun request =>
          decide (request.id = row.requestId))
      match session.task taskId with
      | none => (storage, session, false)
      | some task =>
          match session.request task.requestId with
          | none => (storage, session, false)
          | some request =>
              let work := databaseWork storage.database task request
                draws.deletedAt
              let database := recordOutcome deployment.runtime
                deployment.settings false work task request draws.recordedAt
                storage.database
              let settled := task.settle deployment.settings false work.ending
              let refreshed := refreshRequestStatus deployment draws
                task.requestId
                ((session.putTask settled).putRequest request.verify)
                { storage with database }
              (refreshed.1, refreshed.2,
                decide (settled.status = .succeeded))

/-- The loop of `process_once`: the storage it leaves and `succeeded`. -/
def executeTasks (fresh : Fresh) (workerId : String) :
    Nat → List String → Session → Storage → Storage × Nat
  | _, [], _, storage => (storage, 0)
  | position, taskId :: taskIds, session, storage =>
      let executed := executeTask deployment (fresh.task position) workerId
        taskId session storage
      let rest := executeTasks fresh workerId (position + 1) taskIds
        executed.2.1 executed.1
      (rest.1, executed.2.2.toNat + rest.2)

end Execution

/-! ## A whole pass -/

/-- `lease_owner: String(64)`. -/
def leaseOwnerWidth : Nat := 64

/-- PostgreSQL rejects a value that is too long for its column. -/
def ClaimArguments.rejected (arguments : ClaimArguments) (dialect : Dialect)
    (taskIds : List String) : Bool :=
  decide (dialect = .postgresql ∧ taskIds ≠ [] ∧
    leaseOwnerWidth < arguments.workerId.length)

/-- `process_once`: the storage it leaves and the numbers of claimed and
succeeded tasks, or no numbers when the claim's flush raised. -/
def processOnce (deployment : Deployment) (arguments : ClaimArguments)
    (fresh : Fresh) (storage : Storage) : Storage × Option (Nat × Nat) :=
  let (database, session, taskIds) := claimTasks deployment.settings
    deployment.dialect arguments storage.database
  if arguments.rejected deployment.dialect taskIds then (storage, none)
  else
    let executed := executeTasks deployment fresh arguments.workerId 0
      taskIds session { storage with database }
    (executed.1, some (taskIds.length, executed.2))

end FleetPrivacy
