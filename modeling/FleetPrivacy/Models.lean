import FleetPrivacy.Library.Json
import FleetPrivacy.Library.Table

/-!
# The control plane's tables

Rows and enumerations of `models.py`, and the settings of `config.py` that the
modelled services read.  A column that no modelled function reads is left out:
`error` of a request, `updated_at` of a task, `id` and `created_at` of audit
events and `created_at` of device records.
-/

namespace FleetPrivacy

/-- Timezone-aware datetimes, on one linear scale. -/
abbrev Time := Int

/-- What the modelled code takes from the Python runtime without relying on
more than that it is a function: the hex digest of a UTF-8 text, and Unicode
lower-casing. -/
structure Runtime where
  sha256 : String → String
  lower : String → String

inductive RequestKind where
  | access
  | delete
  deriving DecidableEq, Repr

def RequestKind.value : RequestKind → String
  | .access => "access"
  | .delete => "delete"

/-- `RequestStatus`; `PARTIAL` is written `partially`. -/
inductive RequestStatus where
  | queued
  | running
  | verifying
  | completed
  | partially
  | failed
  deriving DecidableEq, Repr

namespace RequestStatus

def value : RequestStatus → String
  | .queued => "queued"
  | .running => "running"
  | .verifying => "verifying"
  | .completed => "completed"
  | .partially => "partial"
  | .failed => "failed"

/-- `{COMPLETED, PARTIAL, FAILED}`. -/
def Terminal : RequestStatus → Prop
  | .completed | .partially | .failed => True
  | .queued | .running | .verifying => False

instance : DecidablePred Terminal
  | .completed | .partially | .failed => .isTrue trivial
  | .queued | .running | .verifying => .isFalse id

end RequestStatus

inductive TaskStatus where
  | pending
  | running
  | succeeded
  | failed
  deriving DecidableEq, Repr

namespace TaskStatus

def value : TaskStatus → String
  | .pending => "pending"
  | .running => "running"
  | .succeeded => "succeeded"
  | .failed => "failed"

/-- `{SUCCEEDED, FAILED}`. -/
def Terminal : TaskStatus → Prop
  | .succeeded | .failed => True
  | .pending | .running => False

instance : DecidablePred Terminal
  | .succeeded | .failed => .isTrue trivial
  | .pending | .running => .isFalse id

end TaskStatus

structure PrivacyRequest where
  id : String
  tenantId : String
  idempotencyKey : String
  subjectKeyHash : String
  kind : RequestKind
  status : RequestStatus
  policyVersion : String
  requestedSources : List String
  artifactPath : Option String
  version : Nat
  createdAt : Time
  updatedAt : Time
  deriving DecidableEq, Repr

structure RequestTask where
  id : String
  requestId : String
  tenantId : String
  source : String
  status : TaskStatus
  attempt : Nat
  leaseOwner : Option String
  leaseExpiresAt : Option Time
  resultSummary : Json
  error : Option String
  createdAt : Time
  deriving DecidableEq, Repr

structure OutboxEvent where
  id : String
  tenantId : String
  aggregateId : String
  eventType : String
  payload : Json
  createdAt : Time
  publishedAt : Option Time
  deriving DecidableEq, Repr

structure AuditEvent where
  tenantId : String
  requestId : String
  sequence : Int
  action : String
  payloadHash : String
  previousHash : String
  eventHash : String
  deriving DecidableEq, Repr

structure DeviceCloudRecord where
  id : String
  tenantId : String
  subjectKeyHash : String
  source : String
  payload : Json
  deletedAt : Option Time
  deriving DecidableEq, Repr

/-- The committed rows of the five tables, each in insertion order. -/
structure Database where
  requests : List PrivacyRequest
  tasks : List RequestTask
  outbox : List OutboxEvent
  audit : List AuditEvent
  records : List DeviceCloudRecord
  deriving DecidableEq, Repr

def Database.empty : Database :=
  { requests := [], tasks := [], outbox := [], audit := [], records := [] }

/-- `relationship(back_populates="request")`: the rows of `request.tasks`. -/
def Database.tasksOf (database : Database) (requestId : String) :
    List RequestTask :=
  database.tasks.filter fun task => decide (task.requestId = requestId)

/-- Event types that the services write to the outbox. -/
inductive EventType where
  | requestCreated
  | taskReady
  | requestFinished (status : RequestStatus)
  deriving DecidableEq, Repr

def EventType.value : EventType → String
  | .requestCreated => "privacy_request.created"
  | .taskReady => "privacy_task.ready"
  | .requestFinished status => "privacy_request." ++ status.value

/-- Actions that the services write to the audit chain. -/
inductive AuditAction where
  | requestCreated
  | requestFinished (status : RequestStatus)
  | taskRetryScheduled
  | taskSettled (status : TaskStatus)
  deriving DecidableEq, Repr

def AuditAction.value : AuditAction → String
  | .requestCreated => "request.created"
  | .requestFinished status => "request." ++ status.value
  | .taskRetryScheduled => "task.retry_scheduled"
  | .taskSettled status => "task." ++ status.value

/-- Where `build_artifact_store` puts access artifacts. -/
inductive ArtifactBackend where
  | localDirectory
  | s3 (bucket keyPrefix : String)
  deriving DecidableEq, Repr

/-- The fields of `Settings` that the modelled services read. -/
structure Settings where
  maxTaskAttempts : Nat
  workerBatchSize : Nat
  leaseSeconds : Nat
  artifactDir : String
  artifactBackend : ArtifactBackend
  artifactPresignSeconds : Nat
  deriving DecidableEq, Repr

end FleetPrivacy
