import FleetPrivacy.ProcessOnce

/-!
# The HTTP routes

`routes.py` over the queries of `requests.py` and the inserts of `records.py`.
Every operation runs in a session of its own, and operations follow one
another.  The API key has been checked; a parameter that violates its declared
bounds is answered with 422 before the route runs, and the text of FastAPI's
report is left out.
-/

namespace FleetPrivacy

/-! ## Views and responses -/

structure TaskView where
  source : String
  status : TaskStatus
  attempt : Nat
  resultSummary : Json
  error : Option String
  deriving DecidableEq, Repr

structure PrivacyRequestView where
  id : String
  tenantId : String
  kind : RequestKind
  status : RequestStatus
  requestedSources : List String
  artifactPath : Option String
  version : Nat
  createdAt : Time
  updatedAt : Time
  tasks : List TaskView
  deriving DecidableEq, Repr

def RequestTask.view (task : RequestTask) : TaskView :=
  { source := task.source
    status := task.status
    attempt := task.attempt
    resultSummary := task.resultSummary
    error := task.error }

/-- A request with `selectinload(PrivacyRequest.tasks)`. -/
def Database.view (database : Database) (request : PrivacyRequest) :
    PrivacyRequestView :=
  { id := request.id
    tenantId := request.tenantId
    kind := request.kind
    status := request.status
    requestedSources := request.requestedSources
    artifactPath := request.artifactPath
    version := request.version
    createdAt := request.createdAt
    updatedAt := request.updatedAt
    tasks := (database.tasksOf request.id).map RequestTask.view }

inductive Body where
  | request (view : PrivacyRequestView)
  | requests (views : List PrivacyRequestView)
  | seeded (created : Nat)
  | processed (claimed succeeded failed : Nat)
  | auditChain (tenantId : String) (valid : Bool)
  | file (filename content : String)
  | redirect (location : String)
  | detail (text : String)
  | report
  | internalError
  deriving DecidableEq, Repr

structure Response where
  statusCode : Nat
  body : Body
  deriving DecidableEq, Repr

namespace Response

def ok (body : Body) : Response :=
  { statusCode := 200, body }

/-- `HTTPException(status_code, detail)`. -/
def httpException (statusCode : Nat) (text : String) : Response :=
  { statusCode, body := .detail text }

/-- The request failed its validation. -/
def unprocessable : Response :=
  { statusCode := 422, body := .report }

/-- An exception left the route. -/
def internalServerError : Response :=
  { statusCode := 500, body := .internalError }

end Response

/-! ## Services -/

def getPrivacyRequest (database : Database) (tenantId requestId : String) :
    Option PrivacyRequest :=
  database.requests.find? fun request =>
    decide (request.id = requestId ∧ request.tenantId = tenantId)

def listPrivacyRequests (database : Database) (tenantId : String)
    (status : Option RequestStatus) (limit offset : Nat) :
    List PrivacyRequest :=
  (((database.requests.filter fun request =>
      decide (request.tenantId = tenantId ∧
        ∀ wanted ∈ status, request.status = wanted)).insertionSort
    fun first second => second.createdAt ≤ first.createdAt).drop offset).take
      limit

/-- `create_privacy_request` when no other call is in progress: the select
decides whether the rows are inserted, and no constraint fails.  The result is
the request and `created`, or the text of `IdempotencyConflict`. -/
def createPrivacyRequest (runtime : Runtime) (intake : Intake)
    (database : Database) :
    Database × Except String (Option PrivacyRequest × Bool) :=
  match findByIdempotency database intake.tenantId intake.idempotencyKey with
  | some existing =>
      if sameCommand runtime existing intake.command then
        (database, .ok (some existing, false))
      else
        (database,
          .error "idempotency key already represents a different request")
  | none =>
      let inserted := intake.insertRows runtime database
      (inserted,
        .ok (getPrivacyRequest inserted intake.tenantId (intake.fresh.ids 0),
          true))

/-- The payload of a seeded record. -/
def seedPayload (source : String) (sequence : Nat) : Json :=
  .obj [
    ("source", .str source),
    ("sequence", .int sequence),
    ("device_ref", .str ("device-00" ++ toString (sequence % 8))),
    ("region", .str "eu-central")]

/-- The rows of `seed_records`. -/
def seedRows (runtime : Runtime) (tenantId subjectKey : String)
    (recordsPerSource : Nat) (fresh : Fresh) : List DeviceCloudRecord :=
  (allowedSources.flatMap fun source =>
    (List.range recordsPerSource).map fun sequence =>
      (source, sequence)).zipIdx.map fun ((source, sequence), position) =>
        { id := fresh.ids position
          tenantId
          subjectKeyHash := hashSubject runtime subjectKey
          source
          payload := seedPayload source sequence
          deletedAt := none }

/-- `presign_get`; the text of the `ValueError` it can raise is an error. -/
def presignGet (deployment : Deployment) (uri : String) :
    Except String (Option String) :=
  match deployment.settings.artifactBackend with
  | .localDirectory => .ok none
  | .s3 bucket _ =>
      let start := ("s3://" ++ bucket ++ "/").toList
      if start.isPrefixOf uri.toList then
        .ok (some (deployment.presign bucket
          (String.ofList (uri.toList.drop start.length))
          deployment.settings.artifactPresignSeconds))
      else .error "artifact URI does not belong to the configured bucket"

/-! ## Operations -/

inductive ApiCall where
  | createRequest (command : CreateBody) (idempotencyKey : String)
  | listRequests (status : Option RequestStatus) (limit offset : Int)
  | getRequest (requestId : String)
  | downloadArtifact (requestId : String)
  | seed (subjectKey : String) (recordsPerSource : Int)
  | runWorkerOnce (workerId : String) (batchSize : Option Int)
  | auditChain
  deriving DecidableEq

/-- One API operation of a tenant, with the values it draws. -/
structure Operation where
  tenantId : String
  call : ApiCall
  fresh : Fresh

/-- `min_length` and `max_length`. -/
def lengthWithin (least most : Nat) (text : String) : Bool :=
  decide (least ≤ text.length ∧ text.length ≤ most)

/-- `ge` and `le`. -/
def within (least most value : Int) : Bool :=
  decide (least ≤ value ∧ value ≤ most)

section Routes

variable (deployment : Deployment) (tenantId : String)

def createRequest (command : PrivacyRequestCreate) (idempotencyKey : String)
    (fresh : Fresh) (storage : Storage) : Storage × Response :=
  let (database, outcome) := createPrivacyRequest deployment.runtime
    { tenantId, idempotencyKey, command, fresh } storage.database
  ({ storage with database },
    match outcome with
    | .error text => .httpException 409 text
    | .ok (none, _) => .internalServerError
    | .ok (some request, created) =>
        { statusCode := if created then 201 else 200
          body := .request (database.view request) })

def listRequests (status : Option RequestStatus) (limit offset : Nat)
    (database : Database) : Response :=
  .ok (.requests ((listPrivacyRequests database tenantId status limit
    offset).map database.view))

def getRequest (requestId : String) (database : Database) : Response :=
  match getPrivacyRequest database tenantId requestId with
  | none => .httpException 404 "privacy request not found"
  | some request => .ok (.request (database.view request))

/-- The part of `download_artifact` that serves a local file: the resolved
root must be among the parents of the resolved path. -/
def serveFile (requestId path : String) (artifacts : ArtifactStore) :
    Response :=
  let parts := (PosixPath.parse path).resolve deployment.workingDirectory
  let root := (PosixPath.parse deployment.settings.artifactDir).resolve
    deployment.workingDirectory
  match artifacts.get (.file parts) with
  | some content =>
      if root.isPrefixOf parts && decide (root ≠ parts) then
        .ok (.file (requestId ++ ".json") content)
      else .httpException 404 "artifact file not found"
  | none => .httpException 404 "artifact file not found"

def downloadArtifact (requestId : String) (storage : Storage) : Response :=
  match getPrivacyRequest storage.database tenantId requestId with
  | none => .httpException 404 "privacy request not found"
  | some request =>
      let path := request.artifactPath.getD ""
      if path = "" then .httpException 409 "artifact is not ready"
      else if "s3://".toList.isPrefixOf path.toList then
        match presignGet deployment path with
        | .error _ => .internalServerError
        | .ok none => .httpException 404 "artifact object not found"
        | .ok (some url) => { statusCode := 307, body := .redirect url }
      else serveFile deployment requestId path storage.artifacts

def seed (subjectKey : String) (recordsPerSource : Nat) (fresh : Fresh)
    (storage : Storage) : Storage × Response :=
  let rows := seedRows deployment.runtime tenantId subjectKey recordsPerSource
    fresh
  ({ storage with database := { storage.database with
      records := storage.database.records ++ rows } },
    { statusCode := 201, body := .seeded rows.length })

/-- The arguments that `run_worker_once` passes on. -/
def workerArguments (workerId : String) (batchSize : Option Nat)
    (fresh : Fresh) : ClaimArguments :=
  { workerId := tenantId ++ ":" ++ workerId
    tenantId := some tenantId
    batchSize
    now := fresh.clock 0
    locked := [] }

def runWorkerOnce (workerId : String) (batchSize : Option Nat)
    (fresh : Fresh) (storage : Storage) : Storage × Response :=
  let processed := processOnce deployment
    (workerArguments tenantId workerId batchSize fresh) fresh storage
  (processed.1,
    match processed.2 with
    | none => .internalServerError
    | some (claimed, succeeded) =>
        .ok (.processed claimed succeeded (claimed - succeeded)))

def auditChainRoute (database : Database) : Response :=
  .ok (.auditChain tenantId
    (verifyAuditChain deployment.runtime tenantId database.audit))

end Routes

/-- The parameters that a route declares bounds for. -/
def ApiCall.admitted : ApiCall → Bool
  | .createRequest _ idempotencyKey => lengthWithin 1 128 idempotencyKey
  | .listRequests _ limit offset => within 1 200 limit && decide (0 ≤ offset)
  | .getRequest _ => true
  | .downloadArtifact _ => true
  | .seed _ recordsPerSource => within 1 1000 recordsPerSource
  | .runWorkerOnce workerId batchSize =>
      lengthWithin 2 64 workerId && batchSize.all (within 1 1000)
  | .auditChain => true

/-- A call whose parameters are within their bounds. -/
def dispatch (deployment : Deployment) (tenantId : String) (fresh : Fresh)
    (storage : Storage) : ApiCall → Storage × Response
  | .createRequest command idempotencyKey =>
      match PrivacyRequestCreate.validate command with
      | .error _ => (storage, .unprocessable)
      | .ok command =>
          createRequest deployment tenantId command idempotencyKey fresh storage
  | .listRequests status limit offset =>
      (storage, listRequests tenantId status limit.toNat offset.toNat
        storage.database)
  | .getRequest requestId =>
      (storage, getRequest tenantId requestId storage.database)
  | .downloadArtifact requestId =>
      (storage, downloadArtifact deployment tenantId requestId storage)
  | .seed subjectKey recordsPerSource =>
      seed deployment tenantId subjectKey recordsPerSource.toNat fresh storage
  | .runWorkerOnce workerId batchSize =>
      runWorkerOnce deployment tenantId workerId (batchSize.map Int.toNat)
        fresh storage
  | .auditChain =>
      (storage, auditChainRoute deployment tenantId storage.database)

/-- One operation, from its request to its response. -/
def handle (deployment : Deployment) (storage : Storage)
    (operation : Operation) : Storage × Response :=
  if lengthWithin 2 64 operation.tenantId && operation.call.admitted then
    dispatch deployment operation.tenantId operation.fresh storage
      operation.call
  else (storage, .unprocessable)

end FleetPrivacy
