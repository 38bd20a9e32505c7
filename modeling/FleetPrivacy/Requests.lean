import FleetPrivacy.Events

/-!
# Request intake

Validation of `schemas.py`, `hash_subject` of `security.py`, and the queries
and rows of `requests.py`.  Values that a call draws from outside (fresh ids,
clock readings) are arguments.
-/

namespace FleetPrivacy

/-- `sorted(ALLOWED_SOURCES)`. -/
def allowedSources : List String :=
  ["devices", "jobs", "profile", "support_logs", "telemetry"]

/-- `list(dict.fromkeys(values))`: first occurrences, in order. -/
def dictFromKeys (values : List String) : List String :=
  values.foldl
    (fun keys value => if value ∈ keys then keys else keys ++ [value]) []

/-- The body of `POST /privacy-requests`, before validation. -/
structure CreateBody where
  subjectKey : String
  kind : RequestKind
  sources : Option (List String)
  deriving DecidableEq, Repr

/-- A validated command.  Its sources are pairwise distinct and allowed. -/
structure PrivacyRequestCreate where
  subjectKey : String
  kind : RequestKind
  sources : List String
  subjectBounds : 3 ≤ subjectKey.length ∧ subjectKey.length ≤ 320
  sourcesNodup : sources.Nodup
  sourcesAllowed : ∀ source ∈ sources, source ∈ allowedSources
  deriving DecidableEq

inductive ValidationError where
  | subjectKeyLength
  | unknownSources (names : List String)
  deriving DecidableEq, Repr

private theorem nodup_keys_foldl (values : List String) :
    ∀ keys : List String, keys.Nodup →
      (values.foldl
        (fun keys value => if value ∈ keys then keys else keys ++ [value])
        keys).Nodup := by
  induction values with
  | nil =>
      intro keys nodup
      exact nodup
  | cons value values induction =>
      intro keys nodup
      rw [List.foldl_cons]
      apply induction
      split
      next => exact nodup
      next absent =>
        refine List.Nodup.append nodup (List.nodup_singleton value) ?_
        intro other inKeys isValue
        rw [List.mem_singleton.mp isValue] at inKeys
        exact absent inKeys

theorem nodup_dictFromKeys (values : List String) :
    (dictFromKeys values).Nodup :=
  nodup_keys_foldl values [] List.nodup_nil

theorem nodup_allowedSources : allowedSources.Nodup := by
  decide

/-- `PrivacyRequestCreate.model_validate`: `validate_sources` runs on given
sources only, the default list is taken as it is. -/
def PrivacyRequestCreate.validate (body : CreateBody) :
    Except ValidationError PrivacyRequestCreate :=
  if bounds : 3 ≤ body.subjectKey.length ∧ body.subjectKey.length ≤ 320 then
    match body.sources with
    | none =>
        .ok {
          subjectKey := body.subjectKey
          kind := body.kind
          sources := allowedSources
          subjectBounds := bounds
          sourcesNodup := nodup_allowedSources
          sourcesAllowed := fun _ member => member }
    | some value =>
        let unique := dictFromKeys value
        if known : ∀ source ∈ unique, source ∈ allowedSources then
          .ok {
            subjectKey := body.subjectKey
            kind := body.kind
            sources := unique
            subjectBounds := bounds
            sourcesNodup := nodup_dictFromKeys value
            sourcesAllowed := known }
        else
          .error (.unknownSources
            ((unique.filter fun source =>
              decide (source ∉ allowedSources)).insertionSort (· ≤ ·)))
  else .error .subjectKeyLength

/-- `str.isspace` for one character. -/
def isSpace (character : Char) : Bool :=
  let code := character.toNat
  decide (9 ≤ code ∧ code ≤ 13) || decide (28 ≤ code ∧ code ≤ 32) ||
    decide (8192 ≤ code ∧ code ≤ 8202) ||
    [133, 160, 5760, 8232, 8233, 8239, 8287, 12288].contains code

/-- `str.strip`. -/
def strip (value : String) : String :=
  String.ofList ((value.toList.dropWhile isSpace).reverse.dropWhile
    isSpace).reverse

def hashSubject (runtime : Runtime) (value : String) : String :=
  runtime.sha256 (runtime.lower (strip value))

/-- `_same_command`. -/
def sameCommand (runtime : Runtime) (request : PrivacyRequest)
    (command : PrivacyRequestCreate) : Bool :=
  decide (request.subjectKeyHash = hashSubject runtime command.subjectKey) &&
    decide (request.kind = command.kind) &&
    decide (request.requestedSources.insertionSort (· ≤ ·) =
      command.sources.insertionSort (· ≤ ·))

/-- `_find_by_idempotency`. -/
def findByIdempotency (database : Database)
    (tenantId idempotencyKey : String) : Option PrivacyRequest :=
  database.requests.find? fun request =>
    decide (request.tenantId = tenantId ∧
      request.idempotencyKey = idempotencyKey)

/-- Values drawn by the column defaults of one call: `uuid4` and `utcnow`. -/
structure Fresh where
  ids : Nat → String
  clock : Nat → Time

/-- The arguments of `create_privacy_request`, with the values it draws. -/
structure Intake where
  tenantId : String
  idempotencyKey : String
  command : PrivacyRequestCreate
  fresh : Fresh

namespace Intake

def sourcesPayload (intake : Intake) : Json :=
  .obj [
    ("kind", .str intake.command.kind.value),
    ("sources", .arr (intake.command.sources.map .str))]

def request (runtime : Runtime) (intake : Intake) : PrivacyRequest :=
  { id := intake.fresh.ids 0
    tenantId := intake.tenantId
    idempotencyKey := intake.idempotencyKey
    subjectKeyHash := hashSubject runtime intake.command.subjectKey
    kind := intake.command.kind
    status := .queued
    policyVersion := "2026-08"
    requestedSources := intake.command.sources
    artifactPath := none
    version := 1
    createdAt := intake.fresh.clock 0
    updatedAt := intake.fresh.clock 1 }

/-- The id of the task for the source at `position`. -/
def taskId (intake : Intake) (position : Nat) : String :=
  intake.fresh.ids (1 + position)

def task (intake : Intake) (source : String) (position : Nat) : RequestTask :=
  { id := intake.taskId position
    requestId := intake.fresh.ids 0
    tenantId := intake.tenantId
    source := source
    status := .pending
    attempt := 0
    leaseOwner := none
    leaseExpiresAt := none
    resultSummary := .obj []
    error := none
    createdAt := intake.fresh.clock (2 + position) }

def tasks (intake : Intake) : List RequestTask :=
  intake.command.sources.zipIdx.map fun (source, position) =>
    intake.task source position

def createdEvent (intake : Intake) : OutboxEvent :=
  { id := intake.fresh.ids (1 + intake.command.sources.length)
    tenantId := intake.tenantId
    aggregateId := intake.fresh.ids 0
    eventType := EventType.requestCreated.value
    payload := intake.sourcesPayload
    createdAt := intake.fresh.clock (2 + intake.command.sources.length)
    publishedAt := none }

def readyPayload (taskId requestId source : String) : Json :=
  .obj [
    ("task_id", .str taskId),
    ("request_id", .str requestId),
    ("source", .str source)]

def readyEvent (intake : Intake) (source : String) (position : Nat) :
    OutboxEvent :=
  { id := intake.fresh.ids (2 + intake.command.sources.length + position)
    tenantId := intake.tenantId
    aggregateId := intake.taskId position
    eventType := EventType.taskReady.value
    payload := readyPayload (intake.taskId position) (intake.fresh.ids 0) source
    createdAt :=
      intake.fresh.clock (3 + intake.command.sources.length + position)
    publishedAt := none }

def events (intake : Intake) : List OutboxEvent :=
  intake.createdEvent ::
    intake.command.sources.zipIdx.map fun (source, position) =>
      intake.readyEvent source position

/-- Every id that the call's rows use. -/
def drawnIds (intake : Intake) : List String :=
  (List.range (2 + 2 * intake.command.sources.length)).map intake.fresh.ids

/-- The rows that one successful `create_privacy_request` commits. -/
def insertRows (runtime : Runtime) (intake : Intake) (database : Database) :
    Database :=
  { database with
    requests := database.requests ++ [intake.request runtime]
    tasks := database.tasks ++ intake.tasks
    outbox := database.outbox ++ intake.events
    audit := appendAudit runtime intake.tenantId (intake.fresh.ids 0)
      AuditAction.requestCreated.value intake.sourcesPayload database.audit }

end Intake

/-! ## The rows of one intake -/

namespace Intake

theorem mem_drawnIds_zero (intake : Intake) :
    intake.fresh.ids 0 ∈ intake.drawnIds := by
  refine List.mem_map.mpr ⟨0, ?_, rfl⟩
  exact List.mem_range.mpr (by omega)

theorem mem_tasks {intake : Intake} {task : RequestTask}
    (member : task ∈ intake.tasks) :
    ∃ position < intake.command.sources.length,
      task.id = intake.taskId position ∧
        task.requestId = intake.fresh.ids 0 := by
  obtain ⟨⟨source, position⟩, inZip, rfl⟩ := List.mem_map.mp member
  refine ⟨position, ?_, rfl, rfl⟩
  have bound := List.snd_lt_of_mem_zipIdx inZip
  simpa using bound

theorem mem_events {intake : Intake} {event : OutboxEvent}
    (member : event ∈ intake.events) :
    event = intake.createdEvent ∨
      ∃ source, ∃ position < intake.command.sources.length,
        event = intake.readyEvent source position := by
  rcases List.mem_cons.mp member with isCreated | isReady
  · exact .inl isCreated
  · obtain ⟨⟨source, position⟩, inZip, rfl⟩ := List.mem_map.mp isReady
    have bound := List.snd_lt_of_mem_zipIdx inZip
    exact .inr ⟨source, position, by simpa using bound, rfl⟩

theorem mem_drawnIds {intake : Intake} {index : Nat}
    (bound : index < 2 + 2 * intake.command.sources.length) :
    intake.fresh.ids index ∈ intake.drawnIds :=
  List.mem_map.mpr ⟨index, List.mem_range.mpr bound, rfl⟩

theorem task_id_mem {intake : Intake} {task : RequestTask}
    (member : task ∈ intake.tasks) : task.id ∈ intake.drawnIds := by
  obtain ⟨position, bound, identified, _⟩ := mem_tasks member
  rw [identified]
  exact mem_drawnIds (by omega)

theorem event_id_mem {intake : Intake} {event : OutboxEvent}
    (member : event ∈ intake.events) : event.id ∈ intake.drawnIds := by
  rcases mem_events member with rfl | ⟨source, position, bound, rfl⟩
  · exact mem_drawnIds (by omega)
  · exact mem_drawnIds (by omega)

theorem tasks_map_source (intake : Intake) :
    intake.tasks.map RequestTask.source = intake.command.sources := by
  have composed : intake.tasks.map RequestTask.source =
      intake.command.sources.zipIdx.map Prod.fst := by
    simp [tasks, task, Function.comp_def]
  rw [composed, List.zipIdx_map_fst]

theorem tasks_map_id (intake : Intake) :
    intake.tasks.map RequestTask.id =
      (List.range intake.command.sources.length).map intake.taskId := by
  rw [List.range_eq_range', ← List.zipIdx_map_snd 0 intake.command.sources,
    List.map_map, tasks, List.map_map]
  rfl

theorem nodup_taskIds {intake : Intake} (nodup : intake.drawnIds.Nodup) :
    ((List.range intake.command.sources.length).map intake.taskId).Nodup := by
  apply List.Nodup.map_on _ List.nodup_range
  intro left leftMember right rightMember same
  have leftBound := List.mem_range.mp leftMember
  have rightBound := List.mem_range.mp rightMember
  have equal := List.inj_on_of_nodup_map nodup
    (List.mem_range.mpr (by omega : 1 + left < _))
    (List.mem_range.mpr (by omega : 1 + right < _)) same
  omega

end Intake

/-- The task a message is about: `str(body.get("payload", {}).get("task_id",
""))`.  The services write only strings there. -/
def payloadTaskId (payload : Json) : String :=
  match payload.get? "task_id" with
  | some (.str taskId) => taskId
  | _ => ""

@[simp] theorem payloadTaskId_readyPayload (taskId requestId source : String) :
    payloadTaskId (Intake.readyPayload taskId requestId source) = taskId := by
  simp [payloadTaskId, Intake.readyPayload, Json.get?]

/-! ## Values for concrete runs -/

def demoRuntime : Runtime :=
  { sha256 := fun _ => "h", lower := id }

/-- An intake whose ids are runs of one letter. -/
def demoIntake (letter : Char) (kind : RequestKind) (sources : List String)
    (sourcesNodup : sources.Nodup)
    (sourcesAllowed : ∀ source ∈ sources, source ∈ allowedSources) : Intake :=
  { tenantId := "t"
    idempotencyKey := "k"
    command := {
      subjectKey := "abc"
      kind
      sources
      subjectBounds := by decide
      sourcesNodup
      sourcesAllowed }
    fresh := {
      ids := fun index => String.ofList (List.replicate (index + 1) letter)
      clock := fun index => index } }

theorem demoSource_nodup : ["jobs"].Nodup := List.nodup_singleton "jobs"

theorem demoSource_allowed : ∀ source ∈ ["jobs"], source ∈ allowedSources := by
  decide

theorem demoSources_nodup : ["jobs", "profile"].Nodup := by decide

theorem demoSources_allowed :
    ∀ source ∈ ["jobs", "profile"], source ∈ allowedSources := by
  decide

end FleetPrivacy
