import FleetPrivacy.SequentialCompletion

/-!
# Whole calls as runs

`relay_outbox_once`, `process_once` and the handling of one message with the
database backend, each as a single function of the tables, the artifact store
and the queue, for a time when nothing else is in progress.  Every history of
such calls is a run of the control plane, so that whatever holds of all
interleavings holds of the histories.
-/

namespace FleetPrivacy

open Transition

/-! ## Calls that nothing overlaps -/

/-- What all processes share. -/
structure Service where
  storage : Storage
  queue : List QueueMessage
  deriving DecidableEq

def Service.initial : Service := { storage := .initial, queue := [] }

/-- How a publish ends; one that raises may still have reached the queue. -/
inductive PublishAnswer where
  | confirmed (now : Time)
  | lost
  | refused
  deriving DecidableEq, Repr

def PublishAnswer.messages (event : OutboxEvent) :
    PublishAnswer → List QueueMessage
  | .confirmed _ | .lost => [⟨eventEnvelope event, false⟩]
  | .refused => []

def PublishAnswer.marks (event : OutboxEvent) :
    PublishAnswer → List (String × Time)
  | .confirmed now => [(event.id, now)]
  | .lost | .refused => []

/-- The loop of `relay_outbox_once`. -/
def publishEvents (answers : Nat → PublishAnswer) :
    Nat → List OutboxEvent → List QueueMessage × List (String × Time)
  | _, [] => ([], [])
  | position, event :: events =>
      let rest := publishEvents answers (position + 1) events
      ((answers position).messages event ++ rest.1,
        (answers position).marks event ++ rest.2)

/-- `relay_outbox_once`: the service afterwards, and the numbers of claimed,
published and failed events. -/
def relayOutboxOnce (deployment : Deployment) (batchSize : Nat)
    (answers : Nat → PublishAnswer) (service : Service) :
    Service × Nat × Nat × Nat :=
  let database := service.storage.database
  let events := relayBatch deployment.dialect batchSize [] database.outbox
  let (messages, sent) := publishEvents answers 0 events
  ({ storage := { service.storage with
       database := { database with
         outbox := markPublished sent database.outbox } }
     queue := service.queue ++ messages },
    events.length, sent.length, events.length - sent.length)

/-- The values that one handling of a message draws. -/
structure HandlingDraws where
  claimedAt : Time
  task : TaskDraws

/-- `handle_task_envelope` with `source_executor=None`: the storage it leaves
and its result, or no result when the claim's update raised. -/
def handleTaskEnvelope (deployment : Deployment) (workerId : String)
    (draws : HandlingDraws) (body : Envelope) (storage : Storage) :
    Storage × Option Bool :=
  match body.taskId? with
  | none => (storage, some true)
  | some taskId =>
      match Table.get RequestTask.id taskId storage.database.tasks with
      | none => (storage, some true)
      | some task =>
          if task.status.Terminal then
            ((refreshRequestStatus deployment draws.task task.requestId .empty
              storage).1, some true)
          else if task.incomparable deployment.dialect then (storage, none)
          else
            match claimMessageTask deployment.settings workerId taskId
                draws.claimedAt storage.database with
            | none => (storage, some false)
            | some database =>
                if deployment.dialect = .postgresql ∧
                    leaseOwnerWidth < workerId.length then (storage, none)
                else
                  let executed := executeTask deployment draws.task workerId
                    taskId .empty { storage with database }
                  (executed.1, some executed.2.2)

/-- What one handling can come to. -/
inductive Handling (deployment : Deployment) (workerId : String)
    (draws : HandlingDraws) (body : Envelope) (storage : Storage) :
    Storage × Option Bool → Prop where
  | unnamed : body.taskId? = none →
      Handling deployment workerId draws body storage (storage, some true)
  | missing (taskId : String) : body.taskId? = some taskId →
      storage.database.task taskId = none →
      Handling deployment workerId draws body storage (storage, some true)
  | duplicate (taskId : String) (task : RequestTask) :
      body.taskId? = some taskId → storage.database.task taskId = some task →
      task.status.Terminal →
      Handling deployment workerId draws body storage
        ((refreshRequestStatus deployment draws.task task.requestId .empty
          storage).1, some true)
  | raised (taskId : String) (task : RequestTask) :
      body.taskId? = some taskId → storage.database.task taskId = some task →
      task.incomparable deployment.dialect = true →
      Handling deployment workerId draws body storage (storage, none)
  | busy (taskId : String) (task : RequestTask) :
      body.taskId? = some taskId → storage.database.task taskId = some task →
      ¬ task.status.Terminal →
      claimMessageTask deployment.settings workerId taskId draws.claimedAt
        storage.database = none →
      Handling deployment workerId draws body storage (storage, some false)
  | rejected (taskId : String) (task : RequestTask) :
      body.taskId? = some taskId → storage.database.task taskId = some task →
      deployment.dialect = .postgresql ∧ leaseOwnerWidth < workerId.length →
      Handling deployment workerId draws body storage (storage, none)
  | executed (taskId : String) (task : RequestTask) (database : Database) :
      body.taskId? = some taskId → storage.database.task taskId = some task →
      ¬ task.status.Terminal →
      claimMessageTask deployment.settings workerId taskId draws.claimedAt
        storage.database = some database →
      Handling deployment workerId draws body storage
        ((executeTask deployment draws.task workerId taskId .empty
          { storage with database }).1,
          some (executeTask deployment draws.task workerId taskId .empty
            { storage with database }).2.2)

theorem handleTaskEnvelope_handling (deployment : Deployment)
    (workerId : String) (draws : HandlingDraws) (body : Envelope)
    (storage : Storage) :
    Handling deployment workerId draws body storage
      (handleTaskEnvelope deployment workerId draws body storage) := by
  unfold handleTaskEnvelope
  split
  next named => exact .unnamed named
  next taskId named =>
    split
    next missing => exact .missing taskId named missing
    next task stored =>
      split
      next terminal => exact .duplicate taskId task named stored terminal
      next open_ =>
        split
        next incomparable =>
          exact .raised taskId task named stored incomparable
        next =>
          split
          next busy => exact .busy taskId task named stored open_ busy
          next database claimed =>
            split
            next wide => exact .rejected taskId task named stored wide
            next =>
              exact .executed taskId task database named stored open_ claimed

/-- `consume_task_message`: a message whose handler returned true is
acknowledged. -/
def consumeTaskMessage (deployment : Deployment) (workerId : String)
    (draws : HandlingDraws) (slot : Nat) (service : Service) :
    Option Service := do
  let message ← service.queue[slot]?
  let handled := handleTaskEnvelope deployment workerId draws message.body
    service.storage
  some {
    storage := handled.1
    queue :=
      if handled.2 = some true then
        service.queue.set slot { message with acked := true }
      else service.queue }

inductive ServiceCall where
  | create (intake : Intake)
  | relayOutboxOnce (batchSize : Nat) (answers : Nat → PublishAnswer)
  | processOnce (arguments : ClaimArguments) (fresh : Fresh)
  | consumeTaskMessage (workerId : String) (slot : Nat) (draws : HandlingDraws)

/-- The ids that a pass may draw for so many tasks from a position on. -/
def Fresh.notices (fresh : Fresh) (position count : Nat) : List String :=
  (List.range' position count).map fresh.ids

/-- One call; `uuid4` draws new ids. -/
def serviceStep (deployment : Deployment) (service : Service) :
    ServiceCall → Option Service
  | .create intake =>
      if decide intake.drawnIds.Nodup &&
          service.storage.database.unused intake.drawnIds &&
          (findByIdempotency service.storage.database intake.tenantId
            intake.idempotencyKey).isNone then
        some { service with
          storage := { service.storage with
            database := intake.insertRows deployment.runtime
              service.storage.database } }
      else none
  | .relayOutboxOnce batchSize answers =>
      some (relayOutboxOnce deployment batchSize answers service).1
  | .processOnce arguments fresh =>
      let notices := fresh.notices 0 service.storage.database.tasks.length
      if decide notices.Nodup && service.storage.database.unused notices then
        some { service with
          storage :=
            (processOnce deployment arguments fresh service.storage).1 }
      else none
  | .consumeTaskMessage workerId slot draws =>
      if service.storage.database.unused [draws.task.noticeId] then
        consumeTaskMessage deployment workerId draws slot service
      else none

/-! ## Between two calls -/

theorem State.reaches_of_step {deployment : Deployment} {state next : State}
    {action : Action} (stepped : step deployment state action = some next) :
    Reaches (step deployment) Always state next :=
  .single trivial stepped

def State.service (state : State) : Service :=
  { storage := { database := state.database, artifacts := state.artifacts }
    queue := state.queue }

/-- No refresh holds a row lock, and every relay is closed. -/
structure State.Idle (state : State) : Prop where
  unlocked : ∀ call ∈ state.calls, ∀ requestId,
    call.phase.refreshes requestId = false
  relays : ∀ relay ∈ state.relays, relay.closed = true

namespace State.Idle

variable {state : State}

theorem rowFree (idle : state.Idle) (dialect : Dialect) (requestId : String) :
    state.rowFree dialect requestId = true :=
  State.rowFree_iff.mpr
    (.inr fun call member => idle.unlocked call member requestId)

theorem startable (idle : state.Idle) (dialect : Dialect)
    (requestIds : List String) : state.startable dialect requestIds = true := by
  rw [State.startable, List.all_eq_true]
  intro request _
  rw [idle.rowFree, Bool.or_true]

theorem lockedRows (idle : state.Idle) : state.lockedRows = [] := by
  apply List.flatMap_eq_nil_iff.mpr
  intro relay member
  rw [idle.relays relay member]
  rfl

/-- One call moves to a phase without a lock. -/
theorem put (idle : state.Idle) {index : Nat} {call : Call}
    (unlocked : ∀ requestId, call.phase.refreshes requestId = false) :
    (state.put index call).Idle := by
  refine ⟨?_, idle.relays⟩
  intro other member
  rcases State.mem_put member with new | old
  · rw [new]
    exact unlocked
  · exact idle.unlocked other old

end State.Idle

/-! ## Steps of one call -/

/-- The call has moved on, and has written the tables and the artifacts. -/
def State.advance (state : State) (index : Nat) (call : Call)
    (storage : Storage) : State :=
  { (state.put index call) with
    database := storage.database
    artifacts := storage.artifacts }

section Advance

variable (deployment : Deployment) {state : State} {index : Nat} {call : Call}

@[simp] theorem State.advance_database (storage : Storage) :
    (state.advance index call storage).database = storage.database := rfl

@[simp] theorem State.advance_service (storage : Storage) :
    (state.advance index call storage).service =
      { storage, queue := state.queue } := rfl

theorem State.advance_advance (other : Call) (storage later : Storage) :
    (state.advance index call storage).advance index other later =
      state.advance index other later := by
  simp [advance, put]

theorem State.advance_self (found : state.calls[index]? = some call)
    (other : Call) (storage : Storage) :
    (state.advance index other storage).calls[index]? = some other :=
  State.put_self found other

theorem State.Idle.advance (idle : state.Idle)
    (unlocked : ∀ requestId, call.phase.refreshes requestId = false)
    (storage : Storage) : (state.advance index call storage).Idle :=
  ⟨(idle.put unlocked).unlocked, idle.relays⟩

private theorem refreshCommit_steps (found : state.calls[index]? = some call)
    {requestId : String} {own reference : Option String}
    {request : PrivacyRequest}
    (phase : call.phase = .refreshing requestId own reference)
    (held : call.session.request requestId = some request)
    (uploaded : request.needsArtifact (call.session.derivedStatus requestId) =
      true → reference.isSome = true) (draws : TaskDraws)
    (unused : state.database.unused [draws.noticeId] = true) :
    step deployment state
        (.refreshCommit index draws.noticeId draws.refreshedAt) =
      some (state.advance index
        { call with
          session := call.session.putRequest (request.refresh
            (call.session.derivedStatus requestId) reference)
          phase := call.resume (call.refreshResult own) }
        { database := commitRefresh deployment.runtime call.session request
            reference draws.noticeId draws.refreshedAt state.database
          artifacts := state.artifacts }) := by
  have ready : (!request.needsArtifact (call.session.derivedStatus requestId) ||
      reference.isSome) = true := by
    cases needed : request.needsArtifact
        (call.session.derivedStatus requestId) with
    | false => rfl
    | true => exact uploaded needed
  simp only [step, refreshCommitStep, found, Option.bind_eq_bind,
    Option.bind_some, phase, held, ready, unused, Bool.and_self, if_true]
  rfl

/-- `refresh_request_status` after its select. -/
def finishRefresh (deployment : Deployment) (draws : TaskDraws)
    (requestId : String) (request : PrivacyRequest) (session : Session)
    (storage : Storage) : Storage × Session :=
  let status := session.derivedStatus requestId
  let written := writeArtifact deployment request (session.tasksOf requestId)
    draws.generatedAt storage.artifacts
  let needed := request.needsArtifact status
  let reference := if needed then some written.2 else none
  ({ database := commitRefresh deployment.runtime session request reference
        draws.noticeId draws.refreshedAt storage.database
     artifacts := if needed then written.1 else storage.artifacts },
    session.putRequest (request.refresh status reference))

theorem refreshRequestStatus_eq {session : Session} (storage : Storage)
    {requestId : String} {request : PrivacyRequest}
    (held : (session.loadRefresh storage.database requestId).request requestId =
      some request) (draws : TaskDraws) :
    refreshRequestStatus deployment draws requestId session storage =
      finishRefresh deployment draws requestId request
        (session.loadRefresh storage.database requestId) storage := by
  simp only [refreshRequestStatus, held]
  rfl

/-- A refresh that holds its row, up to its commit. -/
private theorem locked_reaches (found : state.calls[index]? = some call)
    {requestId : String} {own : Option String} {request : PrivacyRequest}
    (phase : call.phase = .refreshing requestId own none)
    (held : call.session.request requestId = some request)
    (draws : TaskDraws)
    (unused : state.database.unused [draws.noticeId] = true) :
    Reaches (step deployment) Always state (state.advance index
      { call with
        session := (finishRefresh deployment draws requestId request
          call.session state.service.storage).2
        phase := call.resume (call.refreshResult own) }
      (finishRefresh deployment draws requestId request call.session
        state.service.storage).1) := by
  by_cases uploads : request.needsArtifact
      (call.session.derivedStatus requestId) = true
  · let written := writeArtifact deployment request
      (call.session.tasksOf requestId) draws.generatedAt state.artifacts
    have uploaded : step deployment state
        (.upload index true draws.generatedAt) = some (state.advance index
          { call with phase := .refreshing requestId own (some written.2) }
          { database := state.database, artifacts := written.1 }) := by
      simp only [step, uploadStep, found, Option.bind_eq_bind,
        Option.bind_some, phase, held]
      rw [if_pos uploads, if_pos trivial]
      rfl
    have committed := refreshCommit_steps deployment
      (State.advance_self found
        { call with phase := .refreshing requestId own (some written.2) }
        { database := state.database, artifacts := written.1 })
      rfl held (fun _ => rfl) draws unused
    rw [State.advance_advance] at committed
    rw [finishRefresh, if_pos uploads, if_pos uploads]
    exact (Reaches.single trivial uploaded).trans
      (.single trivial committed)
  · rw [finishRefresh, if_neg uploads, if_neg uploads]
    exact .single trivial (refreshCommit_steps deployment found phase held
      (fun needed => absurd needed uploads) draws unused)

/-- A refresh after a recorded outcome. -/
private theorem refresh_reaches (idle : state.Idle)
    (found : state.calls[index]? = some call) {taskId : String}
    {task : RequestTask} (phase : call.phase = .recorded taskId)
    (heldTask : call.session.task taskId = some task)
    {request : PrivacyRequest}
    (held : (call.session.loadRefresh state.database task.requestId).request
      task.requestId = some request) (draws : TaskDraws)
    (unused : state.database.unused [draws.noticeId] = true) :
    Reaches (step deployment) Always state (state.advance index
      { call with
        session := (refreshRequestStatus deployment draws task.requestId
          call.session state.service.storage).2
        phase := call.resume (decide (task.status = .succeeded)) }
      (refreshRequestStatus deployment draws task.requestId call.session
        state.service.storage).1) := by
  let locked : Call :=
    { call with
      session := call.session.loadRefresh state.database task.requestId
      phase := .refreshing task.requestId (some taskId) none }
  have selected : step deployment state (.refreshSelect index) =
      some (state.advance index locked state.service.storage) := by
    simp only [step, refreshSelectStep, found, Option.bind_eq_bind,
      Option.bind_some, phase, heldTask, idle.rowFree, if_true]
    rfl
  have later := locked_reaches deployment
    (State.advance_self found locked state.service.storage) rfl held draws
    unused
  have result : locked.refreshResult (some taskId) =
      decide (task.status = .succeeded) := by
    have kept : locked.session.task taskId = some task := by
      rw [Session.loadRefresh_task, heldTask]
      rfl
    simp only [Call.refreshResult, kept]
  rw [State.advance_advance, result] at later
  have whole := refreshRequestStatus_eq deployment state.service.storage held
    draws
  rw [whole]
  exact (Reaches.single trivial selected).trans later

/-- Ids that no row uses are unused after rows have been rewritten. -/
theorem Database.unused_of_revises {before after : Database}
    {task : RequestTask → RequestTask}
    {request : PrivacyRequest → PrivacyRequest}
    (revises : Database.Revises before after task request) {ids : List String}
    (outbox : ∀ event ∈ after.outbox, event ∈ before.outbox ∨ event.id ∉ ids)
    (unused : before.unused ids = true) : after.unused ids = true := by
  obtain ⟨nonempty, requests, tasks, events⟩ := unused_iff.mp unused
  refine unused_iff.mpr ⟨nonempty, ?_, ?_, ?_⟩
  · intro row member
    rw [revises.requests] at member
    obtain ⟨old, inTable, rfl⟩ := List.mem_map.mp member
    rw [(revises.requestKey old).1]
    exact requests old inTable
  · intro row member
    rw [revises.tasks] at member
    obtain ⟨old, inTable, rfl⟩ := List.mem_map.mp member
    rw [(revises.taskKey old).1]
    exact tasks old inTable
  · intro event member
    rcases outbox event member with old | new
    · exact events event old
    · exact new

/-- The work without a source executor is an admissible one. -/
private theorem databaseWork_admissible (database : Database)
    (task : RequestTask) (request : PrivacyRequest) (deletedAt : Time) :
    (databaseWork database task request deletedAt).admissible database false
        task request = true ∧
      (databaseWork database task request deletedAt).ending ≠ .cancelled := by
  unfold databaseWork Work.admissible
  cases kind : request.kind with
  | access => simp [executeAccess]
  | delete =>
      unfold executeDelete
      by_cases left : (remainingRecords database task request
          deletedAt).length = 0
      · simp [left]
      · simp [left]

/-- The session after the select of `execute_task`. -/
def Session.loadExecution (session : Session) (database : Database)
    (row : RequestTask) : Session :=
  (session.loadTasks [row]).loadRequests (database.requests.filter
    fun request => decide (request.id = row.requestId))

/-- It has a copy of the task and of its request. -/
private theorem loadExecution_held {session : Session} {database : Database}
    (formed : database.WellFormed)
    (copies : session.Copies RequestTask.Shows PrivacyRequest.Shows database)
    {row : RequestTask} (member : row ∈ database.tasks) :
    ∃ task request,
      (session.loadExecution database row).task row.id = some task ∧
      task.identity = row.identity ∧
      (session.loadExecution database row).request task.requestId =
        some request ∧
      request.id = task.requestId := by
  have inTable : ∀ other ∈ [row], other ∈ database.tasks := by
    intro other isRow
    rw [List.mem_singleton.mp isRow]
    exact member
  have loaded : (session.loadExecution database row).Copies RequestTask.Shows
      PrivacyRequest.Shows database :=
    (copies.loadTasks (fun _ => rfl) formed inTable).loadRequests
      (fun _ => ⟨rfl, id⟩) formed
      fun request inFilter => (List.mem_filter.mp inFilter).1
  obtain ⟨task, heldTask⟩ :
      ∃ task, (session.loadExecution database row).task row.id = some task := by
    cases held : session.task row.id with
    | some copy => exact ⟨copy, by simp [Session.loadExecution,
        Session.loadRequests, Session.loadTasks, held]⟩
    | none => exact ⟨row, by simp [Session.loadExecution,
        Session.loadRequests, Session.loadTasks, held, Table.get]⟩
  obtain ⟨stored, found, shows⟩ := loaded.task row.id task heldTask
  rw [formed.task_eq member] at found
  cases found
  have own : task.requestId = row.requestId :=
    congrArg (fun columns => columns.2.1) shows
  obtain ⟨owner, owned⟩ := formed.owned row member
  obtain ⟨request, heldRequest⟩ : ∃ request,
      (session.loadExecution database row).request row.requestId =
        some request := by
    cases held : session.request row.requestId with
    | some copy => exact ⟨copy, by simp [Session.loadExecution,
        Session.loadRequests, Session.loadTasks, held]⟩
    | none =>
        refine ⟨owner, ?_⟩
        simp only [Session.loadExecution, Session.loadRequests,
          Session.loadTasks, held]
        exact formed.get_select owned
  obtain ⟨stored, found, same, _⟩ :=
    loaded.request row.requestId request heldRequest
  have key : request.id = stored.id := congrArg Prod.fst same
  refine ⟨task, request, heldTask, shows, ?_, ?_⟩
  · rw [own]
    exact heldRequest
  · rw [own, key]
    exact (Database.request_mem found).2

private theorem work_steps (found : state.calls[index]? = some call)
    {taskId : String} (phase : call.phase = .working taskId)
    {task : RequestTask} {request : PrivacyRequest}
    (heldTask : call.session.task taskId = some task)
    (heldRequest : call.session.request task.requestId = some request)
    {work : Work}
    (admissible : work.admissible state.database call.executor task request =
      true) :
    step deployment state (.work index work) =
      some (state.advance index { call with phase := .worked taskId work }
        state.service.storage) := by
  simp only [step, workStep, found, Option.bind_eq_bind, Option.bind_some,
    phase, heldTask, heldRequest, admissible, if_true]
  rfl

private theorem recordTask_steps (idle : state.Idle)
    (found : state.calls[index]? = some call) {taskId : String} {work : Work}
    (phase : call.phase = .worked taskId work)
    (uncancelled : work.ending ≠ .cancelled)
    {task : RequestTask} {request : PrivacyRequest}
    (heldTask : call.session.task taskId = some task)
    (heldRequest : call.session.request task.requestId = some request)
    (now : Time) :
    step deployment state (.recordTask index now) =
      some (state.advance index
        { call with
          session := (call.session.putTask (task.settle deployment.settings
            call.executor work.ending)).putRequest request.verify
          phase := .recorded taskId }
        { database := recordOutcome deployment.runtime deployment.settings
            call.executor work task request now state.database
          artifacts := state.artifacts }) := by
  simp only [step, recordTaskStep, found, Option.bind_eq_bind,
    Option.bind_some, phase, heldTask, heldRequest, idle.rowFree, or_true,
    if_true, if_neg uncancelled]
  rfl

/-- The lease is lost. -/
private theorem selectTask_missing (found : state.calls[index]? = some call)
    {taskId : String} {todo : List String} (phase : call.phase = .ready)
    (rest : call.todo = taskId :: todo)
    (missing : (state.database.tasks.find? fun task =>
      decide (task.id = taskId) && task.leasedBy call.workerId) = none) :
    step deployment state (.selectTask index) =
      some (state.advance index { call with todo, phase := call.resume false }
        state.service.storage) := by
  simp only [step, selectTaskStep, found, Option.bind_eq_bind,
    Option.bind_some, phase, rest, missing]
  rfl

/-- `execute_task` on a selected row, up to the commit of its outcome. -/
private theorem outcome_reaches (idle : state.Idle)
    (found : state.calls[index]? = some call) {row : RequestTask}
    {todo : List String} (phase : call.phase = .ready)
    (rest : call.todo = row.id :: todo) (backend : call.executor = false)
    (selected : (state.database.tasks.find? fun task =>
      decide (task.id = row.id) && task.leasedBy call.workerId) = some row)
    {session : Session}
    (isSession : call.session.loadExecution state.database row = session)
    {task : RequestTask} {request : PrivacyRequest}
    (heldTask : session.task row.id = some task)
    (heldRequest : session.request task.requestId = some request)
    (draws : TaskDraws) {work : Work}
    (isWork : databaseWork state.database task request draws.deletedAt =
      work) :
    Reaches (step deployment) Always state (state.advance index
      { call with
        session := (session.putTask (task.settle deployment.settings
          call.executor work.ending)).putRequest request.verify
        todo
        phase := .recorded row.id }
      { database := recordOutcome deployment.runtime deployment.settings
          call.executor work task request draws.recordedAt state.database
        artifacts := state.artifacts }) := by
  obtain ⟨admissible, uncancelled⟩ :=
    databaseWork_admissible state.database task request draws.deletedAt
  rw [isWork, ← backend] at admissible
  rw [isWork] at uncancelled
  let working : Call :=
    { call with session, todo, phase := .working row.id }
  have first : step deployment state (.selectTask index) =
      some (state.advance index working state.service.storage) := by
    simp only [step, selectTaskStep, found, Option.bind_eq_bind,
      Option.bind_some, phase, rest, selected]
    rw [← Session.loadExecution, isSession]
    rfl
  have second := work_steps deployment
    (State.advance_self found working state.service.storage) rfl heldTask
    heldRequest admissible
  rw [State.advance_advance] at second
  have third := recordTask_steps deployment
    (idle.advance (fun _ => rfl) state.service.storage)
    (State.advance_self found { working with phase := .worked row.id work }
      state.service.storage) rfl uncancelled heldTask heldRequest
    draws.recordedAt
  rw [State.advance_advance] at third
  exact (Reaches.single trivial first).trans
    ((Reaches.single trivial second).trans (.single trivial third))

theorem executeTask_none {deployment : Deployment} {storage : Storage}
    {workerId taskId : String}
    (missing : (storage.database.tasks.find? fun task =>
      decide (task.id = taskId) && task.leasedBy workerId) = none)
    (draws : TaskDraws) (session : Session) :
    executeTask deployment draws workerId taskId session storage =
      (storage, session, false) := by
  simp only [executeTask, missing]

theorem executeTask_some {deployment : Deployment} {storage : Storage}
    {workerId taskId : String} {row : RequestTask}
    (selected : (storage.database.tasks.find? fun task =>
      decide (task.id = taskId) && task.leasedBy workerId) = some row)
    (draws : TaskDraws) (session : Session) {task : RequestTask}
    {request : PrivacyRequest}
    (heldTask : (session.loadExecution storage.database row).task taskId =
      some task)
    (heldRequest : (session.loadExecution storage.database row).request
      task.requestId = some request) {work : Work}
    (isWork : databaseWork storage.database task request draws.deletedAt =
      work) :
    executeTask deployment draws workerId taskId session storage =
      ((refreshRequestStatus deployment draws task.requestId
          (((session.loadExecution storage.database row).putTask
            (task.settle deployment.settings false work.ending)).putRequest
              request.verify)
          { storage with
            database := recordOutcome deployment.runtime deployment.settings
              false work task request draws.recordedAt storage.database }).1,
        (refreshRequestStatus deployment draws task.requestId
          (((session.loadExecution storage.database row).putTask
            (task.settle deployment.settings false work.ending)).putRequest
              request.verify)
          { storage with
            database := recordOutcome deployment.runtime deployment.settings
              false work task request draws.recordedAt storage.database }).2,
        decide ((task.settle deployment.settings false work.ending).status =
          .succeeded)) := by
  rw [Session.loadExecution] at heldTask heldRequest
  simp only [executeTask, selected, heldTask, heldRequest, isWork]
  rfl

/-- `execute_task` on a claimed task, up to the return of its refresh. -/
private theorem execute_reaches (idle : state.Idle) (grounded : state.Grounded)
    (found : state.calls[index]? = some call) {taskId : String}
    {todo : List String} (phase : call.phase = .ready)
    (rest : call.todo = taskId :: todo) (backend : call.executor = false)
    (draws : TaskDraws)
    (unused : state.database.unused [draws.noticeId] = true) :
    Reaches (step deployment) Always state (state.advance index
      { call with
        session := (executeTask deployment draws call.workerId taskId
          call.session state.service.storage).2.1
        todo
        phase := call.resume (executeTask deployment draws call.workerId taskId
          call.session state.service.storage).2.2 }
      (executeTask deployment draws call.workerId taskId call.session
        state.service.storage).1) := by
  have formed := grounded.tidy.tables
  have copies := grounded.copies call (List.mem_of_getElem? found)
  obtain ⟨workerId, message, executor, session, claimed, _⟩ := call
  cases backend
  cases rest
  cases selected : state.database.tasks.find? fun task =>
      decide (task.id = taskId) && task.leasedBy workerId with
  | none =>
      have stepped := selectTask_missing deployment found phase rfl selected
      rw [executeTask_none selected draws session]
      exact .single trivial stepped
  | some row =>
      have member := List.mem_of_find?_eq_some selected
      obtain ⟨rfl, leased⟩ : row.id = taskId ∧ row.leasedBy workerId = true := by
        simpa using List.find?_some selected
      obtain ⟨task, request, heldTask, same, heldRequest, key⟩ :=
        loadExecution_held formed copies member
      obtain ⟨work, isWork⟩ : ∃ work, databaseWork state.database task request
          draws.deletedAt = work := ⟨_, rfl⟩
      have recorded := outcome_reaches deployment idle found phase rfl rfl
        selected rfl heldTask heldRequest draws isWork
      rw [executeTask_some selected draws session heldTask heldRequest isWork]
      let settled := task.settle deployment.settings false work.ending
      let outcome : Storage :=
        { database := recordOutcome deployment.runtime deployment.settings
            false work task request draws.recordedAt state.database
          artifacts := state.artifacts }
      let after : Call :=
        { workerId, message, executor := false
          session := ((session.loadExecution state.database row).putTask
            settled).putRequest request.verify
          todo
          phase := .recorded row.id }
      have keptTask : after.session.task row.id = some settled := by
        have own : task.id = row.id := congrArg Prod.fst same
        simp [after, settled, Session.putRequest, Session.putTask, own]
      have owned : settled.requestId = task.requestId :=
        task.settle_requestId ..
      have keptRequest : (after.session.loadRefresh outcome.database
          settled.requestId).request settled.requestId =
            some request.verify := by
        rw [Session.loadRefresh_request, owned]
        simp [after, Session.putRequest, key]
      have still : outcome.database.unused [draws.noticeId] = true :=
        Database.unused_of_revises (Database.recordOutcome_revises ..)
          (fun event member => .inl member) unused
      have refreshed := refresh_reaches deployment
        (idle.advance (fun _ => rfl) outcome) (State.advance_self found after
          outcome) rfl keptTask keptRequest draws still
      rw [State.advance_advance, owned] at refreshed
      exact recorded.trans refreshed

end Advance

/-! ## Ids that one execution leaves unused -/

theorem refreshRequestStatus_outbox (deployment : Deployment)
    (draws : TaskDraws) (requestId : String) (session : Session)
    (storage : Storage) :
    ∀ event ∈ (refreshRequestStatus deployment draws requestId session
      storage).1.database.outbox,
      event ∈ storage.database.outbox ∨ event.id = draws.noticeId := by
  intro event member
  unfold refreshRequestStatus at member
  dsimp only at member
  split at member
  next => exact .inl member
  next =>
    unfold commitRefresh at member
    dsimp only at member
    split at member
    next =>
      rcases List.mem_append.mp member with old | new
      · exact .inl old
      · exact .inr (congrArg OutboxEvent.id (List.mem_singleton.mp new))
    next => exact .inl member

theorem executeTask_outbox (deployment : Deployment) (draws : TaskDraws)
    (workerId taskId : String) (session : Session) (storage : Storage) :
    ∀ event ∈ (executeTask deployment draws workerId taskId session
      storage).1.database.outbox,
      event ∈ storage.database.outbox ∨ event.id = draws.noticeId := by
  intro event member
  unfold executeTask at member
  split at member
  next => exact .inl member
  next =>
    dsimp only at member
    split at member
    next => exact .inl member
    next task _ =>
      split at member
      next => exact .inl member
      next request _ =>
        have later := refreshRequestStatus_outbox deployment draws
          task.requestId _ _ event member
        exact later

theorem executeTask_unused (deployment : Deployment) {draws : TaskDraws}
    (workerId taskId : String) (session : Session) {storage : Storage}
    {ids : List String} (other : draws.noticeId ∉ ids)
    (unused : storage.database.unused ids = true) :
    (executeTask deployment draws workerId taskId session
      storage).1.database.unused ids = true := by
  rcases executeTask_cases deployment session storage draws workerId taskId with
    same | ⟨task, work, rewrites⟩
  · rw [same]
    exact unused
  · obtain ⟨_, revises, _⟩ := rewrites.revises
    refine Database.unused_of_revises revises ?_ unused
    intro event member
    refine (executeTask_outbox deployment draws workerId taskId session storage
      event member).imp_right ?_
    intro new
    rw [new]
    exact other

theorem Database.unused_subset {database : Database} {ids fewer : List String}
    (subset : fewer ⊆ ids) (unused : database.unused ids = true) :
    database.unused fewer = true := by
  obtain ⟨nonempty, requests, tasks, events⟩ := unused_iff.mp unused
  exact unused_iff.mpr ⟨fun member => nonempty (subset member),
    fun row inTable member => requests row inTable (subset member),
    fun row inTable member => tasks row inTable (subset member),
    fun event inTable member => events event inTable (subset member)⟩

/-! ## Whole calls -/

/-- Actions lead to a state between two calls that shows the service. -/
def State.Serves (deployment : Deployment) (state : State)
    (service : Service) : Prop :=
  ∃ after, Reaches (step deployment) Always state after ∧ after.Idle ∧
    after.service = service

section Calls

variable (deployment : Deployment) {state : State}

theorem State.Serves.of_reaches {deployment : Deployment} {middle : State}
    {service : Service} (reaches : Reaches (step deployment) Always state middle)
    (serves : middle.Serves deployment service) :
    state.Serves deployment service := by
  obtain ⟨after, later, idle, same⟩ := serves
  exact ⟨after, reaches.trans later, idle, same⟩

theorem State.Idle.serves (idle : state.Idle) :
    state.Serves deployment state.service :=
  ⟨state, .refl state, idle, rfl⟩

theorem State.grounded_of_reaches {deployment : Deployment} {after : State}
    (grounded : state.Grounded)
    (reaches : Reaches (step deployment) Always state after) :
    after.Grounded :=
  reaches.invariant (fun holds _ stepped => State.Grounded.step holds stepped)
    grounded

/-- The loop of `process_once`. -/
private theorem executeTasks_serves (grounded : state.Grounded)
    (idle : state.Idle) {index : Nat} {call : Call}
    (found : state.calls[index]? = some call) {taskIds : List String}
    (phase : call.phase = .ready) (rest : call.todo = taskIds)
    (backend : call.executor = false) (batch : call.message = none)
    (fresh : Fresh) {position : Nat}
    (nodup : (fresh.notices position taskIds.length).Nodup)
    (unused : state.database.unused
      (fresh.notices position taskIds.length) = true) :
    state.Serves deployment
      { storage := (executeTasks deployment fresh call.workerId position taskIds
          call.session state.service.storage).1
        queue := state.queue } := by
  induction taskIds generalizing state call position with
  | nil => exact idle.serves deployment
  | cons taskId taskIds induction =>
      rw [List.length_cons, Fresh.notices, List.range'_succ, List.map_cons]
        at nodup unused
      obtain ⟨isNew, later⟩ := List.nodup_cons.mp nodup
      have executed := execute_reaches deployment idle grounded found phase
        rest backend (fresh.task position)
        (Database.unused_subset (by simp [Fresh.task]) unused)
      have ready : call.resume (executeTask deployment (fresh.task position)
          call.workerId taskId call.session state.service.storage).2.2 =
            .ready := by
        rw [Call.resume, batch]
      rw [ready] at executed
      have next := induction (State.grounded_of_reaches grounded executed)
        (idle.advance (fun _ => rfl) _) (State.advance_self found _ _) rfl rfl
        backend batch later
        (executeTask_unused deployment call.workerId taskId call.session isNew
          (Database.unused_subset (List.subset_cons_self _ _) unused))
      exact .of_reaches executed next

theorem Database.Claims.length_le {database : Database} {now : Time}
    {taskIds : List String} (claims : database.Claims now taskIds) :
    taskIds.length ≤ database.tasks.length := by
  have subset : taskIds ⊆ database.tasks.map RequestTask.id := by
    intro taskId member
    obtain ⟨row, inTable, same, _⟩ := claims.claimable taskId member
    exact List.mem_map.mpr ⟨row, inTable, same⟩
  have fewer := (List.subperm_of_subset claims.nodup subset).length_le
  rw [List.length_map] at fewer
  exact fewer

/-- A pass that does not raise. -/
private theorem processOnce_serves (grounded : state.Grounded)
    (idle : state.Idle) (arguments : ClaimArguments) (fresh : Fresh)
    (nodup : (fresh.notices 0 state.database.tasks.length).Nodup)
    (unused : state.database.unused
      (fresh.notices 0 state.database.tasks.length) = true) :
    state.Serves deployment
      { storage := (processOnce deployment arguments fresh
          state.service.storage).1
        queue := state.queue } := by
  obtain ⟨session, taskIds, claimed, claims, _⟩ := claimTasks_spec
    deployment.settings deployment.dialect arguments
      grounded.tidy.tables.taskIds
  have whole : processOnce deployment arguments fresh state.service.storage =
      if arguments.rejected deployment.dialect taskIds then
        (state.service.storage, none)
      else
        let executed := executeTasks deployment fresh arguments.workerId 0
          taskIds session { state.service.storage with
            database := state.database.markClaimed taskIds arguments.workerId
              (arguments.leaseUntil deployment.settings) arguments.now }
        (executed.1, some (taskIds.length, executed.2)) := by
    unfold FleetPrivacy.processOnce
    rw [show state.service.storage.database = state.database from rfl, claimed]
  rw [whole]
  split
  next => exact idle.serves deployment
  next =>
    let opened : Call :=
      { workerId := arguments.workerId, message := none, executor := false
        session, todo := taskIds, phase := .ready }
    let middle : State := { state with
      database := state.database.markClaimed taskIds arguments.workerId
        (arguments.leaseUntil deployment.settings) arguments.now
      calls := state.calls ++ [opened] }
    have stepped : step deployment state (.processOnce arguments) =
        some middle := by
      simp only [step, processOnceStep, claimed, idle.startable, if_true]
      rfl
    have reached : Reaches (step deployment) Always state middle :=
      .single trivial stepped
    have still : middle.Idle := by
      refine ⟨?_, idle.relays⟩
      intro call member
      rcases List.mem_append.mp member with old | new
      · exact idle.unlocked call old
      · rw [List.mem_singleton.mp new]
        exact fun _ => rfl
    have found : middle.calls[state.calls.length]? = some opened := by
      rw [getElem?_append_slot, if_pos rfl]
    have fewer : (fresh.notices 0 taskIds.length).Sublist
        (fresh.notices 0 state.database.tasks.length) := by
      apply List.Sublist.map fresh.ids
      rw [← List.range_eq_range', ← List.range_eq_range']
      exact List.range_sublist.mpr claims.length_le
    exact .of_reaches reached (executeTasks_serves deployment
      (State.grounded_of_reaches grounded reached) still found rfl rfl rfl rfl
      fresh (nodup.sublist fewer)
      (Database.unused_of_revises (Database.markClaimed_revises ..)
        (fun event member => .inl member)
        (Database.unused_subset fewer.subset unused)))

private theorem publish_step {index : Nat} {relay : Relay}
    (found : state.relays[index]? = some relay) (open_ : relay.closed = false)
    {event : OutboxEvent} {remaining : List OutboxEvent}
    (rest : relay.remaining = event :: remaining) (answer : PublishAnswer) :
    Reaches (step deployment) Always state
      { (state.putRelay index { relay with
          remaining, sent := relay.sent ++ answer.marks event }) with
        queue := state.queue ++ answer.messages event } := by
  have stepped : ∀ (accepted confirmed : Bool) (now : Time),
      (confirmed && !accepted) = false →
      step deployment state (.relayPublish index accepted confirmed now) =
        some { (state.putRelay index { relay with
            remaining
            sent := relay.sent ++
              (if confirmed then [(event.id, now)] else []) }) with
          queue := state.queue ++
            (if accepted then [⟨eventEnvelope event, false⟩] else []) } := by
    intro accepted confirmed now sound
    simp only [step, relayPublishStep, found, Option.bind_eq_bind,
      Option.bind_some, open_, rest, sound]
    rfl
  cases answer with
  | confirmed now => exact .single trivial (stepped true true now rfl)
  | lost => exact .single trivial (stepped true false 0 rfl)
  | refused => exact .single trivial (stepped false false 0 rfl)

/-- The messages and the marks of the loop of a relay. -/
private theorem publish_reaches (answers : Nat → PublishAnswer)
    {index : Nat} {relay : Relay} (found : state.relays[index]? = some relay)
    (open_ : relay.closed = false) {remaining : List OutboxEvent}
    (rest : relay.remaining = remaining) (position : Nat) :
    Reaches (step deployment) Always state
      { (state.putRelay index { relay with
          remaining := []
          sent := relay.sent ++ (publishEvents answers position remaining).2
          closed := false }) with
        queue := state.queue ++
          (publishEvents answers position remaining).1 } := by
  induction remaining generalizing state relay position with
  | nil =>
      have same : state.relays.set index relay = state.relays := by
        apply List.ext_getElem?
        intro other
        rw [getElem?_set_slot found]
        split
        next here => rw [here, found]
        next => rfl
      obtain ⟨held, _, sent, _⟩ := relay
      cases open_
      cases rest
      simp only [publishEvents, List.append_nil, State.putRelay, same]
      exact .refl state
  | cons event remaining induction =>
      have first := publish_step deployment found open_ rest
        (answers position)
      let next : Relay := { relay with
        remaining
        sent := relay.sent ++ (answers position).marks event }
      let middle : State := { (state.putRelay index next) with
        queue := state.queue ++ (answers position).messages event }
      have located : middle.relays[index]? = some next :=
        (getElem?_set_slot found next index).trans (if_pos rfl)
      have later := induction located open_ rfl (position + 1)
      simp only [middle, next, State.putRelay, List.set_set,
        List.append_assoc] at later
      exact first.trans later

private theorem relayOutboxOnce_serves (idle : state.Idle) (batchSize : Nat)
    (answers : Nat → PublishAnswer) :
    state.Serves deployment
      (relayOutboxOnce deployment batchSize answers state.service).1 := by
  let events := relayBatch deployment.dialect batchSize []
    state.database.outbox
  let opened : Relay :=
    { held := events.map OutboxEvent.id, remaining := events, sent := []
      closed := false }
  let selected : State := { state with relays := state.relays ++ [opened] }
  have first : step deployment state (.relaySelect batchSize) =
      some selected := by
    simp only [step, relaySelectStep, idle.lockedRows]
    rfl
  have located : selected.relays[state.relays.length]? = some opened :=
    (getElem?_append_slot _ _ _).trans (if_pos rfl)
  have published := publish_reaches deployment answers located rfl
    (rfl : opened.remaining = events) 0
  let finished : Relay := { opened with
    remaining := [], sent := (publishEvents answers 0 events).2 }
  let middle : State := { (selected.putRelay state.relays.length finished) with
    queue := state.queue ++ (publishEvents answers 0 events).1 }
  have waiting : middle.relays[state.relays.length]? = some finished :=
    (getElem?_set_slot located _ _).trans (if_pos rfl)
  have committed : step deployment middle
      (.relayCommit state.relays.length) =
      some { (middle.putRelay state.relays.length
          { finished with closed := true }) with
        database := { state.database with
          outbox := markPublished (publishEvents answers 0 events).2
            state.database.outbox } } := by
    simp only [step, relayCommitStep, waiting, Option.bind_eq_bind,
      Option.bind_some]
    rfl
  refine ⟨_, (Reaches.single trivial first).trans
    (published.trans (.single trivial committed)), ⟨idle.unlocked, ?_⟩, rfl⟩
  intro relay member
  obtain ⟨position, place⟩ := List.getElem?_of_mem member
  have written : (middle.relays.set state.relays.length
      { finished with closed := true })[position]? = some relay := place
  rw [getElem?_set_slot waiting] at written
  split at written
  next =>
    cases written
    rfl
  next other =>
    have before : (selected.relays.set state.relays.length
        finished)[position]? = some relay := written
    rw [getElem?_set_slot located, if_neg other] at before
    rw [getElem?_append_slot, if_neg other] at before
    exact idle.relays relay (List.mem_of_getElem? before)

/-- The handler returned; `true` acknowledges the message. -/
private theorem returned_serves (idle : state.Idle) {index slot : Nat}
    {call : Call} (found : state.calls[index]? = some call)
    {message : QueueMessage} (delivered : state.queue[slot]? = some message)
    {after : Call} {storage : Storage}
    (reached : Reaches (step deployment) Always state
      (state.advance index after storage))
    (ofMessage : after.message = some slot) {result : Bool}
    (phase : after.phase = .returned result) :
    state.Serves deployment
      { storage
        queue :=
          if some result = some true then
            state.queue.set slot { message with acked := true }
          else state.queue } := by
  have located := State.advance_self found after storage
  have still : (state.advance index after storage).Idle :=
    idle.advance (by rw [phase]; exact fun _ => rfl) storage
  cases result with
  | false =>
      rw [if_neg (by simp)]
      exact .of_reaches reached (still.serves deployment)
  | true =>
      rw [if_pos rfl]
      have stepped : step deployment (state.advance index after storage)
          (.ack index) =
          some { ((state.advance index after storage).put index
              after.close) with
            queue := state.queue.set slot { message with acked := true } } := by
        have waiting : (state.advance index after storage).queue[slot]? =
            some message := delivered
        simp only [step, ackStep, located, Option.bind_eq_bind,
          Option.bind_some, ofMessage, waiting, phase, if_true]
        rfl
      have closed : ((state.advance index after storage).put index
          after.close).Idle := still.put fun _ => rfl
      exact ⟨_, reached.trans (.single trivial stepped),
        ⟨closed.unlocked, idle.relays⟩, rfl⟩

/-- A terminal duplicate. -/
private theorem duplicate_serves (grounded : state.Grounded) (idle : state.Idle)
    {index slot : Nat} {call : Call}
    (found : state.calls[index]? = some call)
    (ofMessage : call.message = some slot) {message : QueueMessage}
    (delivered : state.queue[slot]? = some message) {taskId : String}
    (phase : call.phase = .duplicate taskId) {task : RequestTask}
    (stored : Table.get RequestTask.id taskId state.database.tasks = some task)
    (draws : TaskDraws)
    (unused : state.database.unused [draws.noticeId] = true) :
    state.Serves deployment
      { storage := (refreshRequestStatus deployment draws task.requestId .empty
          state.service.storage).1
        queue :=
          if some true = some true then
            state.queue.set slot { message with acked := true }
          else state.queue } := by
  obtain ⟨owner, owned⟩ :=
    grounded.tidy.tables.owned task (Table.get_mem stored).1
  have formed : state.service.storage.database.WellFormed :=
    grounded.tidy.tables
  obtain ⟨_, request, held⟩ := Session.empty.loadRefresh_held formed owned
  let locked : Call :=
    { call with
      session := Session.empty.loadRefresh state.database task.requestId
      phase := .refreshing task.requestId none none }
  have selected : step deployment state (.refreshSelect index) =
      some (state.advance index locked state.service.storage) := by
    simp only [step, refreshSelectStep, found, Option.bind_eq_bind,
      Option.bind_some, phase, stored, idle.rowFree, if_true]
    rfl
  have committed := locked_reaches deployment
    (State.advance_self found locked state.service.storage) rfl held draws
    unused
  have resumed : locked.resume (locked.refreshResult none) =
      .returned true := by
    rw [Call.resume, show locked.message = some slot from ofMessage]
    rfl
  rw [State.advance_advance] at committed
  rw [refreshRequestStatus_eq deployment state.service.storage held draws]
  exact returned_serves deployment idle found delivered
    ((Reaches.single trivial selected).trans committed) ofMessage resumed

/-- A message whose task can be claimed. -/
private theorem claimed_serves (grounded : state.Grounded) (idle : state.Idle)
    {index slot : Nat} {call : Call}
    (found : state.calls[index]? = some call)
    (ofMessage : call.message = some slot) {message : QueueMessage}
    (delivered : state.queue[slot]? = some message) {taskId : String}
    {now : Time} (phase : call.phase = .claiming taskId now)
    (backend : call.executor = false) {database : Database}
    (claimed : claimMessageTask deployment.settings call.workerId taskId now
      state.database = some database) (draws : TaskDraws)
    (unused : state.database.unused [draws.noticeId] = true) :
    state.Serves deployment
      { storage := (executeTask deployment draws call.workerId taskId .empty
          { state.service.storage with database }).1
        queue :=
          if some (executeTask deployment draws call.workerId taskId .empty
              { state.service.storage with database }).2.2 = some true then
            state.queue.set slot { message with acked := true }
          else state.queue } := by
  obtain ⟨marked, _⟩ :=
    claimMessageTask_eq_some grounded.tidy.tables.taskIds claimed
  let ready : Call :=
    { call with session := .empty, todo := [taskId], phase := .ready }
  let storage : Storage := { state.service.storage with database }
  have stepped : step deployment state (.messageClaim index) =
      some (state.advance index ready storage) := by
    simp only [step, messageClaimStep, found, Option.bind_eq_bind,
      Option.bind_some, phase, claimed, idle.startable, if_true]
    rfl
  have reached : Reaches (step deployment) Always state
      (state.advance index ready storage) := .single trivial stepped
  have still : database.unused [draws.noticeId] = true := by
    rw [marked]
    exact Database.unused_of_revises (Database.markClaimed_revises ..)
      (fun event member => .inl member) unused
  have executed := execute_reaches deployment
    (idle.advance (fun _ => rfl) storage)
    (State.grounded_of_reaches grounded reached)
    (State.advance_self found ready storage) rfl rfl backend draws still
  have resumed : ∀ result, ready.resume result = .returned result := by
    intro result
    rw [Call.resume, show ready.message = some slot from ofMessage]
  rw [State.advance_advance] at executed
  exact returned_serves deployment idle found delivered
    (reached.trans executed) ofMessage (resumed _)

/-- Where a handling stands once it has read the task row, unless it raises. -/
def Envelope.readPhase (body : Envelope) (database : Database) (now : Time) :
    Phase :=
  match body.taskId? with
  | none => .returned true
  | some taskId =>
      match Table.get RequestTask.id taskId database.tasks with
      | none => .returned true
      | some task =>
          if task.status.Terminal then .duplicate taskId
          else .claiming taskId now

private theorem messageGet_steps {index slot : Nat} {call : Call}
    (found : state.calls[index]? = some call)
    (ofMessage : call.message = some slot) {message : QueueMessage}
    (delivered : state.queue[slot]? = some message)
    (phase : call.phase = .received)
    (comparable : ∀ taskId task, message.body.taskId? = some taskId →
      state.database.task taskId = some task →
      task.incomparable deployment.dialect = false) (now : Time) :
    step deployment state (.messageGet index now) =
      some (state.advance index
        { call with phase := message.body.readPhase state.database now }
        state.service.storage) := by
  obtain ⟨workerId, _, executor, session, todo, _⟩ := call
  cases ofMessage
  cases phase
  simp only [step, messageGetStep, found, Option.bind_eq_bind,
    Option.bind_some, delivered, if_true]
  unfold Envelope.readPhase
  cases named : message.body.taskId? with
  | none => rfl
  | some taskId =>
      dsimp only
      cases stored : Table.get RequestTask.id taskId state.database.tasks with
      | none => rfl
      | some task =>
          have plain := comparable taskId task named stored
          dsimp only
          split
          next => rfl
          next =>
            rw [plain]
            rfl

private theorem messageClaim_refused {index : Nat} {call : Call}
    (found : state.calls[index]? = some call) {taskId : String} {now : Time}
    (phase : call.phase = .claiming taskId now)
    (refused : claimMessageTask deployment.settings call.workerId taskId now
      state.database = none) :
    step deployment state (.messageClaim index) =
      some (state.advance index { call with phase := .returned false }
        state.service.storage) := by
  simp only [step, messageClaimStep, found, Option.bind_eq_bind,
    Option.bind_some, phase, refused]
  rfl

private theorem handleTaskEnvelope_of_incomparable {workerId : String}
    {draws : HandlingDraws} {body : Envelope} {storage : Storage}
    {taskId : String} {task : RequestTask}
    (named : body.taskId? = some taskId)
    (stored : storage.database.task taskId = some task)
    (incomparable : task.incomparable deployment.dialect = true) :
    handleTaskEnvelope deployment workerId draws body storage =
      (storage, none) := by
  have open_ := RequestTask.not_terminal_of_incomparable incomparable
  have located : Table.get RequestTask.id taskId storage.database.tasks =
      some task := stored
  simp only [handleTaskEnvelope, named, located, if_neg open_,
    if_pos incomparable]

/-- A delivered message, up to its acknowledgement. -/
private theorem handled_serves (grounded : state.Grounded) (idle : state.Idle)
    {index slot : Nat} {call : Call}
    (found : state.calls[index]? = some call)
    (ofMessage : call.message = some slot) {message : QueueMessage}
    (delivered : state.queue[slot]? = some message)
    (phase : call.phase = .received) (backend : call.executor = false)
    (draws : HandlingDraws)
    (unused : state.database.unused [draws.task.noticeId] = true) :
    state.Serves deployment
      { storage := (handleTaskEnvelope deployment call.workerId draws
          message.body state.service.storage).1
        queue :=
          if (handleTaskEnvelope deployment call.workerId draws message.body
              state.service.storage).2 = some true then
            state.queue.set slot { message with acked := true }
          else state.queue } := by
  by_cases raises : ∃ taskId task, message.body.taskId? = some taskId ∧
      state.database.task taskId = some task ∧
      task.incomparable deployment.dialect = true
  · obtain ⟨taskId, task, named, stored, incomparable⟩ := raises
    have raised : handleTaskEnvelope deployment call.workerId draws
        message.body state.service.storage = (state.service.storage, none) :=
      handleTaskEnvelope_of_incomparable deployment named stored incomparable
    rw [raised]
    exact idle.serves deployment
  have comparable : ∀ taskId task, message.body.taskId? = some taskId →
      state.database.task taskId = some task →
      task.incomparable deployment.dialect = false := by
    intro taskId task named stored
    rw [Bool.eq_false_iff]
    exact fun incomparable => raises ⟨taskId, task, named, stored, incomparable⟩
  have read := messageGet_steps deployment found ofMessage delivered phase
    comparable draws.claimedAt
  have answered : ∀ {result : Bool},
      message.body.readPhase state.database draws.claimedAt =
        .returned result →
      handleTaskEnvelope deployment call.workerId draws message.body
        state.service.storage = (state.service.storage, some result) →
      state.Serves deployment
        { storage := (handleTaskEnvelope deployment call.workerId draws
            message.body state.service.storage).1
          queue :=
            if (handleTaskEnvelope deployment call.workerId draws message.body
                state.service.storage).2 = some true then
              state.queue.set slot { message with acked := true }
            else state.queue } := by
    intro result shown whole
    rw [whole]
    exact returned_serves deployment idle found delivered
      (.single trivial read) ofMessage shown
  cases named : message.body.taskId? with
  | none =>
      refine @answered true ?_ ?_
      · simp only [Envelope.readPhase, named]
      · simp only [handleTaskEnvelope, named]
  | some taskId =>
      cases stored : Table.get RequestTask.id taskId state.database.tasks with
      | none =>
          refine @answered true ?_ ?_
          · simp only [Envelope.readPhase, named, stored]
          · simp only [handleTaskEnvelope, named, State.service, stored]
      | some task =>
          by_cases terminal : task.status.Terminal
          · have shown : message.body.readPhase state.database
                draws.claimedAt = .duplicate taskId := by
              simp only [Envelope.readPhase, named, stored, if_pos terminal]
            have whole : handleTaskEnvelope deployment call.workerId draws
                message.body state.service.storage =
                ((refreshRequestStatus deployment draws.task task.requestId
                  .empty state.service.storage).1, some true) := by
              simp only [handleTaskEnvelope, named, State.service, stored,
                if_pos terminal]
            rw [shown] at read
            have moved := State.reaches_of_step read
            rw [whole]
            exact .of_reaches moved (duplicate_serves deployment
              (State.grounded_of_reaches grounded moved)
              (idle.advance (fun _ => rfl) _) (State.advance_self found _ _)
              ofMessage delivered rfl stored draws.task unused)
          · have shown : message.body.readPhase state.database
                draws.claimedAt = .claiming taskId draws.claimedAt := by
              simp only [Envelope.readPhase, named, stored, if_neg terminal]
            rw [shown] at read
            have moved := State.reaches_of_step read
            have located := State.advance_self found { call with
              phase := .claiming taskId draws.claimedAt } state.service.storage
            simp only [handleTaskEnvelope, named, State.service, stored,
              if_neg terminal, comparable taskId task named stored,
              Bool.false_eq_true, if_false]
            cases claimed : claimMessageTask deployment.settings call.workerId
                taskId draws.claimedAt state.database with
            | none =>
                have refused := messageClaim_refused deployment located rfl
                  claimed
                rw [State.advance_advance] at refused
                exact returned_serves deployment idle found delivered
                  (moved.trans (.single trivial refused)) ofMessage rfl
            | some database =>
                dsimp only
                split
                next => exact idle.serves deployment
                next =>
                  exact .of_reaches moved (claimed_serves deployment
                    (State.grounded_of_reaches grounded moved)
                    (idle.advance (fun _ => rfl) _) located ofMessage delivered
                    rfl backend claimed draws.task unused)

/-- One whole call. -/
theorem serviceStep_serves (grounded : state.Grounded) (idle : state.Idle)
    {call : ServiceCall} {next : Service}
    (stepped : serviceStep deployment state.service call = some next) :
    state.Serves deployment next := by
  cases call with
  | create intake =>
      simp only [serviceStep] at stepped
      split at stepped
      next enabled =>
        cases stepped
        have created : step deployment state (.create intake) =
            some { state with
              database := intake.insertRows deployment.runtime
                state.database } :=
          if_pos enabled
        exact ⟨_, .single trivial created, ⟨idle.unlocked, idle.relays⟩, rfl⟩
      next => cases stepped
  | relayOutboxOnce batchSize answers =>
      cases stepped
      exact relayOutboxOnce_serves deployment idle batchSize answers
  | processOnce arguments fresh =>
      simp only [serviceStep] at stepped
      split at stepped
      next enabled =>
        cases stepped
        rw [Bool.and_eq_true, decide_eq_true_iff] at enabled
        exact processOnce_serves deployment grounded idle arguments fresh
          enabled.1 enabled.2
      next => cases stepped
  | consumeTaskMessage workerId slot draws =>
      simp only [serviceStep] at stepped
      split at stepped
      next unused =>
        simp only [consumeTaskMessage] at stepped
        obtain ⟨message, delivered, written⟩ :=
          Option.bind_eq_some_iff.mp stepped
        cases written
        obtain ⟨bound, _⟩ := List.getElem?_eq_some_iff.mp delivered
        let opened : Call :=
          { workerId, message := some slot, executor := false
            session := .empty, todo := [], phase := .received }
        let middle : State := { state with calls := state.calls ++ [opened] }
        have delivery : step deployment state
            (.deliver workerId slot false) = some middle := by
          have inQueue : slot < state.queue.length := bound
          simp only [step, deliverStep, inQueue, if_true]
          rfl
        have reached : Reaches (step deployment) Always state middle :=
          .single trivial delivery
        have still : middle.Idle := by
          refine ⟨?_, idle.relays⟩
          intro other member
          rcases List.mem_append.mp member with old | new
          · exact idle.unlocked other old
          · rw [List.mem_singleton.mp new]
            exact fun _ => rfl
        have found : middle.calls[state.calls.length]? = some opened :=
          (getElem?_append_slot _ _ _).trans (if_pos rfl)
        exact .of_reaches reached (handled_serves deployment
          (State.grounded_of_reaches grounded reached) still found rfl
          delivered rfl rfl draws unused)
      next => cases stepped

/-- Whole calls one after another. -/
theorem serviceRuns_serve (grounded : state.Grounded) (idle : state.Idle)
    {calls : List ServiceCall} {service : Service}
    (execution : Runs (serviceStep deployment) Always state.service calls
      service) :
    state.Serves deployment service := by
  obtain ⟨start, isStart⟩ : ∃ start, state.service = start := ⟨_, rfl⟩
  rw [isStart] at execution
  induction execution generalizing state with
  | nil => exact ⟨state, .refl state, idle, isStart⟩
  | cons _ stepped _ induction =>
      rw [← isStart] at stepped
      obtain ⟨middle, first, still, same⟩ :=
        serviceStep_serves deployment grounded idle stepped
      obtain ⟨after, later, finished, served⟩ := induction
        (State.grounded_of_reaches grounded first) still same
      exact ⟨after, first.trans later, finished, served⟩

end Calls

theorem State.idle_of_all {state : State}
    (calls : (state.calls.all fun call =>
      match call.phase with
      | .refreshing .. => false
      | _ => true) = true)
    (relays : state.relays.all Relay.closed = true) : state.Idle := by
  constructor
  · intro call member requestId
    have unlocked := List.all_eq_true.mp calls call member
    cases phase : call.phase with
    | refreshing =>
        rw [phase] at unlocked
        cases unlocked
    | _ => rfl
  · exact List.all_eq_true.mp relays

end FleetPrivacy
