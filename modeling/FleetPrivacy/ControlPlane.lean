import FleetPrivacy.Artifacts
import FleetPrivacy.Library.Transition
import FleetPrivacy.QueueWorker

/-!
# The control plane as a transition system

Any number of relays, message consumers and `process_once` calls over one
database and one queue.  Every action is one committed transaction, one select
or one external effect of a call, so the runs are all interleavings of these.
On PostgreSQL a transaction holds the lock of a request row from the
`FOR UPDATE` select of `refresh_request_status` to its commit, and other writers
of that row wait.  SQLite renders no `FOR UPDATE`: there refreshes of one
request overlap.
-/

namespace FleetPrivacy

open Transition

/-- Where a call stands. -/
inductive Phase where
  /-- `handle_task_envelope` before it reads the task row. -/
  | received
  /-- `claim_message_task` saw an open task at its clock reading. -/
  | claiming (taskId : String) (now : Time)
  /-- `TERMINAL_DUPLICATE`: the refresh is next. -/
  | duplicate (taskId : String)
  /-- The next claimed task is next. -/
  | ready
  /-- `execute_task` selected the task; the source work runs. -/
  | working (taskId : String)
  | worked (taskId : String) (work : Work)
  /-- The outcome is committed; the refresh is next. -/
  | recorded (taskId : String)
  /-- Between the locking select and the commit of the refresh. -/
  | refreshing (requestId : String) (own reference : Option String)
  /-- The handler returned; `true` acknowledges the message. -/
  | returned (result : Bool)
  | closed
  deriving DecidableEq

/-- A message consumer (`message` is its slot in the queue) or a
`process_once` call, with the session it works in and the claimed tasks it has
not reached. -/
structure Call where
  workerId : String
  message : Option Nat
  executor : Bool
  session : Session
  todo : List String
  phase : Phase

/-- The session is closed without a commit. -/
def Call.close (call : Call) : Call :=
  { call with session := .empty, todo := [], phase := .closed }

/-- Where `execute_task` returns to. -/
def Call.resume (call : Call) (result : Bool) : Phase :=
  match call.message with
  | some _ => .returned result
  | none => .ready

structure State where
  database : Database
  queue : List QueueMessage
  relays : List Relay
  artifacts : ArtifactStore
  calls : List Call

def State.initial : State :=
  { database := .empty, queue := [], relays := [], artifacts := [], calls := [] }

inductive Action where
  | create (intake : Intake)
  | relaySelect (batchSize : Nat)
  | relayPublish (relay : Nat) (accepted confirmed : Bool) (now : Time)
  | relayCommit (relay : Nat)
  | relayCrash (relay : Nat)
  | deliver (workerId : String) (message : Nat) (executor : Bool)
  | messageGet (call : Nat) (now : Time)
  | messageClaim (call : Nat)
  | processOnce (arguments : ClaimArguments)
  | selectTask (call : Nat)
  | work (call : Nat) (work : Work)
  | recordTask (call : Nat) (now : Time)
  | refreshSelect (call : Nat)
  | upload (call : Nat) (succeeded : Bool) (now : Time)
  | refreshCommit (call : Nat) (noticeId : String) (now : Time)
  | ack (call : Nat)
  | crash (call : Nat)
  | extendLease (workerId taskId : String) (now : Time)

def Phase.refreshes (requestId : String) : Phase → Bool
  | .refreshing locked _ _ => decide (locked = requestId)
  | _ => false

/-- No refresh holds the lock of the request row. -/
def State.rowFree (state : State) (dialect : Dialect)
    (requestId : String) : Bool :=
  decide (dialect = .sqlite) ||
    state.calls.all fun call => !call.phase.refreshes requestId

/-- The rows that `startRequests` updates are not locked. -/
def State.startable (state : State) (dialect : Dialect)
    (requestIds : List String) : Bool :=
  state.database.requests.all fun request =>
    !(decide (request.id ∈ requestIds) && decide (request.status = .queued)) ||
      state.rowFree dialect request.id

def State.put (state : State) (index : Nat) (call : Call) : State :=
  { state with calls := state.calls.set index call }

def State.putRelay (state : State) (index : Nat) (relay : Relay) : State :=
  { state with relays := state.relays.set index relay }

/-- `uuid4` returns non-empty ids that no row uses. -/
def Database.unused (database : Database) (ids : List String) : Bool :=
  decide ("" ∉ ids) &&
    database.requests.all (fun request => decide (request.id ∉ ids)) &&
    database.tasks.all (fun task => decide (task.id ∉ ids)) &&
    database.outbox.all fun event => decide (event.id ∉ ids)

/-- Rows that open relays have locked. -/
def State.lockedRows (state : State) : List String :=
  state.relays.flatMap fun relay => if relay.closed then [] else relay.held

/-- What `execute_task` returns after its refresh, from the copy it holds; a
refresh for a duplicate returns true. -/
def Call.refreshResult (call : Call) (own : Option String) : Bool :=
  match own with
  | none => true
  | some taskId =>
      match call.session.task taskId with
      | some task => decide (task.status = .succeeded)
      | none => false

section Step

variable (deployment : Deployment)

def createStep (state : State) (intake : Intake) : Option State :=
  if decide intake.drawnIds.Nodup && state.database.unused intake.drawnIds &&
      (findByIdempotency state.database intake.tenantId
        intake.idempotencyKey).isNone then
    some { state with
      database := intake.insertRows deployment.runtime state.database }
  else none

def relaySelectStep (state : State) (batchSize : Nat) : State :=
  let rows := relayBatch deployment.dialect batchSize state.lockedRows
    state.database.outbox
  { state with relays := state.relays ++ [{
      held := rows.map OutboxEvent.id
      remaining := rows
      sent := []
      closed := false }] }

/-- A publish that raises may still have reached the queue. -/
def relayPublishStep (state : State) (index : Nat)
    (accepted confirmed : Bool) (now : Time) : Option State := do
  let relay ← state.relays[index]?
  match relay.closed, relay.remaining with
  | false, event :: remaining =>
      if confirmed && !accepted then none
      else
        some { (state.putRelay index { relay with
            remaining
            sent := relay.sent ++
              (if confirmed then [(event.id, now)] else []) }) with
          queue := state.queue ++
            (if accepted then [⟨eventEnvelope event, false⟩] else []) }
  | _, _ => none

def relayCommitStep (state : State) (index : Nat) : Option State := do
  let relay ← state.relays[index]?
  match relay.closed, relay.remaining with
  | false, [] =>
      some { (state.putRelay index { relay with closed := true }) with
        database := { state.database with
          outbox := markPublished relay.sent state.database.outbox } }
  | _, _ => none

def relayCrashStep (state : State) (index : Nat) : Option State := do
  let relay ← state.relays[index]?
  some (state.putRelay index { relay with closed := true })

def deliverStep (state : State) (workerId : String) (message : Nat)
    (executor : Bool) : Option State :=
  if message < state.queue.length then
    some { state with calls := state.calls ++ [{
      workerId, message := some message, executor, session := .empty
      todo := [], phase := .received }] }
  else none

def messageGetStep (state : State) (index : Nat) (now : Time) :
    Option State := do
  let call ← state.calls[index]?
  let slot ← call.message
  let message ← state.queue[slot]?
  if call.phase = .received then
    match message.body.taskId? with
    | none => some (state.put index { call with phase := .returned true })
    | some taskId =>
        match Table.get RequestTask.id taskId state.database.tasks with
        | none => some (state.put index { call with phase := .returned true })
        | some task =>
            if task.status.Terminal then
              some (state.put index { call with phase := .duplicate taskId })
            else if task.incomparable deployment.dialect then
              some (state.put index call.close)
            else
              some (state.put index { call with phase := .claiming taskId now })
  else none

def messageClaimStep (state : State) (index : Nat) : Option State := do
  let call ← state.calls[index]?
  match call.phase with
  | .claiming taskId now =>
      match claimMessageTask deployment.settings call.workerId taskId now
          state.database with
      | none => some (state.put index { call with phase := .returned false })
      | some database =>
          if state.startable deployment.dialect
              (state.database.requestIdsOf [taskId]) then
            some { (state.put index { call with
                session := .empty, todo := [taskId], phase := .ready }) with
              database }
          else none
  | _ => none

def processOnceStep (state : State) (arguments : ClaimArguments) :
    Option State :=
  let (database, session, taskIds) := claimTasks deployment.settings
    deployment.dialect arguments state.database
  if state.startable deployment.dialect
      (state.database.requestIdsOf taskIds) then
    some { state with
      database
      calls := state.calls ++ [{
        workerId := arguments.workerId, message := none, executor := false
        session, todo := taskIds, phase := .ready }] }
  else none

def selectTaskStep (state : State) (index : Nat) : Option State := do
  let call ← state.calls[index]?
  match call.phase, call.todo with
  | .ready, taskId :: todo =>
      match state.database.tasks.find? fun task =>
          decide (task.id = taskId) && task.leasedBy call.workerId with
      | none =>
          some (state.put index { call with todo, phase := call.resume false })
      | some row =>
          let session := (call.session.loadTasks [row]).loadRequests
            (state.database.requests.filter fun request =>
              decide (request.id = row.requestId))
          some (state.put index { call with
            session, todo, phase := .working taskId })
  | _, _ => none

def workStep (state : State) (index : Nat) (work : Work) : Option State := do
  let call ← state.calls[index]?
  match call.phase with
  | .working taskId => do
      let task ← call.session.task taskId
      let request ← call.session.request task.requestId
      if work.admissible state.database call.executor task request then
        some (state.put index { call with phase := .worked taskId work })
      else none
  | _ => none

def recordTaskStep (state : State) (index : Nat) (now : Time) :
    Option State := do
  let call ← state.calls[index]?
  match call.phase with
  | .worked taskId work => do
      let task ← call.session.task taskId
      let request ← call.session.request task.requestId
      if request.verify = request ∨
          state.rowFree deployment.dialect request.id then
        let database := recordOutcome deployment.runtime deployment.settings
          call.executor work task request now state.database
        let settled := task.settle deployment.settings call.executor work.ending
        let session := (call.session.putTask settled).putRequest request.verify
        if work.ending = .cancelled then
          some { (state.put index call.close) with database }
        else
          some { (state.put index { call with
              session, phase := .recorded taskId }) with database }
      else none
  | _ => none

def refreshSelectStep (state : State) (index : Nat) : Option State := do
  let call ← state.calls[index]?
  match call.phase with
  | .recorded taskId => do
      let task ← call.session.task taskId
      if state.rowFree deployment.dialect task.requestId then
        some (state.put index { call with
          session := call.session.loadRefresh state.database task.requestId
          phase := .refreshing task.requestId (some taskId) none })
      else none
  | .duplicate taskId =>
      match Table.get RequestTask.id taskId state.database.tasks with
      | none => some (state.put index { call with phase := .returned true })
      | some task =>
          if state.rowFree deployment.dialect task.requestId then
            some (state.put index { call with
              session := Session.empty.loadRefresh state.database task.requestId
              phase := .refreshing task.requestId none none })
          else none
  | _ => none

def uploadStep (state : State) (index : Nat) (succeeded : Bool)
    (now : Time) : Option State := do
  let call ← state.calls[index]?
  match call.phase with
  | .refreshing requestId own none => do
      let request ← call.session.request requestId
      if request.needsArtifact (call.session.derivedStatus requestId) then
        if succeeded then
          let (artifacts, reference) := writeArtifact deployment request
            (call.session.tasksOf requestId) now state.artifacts
          some { (state.put index { call with
              phase := .refreshing requestId own (some reference) }) with
            artifacts }
        else some (state.put index call.close)
      else none
  | _ => none

def refreshCommitStep (state : State) (index : Nat) (noticeId : String)
    (now : Time) : Option State := do
  let call ← state.calls[index]?
  match call.phase with
  | .refreshing requestId own reference => do
      let request ← call.session.request requestId
      let status := call.session.derivedStatus requestId
      if (!request.needsArtifact status || reference.isSome) &&
          state.database.unused [noticeId] then
        some { (state.put index { call with
            session := call.session.putRequest
              (request.refresh status reference)
            phase := call.resume (call.refreshResult own) }) with
          database := commitRefresh deployment.runtime call.session request
            reference noticeId now state.database }
      else none
  | _ => none

def ackStep (state : State) (index : Nat) : Option State := do
  let call ← state.calls[index]?
  let slot ← call.message
  let message ← state.queue[slot]?
  if call.phase = .returned true then
    some { (state.put index call.close) with
      queue := state.queue.set slot { message with acked := true } }
  else none

def crashStep (state : State) (index : Nat) : Option State := do
  let call ← state.calls[index]?
  some (state.put index call.close)

/-- One action of one party. -/
def step (state : State) : Action → Option State
  | .create intake => createStep deployment state intake
  | .relaySelect batchSize => some (relaySelectStep deployment state batchSize)
  | .relayPublish relay accepted confirmed now =>
      relayPublishStep state relay accepted confirmed now
  | .relayCommit relay => relayCommitStep state relay
  | .relayCrash relay => relayCrashStep state relay
  | .deliver workerId message executor =>
      deliverStep state workerId message executor
  | .messageGet call now => messageGetStep deployment state call now
  | .messageClaim call => messageClaimStep deployment state call
  | .processOnce arguments => processOnceStep deployment state arguments
  | .selectTask call => selectTaskStep state call
  | .work call work => workStep state call work
  | .recordTask call now => recordTaskStep deployment state call now
  | .refreshSelect call => refreshSelectStep deployment state call
  | .upload call succeeded now => uploadStep deployment state call succeeded now
  | .refreshCommit call noticeId now =>
      refreshCommitStep deployment state call noticeId now
  | .ack call => ackStep state call
  | .crash call => crashStep state call
  | .extendLease workerId taskId now =>
      some { state with
        database := extendTaskLease deployment.settings workerId taskId now
          state.database }

end Step

/-! ## Values for concrete runs -/

def demoDeployment : Deployment :=
  { runtime := demoRuntime
    settings := {
      maxTaskAttempts := 5
      workerBatchSize := 32
      leaseSeconds := 60
      artifactDir := "artifacts"
      artifactBackend := .localDirectory
      artifactPresignSeconds := 300 }
    dialect := .postgresql
    workingDirectory := []
    isoformat := fun _ => "now"
    presign := fun _ _ _ => "url" }

/-- An access request for one source: request `a`, task `aa`. -/
def demoRequest : Intake :=
  demoIntake 'a' .access ["jobs"] demoSource_nodup demoSource_allowed

/-- What the database backend answers when the subject has no records. -/
def demoSuccess : Work :=
  { ending := .returned (accessResult []), deleted := [], deletedAt := 0 }

def demoClaim (workerId : String) (now : Time) : ClaimArguments :=
  { workerId, tenantId := none, batchSize := none, now, locked := [] }

/-- One relay publishes the first `rows` rows of the outbox. -/
def demoRelay (relay rows : Nat) : List Action :=
  .relaySelect rows ::
    (List.replicate rows (.relayPublish relay true true 10) ++
      [.relayCommit relay])

/-- A delivered message, up to the commit of its outcome. -/
def demoExecution (call : Nat) (work : Work) : List Action :=
  [.messageGet call 11, .messageClaim call, .selectTask call, .work call work,
    .recordTask call 12]

end FleetPrivacy
