import FleetPrivacy.Api
import FleetPrivacy.Delivery
import FleetPrivacy.Ownership
import FleetPrivacy.Sessions

/-!
# Replays of a finished request

Once a request is terminal, its status refreshed and nobody executes one of its
tasks, every further operation leaves its rows as they are.  The operations are
those of the control plane, `create_privacy_request` with new and with known
idempotency keys, and `refresh_request_status` on its own.
-/

namespace FleetPrivacy

open Transition

inductive ReplayAction where
  | create (intake : Intake)
  /-- `refresh_request_status` in a session of its own, up to its row lock. -/
  | refresh (requestId : String)
  | other (action : Action)

section Step

variable (deployment : Deployment)

/-- Only a call that inserts rows draws ids for them. -/
def replayStep (state : State) : ReplayAction → Option State
  | .create intake =>
      if (findByIdempotency state.database intake.tenantId
          intake.idempotencyKey).isSome ||
          decide intake.drawnIds.Nodup &&
            state.database.unused intake.drawnIds then
        some { state with
          database := (createPrivacyRequest deployment.runtime intake
            state.database).1 }
      else none
  | .refresh requestId =>
      if (state.database.request requestId).isSome &&
          state.rowFree deployment.dialect requestId then
        some { state with calls := state.calls ++ [{
          workerId := "", message := none, executor := false
          session := Session.empty.loadRefresh state.database requestId
          todo := [], phase := .refreshing requestId none none }] }
      else none
  | .other action => step deployment state action

end Step

/-- The tasks whose source work is started. -/
def observeStarts (state : State) : ReplayAction → List String
  | .other (.selectTask index) => (state.starting index).toList
  | _ => []

/-! ## What belongs to a request -/

namespace Database

def auditOf (database : Database) (requestId : String) : List AuditEvent :=
  database.audit.filter fun event => decide (event.requestId = requestId)

/-- The events of a request and the ready events of its tasks.  An envelope
holds every column except `published_at`. -/
def outboxOf (database : Database) (requestId : String) : List Envelope :=
  (database.outbox.map eventEnvelope).filter fun event =>
    decide (event.aggregateId = requestId ∨
      event.eventType = EventType.taskReady.value ∧
        event.aggregateId ∈ database.taskIds requestId)

/-- Everything that belongs to the request is as it was. -/
structure Untouched (requestId : String) (before after : Database) : Prop where
  request : after.request requestId = before.request requestId
  tasks : after.tasksOf requestId = before.tasksOf requestId
  audit : after.auditOf requestId = before.auditOf requestId
  outbox : after.outboxOf requestId = before.outboxOf requestId

end Database

/-- The task that `execute_task` has in hand, up to its refresh. -/
def Phase.executes : Phase → Option String
  | .working taskId | .worked taskId _ | .recorded taskId => some taskId
  | _ => none

/-- The request is terminal, its status is that of its tasks, none of them is
being executed, and a refresh in progress has read all this. -/
structure State.Quiet (state : State) (request : PrivacyRequest) : Prop where
  stored : state.database.request request.id = some request
  terminal : request.status.Terminal
  refreshed : deriveStatus ((state.database.tasksOf request.id).map
    RequestTask.status) = request.status
  idle : ∀ call ∈ state.calls, ∀ taskId, call.phase.executes = some taskId →
    taskId ∉ state.database.taskIds request.id
  reading : ∀ call ∈ state.calls, ∀ own reference,
    call.phase = .refreshing request.id own reference →
    own = none ∧ call.session.request request.id = some request ∧
      call.session.tasksOf request.id = state.database.tasksOf request.id

/-- What is left to do for a redelivery of a terminal task. -/
def Phase.rest (index : Nat) (noticeId : String) (now : Time) :
    Phase → List Action
  | .received =>
      [.messageGet index now, .refreshSelect index,
        .refreshCommit index noticeId now]
  | .duplicate _ => [.refreshSelect index, .refreshCommit index noticeId now]
  | .refreshing _ _ _ => [.refreshCommit index noticeId now]
  | _ => []

/-- The handler is on its way to return `True`, unless it is lost. -/
def Phase.Acknowledges (requestId taskId : String) : Phase → Prop
  | .received | .closed => True
  | .duplicate duplicateId => duplicateId = taskId
  | .refreshing locked own _ => locked = requestId ∧ own = none
  | .returned result => result = true
  | _ => False

/-! ## Frames -/

namespace Database

theorem Untouched.refl (requestId : String) (database : Database) :
    Untouched requestId database database :=
  ⟨rfl, rfl, rfl, rfl⟩

theorem Untouched.trans {requestId : String} {first second third : Database}
    (left : Untouched requestId first second)
    (right : Untouched requestId second third) :
    Untouched requestId first third :=
  ⟨right.request.trans left.request, right.tasks.trans left.tasks,
    right.audit.trans left.audit, right.outbox.trans left.outbox⟩

theorem Untouched.taskIds_eq {requestId : String} {before after : Database}
    (untouched : Untouched requestId before after) :
    after.taskIds requestId = before.taskIds requestId := by
  unfold taskIds
  rw [untouched.tasks]

/-- A revision that passes over the rows of the request. -/
theorem Revises.untouched {before after : Database}
    {task : RequestTask → RequestTask}
    {request : PrivacyRequest → PrivacyRequest}
    (revises : Revises before after task request) {requestId : String}
    {row : PrivacyRequest} (found : before.request requestId = some row)
    (tasks : ∀ other ∈ before.tasksOf requestId, task other = other)
    (same : request row = row)
    (audit : after.auditOf requestId = before.auditOf requestId)
    (outbox : after.tasksOf requestId = before.tasksOf requestId →
      after.outboxOf requestId = before.outboxOf requestId) :
    Untouched requestId before after := by
  have unchanged : after.tasksOf requestId = before.tasksOf requestId := by
    rw [revises.tasksOf_eq]
    exact (List.map_congr_left tasks).trans (List.map_id _)
  refine ⟨?_, unchanged, audit, outbox unchanged⟩
  rw [revises.request_eq, found]
  exact congrArg some same

theorem outboxOf_congr {before after : Database} {requestId : String}
    (events : after.outbox.map eventEnvelope =
      before.outbox.map eventEnvelope)
    (tasks : after.tasksOf requestId = before.tasksOf requestId) :
    after.outboxOf requestId = before.outboxOf requestId := by
  unfold outboxOf taskIds
  rw [events, tasks]

end Database

theorem auditOf_appendAudit (runtime : Runtime)
    (tenantId action : String) (payload : Json) (rows : List AuditEvent)
    {requestId other : String} (foreign : other ≠ requestId) :
    ((appendAudit runtime tenantId other action payload rows).filter
      fun event => decide (event.requestId = requestId)) =
      rows.filter fun event => decide (event.requestId = requestId) := by
  have miss : (auditRow runtime tenantId other action payload
      (auditHead tenantId rows)).requestId ≠ requestId := foreign
  simp [appendAudit, miss]

/-- An intake adds rows of its own. -/
theorem Database.insertRows_untouched {database : Database} {intake : Intake}
    {runtime : Runtime} (fresh : database.unused intake.drawnIds = true)
    {requestId : String} {row : PrivacyRequest}
    (found : database.request requestId = some row) :
    Database.Untouched requestId database
      (intake.insertRows runtime database) := by
  obtain ⟨_, freshRequests, freshTasks, _⟩ := Database.unused_iff.mp fresh
  obtain ⟨member, key⟩ := Database.request_mem found
  have tasks : (intake.insertRows runtime database).tasksOf requestId =
      database.tasksOf requestId := Database.insertRows_tasksOf fresh found
  have foreign : ∀ id ∈ intake.drawnIds, id ≠ requestId := by
    intro id drawn same
    exact freshRequests row member (by rw [key, ← same]; exact drawn)
  refine ⟨?_, tasks, ?_, ?_⟩
  · rw [Database.insertRows_request, found]
    rfl
  · exact auditOf_appendAudit runtime _ _ _ _
      (foreign _ intake.mem_drawnIds_zero)
  · unfold Database.outboxOf
    have split : (intake.insertRows runtime database).outbox =
        database.outbox ++ intake.events := rfl
    have ids : (intake.insertRows runtime database).taskIds requestId =
        database.taskIds requestId := by
      unfold Database.taskIds
      rw [tasks]
    rw [split, ids, List.map_append, List.filter_append]
    have none : ((intake.events.map eventEnvelope).filter fun event =>
        decide (event.aggregateId = requestId ∨
          event.eventType = EventType.taskReady.value ∧
            event.aggregateId ∈ database.taskIds requestId)) = [] := by
      rw [List.filter_eq_nil_iff]
      intro body inEvents
      obtain ⟨event, eventMember, rfl⟩ := List.mem_map.mp inEvents
      rw [decide_eq_true_iff]
      have drawn : event.aggregateId ∈ intake.drawnIds := by
        rcases Intake.mem_events eventMember with
          rfl | ⟨source, position, bound, rfl⟩
        · exact intake.mem_drawnIds_zero
        · exact Intake.mem_drawnIds (by omega)
      rintro (isRequest | ⟨_, isTask⟩)
      · exact foreign _ drawn isRequest
      · obtain ⟨task, inTable, _, same⟩ := Database.mem_taskIds.mp isTask
        exact freshTasks task inTable (by rw [same]; exact drawn)
    rw [none, List.append_nil]

/-- A call that executes a task did so before, or has just found the row
running. -/
theorem Effect.executes {deployment : Deployment} {state next : State}
    {action : Action} (effect : Effect deployment state action next)
    {slot : Nat} {call : Call} {taskId : String}
    (located : next.calls[slot]? = some call)
    (executes : call.phase.executes = some taskId) :
    (∃ old ∈ state.calls, old.phase.executes = some taskId) ∨
      ∃ row ∈ state.database.tasks, row.id = taskId ∧
        row.status = .running := by
  by_cases recorded : ∃ recordedId, call.phase = .recorded recordedId
  · obtain ⟨recordedId, phase⟩ := recorded
    rw [phase] at executes
    cases executes
    have resumed : ∀ (old : Call) (result : Bool),
        old.resume result ≠ .recorded taskId :=
      fun old result => old.resume_ne_recorded result taskId
    have kept : state.calls[slot]? = some call →
        ∃ old ∈ state.calls, old.phase.executes = some taskId := by
      intro found
      refine ⟨call, List.mem_of_getElem? found, ?_⟩
      rw [phase]
      rfl
    cases effect with
    | created | relayed | extended => exact .inl (kept located)
    | opened | batchClaimed =>
        rcases State.append_cases located with ⟨_, new⟩ | ⟨_, old⟩
        · rw [new] at phase
          cases phase
        · exact .inl (kept old)
    | messageClaimed index old _ _ found
    | selected index old _ _ _ found
    | locked index old _ _ _ found
    | acked index old _ _ found =>
        rcases State.put_cases found located with ⟨_, new⟩ | ⟨_, same⟩
        · rw [new] at phase
          cases phase
        · exact .inl (kept same)
    | moved action index old after artifacts found move =>
        rcases State.put_cases found located with ⟨_, new⟩ | ⟨_, same⟩
        · rw [new] at phase
          exact absurd phase (move.phase_ne_recorded taskId)
        · exact .inl (kept same)
    | refreshed index old _ _ _ _ _ _ found =>
        rcases State.put_cases found located with ⟨_, new⟩ | ⟨_, same⟩
        · rw [new] at phase
          exact absurd phase (resumed old _)
        · exact .inl (kept same)
    | recorded index old workedId work task request now found worked =>
        rcases State.put_cases found located with ⟨_, new⟩ | ⟨_, same⟩
        · rw [new] at phase
          unfold Call.afterRecord at phase
          split at phase
          next => cases phase
          next =>
            cases phase
            refine .inl ⟨old, List.mem_of_getElem? found, ?_⟩
            rw [worked]
            rfl
        · exact .inl (kept same)
  · have busy : call.current = some taskId := by
      unfold Call.current
      cases phase : call.phase with
      | recorded recordedId => exact absurd ⟨recordedId, phase⟩ recorded
      | working workingId =>
          rw [phase] at executes
          exact executes
      | worked workedId work =>
          rw [phase] at executes
          exact executes
      | _ =>
          rw [phase] at executes
          cases executes
    rcases effect.working located busy with
      kept | ⟨_, row, _, _, _, _, _, inTable, same, leased, _⟩ |
      ⟨old, work, _, found, phase, _⟩
    · exact .inl ⟨call, List.mem_of_getElem? kept, executes⟩
    · exact .inr ⟨row, inTable, same, (RequestTask.leasedBy_iff.mp leased).1⟩
    · refine .inl ⟨old, List.mem_of_getElem? found, ?_⟩
      rw [phase]
      rfl

/-! ## Sessions of a refresh -/

namespace Session

/-- A new session reads the committed request. -/
theorem loadRefresh_empty_request (database : Database) (requestId : String) :
    (Session.empty.loadRefresh database requestId).request requestId =
      database.request requestId := by
  rw [loadRefresh_request, empty_request, Option.none_or]
  apply Table.find?_filter_of_imp
  intro row _ same
  exact same

/-- A new session reads the committed tasks. -/
theorem loadRefresh_empty_tasksOf {database : Database}
    (formed : database.WellFormed) (requestId : String) :
    (Session.empty.loadRefresh database requestId).tasksOf requestId =
      database.tasksOf requestId := by
  have unique : Table.KeyUnique RequestTask.id (database.tasksOf requestId) :=
    formed.taskIds.filter _
  have members : (Session.empty.loadRefresh database requestId).members
      requestId = some ((database.tasksOf requestId).map RequestTask.id) := by
    rw [loadRefresh_members, if_pos rfl]
    rfl
  unfold tasksOf
  rw [members, Option.getD_some, List.filterMap_map]
  have held : ∀ row ∈ database.tasksOf requestId,
      ((Session.empty.loadRefresh database requestId).task ∘ RequestTask.id)
        row = some row := by
    intro row member
    rw [Function.comp_apply, loadRefresh_task, empty_task, Option.none_or]
    exact unique.get_eq_some member
  rw [List.filterMap_congr held, List.filterMap_some]

end Session

/-! ## Quiet requests -/

namespace State.Quiet

variable {deployment : Deployment} {state next : State}
  {request : PrivacyRequest} {action : Action}

theorem tasks_terminal (quiet : state.Quiet request) :
    ∀ row ∈ state.database.tasksOf request.id, row.status.Terminal := by
  have terminal := quiet.terminal
  rw [← quiet.refreshed] at terminal
  intro row member
  exact ((terminal_deriveStatus_iff _).mp terminal).2 row.status
    (List.mem_map.mpr ⟨row, member, rfl⟩)

/-- Its artifact, if it has one, is uploaded. -/
theorem needless (quiet : state.Quiet request) (grounded : state.Grounded) :
    request.needsArtifact request.status = false := by
  rw [Bool.eq_false_iff]
  intro needed
  obtain ⟨access, finished, missing⟩ :=
    PrivacyRequest.needsArtifact_iff.mp needed
  exact grounded.paths request (Database.request_mem quiet.stored).1 access
    finished missing

/-- A refresh that has read the request finds nothing to write. -/
theorem refresh_eq (quiet : state.Quiet request) (grounded : state.Grounded)
    (reference : Option String) :
    request.refresh request.status reference = request := by
  simp [PrivacyRequest.refresh, quiet.needless grounded]

theorem commitRefresh_eq (quiet : state.Quiet request)
    (grounded : state.Grounded) {session : Session}
    (read : session.tasksOf request.id = state.database.tasksOf request.id)
    (runtime : Runtime) (reference : Option String) (noticeId : String)
    (now : Time) :
    commitRefresh runtime session request reference noticeId now
      state.database = state.database := by
  have derived : session.derivedStatus request.id = request.status := by
    unfold Session.derivedStatus
    rw [read]
    exact quiet.refreshed
  have settled : request.becomesTerminal request.status = false := by
    simp [PrivacyRequest.becomesTerminal, quiet.terminal]
  have rows : Table.updateWhere (fun row => decide (row.id = request.id))
      (fun row => request.flush (request.refresh request.status reference) row
        now) state.database.requests = state.database.requests := by
    rw [quiet.refresh_eq grounded]
    unfold Table.updateWhere
    have same : ∀ row : PrivacyRequest, (if decide (row.id = request.id) then
        request.flush request row now else row) = row := by
      intro row
      split
      next => simp [PrivacyRequest.flush]
      next => rfl
    exact (List.map_congr_left fun row _ => same row).trans (List.map_id _)
  unfold commitRefresh
  dsimp only
  rw [derived, settled, rows]
  rfl

/-- A row with the id of a task of the request is terminal. -/
theorem row_terminal (quiet : state.Quiet request) (grounded : state.Grounded)
    {row : RequestTask} (member : row ∈ state.database.tasks)
    (own : row.id ∈ state.database.taskIds request.id) :
    row.status.Terminal := by
  obtain ⟨other, inTable, owner, same⟩ := Database.mem_taskIds.mp own
  have isRow : other = row :=
    grounded.tidy.tables.taskIds.eq_of_mem inTable member same
  apply quiet.tasks_terminal row
  rw [← isRow]
  exact Database.mem_tasksOf.mpr ⟨inTable, owner⟩

theorem row_of_own (quiet : state.Quiet request) (grounded : state.Grounded)
    {taskId : String} (own : taskId ∈ state.database.taskIds request.id) :
    ∃ row, state.database.task taskId = some row ∧ row.status.Terminal := by
  obtain ⟨row, inTable, _, same⟩ := Database.mem_taskIds.mp own
  refine ⟨row, ?_, quiet.row_terminal grounded inTable (same ▸ own)⟩
  rw [← same]
  exact grounded.tidy.tables.task_eq inTable

/-- Nobody can claim a task of the request. -/
theorem claim_untouched (quiet : state.Quiet request)
    (grounded : state.Grounded) {now : Time} {taskIds : List String}
    (claims : state.database.Claims now taskIds) (workerId : String)
    (leaseUntil : Time) :
    Database.Untouched request.id state.database
      (state.database.markClaimed taskIds workerId leaseUntil now) := by
  have unclaimed : ∀ row ∈ state.database.tasksOf request.id,
      row.id ∉ taskIds := by
    intro row member taken
    obtain ⟨other, inTable, same, claimable⟩ := claims.claimable row.id taken
    apply RequestTask.not_terminal_of_claimable claimable
    apply quiet.row_terminal grounded inTable
    exact Database.mem_taskIds.mpr ⟨row, (Database.mem_tasksOf.mp member).1,
      (Database.mem_tasksOf.mp member).2, same.symm⟩
  apply (Database.markClaimed_revises ..).untouched quiet.stored
  · intro row member
    exact Database.claimRow_of_not_mem (unclaimed row member) _ _
  · have finished : request.status ≠ .queued := by
      intro queued
      have terminal := quiet.terminal
      rw [queued] at terminal
      exact terminal
    simp [Database.startRow, finished]
  · rfl
  · intro tasks
    exact Database.outboxOf_congr rfl tasks

/-- The task of an execution is one of another request. -/
theorem record_untouched (quiet : state.Quiet request)
    (grounded : state.Grounded) {call : Call} (member : call ∈ state.calls)
    {taskId : String} {work : Work} {task : RequestTask}
    {owner : PrivacyRequest} (phase : call.phase = .worked taskId work)
    (held : call.session.task taskId = some task)
    (requestHeld : call.session.request task.requestId = some owner)
    (deployment : Deployment) (now : Time) :
    Database.Untouched request.id state.database
      (recordOutcome deployment.runtime deployment.settings call.executor work
        task owner now state.database) := by
  have isTask := grounded.tidy.keyed call member taskId task held
  have busy : taskId ∉ state.database.taskIds request.id :=
    quiet.idle call member taskId (by rw [phase]; rfl)
  obtain ⟨row, rowFound, identity⟩ :=
    (grounded.copies call member).task taskId task held
  obtain ⟨rowMember, rowId⟩ := Database.task_mem rowFound
  have requestId : task.requestId = row.requestId :=
    congrArg (fun columns => columns.2.1) identity
  have foreign : task.requestId ≠ request.id := by
    intro same
    apply busy
    exact Database.mem_taskIds.mpr
      ⟨row, rowMember, requestId.symm.trans same, rowId⟩
  obtain ⟨_, _, key, _⟩ := grounded.request_of_copy member requestHeld
  apply (Database.recordOutcome_revises ..).untouched quiet.stored
  · intro other inTasks
    have different : other.id ≠ task.id := by
      intro same
      apply busy
      rw [← isTask, ← same]
      exact List.mem_map.mpr ⟨other, inTasks, rfl⟩
    exact Database.recordRow_of_ne different _ _ _
  · have different : request.id ≠ owner.id := by
      rw [key]
      exact foreign.symm
    simp [Database.verifyRow, different]
  · exact auditOf_appendAudit deployment.runtime _ _ _ _ foreign
  · intro tasks
    exact Database.outboxOf_congr rfl tasks

/-- A refresh of another request. -/
theorem refresh_untouched (quiet : state.Quiet request) {owner : PrivacyRequest}
    (foreign : owner.id ≠ request.id) (runtime : Runtime) (session : Session)
    (reference : Option String) (noticeId : String) (now : Time) :
    Database.Untouched request.id state.database
      (commitRefresh runtime session owner reference noticeId now
        state.database) := by
  apply (Database.commitRefresh_revises ..).untouched quiet.stored
  · intro row _
    rfl
  · simp [Database.refreshRow, foreign.symm]
  · unfold commitRefresh
    dsimp only
    split
    next => exact auditOf_appendAudit runtime _ _ _ _ foreign
    next => rfl
  · intro tasks
    have events : (commitRefresh runtime session owner reference noticeId now
        state.database).outbox = state.database.outbox ∨
        ∃ event, event.aggregateId = owner.id ∧
          event.eventType ≠ EventType.taskReady.value ∧
          (commitRefresh runtime session owner reference noticeId now
            state.database).outbox = state.database.outbox ++ [event] := by
      unfold commitRefresh
      dsimp only
      split
      next =>
        exact .inr ⟨_, rfl, requestFinished_ne_taskReady _, rfl⟩
      next => exact .inl rfl
    rcases events with same | ⟨event, aggregate, notReady, appended⟩
    · exact Database.outboxOf_congr (by rw [same]) tasks
    · unfold Database.outboxOf Database.taskIds
      rw [appended, tasks, List.map_append, List.filter_append]
      have none : ([event].map eventEnvelope).filter (fun body =>
          decide (body.aggregateId = request.id ∨
            body.eventType = EventType.taskReady.value ∧
              body.aggregateId ∈ (state.database.tasksOf request.id).map
                RequestTask.id)) = [] := by
        simp [eventEnvelope, aggregate, foreign, notReady]
      rw [none, List.append_nil]

/-- No action touches a quiet request. -/
theorem untouched (quiet : state.Quiet request) (grounded : state.Grounded)
    (effect : Effect deployment state action next) :
    Database.Untouched request.id state.database next.database := by
  cases effect with
  | created intake nodup fresh absent =>
      exact Database.insertRows_untouched fresh quiet.stored
  | relayed action relays extra outbox move =>
      have events : outbox.map eventEnvelope =
          state.database.outbox.map eventEnvelope := by
        cases move with
        | committed => exact map_eventEnvelope_markPublished _ _
        | selected | published | crashed => rfl
      exact ⟨rfl, rfl, rfl, Database.outboxOf_congr events rfl⟩
  | opened | moved | selected | locked | acked => exact .refl _ _
  | messageClaimed index call taskId now found phase claims
  | batchClaimed arguments session taskIds same claims =>
      exact quiet.claim_untouched grounded claims _ _
  | recorded index call taskId work task owner now found phase held
      requestHeld =>
      exact quiet.record_untouched grounded (List.mem_of_getElem? found) phase
        held requestHeld deployment now
  | refreshed index call requestId own reference owner noticeId now found phase
      held uploaded fresh =>
      have member := List.mem_of_getElem? found
      obtain ⟨_, _, key, _⟩ := grounded.request_of_copy member held
      by_cases same : requestId = request.id
      · subst same
        obtain ⟨_, copy, read⟩ := quiet.reading call member own reference phase
        have isRequest := held.symm.trans copy
        cases isRequest
        dsimp only
        rw [quiet.commitRefresh_eq grounded read]
        exact .refl _ _
      · exact quiet.refresh_untouched (by rw [key]; exact same) _ _ _ _ _
  | extended workerId taskId now =>
      apply (Database.extendTaskLease_revises ..).untouched quiet.stored
      · intro row member
        have unleased : row.leasedBy workerId = false := by
          rw [Bool.eq_false_iff]
          intro leased
          have terminal := quiet.tasks_terminal row member
          rw [(RequestTask.leasedBy_iff.mp leased).1] at terminal
          exact terminal
        simp [Database.extendRow, unleased]
      · rfl
      · rfl
      · intro tasks
        exact Database.outboxOf_congr rfl tasks

/-- Nobody takes up a task of the request, and refreshes read what is there. -/
theorem effect (quiet : state.Quiet request) (grounded : state.Grounded)
    (effect : Effect deployment state action next) : next.Quiet request := by
  have untouched := quiet.untouched grounded effect
  refine ⟨untouched.request.trans quiet.stored, quiet.terminal, ?_, ?_, ?_⟩
  · rw [untouched.tasks]
    exact quiet.refreshed
  · intro call member taskId executes
    rw [untouched.taskIds_eq]
    obtain ⟨slot, located⟩ := List.getElem?_of_mem member
    rcases effect.executes located executes with
      ⟨old, oldMember, before⟩ | ⟨row, inTable, same, running⟩
    · exact quiet.idle old oldMember taskId before
    · intro own
      have terminal := quiet.row_terminal grounded inTable (same ▸ own)
      rw [running] at terminal
      exact terminal
  · intro call member own reference phase
    rw [untouched.tasks]
    obtain ⟨slot, located⟩ := List.getElem?_of_mem member
    rcases effect.refreshing located phase with
      ⟨old, before, found, oldPhase, same, _⟩ |
      ⟨old, session, _, found, target, loaded, _⟩
    · rw [← same]
      exact quiet.reading old (List.mem_of_getElem? found) own before oldPhase
    · generalize isRequest : request.id = requestId at target
      cases target with
      | recorded taskId task oldPhase held =>
          have oldMember := List.mem_of_getElem? found
          obtain ⟨row, rowFound, identity⟩ :=
            (grounded.copies old oldMember).task taskId task held
          obtain ⟨rowMember, rowId⟩ := Database.task_mem rowFound
          have requestId : task.requestId = row.requestId :=
            congrArg (fun columns => columns.2.1) identity
          refine absurd ?_ (quiet.idle old oldMember taskId (by
            rw [oldPhase]
            rfl))
          exact Database.mem_taskIds.mpr ⟨row, rowMember,
            (isRequest.trans requestId).symm, rowId⟩
      | duplicate taskId row oldPhase inTable same =>
          rw [loaded, ← isRequest]
          exact ⟨rfl,
            (Session.loadRefresh_empty_request _ _).trans quiet.stored,
            Session.loadRefresh_empty_tasksOf grounded.tidy.tables _⟩

end State.Quiet

/-! ## Reachable states -/

namespace State.Sound

variable {deployment : Deployment} {state next : State} {action : Action}

/-- A session of its own for a refresh. -/
theorem refresh (sound : state.Sound) (requestId : String) :
    State.Sound { state with calls := state.calls ++ [{
      workerId := "", message := none, executor := false
      session := Session.empty.loadRefresh state.database requestId
      todo := [], phase := .refreshing requestId none none }] } := by
  have grounded := sound.grounded
  have formed := grounded.tidy.tables
  refine ⟨⟨⟨formed, ?_⟩, ?_, grounded.paths⟩, ?_⟩
  · intro call member
    rcases State.mem_append_call member with new | old
    · rw [new]
      intro taskId copy held
      dsimp only at held
      rw [Session.loadRefresh_task] at held
      exact Session.keyed_empty.load held
    · exact grounded.tidy.keyed call old
  · intro call member
    rcases State.mem_append_call member with new | old
    · rw [new]
      have nothing : Session.empty.Copies RequestTask.Shows
          PrivacyRequest.Shows state.database := Session.copies_empty _
      exact nothing.loadRefresh (fun _ => rfl) (fun _ => ⟨rfl, id⟩) formed
        requestId
    · exact grounded.copies call old
  · intro call member slot isSlot
    rcases State.mem_append_call member with new | old
    · rw [new] at isSlot
      cases isSlot
    · exact sound.addressed call old slot isSlot

end State.Sound

/-- A call of `create_privacy_request` that inserts nothing leaves the database
alone; the others are those of the control plane. -/
theorem replayStep_create {deployment : Deployment} {state next : State}
    {intake : Intake}
    (stepped : replayStep deployment state (.create intake) = some next) :
    next = state ∨ step deployment state (.create intake) = some next := by
  simp only [replayStep] at stepped
  split at stepped
  next guard =>
    cases known : findByIdempotency state.database intake.tenantId
        intake.idempotencyKey with
    | some existing =>
        refine .inl ?_
        cases stepped
        simp only [createPrivacyRequest, known]
        split
        next => rfl
        next => rfl
    | none =>
        refine .inr ?_
        cases stepped
        simp only [known, Option.isSome_none, Bool.false_or] at guard
        simp only [step, createStep, createPrivacyRequest, known,
          Option.isNone_none, Bool.and_true]
        rw [if_pos guard]
  next => cases stepped

theorem State.Sound.step {deployment : Deployment} {state next : State}
    {action : ReplayAction} (sound : state.Sound)
    (stepped : replayStep deployment state action = some next) :
    next.Sound := by
  have plain : ∀ {action : Action},
      FleetPrivacy.step deployment state action = some next → next.Sound :=
    fun moved => sound.effect
      (effect_of_step sound.grounded.tidy.tables.taskIds moved)
  cases action with
  | create intake =>
      rcases replayStep_create stepped with same | moved
      · rw [same]
        exact sound
      · exact plain moved
  | refresh requestId =>
      simp only [replayStep] at stepped
      split at stepped
      next =>
        cases stepped
        exact sound.refresh requestId
      next => cases stepped
  | other action => exact plain stepped

/-! ## Redeliveries -/

/-- Calls from `first` on whose message names a task of the request are on
their way to return `True`. -/
def State.Acknowledging (state : State) (first : Nat) (requestId : String) :
    Prop :=
  ∀ (index : Nat) (call : Call) (taskId : String), first ≤ index →
    state.calls[index]? = some call → state.carried call = some taskId →
    taskId ∈ state.database.taskIds requestId →
    call.phase.Acknowledges requestId taskId

/-- The first select of a redelivery finds the terminal row. -/
theorem messageGet_of_terminal (deployment : Deployment) {state : State}
    {index : Nat} {call : Call} {taskId : String} {row : RequestTask}
    (found : state.calls[index]? = some call)
    (received : call.phase = .received)
    (carried : state.carried call = some taskId)
    (rowFound : state.database.task taskId = some row)
    (terminal : row.status.Terminal) (now : Time) :
    step deployment state (.messageGet index now) =
      some (state.put index { call with phase := .duplicate taskId }) := by
  unfold State.carried at carried
  obtain ⟨slot, subscribed, named⟩ := Option.bind_eq_some_iff.mp carried
  obtain ⟨body, stored, isTask⟩ := Option.bind_eq_some_iff.mp named
  unfold State.bodies at stored
  rw [List.getElem?_map] at stored
  obtain ⟨message, delivered, rfl⟩ := Option.map_eq_some_iff.mp stored
  unfold Database.task at rowFound
  simp [step, messageGetStep, found, subscribed, delivered, received, isTask,
    rowFound, terminal]

namespace State.Acknowledging

variable {deployment : Deployment} {state next : State}
  {request : PrivacyRequest} {first : Nat} {action : Action}

/-- Calls that the action leaves alone. -/
theorem kept (acknowledging : state.Acknowledging first request.id)
    (quiet : state.Quiet request) (sound : state.Sound)
    (effect : Effect deployment state action next) {index : Nat} {call : Call}
    {taskId : String} (later : first ≤ index)
    (found : state.calls[index]? = some call)
    (carried : next.carried call = some taskId)
    (own : taskId ∈ next.database.taskIds request.id) :
    call.phase.Acknowledges request.id taskId := by
  apply acknowledging index call taskId later found
  · rw [← sound.carried_eq (List.mem_of_getElem? found) effect]
    exact carried
  · rw [← (quiet.untouched sound.grounded effect).taskIds_eq]
    exact own

/-- Moves of a redelivery, apart from its first select. -/
theorem moved {call after : Call} {index : Nat} {taskId : String}
    (move : CallMove deployment state index call action after)
    (before : call.phase.Acknowledges request.id taskId)
    (unread : call.phase ≠ .received) :
    after.phase.Acknowledges request.id taskId := by
  cases move with
  | ignored _ _ _ phase | terminal _ _ _ _ _ phase | unfinished _ _ _ _ phase
  | raised _ _ _ _ _ phase => exact absurd phase unread
  | busy _ _ phase | skipped _ _ phase | worked _ _ phase =>
      rw [phase] at before
      exact before.elim
  | vanished => exact rfl
  | uploaded now requestId own reference phase =>
      rw [phase] at before
      exact before
  | failed | crashed => trivial

/-- The first select of a redelivery leads to the refresh of a duplicate. -/
theorem selects (quiet : state.Quiet request) (sound : state.Sound)
    {index : Nat} {call after : Call} {taskId : String} {now : Time}
    (found : state.calls[index]? = some call)
    (received : call.phase = .received)
    (carried : state.carried call = some taskId)
    (own : taskId ∈ state.database.taskIds request.id)
    (stepped : FleetPrivacy.step deployment state (.messageGet index now) =
      some next)
    (located : next.calls[index]? = some after) :
    after.phase.Acknowledges request.id taskId := by
  obtain ⟨row, rowFound, terminal⟩ := quiet.row_of_own sound.grounded own
  have isNext := Option.some.inj (stepped.symm.trans (messageGet_of_terminal
    deployment found received carried rowFound terminal now))
  rw [isNext, State.put_self found] at located
  cases located
  exact rfl

theorem step (acknowledging : state.Acknowledging first request.id)
    (quiet : state.Quiet request) (sound : state.Sound)
    (stepped : FleetPrivacy.step deployment state action = some next) :
    next.Acknowledging first request.id := by
  have effect := effect_of_step sound.grounded.tidy.tables.taskIds stepped
  have whole := effect
  intro index call taskId later located carried own
  have ids := (quiet.untouched sound.grounded effect).taskIds_eq
  have old : state.calls[index]? = some call →
      call.phase.Acknowledges request.id taskId := fun found =>
    acknowledging.kept quiet sound effect later found carried own
  -- A call that has moved acknowledged the same task before.
  have actor : ∀ {before : Call}, state.calls[index]? = some before →
      before.message = call.message →
      before.phase.Acknowledges request.id taskId := by
    intro before found same
    apply acknowledging.kept quiet sound effect later found _ own
    rw [State.carried_congr same]
    exact carried
  cases effect with
  | created | relayed | extended => exact old located
  | opened =>
      rcases State.append_cases located with ⟨_, new⟩ | ⟨_, found⟩
      · rw [new]
        trivial
      · exact old found
  | batchClaimed =>
      rcases State.append_cases located with ⟨_, new⟩ | ⟨_, found⟩
      · rw [new] at carried
        cases carried
      · exact old found
  | messageClaimed slot before _ _ found phase
  | selected slot before _ _ _ found phase =>
      rcases State.put_cases found located with ⟨rfl, new⟩ | ⟨_, same⟩
      · have acknowledges := actor found (by rw [new])
        rw [phase] at acknowledges
        exact acknowledges.elim
      · exact old same
  | recorded slot before _ _ _ _ _ found phase =>
      rcases State.put_cases found located with ⟨rfl, new⟩ | ⟨_, same⟩
      · have message : before.message = call.message := by
          rw [new, Call.afterRecord_message]
        have acknowledges := actor found message
        rw [phase] at acknowledges
        exact acknowledges.elim
      · exact old same
  | locked slot before requestId target session found target =>
      rcases State.put_cases found located with ⟨rfl, new⟩ | ⟨_, same⟩
      · have acknowledges := actor found (by rw [new])
        cases target with
        | recorded recordedId task phase =>
            rw [phase] at acknowledges
            exact acknowledges.elim
        | duplicate duplicateId row phase inTable isRow =>
            rw [phase] at acknowledges
            rw [new]
            refine ⟨?_, rfl⟩
            obtain ⟨other, otherMember, owner, same⟩ :=
              Database.mem_taskIds.mp own
            have isOther : other = row :=
              sound.grounded.tidy.tables.taskIds.eq_of_mem otherMember inTable
                (same.trans (acknowledges.symm.trans isRow.symm))
            rw [← isOther]
            exact owner
      · exact old same
  | refreshed slot before requestId target reference copy noticeId now found
      phase =>
      rcases State.put_cases found located with ⟨rfl, new⟩ | ⟨_, same⟩
      · have acknowledges := actor found (by rw [new])
        rw [phase] at acknowledges
        obtain ⟨_, isDuplicate⟩ := acknowledges
        rw [new] at carried ⊢
        cases subscribed : before.message with
        | none => simp [State.carried, subscribed] at carried
        | some position =>
            simp [Call.resume, subscribed, isDuplicate, Call.refreshResult,
              Phase.Acknowledges]
      · exact old same
  | acked slot before position message found =>
      rcases State.put_cases found located with ⟨rfl, new⟩ | ⟨_, same⟩
      · rw [new]
        trivial
      · exact old same
  | moved action slot before after artifacts found move =>
      rcases State.put_cases found located with ⟨rfl, new⟩ | ⟨_, same⟩
      · have message : before.message = call.message := by
          rw [new]
          exact move.workerId.2.symm
        by_cases received : before.phase = .received
        · by_cases read : ∃ now, action = .messageGet index now
          · obtain ⟨now, rfl⟩ := read
            have sent : state.carried before = some taskId := by
              rw [← sound.carried_eq (List.mem_of_getElem? found) whole,
                State.carried_congr message]
              exact carried
            exact selects quiet sound found received sent (ids ▸ own) stepped
              located
          · rw [new]
            cases move with
            | ignored _ _ now | terminal _ _ now | unfinished _ _ now
            | raised _ _ now =>
                exact absurd ⟨now, rfl⟩ read
            | busy _ _ phase | skipped _ _ phase | worked _ _ phase
            | vanished _ phase | uploaded _ _ _ _ phase =>
                rw [phase] at received
                cases received
            | failed | crashed => trivial
        · rw [new]
          exact moved move (actor found message) received
      · exact old same

end State.Acknowledging

/-- The handler has returned `True`. -/
def State.ReturnsTrue (state : State) (index : Nat) : Prop :=
  ∃ call, state.calls[index]? = some call ∧ call.phase = .returned true

section Completion

variable {deployment : Deployment} {state : State} {request : PrivacyRequest}
  {index : Nat} {call : Call} {noticeId : String}

/-- The refresh of a redelivery finds nothing to do. -/
theorem State.Quiet.refreshes (quiet : state.Quiet request)
    (grounded : state.Grounded) (found : state.calls[index]? = some call)
    {reference : Option String}
    (phase : call.phase = .refreshing request.id none reference)
    {slot : Nat} (subscribed : call.message = some slot)
    (unused : state.database.unused [noticeId] = true) (now : Time) :
    ∃ last, Runs (replayStep deployment) Always state
      [.other (.refreshCommit index noticeId now)] last ∧
      last.ReturnsTrue index := by
  obtain ⟨_, held, read⟩ := quiet.reading call (List.mem_of_getElem? found) none
    reference phase
  have derived : call.session.derivedStatus request.id = request.status := by
    unfold Session.derivedStatus
    rw [read]
    exact quiet.refreshed
  have stepped : replayStep deployment state
      (.other (.refreshCommit index noticeId now)) =
      some { (state.put index { call with
          session := call.session.putRequest
            (request.refresh request.status reference)
          phase := .returned true }) with
        database := commitRefresh deployment.runtime call.session request
          reference noticeId now state.database } := by
    simp [replayStep, step, refreshCommitStep, found, phase, held, derived,
      quiet.needless grounded, unused, Call.resume, subscribed,
      Call.refreshResult]
  exact ⟨_, .cons trivial stepped (.nil _), _, State.put_self found _, rfl⟩

/-- The refresh of a redelivery, once the row is free. -/
theorem State.Quiet.duplicates (quiet : state.Quiet request)
    (sound : state.Sound) (found : state.calls[index]? = some call)
    {taskId : String} (phase : call.phase = .duplicate taskId)
    (own : taskId ∈ state.database.taskIds request.id)
    (free : state.rowFree deployment.dialect request.id = true) {slot : Nat}
    (subscribed : call.message = some slot)
    (unused : state.database.unused [noticeId] = true) (now : Time) :
    ∃ last, Runs (replayStep deployment) Always state
      [.other (.refreshSelect index), .other (.refreshCommit index noticeId now)]
      last ∧ last.ReturnsTrue index := by
  obtain ⟨row, inTable, owner, same⟩ := Database.mem_taskIds.mp own
  have rowFound : Table.get RequestTask.id taskId state.database.tasks =
      some row := by
    rw [← same]
    exact sound.grounded.tidy.tables.task_eq inTable
  have stepped : step deployment state (.refreshSelect index) =
      some (state.put index { call with
        session := Session.empty.loadRefresh state.database request.id
        phase := .refreshing request.id none none }) := by
    simp [step, refreshSelectStep, found, phase, rowFound, owner, free]
  have effect := effect_of_step sound.grounded.tidy.tables.taskIds stepped
  obtain ⟨last, rest, returned⟩ := State.Quiet.refreshes
    (quiet.effect sound.grounded effect) (sound.grounded.effect effect)
    (State.put_self found _) rfl subscribed unused now
  exact ⟨last, .cons trivial stepped rest, returned⟩

/-- A redelivery that is run to its end returns `True`. -/
theorem State.Acknowledging.returns {first : Nat}
    (acknowledging : state.Acknowledging first request.id)
    (quiet : state.Quiet request) (sound : state.Sound) {taskId : String}
    (later : first ≤ index) (found : state.calls[index]? = some call)
    (carried : state.carried call = some taskId)
    (own : taskId ∈ state.database.taskIds request.id)
    (alive : call.phase ≠ .closed)
    (free : state.rowFree deployment.dialect request.id = true ∨
      call.phase.refreshes request.id = true)
    (unused : state.database.unused [noticeId] = true) (now : Time) :
    ∃ last, Runs (replayStep deployment) Always state
      ((call.phase.rest index noticeId now).map .other) last ∧
      last.ReturnsTrue index := by
  have acknowledges := acknowledging index call taskId later found carried own
  obtain ⟨slot, subscribed, _⟩ := Option.bind_eq_some_iff.mp carried
  cases phase : call.phase with
  | received =>
      obtain ⟨row, rowFound, terminal⟩ := quiet.row_of_own sound.grounded own
      have stepped := messageGet_of_terminal deployment found phase carried
        rowFound terminal now
      have effect := effect_of_step sound.grounded.tidy.tables.taskIds stepped
      have rowFree : state.rowFree deployment.dialect request.id = true := by
        rcases free with free | locks
        · exact free
        · rw [phase] at locks
          cases locks
      have stillFree : (state.put index
          { call with phase := .duplicate taskId }).rowFree
          deployment.dialect request.id = true := by
        rw [State.rowFree_iff] at rowFree ⊢
        apply rowFree.imp_right
        intro unlocked other member
        rcases State.mem_put member with new | kept
        · rw [new]
          rfl
        · exact unlocked other kept
      obtain ⟨last, rest, returned⟩ := State.Quiet.duplicates
        (quiet.effect sound.grounded effect) (sound.effect effect)
        (State.put_self found _) rfl own stillFree subscribed unused now
      exact ⟨last, .cons trivial stepped rest, returned⟩
  | duplicate duplicateId =>
      rw [phase] at acknowledges
      have same : duplicateId = taskId := acknowledges
      have rowFree : state.rowFree deployment.dialect request.id = true := by
        rcases free with free | locks
        · exact free
        · rw [phase] at locks
          cases locks
      exact quiet.duplicates sound found phase (same ▸ own) rowFree subscribed
        unused now
  | refreshing requestId target reference =>
      rw [phase] at acknowledges
      obtain ⟨isRequest, isDuplicate⟩ := acknowledges
      rw [isRequest, isDuplicate] at phase
      exact quiet.refreshes sound.grounded found phase subscribed unused now
  | returned result =>
      rw [phase] at acknowledges
      have isTrue : result = true := acknowledges
      exact ⟨state, .nil state, call, found, by rw [phase, isTrue]⟩
  | closed => exact absurd phase alive
  | claiming | ready | working | worked | recorded =>
      rw [phase] at acknowledges
      exact acknowledges.elim

end Completion

/-! ## Runs -/

/-- A run that starts with the quiet request has left everything of it as it
was, has started none of its tasks, and acknowledges every message about one of
them that is delivered on the way: the handler never returns `False`, and it
returns `True` when it is run to its end and nobody else holds the row. -/
structure State.Inert (deployment : Deployment) (request : PrivacyRequest)
    (start finish : State) (starts : List String) : Prop where
  untouched : Database.Untouched request.id start.database finish.database
  unstarted : ∀ taskId ∈ starts, taskId ∉ start.database.taskIds request.id
  acknowledged : ∀ (index : Nat) (call : Call) (taskId : String),
    start.calls.length ≤ index → finish.calls[index]? = some call →
    finish.carried call = some taskId →
    taskId ∈ start.database.taskIds request.id →
    call.phase ≠ .returned false ∧
      (call.phase ≠ .closed →
        finish.rowFree deployment.dialect request.id = true ∨
          call.phase.refreshes request.id = true →
        ∀ noticeId now, finish.database.unused [noticeId] = true →
          ∃ last, Runs (replayStep deployment) Always finish
            ((call.phase.rest index noticeId now).map .other) last ∧
            last.ReturnsTrue index)

structure Replaying (request : PrivacyRequest) (start : State)
    (starts : List String) (state : State) : Prop where
  sound : state.Sound
  quiet : state.Quiet request
  acknowledging : state.Acknowledging start.calls.length request.id
  untouched : Database.Untouched request.id start.database state.database
  unstarted : ∀ taskId ∈ starts, taskId ∉ start.database.taskIds request.id

namespace Replaying

variable {deployment : Deployment} {request : PrivacyRequest}
  {start state next : State} {starts : List String}

theorem plain (replaying : Replaying request start starts state)
    {action : Action}
    (stepped : FleetPrivacy.step deployment state action = some next) :
    Replaying request start starts next := by
  have grounded := replaying.sound.grounded
  have effect := effect_of_step grounded.tidy.tables.taskIds stepped
  exact ⟨replaying.sound.effect effect, replaying.quiet.effect grounded effect,
    replaying.acknowledging.step replaying.quiet replaying.sound stepped,
    replaying.untouched.trans (replaying.quiet.untouched grounded effect),
    replaying.unstarted⟩

/-- A separate refresh reads the request as it is. -/
theorem refresh (replaying : Replaying request start starts state)
    (requestId : String) :
    Replaying request start starts { state with calls := state.calls ++ [{
      workerId := "", message := none, executor := false
      session := Session.empty.loadRefresh state.database requestId
      todo := [], phase := .refreshing requestId none none }] } := by
  have quiet := replaying.quiet
  refine ⟨replaying.sound.refresh requestId,
    ⟨quiet.stored, quiet.terminal, quiet.refreshed, ?_, ?_⟩, ?_,
    replaying.untouched, replaying.unstarted⟩
  · intro call member taskId executes
    rcases State.mem_append_call member with new | old
    · rw [new] at executes
      cases executes
    · exact quiet.idle call old taskId executes
  · intro call member own reference phase
    rcases State.mem_append_call member with new | old
    · rw [new] at phase ⊢
      cases phase
      exact ⟨rfl, (Session.loadRefresh_empty_request _ _).trans quiet.stored,
        Session.loadRefresh_empty_tasksOf
          replaying.sound.grounded.tidy.tables _⟩
    · exact quiet.reading call old own reference phase
  · intro index call taskId later located carried own
    rcases State.append_cases located with ⟨_, new⟩ | ⟨_, old⟩
    · rw [new] at carried
      cases carried
    · exact replaying.acknowledging index call taskId later old carried own

theorem append (replaying : Replaying request start starts state)
    {events : List String}
    (foreign : ∀ taskId ∈ events,
      taskId ∉ state.database.taskIds request.id) :
    Replaying request start (starts ++ events) state := by
  refine ⟨replaying.sound, replaying.quiet, replaying.acknowledging,
    replaying.untouched, ?_⟩
  intro taskId member
  rcases List.mem_append.mp member with old | new
  · exact replaying.unstarted taskId old
  · rw [← replaying.untouched.taskIds_eq]
    exact foreign taskId new

/-- What is started was running. -/
theorem starting (replaying : Replaying request start starts state)
    {index : Nat} {taskId : String}
    (starts : state.starting index = some taskId) :
    taskId ∉ state.database.taskIds request.id := by
  unfold State.starting at starts
  split at starts
  next call found =>
    split at starts
    next selectedId todo phase rest =>
      split at starts
      next leased =>
        cases starts
        obtain ⟨row, inTable, same, holds⟩ := Database.matches_iff.mp leased
        intro own
        have terminal := replaying.quiet.row_terminal
          replaying.sound.grounded inTable (by rw [same]; exact own)
        rw [(RequestTask.leasedBy_iff.mp holds).1] at terminal
        exact terminal
      next => cases starts
    next => cases starts
  next => cases starts

theorem step {action : ReplayAction}
    (replaying : Replaying request start starts state)
    (stepped : replayStep deployment state action = some next) :
    Replaying request start (starts ++ observeStarts state action) next := by
  have logged : Replaying request start
      (starts ++ observeStarts state action) state := by
    apply replaying.append
    intro taskId member
    unfold observeStarts at member
    split at member
    next index =>
      exact replaying.starting (Option.mem_toList.mp member)
    next => cases member
  cases action with
  | create intake =>
      rcases replayStep_create stepped with same | moved
      · rw [same]
        exact logged
      · exact logged.plain moved
  | refresh requestId =>
      simp only [replayStep] at stepped
      split at stepped
      next =>
        cases stepped
        exact logged.refresh requestId
      next => cases stepped
  | other action => exact logged.plain stepped

end Replaying

/-- Replays of a finished request are inert. -/
theorem replays_of_finished_request_are_inert (deployment : Deployment)
    {before after : List ReplayAction} {start finish : State}
    (reached : Runs (replayStep deployment) Always .initial before start)
    {request : PrivacyRequest} (quiet : start.Quiet request)
    (replays : Runs (replayStep deployment) Always start after finish) :
    State.Inert deployment request start finish
      (history (replayStep deployment) observeStarts start after) := by
  have sound : start.Sound := reached.invariant
    (fun sound _ stepped => sound.step stepped) State.Sound.initial
  have initially : Replaying request start [] start := by
    refine ⟨sound, quiet, ?_, .refl _ _, ?_⟩
    · intro index call taskId later found
      have bound := (List.getElem?_eq_some_iff.mp found).1
      exact absurd bound (Nat.not_lt.mpr later)
    · intro taskId member
      cases member
  have preserved : ∀ {past : List String} {state : State}
      {action : ReplayAction} {next : State},
      Replaying request start past state → Always state action →
      replayStep deployment state action = some next →
      Replaying request start (past ++ observeStarts state action) next :=
    fun replaying _ stepped => replaying.step stepped
  have final := replays.invariant_with_history preserved initially
  rw [List.nil_append] at final
  refine ⟨final.untouched, final.unstarted, ?_⟩
  intro index call taskId later found carried own
  rw [← final.untouched.taskIds_eq] at own
  refine ⟨?_, ?_⟩
  · intro returned
    have acknowledges := final.acknowledging index call taskId later found
      carried own
    rw [returned] at acknowledges
    cases acknowledges
  · intro alive free noticeId now unused
    exact final.acknowledging.returns final.quiet final.sound later found
      carried own alive free unused now

/-! An access request is published and executed to its end. -/

def finishedAccess : List Action :=
  .create demoRequest :: demoRelay 0 2 ++
    [.processOnce (demoClaim "v" 20), .selectTask 0, .work 0 demoSuccess,
      .recordTask 0 21, .refreshSelect 0, .upload 0 true 22,
      .refreshCommit 0 "n" 23]

/-- Then it is created again, claimed for and redelivered. -/
def accessReplays : List ReplayAction :=
  [.create demoRequest, .other (.processOnce (demoClaim "w" 3000)),
    .other (.deliver "w" 1 true), .other (.messageGet 2 3001),
    .other (.refreshSelect 2), .other (.refreshCommit 2 "m" 3002)]

def completedAccess : PrivacyRequest :=
  { demoRequest.request demoRuntime with
    status := .completed
    artifactPath := some "artifacts/t/a.json"
    version := 2
    updatedAt := 23 }

theorem replays_of_completed_access_are_inert :
    ∃ start finish, Runs (replayStep demoDeployment) Always .initial
        (finishedAccess.map .other) start ∧
      start.Quiet completedAccess ∧
      Runs (replayStep demoDeployment) Always start accessReplays finish ∧
      finish.ReturnsTrue 2 ∧
      State.Inert demoDeployment completedAccess start finish
        (history (replayStep demoDeployment) observeStarts start
          accessReplays) := by
  have evaluated : ((run (replayStep demoDeployment) Always .initial
      (finishedAccess.map .other)).bind fun start =>
        (run (replayStep demoDeployment) Always start accessReplays).map
          fun finish => ((start.database.request "a",
            deriveStatus ((start.database.tasksOf "a").map RequestTask.status),
            start.calls.all fun call => call.phase.executes.isNone &&
              !call.phase.refreshes "a"),
            finish.calls[2]?.map Call.phase)) =
      some ((some completedAccess, .completed, true),
        some (.returned true)) := by
    decide +kernel
  obtain ⟨start, started, evaluated⟩ := Option.bind_eq_some_iff.mp evaluated
  obtain ⟨finish, finished, values⟩ := Option.map_eq_some_iff.mp evaluated
  simp only [Prod.mk.injEq] at values
  obtain ⟨⟨stored, derived, idle⟩, answered⟩ := values
  have quiet : start.Quiet completedAccess := by
    refine ⟨stored, trivial, derived, ?_, ?_⟩
    · intro call member taskId executes
      have free := List.all_eq_true.mp idle call member
      simp [executes] at free
    · intro call member own reference phase
      have free := List.all_eq_true.mp idle call member
      simp [phase, Phase.refreshes, completedAccess, Intake.request,
        demoRequest, demoIntake] at free
  obtain ⟨call, found, returned⟩ := Option.map_eq_some_iff.mp answered
  have reached := runs_of_run started
  have replays := runs_of_run finished
  exact ⟨start, finish, reached, quiet, replays, ⟨call, found, returned⟩,
    replays_of_finished_request_are_inert demoDeployment reached quiet replays⟩

end FleetPrivacy
